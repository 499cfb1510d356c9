import HeaderSearch.Include.Kind
import HeaderSearch.Text.Blank
import HeaderSearch.Text.Lines

/-!
# Include directives of a source text

A directive is a line that starts with `#` and the word `include` or `import`, blanks allowed around
both, and goes on with a name between delimiters. Whatever follows the closing delimiter does not
matter. Each line is read on its own: comments, conditions and macros are not understood.
-/

namespace HeaderSearch

/-- An include directive of a source text. -/
structure Directive where
  /-- The number of its line, counted from one. -/
  line : Nat
  /-- The name between the delimiters. -/
  name : String
  /-- The kind that the delimiters select. -/
  kind : IncludeKind
deriving DecidableEq, Repr

namespace Directive

/-- The words that a directive starts with. -/
def words : List (List Char) := [['i', 'n', 'c', 'l', 'u', 'd', 'e'], ['i', 'm', 'p', 'o', 'r', 't']]

/-- What follows the blanks at the start of a text. -/
def skipBlanks (text : List Char) : List Char := text.dropWhile Text.isBlank

/-- What follows one of the words that a directive starts with. -/
def afterWord? (text : List Char) : Option (List Char) :=
  words.findSome? fun word => if word.isPrefixOf text then some (text.drop word.length) else none

/-- The name at the start of a text that ends at the closing delimiter of a kind. It has to have a
    character, and the delimiter has to be there. -/
def nameUpTo? (kind : IncludeKind) (text : List Char) : Option String :=
  let name := text.takeWhile (· ≠ kind.closing)
  if name = [] ∨ text.dropWhile (· ≠ kind.closing) = [] then none else some (String.ofList name)

/-- The delimited name at the start of a text, with its kind. -/
def delimited? : List Char → Option (String × IncludeKind)
  | '<' :: rest => (nameUpTo? .angled rest).map (·, .angled)
  | '"' :: rest => (nameUpTo? .quoted rest).map (·, .quoted)
  | _ => none

/-- The name and the kind of the directive that a line is, if it is one. -/
def ofLine? (line : List Char) : Option (String × IncludeKind) :=
  match skipBlanks line with
  | '#' :: rest => do
    let after ← afterWord? (skipBlanks rest)
    delimited? (skipBlanks after)
  | _ => none

/-- The directives of a text, in the order of their lines. -/
def scan (text : String) : List Directive :=
  (Text.lines text.toList).zipIdx.filterMap fun (line, place) =>
    (ofLine? line).map fun (name, kind) => ⟨place + 1, name, kind⟩

end Directive

end HeaderSearch
