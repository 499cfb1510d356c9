import HeaderSearch.Text.Split

/-!
# Paths

A path is a text in which `/` separates the parts. Its meaning is the list of its components: empty
parts and inner `.` parts do not count, while a leading `.` does, since `./a` and `a` are looked up
alike but are not the same path. Two paths are the same path when their components are equal.

Every path here is a text. Names of files whose bytes are not the UTF-8 form of a text have no path, so a
shown path never has a replacement character in place of such bytes.
-/

namespace HeaderSearch

/-- A path, as it is spelled. -/
structure Path where
  /-- The spelling. -/
  text : String
deriving DecidableEq, Repr, Inhabited

/-- One component of a path. -/
inductive Component where
  /-- The leading `/` of an absolute path. -/
  | root
  /-- A leading `.`. -/
  | current
  /-- The part `..`. -/
  | parent
  /-- Any other part. -/
  | name (part : List Char)
deriving DecidableEq, Repr

namespace Path

/-- The part of a spelling that comes before the separated parts, and those parts. An absolute path
    leads with `/` and a path that starts with the part `.` leads with that. -/
def lead : List Char → List Component × List Char × List Char
  | '/' :: body => ([.root], ['/'], body)
  | ['.'] => ([.current], ['.'], [])
  | '.' :: '/' :: body => ([.current], ['.'], '/' :: body)
  | body => ([], [], body)

/-- Whether a part counts as a component: the empty part and `.` do not. -/
def counts (part : List Char) : Bool :=
  part ≠ [] && part ≠ ['.']

/-- The component that a part stands for. -/
def componentOf (part : List Char) : Component :=
  if part = ['.', '.'] then .parent else .name part

/-- The components of a path. -/
def components (path : Path) : List Component :=
  let (leading, _, body) := lead path.text.toList
  leading ++ ((Text.splitOn '/' body).filter counts).map componentOf

/-- Whether two spellings are of the same path. -/
def same (first second : Path) : Bool :=
  first.components = second.components

/-- Whether the path has no text. -/
def isEmpty (path : Path) : Bool := path.text.isEmpty

/-- The path that `relative` names from `base`: an absolute one stands for itself, and otherwise one
    `/` is between the two unless `base` is empty or ends with it. -/
def join (base : Path) (relative : String) : Path :=
  let before := base.text.toList
  let after := relative.toList
  if after.head? = some '/' then ⟨relative⟩
  else if before = [] ∨ before.getLast? = some '/' then ⟨base.text ++ relative⟩
  else ⟨base.text ++ "/" ++ relative⟩

/-- The parts of a body in reverse order, from the last one that counts. -/
def fromLast (body : List Char) : List (List Char) :=
  (Text.splitOn '/' body).reverse.dropWhile fun part => !counts part

/-- The path without its last component and the separators before it. The root and the empty path
    have none. -/
def parent? (path : Path) : Option Path :=
  let (leading, kept, body) := lead path.text.toList
  match fromLast body with
  | _ :: before =>
    let remaining := (before.dropWhile fun part => !counts part).reverse
    some ⟨String.ofList (kept ++ Text.joinWith '/' remaining)⟩
  | [] => if leading = [.current] then some ⟨""⟩ else none

/-- The last component, if that is a name. -/
def fileName? (path : Path) : Option String :=
  match path.components.getLast? with
  | some (.name part) => some (String.ofList part)
  | _ => none

/-- The directory and the name of the file that a path names. -/
def splitFile? (path : Path) : Option (Path × String) := do
  let directory ← path.parent?
  let file ← path.fileName?
  return (directory, file)

/-- The spelling with `/` in place of every backslash, as reports show it. Nothing else is replaced, since
    the spelling is a text already. -/
def shown (path : Path) : String :=
  String.ofList (path.text.toList.map fun letter => if letter = '\\' then '/' else letter)

/-- The working directory. -/
def here : Path := ⟨"."⟩

example : (Path.mk "a//b/./c/").components = (Path.mk "a/b/c").components := by decide
example : (Path.mk "./a").components ≠ (Path.mk "a").components := by decide
example : (Path.mk "/a//b/.").parent? = some ⟨"/a"⟩ := by decide
example : (Path.mk "./b").parent? = some ⟨"."⟩ ∧ (Path.mk "//").parent? = none := by decide

end Path

end HeaderSearch
