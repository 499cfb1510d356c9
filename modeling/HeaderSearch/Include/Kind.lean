/-!
# Kinds of includes

An include is angled, `<name>`, or quoted, `"name"`. A spelled include carries its delimiters;
`IncludeKind.readSpelled` takes them off and tells which kind they select.
-/

namespace HeaderSearch

/-- How an include is spelled. -/
inductive IncludeKind where
  /-- Between angle brackets. -/
  | angled
  /-- Between double quotes. -/
  | quoted
deriving DecidableEq, Repr, Inhabited

namespace IncludeKind

/-- The word for a kind. -/
def name : IncludeKind → String
  | angled => "angled"
  | quoted => "quoted"

/-- The kind that a word stands for. -/
def ofName? (word : String) : Option IncludeKind :=
  if word = "angled" then some angled
  else if word = "quoted" then some quoted
  else none

/-- The delimiter before the name. -/
def opening : IncludeKind → Char
  | angled => '<'
  | quoted => '"'

/-- The delimiter after the name. -/
def closing : IncludeKind → Char
  | angled => '>'
  | quoted => '"'

/-- A name between the delimiters of a kind. -/
def spell (kind : IncludeKind) (name : String) : String :=
  String.ofList (kind.opening :: name.toList ++ [kind.closing])

/-- What stands between the delimiters of a kind, if the text has them at both ends. -/
def strip? (kind : IncludeKind) (text : String) : Option String :=
  match text.toList with
  | first :: rest =>
    if first = kind.opening ∧ rest.getLast? = some kind.closing then
      some (String.ofList rest.dropLast)
    else none
  | [] => none

/-- The bare name of a spelled include and the kind that its delimiters select. A text without a pair
    of delimiters is a bare name and selects no kind. -/
def readSpelled (text : String) : String × Option IncludeKind :=
  match angled.strip? text, quoted.strip? text with
  | some name, _ => (name, some angled)
  | none, some name => (name, some quoted)
  | none, none => (text, none)

/-- Reading undoes spelling, whatever the name is. -/
theorem readSpelled_spell (kind : IncludeKind) (name : String) :
    readSpelled (kind.spell name) = (name, some kind) := by
  cases kind <;> simp [readSpelled, spell, strip?, opening, closing]

@[simp] theorem ofName?_name (kind : IncludeKind) : ofName? kind.name = some kind := by
  cases kind <;> rfl

end IncludeKind

end HeaderSearch
