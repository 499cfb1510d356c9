import HeaderSearch.Json.Basic

/-!
# Writing JSON texts

A document is written on one line without blanks, or with every item and member on a line of its own,
indented by two blanks for each array or object around it. An empty array or object stays on its
line.
-/

namespace HeaderSearch.Json

/-- How a document is spread over lines. -/
inductive Layout where
  /-- On one line, without blanks. -/
  | compact
  /-- One line for each item and member. -/
  | indented
deriving DecidableEq, Repr

namespace Layout

/-- What stands before an item, member or closing mark at a depth. -/
def lineBreak (layout : Layout) (depth : Nat) : List Char :=
  match layout with
  | .compact => []
  | .indented => '\n' :: List.replicate (2 * depth) ' '

/-- What stands between a key and its value. -/
def colon (layout : Layout) : List Char :=
  match layout with
  | .compact => [':']
  | .indented => [':', ' ']

end Layout

/-- The characters between quotes, with the quotes. -/
def quote (body : String) : List Char := '"' :: body.toList ++ ['"']

mutual

/-- The text of a document at a depth. -/
def write (layout : Layout) (depth : Nat) : Json → List Char
  | .null => ['n', 'u', 'l', 'l']
  | .bool true => ['t', 'r', 'u', 'e']
  | .bool false => ['f', 'a', 'l', 's', 'e']
  | .number literal => literal.toList
  | .string body => quote body
  | .array [] => ['[', ']']
  | .array (first :: others) =>
    '[' :: layout.lineBreak (depth + 1) ++ write layout (depth + 1) first ++
      writeItems layout (depth + 1) others ++ layout.lineBreak depth ++ [']']
  | .object [] => ['{', '}']
  | .object ((key, value) :: others) =>
    '{' :: layout.lineBreak (depth + 1) ++ quote key ++ layout.colon ++
      write layout (depth + 1) value ++ writeMembers layout (depth + 1) others ++
      layout.lineBreak depth ++ ['}']

/-- The text of the items after the first. -/
def writeItems (layout : Layout) (depth : Nat) : List Json → List Char
  | [] => []
  | item :: others =>
    ',' :: layout.lineBreak depth ++ write layout depth item ++ writeItems layout depth others

/-- The text of the members after the first. -/
def writeMembers (layout : Layout) (depth : Nat) : List (String × Json) → List Char
  | [] => []
  | (key, value) :: others =>
    ',' :: layout.lineBreak depth ++ quote key ++ layout.colon ++ write layout depth value ++
      writeMembers layout depth others

end

/-- The text of a document. -/
def toText (layout : Layout) (document : Json) : String :=
  String.ofList (write layout 0 document)

/-- The text of a document on one line. -/
def compact (document : Json) : String := document.toText .compact

end HeaderSearch.Json
