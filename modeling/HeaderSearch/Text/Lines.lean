import HeaderSearch.Text.Split

/-!
# Lines of a text

A line ends at a line feed, and one carriage return right before that line feed belongs to the
ending. What follows the last line feed is a line only if it is not empty, and keeps a carriage
return at its end.
-/

namespace HeaderSearch.Text

/-- The text without one carriage return at its end. -/
def dropReturn (line : List Char) : List Char :=
  if line.getLast? = some '\r' then line.dropLast else line

/-- The lines made of the pieces between line feeds: all but the last piece were ended by one. -/
def linesOfPieces : List (List Char) → List (List Char)
  | [] => []
  | [last] => if last = [] then [] else [last]
  | piece :: next :: others => dropReturn piece :: linesOfPieces (next :: others)

/-- The lines of a text, without their endings. -/
def lines (text : List Char) : List (List Char) :=
  linesOfPieces (splitOn '\n' text)

example : lines ['a', '\r', '\n', '\n', 'b', '\r'] = [['a'], [], ['b', '\r']] := by decide

end HeaderSearch.Text
