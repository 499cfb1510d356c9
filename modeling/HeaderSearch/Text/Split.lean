/-!
# Cutting text at a separator

Text is handled as a list of characters. `splitOn` gives the pieces between the separators, so that
joining the pieces with the separator gives the text back; `splitFirst` cuts at the first separator
only.
-/

namespace HeaderSearch.Text

/-- The pieces of a text between the separators. A text without separator is one piece, the empty
    text included. -/
def splitOn (separator : Char) : List Char → List (List Char)
  | [] => [[]]
  | letter :: rest =>
    if letter = separator then [] :: splitOn separator rest
    else
      match splitOn separator rest with
      | [] => [[letter]]
      | first :: others => (letter :: first) :: others

/-- The pieces with the separator between each two of them. -/
def joinWith (separator : Char) : List (List Char) → List Char
  | [] => []
  | [piece] => piece
  | piece :: next :: others => piece ++ separator :: joinWith separator (next :: others)

/-- What stands before and after the first separator, if there is one. -/
def splitFirst (separator : Char) : List Char → Option (List Char × List Char)
  | [] => none
  | letter :: rest =>
    if letter = separator then some ([], rest)
    else (splitFirst separator rest).map fun (before, after) => (letter :: before, after)

theorem splitOn_ne_nil (separator : Char) (text : List Char) : splitOn separator text ≠ [] := by
  cases text with
  | nil => simp [splitOn]
  | cons letter rest =>
    rw [splitOn]
    split
    · simp
    · split <;> simp

/-- No character is lost: the pieces, joined, are the text. -/
theorem joinWith_splitOn (separator : Char) (text : List Char) :
    joinWith separator (splitOn separator text) = text := by
  induction text with
  | nil => rfl
  | cons letter rest reassembled =>
    have some_piece := splitOn_ne_nil separator rest
    rw [splitOn]
    cases pieces : splitOn separator rest with
    | nil => exact absurd pieces some_piece
    | cons first others =>
      rw [pieces] at reassembled
      split
      · next same => simp [joinWith, reassembled, same]
      · cases others with
        | nil => simpa [joinWith] using reassembled
        | cons next more => simpa [joinWith] using reassembled

/-- The pieces of two texts with a separator between them are those of the one and those of the
    other. -/
theorem splitOn_append (separator : Char) (before after : List Char) :
    splitOn separator (before ++ separator :: after) =
      splitOn separator before ++ splitOn separator after := by
  induction before with
  | nil => simp [splitOn]
  | cons letter before inductionHypothesis =>
    rw [List.cons_append, splitOn, splitOn, inductionHypothesis]
    split
    · rfl
    · cases pieces : splitOn separator before with
      | nil => exact absurd pieces (splitOn_ne_nil separator before)
      | cons first others => rfl

end HeaderSearch.Text
