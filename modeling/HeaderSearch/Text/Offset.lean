/-!
# Offsets in bytes

An offset counts the bytes that the UTF-8 form of a text takes up to a position. It need not be the
offset of a character: then there is no text from there on.
-/

namespace HeaderSearch.Text

/-- What follows the characters that take up the given number of bytes, if that number ends with a
    character. -/
def dropBytes? : Nat → List Char → Option (List Char)
  | 0, text => some text
  | _ + 1, [] => none
  | count + 1, letter :: rest =>
    if letter.utf8Size ≤ count + 1 then dropBytes? (count + 1 - letter.utf8Size) rest else none

/-- The part of a text from an offset on. -/
def suffixFrom? (text : String) (offset : Nat) : Option String :=
  (dropBytes? offset text.toList).map String.ofList

/-- From its start on, a text is the whole text. -/
theorem suffixFrom?_zero (text : String) : suffixFrom? text 0 = some text := by
  simp [suffixFrom?, dropBytes?]

example : suffixFrom? "é/b" 3 = some "b" ∧ suffixFrom? "é/b" 1 = none := by decide

end HeaderSearch.Text
