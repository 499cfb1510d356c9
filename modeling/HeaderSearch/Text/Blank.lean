/-!
# Blank characters

The characters with the Unicode property `White_Space`. They may stand between the parts of an
include directive.
-/

namespace HeaderSearch.Text

/-- The code points with the property `White_Space`, as inclusive ranges in ascending order. -/
def blankRanges : List (Nat × Nat) :=
  [(0x9, 0xD), (0x20, 0x20), (0x85, 0x85), (0xA0, 0xA0), (0x1680, 0x1680), (0x2000, 0x200A),
    (0x2028, 0x2029), (0x202F, 0x202F), (0x205F, 0x205F), (0x3000, 0x3000)]

/-- Whether a character has the property `White_Space`. -/
def isBlank (letter : Char) : Bool :=
  blankRanges.any fun (first, last) => first ≤ letter.toNat && letter.toNat ≤ last

example : isBlank '\t' = true ∧ isBlank '\u3000' = true ∧ isBlank '\u200b' = false := by decide

end HeaderSearch.Text
