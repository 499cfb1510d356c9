/-!
# Letter case

`foldAscii` is the folding under which a header map that ignores case compares its keys: the
letters A to Z are lowered and nothing else is. `lowerToAscii` is the lower case of the letters
whose lower case is an ASCII letter, which is all that comparing with an ASCII word takes.
-/

namespace HeaderSearch.Text

/-- The text with A to Z lowered; every other character is kept. -/
def foldAscii (text : String) : String :=
  String.ofList (text.toList.map Char.toLower)

/-- Lowers a letter whose lower case is an ASCII letter: A to Z, and the Kelvin sign, whose lower
    case is `k`. Every other character is kept; none of those lowers to ASCII letters alone. -/
def lowerToAscii (letter : Char) : Char :=
  if letter = '\u212A' then 'k' else letter.toLower

example : foldAscii "Widgets/Ünï.H" = "widgets/Ünï.h" := by decide

end HeaderSearch.Text
