import HeaderSearch.Json.Basic

/-!
# Texts in JSON documents

A JSON string denotes a text: `escape` writes the text, and `text?` reads what stands between the
quotes. Reading goes through the code units that characters and escapes stand for. A body whose
escapes are well formed always has units; it denotes a text only if each leading surrogate among them
is followed by a trailing one and no other surrogate is there.
-/

namespace HeaderSearch.Json

/-- The hexadecimal digit of a number below 16, in lower case. -/
def hexDigit (n : Nat) : Char := Nat.digitChar n

/-- The value of a hexadecimal digit of either case. -/
def hexValue? (letter : Char) : Option Nat :=
  if '0' ≤ letter ∧ letter ≤ '9' then some (letter.toNat - '0'.toNat)
  else if 'a' ≤ letter ∧ letter ≤ 'f' then some (letter.toNat - 'a'.toNat + 10)
  else if 'A' ≤ letter ∧ letter ≤ 'F' then some (letter.toNat - 'A'.toNat + 10)
  else none

/-- How a character is written: quotes, backslashes and control characters are escaped, with a letter
    where there is one, and every other character stands for itself. -/
def escapeLetter (letter : Char) : List Char :=
  if letter = '"' then ['\\', '"']
  else if letter = '\\' then ['\\', '\\']
  else if letter = '\n' then ['\\', 'n']
  else if letter = '\r' then ['\\', 'r']
  else if letter = '\t' then ['\\', 't']
  else if letter = '\x08' then ['\\', 'b']
  else if letter = '\x0c' then ['\\', 'f']
  else if letter.toNat < 0x20 then
    ['\\', 'u', '0', '0', hexDigit (letter.toNat / 16), hexDigit (letter.toNat % 16)]
  else [letter]

/-- The characters between the quotes of a string that denotes the text. -/
def escape (text : String) : String :=
  String.ofList (text.toList.flatMap escapeLetter)

/-- The character that a one-letter escape stands for. -/
def escapedLetter? (letter : Char) : Option Char :=
  match letter with
  | '"' => some '"'
  | '\\' => some '\\'
  | '/' => some '/'
  | 'b' => some '\x08'
  | 'f' => some '\x0c'
  | 'n' => some '\n'
  | 'r' => some '\r'
  | 't' => some '\t'
  | _ => none

/-- The code unit of four hexadecimal digits. -/
def hexUnit? (first second third fourth : Char) : Option Nat := do
  let high ← hexValue? first
  let upper ← hexValue? second
  let lower ← hexValue? third
  let low ← hexValue? fourth
  return ((high * 16 + upper) * 16 + lower) * 16 + low

/-- The code points and code units that the characters between the quotes stand for, or `none` if a
    control character or a malformed escape is among them. -/
def units? : List Char → Option (List Nat)
  | [] => some []
  | '\\' :: 'u' :: first :: second :: third :: fourth :: rest => do
    let unit ← hexUnit? first second third fourth
    let units ← units? rest
    return unit :: units
  | '\\' :: letter :: rest => do
    let meant ← escapedLetter? letter
    let units ← units? rest
    return meant.toNat :: units
  | letter :: rest =>
    if letter = '\\' ∨ letter = '"' ∨ letter.toNat < 0x20 then none
    else (units? rest).map (letter.toNat :: ·)

/-- Whether a code unit is the first of a surrogate pair. -/
def isLeading (unit : Nat) : Bool := 0xD800 ≤ unit && unit ≤ 0xDBFF

/-- Whether a code unit is the second of a surrogate pair. -/
def isTrailing (unit : Nat) : Bool := 0xDC00 ≤ unit && unit ≤ 0xDFFF

/-- The text that code points and code units stand for, or `none` if a surrogate stands alone. -/
def textOfUnits? : List Nat → Option (List Char)
  | [] => some []
  | [unit] => if isLeading unit || isTrailing unit then none else some [Char.ofNat unit]
  | unit :: next :: rest =>
    if isLeading unit then
      if isTrailing next then
        (textOfUnits? rest).map
          (Char.ofNat (0x10000 + (unit - 0xD800) * 0x400 + (next - 0xDC00)) :: ·)
      else none
    else if isTrailing unit then none
    else (textOfUnits? (next :: rest)).map (Char.ofNat unit :: ·)

/-- Whether the characters may stand between the quotes of a string. -/
def isBody (body : List Char) : Bool := (units? body).isSome

/-- The text that the characters between the quotes denote, if they denote one. -/
def text? (body : String) : Option String := do
  let units ← units? body.toList
  let letters ← textOfUnits? units
  return String.ofList letters

/-- The string that denotes a text. -/
def ofText (text : String) : Json := .string (escape text)

end HeaderSearch.Json
