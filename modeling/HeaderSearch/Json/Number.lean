import HeaderSearch.Json.Basic
import HeaderSearch.Numeral.Decimal

/-!
# Numbers in JSON documents

A numeral has a whole part without superfluous zeros, and may have a fraction and an exponent. One
without both denotes an integer if that fits into 64 bits. Every other numeral, and `-0`, denotes a
binary64 number: its digits make up an integer of 64 bits, as far as they fit, and that times the
power of ten is rounded. A numeral beyond the range of binary64 denotes no number.
-/

namespace HeaderSearch.Json

/-- The parts of a numeral. -/
structure Numeral where
  /-- Whether it starts with a minus. -/
  negative : Bool
  /-- The digits before the point. -/
  whole : List Char
  /-- The digits after the point; empty if there is no point. -/
  fraction : List Char
  /-- The exponent: whether it is negative, and its digits. -/
  exponent : Option (Bool × List Char)
deriving Repr, DecidableEq

namespace Numeral

/-- The sign at the start of a list of characters, `-` being negative, and what follows it. -/
def splitSign (letters : List Char) : Bool × List Char :=
  match letters with
  | '-' :: rest => (true, rest)
  | '+' :: rest => (false, rest)
  | _ => (false, letters)

/-- The exponent that the characters after the digits stand for: none, or the letter and at least one
    digit. The outer option is `none` if they are something else. -/
def exponent? (letters : List Char) : Option (Option (Bool × List Char)) :=
  match letters with
  | [] => some none
  | letter :: rest =>
    let (negative, digits) := splitSign rest
    if (letter = 'e' ∨ letter = 'E') ∧ digits ≠ [] ∧ digits.all Decimal.isDigit then
      some (some (negative, digits))
    else none

/-- The parts of a numeral, or `none` for characters that are no numeral. -/
def parse? (letters : List Char) : Option Numeral := do
  let (negative, body) := if letters.head? = some '-' then (true, letters.tail) else (false, letters)
  let whole := body.takeWhile Decimal.isDigit
  if whole = [] ∨ (whole.head? = some '0' ∧ whole ≠ ['0']) then none
  match body.dropWhile Decimal.isDigit with
  | '.' :: rest =>
    let fraction := rest.takeWhile Decimal.isDigit
    if fraction = [] then none
    let exponent ← exponent? (rest.dropWhile Decimal.isDigit)
    return ⟨negative, whole, fraction, exponent⟩
  | rest =>
    let exponent ← exponent? rest
    return ⟨negative, whole, [], exponent⟩

end Numeral

/-- Whether the characters are a numeral. -/
def isNumeral (letters : List Char) : Bool := (Numeral.parse? letters).isSome

/-- A number that a numeral denotes. -/
inductive Number where
  /-- A natural number below `2 ^ 64`. -/
  | natural (n : Nat)
  /-- The negative of a number from 1 to `2 ^ 63`. -/
  | negative (n : Nat)
  /-- A binary64 number. -/
  | float (x : Binary64)
deriving Repr, DecidableEq

namespace Number

/-- Appends digits to a significand as long as it stays below `2 ^ 64`. Gives the significand and the
    digits left over. -/
def takeDigits (significand : Nat) : List Char → Nat × List Char
  | [] => (significand, [])
  | digit :: rest =>
    let longer := significand * 10 + Decimal.digitValue digit
    if longer < UInt64.size then takeDigits longer rest else (significand, digit :: rest)

/-- The binary64 number that a numeral denotes, if it is in range. -/
def float? (numeral : Numeral) : Option Number := do
  let (significand, skipped) := takeDigits 0 numeral.whole
  let (significand, left) := takeDigits significand numeral.fraction
  let power : Int := skipped.length - ((numeral.fraction.length : Int) - left.length)
  let power := match numeral.exponent with
    | none => power
    | some (true, digits) => power - Decimal.value digits
    | some (false, digits) => power + Decimal.value digits
  let base ← Binary64.ofNat? significand
  let magnitude ← base.timesTenTo? power
  return .float (if numeral.negative then magnitude.neg else magnitude)

/-- The number that a numeral denotes, if it is in range. -/
def ofNumeral? (numeral : Numeral) : Option Number :=
  let magnitude := Decimal.value numeral.whole
  if numeral.fraction ≠ [] ∨ numeral.exponent.isSome then float? numeral
  else if numeral.negative then
    if magnitude = 0 ∨ 1 <<< 63 < magnitude then float? numeral else some (.negative magnitude)
  else if UInt64.size ≤ magnitude then float? numeral
  else some (.natural magnitude)

/-- The number that a literal denotes, if any. -/
def ofLiteral? (literal : String) : Option Number := do
  let numeral ← Numeral.parse? literal.toList
  ofNumeral? numeral

/-- The literal that stands for a number. -/
def toLiteral : Number → String
  | .natural n => Decimal.text n
  | .negative n => String.ofList ('-' :: Decimal.digits n)
  | .float x => String.ofList (Decimal.ofBinary64 x)

end Number

/-- The document of a natural number. -/
def ofNat (n : Nat) : Json := .number (Number.natural n).toLiteral

end HeaderSearch.Json
