import HeaderSearch.Numeral.Binary64

/-!
# Decimal text of numbers

Natural numbers are read from and written as their decimal digits. A binary64 number is written with
the fewest digits that read back as it, the nearest of those; `positional` says where the point goes
and when an exponent is written instead. `tenths` is the number with one decimal place, a half going
to the even digit.
-/

namespace HeaderSearch.Decimal

/-- The decimal digits of a natural number. -/
def digits (n : Nat) : List Char := Nat.toDigits 10 n

/-- The decimal numeral of a natural number. -/
def text (n : Nat) : String := String.ofList (digits n)

/-- The value of a decimal digit. -/
def digitValue (digit : Char) : Nat := digit.toNat - '0'.toNat

/-- Whether a character is one of the digits 0 to 9. -/
def isDigit (letter : Char) : Bool := '0' ≤ letter && letter ≤ '9'

/-- The number that a list of digits denotes. -/
def value (numeral : List Char) : Nat :=
  numeral.foldl (fun sum digit => sum * 10 + digitValue digit) 0

/-- Whether `coefficient * 10 ^ power` lies among the numbers that round to the positive number `x`:
    up to half the way to either neighbour, those ends included if the significand is even. -/
def roundsTo (x : Binary64) (coefficient : Nat) (power : Int) : Bool :=
  let quarters := 4 * x.significand
  let low := if x.significand = 1 <<< 52 ∧ Binary64.leastExponent < x.exponent
    then quarters - 1 else quarters - 2
  let high := quarters + 2
  let fraction := if 0 ≤ power then (coefficient * Nat.pow 10 power.toNat, 1)
    else (coefficient, Nat.pow 10 (-power).toNat)
  let (above, below) := Binary64.scale fraction.1 fraction.2 (x.exponent - 2)
  if x.significand % 2 = 0 then low * below ≤ above && above ≤ high * below
  else low * below < above && above < high * below

/-- The coefficient of the power of ten that is nearest to `x` among the two next to it, if one of
    them rounds to `x`; of two equally near ones the even one. -/
def nearestAt? (x : Binary64) (power : Int) : Option Nat :=
  let (above, below) := x.ratio
  let (above, below) := if 0 ≤ power then (above, below * Nat.pow 10 power.toNat)
    else (above * Nat.pow 10 (-power).toNat, below)
  let lower := above / below
  let nearest := Binary64.roundDiv above below
  let other := if nearest = lower then lower + 1 else lower
  if roundsTo x nearest power then some nearest
  else if roundsTo x other power then some other
  else none

/-- The first power of ten, in descending order, at which a coefficient rounds to `x`. -/
def shortestFrom (x : Binary64) (power : Int) : Nat → Nat × Int
  | 0 => (0, power)
  | steps + 1 =>
    match nearestAt? x power with
    | some coefficient => (coefficient, power)
    | none => shortestFrom x (power - 1) steps

/-- The power of ten with which the search for the shortest coefficient starts: one above the number
    of digits before the point, or below the zeros after it. -/
def startPower (x : Binary64) : Int :=
  let (above, below) := x.ratio
  if below ≤ above then (digits (above / below)).length
  else 1 - ((digits (below / above)).length : Int)

/-- The shortest coefficient and its power of ten for a positive number: 17 digits always suffice. -/
def shortest (x : Binary64) : Nat × Int := shortestFrom x (startPower x + 1) 20

/-- Writes `digits * 10 ^ power`. The point stands among or after the digits if the number is below
    `10 ^ 16`, and before them if it is at least `10 ^ (-5)`; otherwise one digit stands before it
    and an exponent follows, always with its sign. -/
def positional (digits : List Char) (power : Int) : List Char :=
  let length : Int := digits.length
  let point := length + power
  if 0 ≤ power ∧ point ≤ 16 then
    digits ++ List.replicate power.toNat '0' ++ ['.', '0']
  else if 0 < point ∧ point ≤ 16 then
    digits.take point.toNat ++ '.' :: digits.drop point.toNat
  else if -5 < point ∧ point ≤ 0 then
    '0' :: '.' :: List.replicate (-point).toNat '0' ++ digits
  else
    let exponent := if point - 1 < 0 then '-' :: Nat.toDigits 10 (1 - point).toNat
      else '+' :: Nat.toDigits 10 (point - 1).toNat
    match digits with
    | [] => []
    | [digit] => digit :: 'e' :: exponent
    | digit :: rest => digit :: '.' :: rest ++ 'e' :: exponent

/-- The text of a binary64 number. -/
def ofBinary64 (x : Binary64) : List Char :=
  let magnitude := if x.isZero then ['0', '.', '0']
    else
      let (coefficient, power) := shortest x
      positional (digits coefficient) power
  if x.negative then '-' :: magnitude else magnitude

example : (Binary64.ofNat? (10 ^ 15)).map ofBinary64 = some "1000000000000000.0".toList := by
  decide +kernel
example : (Binary64.ofNat? (10 ^ 16)).map ofBinary64 = some "1e+16".toList := by decide +kernel
example : (Binary64.ofRatio? 1 (10 ^ 5)).map ofBinary64 = some "0.00001".toList := by decide +kernel
example : (Binary64.ofRatio? 1 (10 ^ 6)).map ofBinary64 = some "1e-6".toList := by decide +kernel

/-- The text of a number that is not negative, with one decimal place. -/
def tenths (x : Binary64) : String :=
  let (above, below) := x.ratio
  let rounded := Binary64.roundDiv (above * 10) below
  text (rounded / 10) ++ "." ++ text (rounded % 10)

end HeaderSearch.Decimal
