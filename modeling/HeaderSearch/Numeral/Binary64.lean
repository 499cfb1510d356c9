/-!
# Binary floating-point numbers of 64 bits

A finite number of the binary64 format is a sign, a significand below `2 ^ 53` and a power of two.
The significand is at least `2 ^ 52` unless the exponent is the least one, so every number has one
form. `ofRatio?` rounds a quotient of natural numbers to the nearest such number, a tie to the even
significand; multiplication and division are that rounding of the exact result.
-/

namespace HeaderSearch

/-- A finite binary64 number: `significand * 2 ^ exponent`, negated if `negative`. -/
structure Binary64 where
  /-- Whether the sign is a minus. -/
  negative : Bool
  /-- The significand, below `2 ^ 53`. -/
  significand : Nat
  /-- The power of two, from `-1074` to `971`. -/
  exponent : Int
deriving DecidableEq, Repr

namespace Binary64

/-- The least exponent, which zero and the numbers near it have. -/
def leastExponent : Int := -1074

/-- The greatest exponent of a finite number. -/
def greatestExponent : Int := 971

/-- Zero without a minus. -/
def zero : Binary64 := ⟨false, 0, leastExponent⟩

instance : Inhabited Binary64 := ⟨zero⟩

/-- The number with the opposite sign. -/
def neg (x : Binary64) : Binary64 := { x with negative := !x.negative }

/-- Whether the number is zero, of either sign. -/
def isZero (x : Binary64) : Bool := x.significand = 0

/-- The quotient rounded to the nearest natural number, a tie to the even one. -/
def roundDiv (numerator denominator : Nat) : Nat :=
  let quotient := numerator / denominator
  let twice := 2 * (numerator % denominator)
  if twice < denominator then quotient
  else if denominator < twice then quotient + 1
  else if quotient % 2 = 0 then quotient
  else quotient + 1

/-- The fraction `numerator / denominator * 2 ^ (-exponent)` as a numerator and a denominator. -/
def scale (numerator denominator : Nat) (exponent : Int) : Nat × Nat :=
  if 0 ≤ exponent then (numerator, denominator <<< exponent.toNat)
  else (numerator <<< (-exponent).toNat, denominator)

/-- The exponent at which a positive quotient has a significand of 53 bits, but not less than the
    least one. -/
def fittingExponent (numerator denominator : Nat) : Int :=
  let guess : Int := (numerator.log2 : Int) - denominator.log2 - 52
  let (above, below) := scale numerator denominator guess
  max leastExponent (if above / below < 1 <<< 52 then guess - 1 else guess)

/-- The number nearest to a quotient, or `none` beyond the greatest finite number. -/
def ofRatio? (numerator denominator : Nat) : Option Binary64 :=
  if numerator = 0 then some zero
  else
    let exponent := fittingExponent numerator denominator
    let (above, below) := scale numerator denominator exponent
    let significand := roundDiv above below
    let (significand, exponent) :=
      if significand = 1 <<< 53 then (1 <<< 52, exponent + 1) else (significand, exponent)
    if greatestExponent < exponent then none else some ⟨false, significand, exponent⟩

/-- The number nearest to a natural number. -/
def ofNat? (n : Nat) : Option Binary64 := ofRatio? n 1

/-- The exact value of a number without its sign, as a numerator and a denominator. -/
def ratio (x : Binary64) : Nat × Nat :=
  if 0 ≤ x.exponent then (x.significand <<< x.exponent.toNat, 1)
  else (x.significand, 1 <<< (-x.exponent).toNat)

/-- The product, rounded. -/
def mul? (x y : Binary64) : Option Binary64 :=
  let (xAbove, xBelow) := x.ratio
  let (yAbove, yBelow) := y.ratio
  (ofRatio? (xAbove * yAbove) (xBelow * yBelow)).map fun product =>
    { product with negative := x.negative != y.negative }

/-- The quotient by a number other than zero, rounded. -/
def div? (x y : Binary64) : Option Binary64 :=
  let (xAbove, xBelow) := x.ratio
  let (yAbove, yBelow) := y.ratio
  (ofRatio? (xAbove * yBelow) (xBelow * yAbove)).map fun quotient =>
    { quotient with negative := x.negative != y.negative }

/-- The power of ten nearest to `10 ^ power`, for a power of at most 308. -/
def tenTo (power : Nat) : Binary64 := (ofNat? (Nat.pow 10 power)).getD zero

/-- The number divided by `divisor` so many times, or until it is zero. -/
def divRepeatedly? (divisor : Binary64) : Nat → Binary64 → Option Binary64
  | 0, x => some x
  | times + 1, x =>
    if x.isZero then some x else (x.div? divisor).bind (divRepeatedly? divisor times)

/-- The number times `10 ^ power`, or `none` if that is out of range. The power is applied in one
    rounded multiplication or division, after as many divisions by `10 ^ 308` as bring it to at least
    `-308`. -/
def timesTenTo? (x : Binary64) (power : Int) : Option Binary64 :=
  if 0 ≤ power then
    if power ≤ 308 then x.mul? (tenTo power.toNat)
    else if x.isZero then some x
    else none
  else
    let places := (-power).toNat
    let times := (places - 1) / 308
    (divRepeatedly? (tenTo 308) times x).bind fun reduced =>
      reduced.div? (tenTo (places - 308 * times))

/-- The 64 bits that encode the number: sign, exponent and significand. -/
def toBits (x : Binary64) : Nat :=
  let sign := if x.negative then 1 <<< 63 else 0
  if x.significand < 1 <<< 52 then sign + x.significand
  else sign + ((x.exponent + 1075).toNat <<< 52) + (x.significand - (1 <<< 52))

example : ((ofNat? 1).bind fun one => (ofNat? 3).bind one.div?).map toBits =
    some 0x3fd5555555555555 := by decide +kernel

end Binary64

end HeaderSearch
