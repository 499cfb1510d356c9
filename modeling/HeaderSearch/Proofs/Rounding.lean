import Mathlib.Algebra.Order.Field.Power
import Mathlib.Algebra.Order.Ring.Rat
import Mathlib.Tactic.FieldSimp
import Mathlib.Tactic.Linarith
import Mathlib.Tactic.NormNum
import Mathlib.Tactic.Positivity
import Mathlib.Tactic.Ring
import HeaderSearch.Numeral.Binary64

/-!
# Rounding keeps the order

Rounding to binary64 is monotone: of two quotients the lesser one is rounded to the lesser number. The
quotients are compared at the exponent at which each is rounded, where its significand has 53 bits
unless the exponent is the least one. A quotient of at most one is therefore rounded to at most one.
-/

namespace HeaderSearch

namespace Binary64

/-- The exact value of a number without its sign. -/
def magnitude (x : Binary64) : ℚ := x.significand * 2 ^ x.exponent

/-- The value is the quotient that `ratio` gives. -/
theorem magnitude_eq_ratio (x : Binary64) : x.magnitude = x.ratio.1 / x.ratio.2 := by
  unfold magnitude ratio
  split
  · next upward =>
    obtain ⟨power, same⟩ := Int.eq_ofNat_of_zero_le upward
    simp [same, Nat.shiftLeft_eq]
  · next downward =>
    obtain ⟨power, same⟩ := Int.eq_ofNat_of_zero_le (by omega : 0 ≤ -x.exponent)
    rw [show x.exponent = -(power : Int) by omega]
    simp [Nat.shiftLeft_eq, div_eq_mul_inv]

theorem ratio_below_pos (x : Binary64) : 0 < x.ratio.2 := by
  unfold ratio
  split
  · exact Nat.one_pos
  · rw [Nat.one_shiftLeft]
    exact Nat.two_pow_pos _

section Scaling

variable {numerator denominator : Nat}

/-- A scaled fraction is the quotient divided by the power of two. -/
theorem scale_quotient (numerator denominator : Nat) (exponent : Int) :
    ((scale numerator denominator exponent).1 : ℚ) / (scale numerator denominator exponent).2 =
      numerator / denominator / 2 ^ exponent := by
  unfold scale
  split
  · next upward =>
    obtain ⟨power, rfl⟩ := Int.eq_ofNat_of_zero_le upward
    simp [Nat.shiftLeft_eq, div_div]
  · next downward =>
    obtain ⟨power, same⟩ := Int.eq_ofNat_of_zero_le (by omega : 0 ≤ -exponent)
    rw [show exponent = -(power : Int) by omega]
    simp [Nat.shiftLeft_eq]
    ring

theorem scale_below_pos (numerator : Nat) (positive : 0 < denominator) (exponent : Int) :
    0 < (scale numerator denominator exponent).2 := by
  unfold scale
  split
  · rw [Nat.shiftLeft_eq]
    exact Nat.mul_pos positive (Nat.two_pow_pos _)
  · exact positive

/-- Rounding to a natural number goes at most one up. -/
theorem roundDiv_between (numerator denominator : Nat) :
    numerator / denominator ≤ roundDiv numerator denominator ∧
      roundDiv numerator denominator ≤ numerator / denominator + 1 := by
  unfold roundDiv
  dsimp only
  split
  · omega
  · split
    · omega
    · split <;> omega

/-- A quotient of at least a natural number is not rounded below it. -/
theorem le_roundDiv {bound : Nat} (positive : 0 < denominator)
    (below : bound * denominator ≤ numerator) : bound ≤ roundDiv numerator denominator :=
  ((Nat.le_div_iff_mul_le positive).mpr below).trans (roundDiv_between _ _).1

/-- A quotient below a natural number is not rounded above it. -/
theorem roundDiv_le {bound : Nat} (positive : 0 < denominator)
    (above : numerator < bound * denominator) : roundDiv numerator denominator ≤ bound := by
  have less := (Nat.div_lt_iff_lt_mul positive).mpr above
  have between := (roundDiv_between numerator denominator).2
  omega

/-- The lesser of two quotients is rounded to the lesser natural number. If their whole parts are equal
    then the remainders decide, at the half and above it. -/
theorem roundDiv_mono {other below : Nat} (positive : 0 < denominator) (positiveBelow : 0 < below)
    (lesser : numerator * below ≤ other * denominator) :
    roundDiv numerator denominator ≤ roundDiv other below := by
  have between := roundDiv_between numerator denominator
  have betweenOther := roundDiv_between other below
  have wholes : numerator / denominator ≤ other / below := by
    rw [Nat.le_div_iff_mul_le positiveBelow]
    have whole := Nat.div_mul_le_self numerator denominator
    refine Nat.le_of_mul_le_mul_right ?_ positive
    calc numerator / denominator * below * denominator
        = numerator / denominator * denominator * below := by ring
      _ ≤ numerator * below := Nat.mul_le_mul_right _ whole
      _ ≤ other * denominator := lesser
  rcases Nat.lt_or_eq_of_le wholes with less | same
  · omega
  · have parts := Nat.div_add_mod numerator denominator
    have partsOther := Nat.div_add_mod other below
    have remainders : numerator % denominator * below ≤ other % below * denominator := by
      have spread : (denominator * (numerator / denominator) + numerator % denominator) * below ≤
          (below * (other / below) + other % below) * denominator := by
        rwa [parts, partsOther]
      rw [same] at spread
      nlinarith [spread]
    have half : denominator ≤ 2 * (numerator % denominator) → below ≤ 2 * (other % below) := by
      intro up
      refine Nat.le_of_mul_le_mul_right ?_ positive
      calc below * denominator = denominator * below := Nat.mul_comm _ _
        _ ≤ 2 * (numerator % denominator) * below := Nat.mul_le_mul_right _ up
        _ ≤ 2 * (other % below) * denominator := by linarith
    have beyond : denominator < 2 * (numerator % denominator) → below < 2 * (other % below) := by
      intro up
      refine Nat.lt_of_mul_lt_mul_right (a := denominator) ?_
      calc below * denominator = denominator * below := Nat.mul_comm _ _
        _ < 2 * (numerator % denominator) * below := Nat.mul_lt_mul_of_pos_right up positiveBelow
        _ ≤ 2 * (other % below) * denominator := by linarith
    unfold roundDiv
    dsimp only
    rw [same]
    split_ifs <;> omega

/-- The binary logarithms of two numbers give their quotient up to one power of two on each side. -/
theorem quotient_between_powers (positive : 0 < numerator) (positiveBelow : 0 < denominator) :
    (2 : ℚ) ^ ((numerator.log2 : Int) - denominator.log2 - 1) ≤ numerator / denominator ∧
      (numerator : ℚ) / denominator < 2 ^ ((numerator.log2 : Int) - denominator.log2 + 1) := by
  have low : (2 : ℚ) ^ numerator.log2 ≤ numerator := by
    exact_mod_cast Nat.log2_self_le positive.ne'
  have high : (numerator : ℚ) < 2 ^ (numerator.log2 + 1) := by
    exact_mod_cast Nat.lt_log2_self
  have lowBelow : (2 : ℚ) ^ denominator.log2 ≤ denominator := by
    exact_mod_cast Nat.log2_self_le positiveBelow.ne'
  have highBelow : (denominator : ℚ) < 2 ^ (denominator.log2 + 1) := by
    exact_mod_cast Nat.lt_log2_self
  have below : (0 : ℚ) < denominator := by exact_mod_cast positiveBelow
  constructor
  · rw [le_div_iff₀ below]
    calc (2 : ℚ) ^ ((numerator.log2 : Int) - denominator.log2 - 1) * denominator
        ≤ 2 ^ ((numerator.log2 : Int) - denominator.log2 - 1) * 2 ^ (denominator.log2 + 1) :=
          mul_le_mul_of_nonneg_left highBelow.le (by positivity)
      _ = 2 ^ numerator.log2 := by
          rw [← zpow_natCast, ← zpow_natCast, ← zpow_add₀ two_ne_zero]
          congr 1
          push_cast
          ring
      _ ≤ numerator := low
  · rw [div_lt_iff₀ below]
    calc (numerator : ℚ) < 2 ^ (numerator.log2 + 1) := high
      _ = 2 ^ ((numerator.log2 : Int) - denominator.log2 + 1) * 2 ^ denominator.log2 := by
          rw [← zpow_natCast, ← zpow_natCast, ← zpow_add₀ two_ne_zero]
          congr 1
          push_cast
          ring
      _ ≤ 2 ^ ((numerator.log2 : Int) - denominator.log2 + 1) * denominator :=
          mul_le_mul_of_nonneg_left lowBelow (by positivity)

/-- A scaled fraction is below a power of two exactly when the quotient is below the scaled power. -/
theorem scale_lt_iff (positiveBelow : 0 < denominator) (exponent : Int) (bits : Nat) :
    (scale numerator denominator exponent).1 <
        2 ^ bits * (scale numerator denominator exponent).2 ↔
      (numerator : ℚ) / denominator < 2 ^ (exponent + bits) := by
  have below : (0 : ℚ) < (scale numerator denominator exponent).2 := by
    exact_mod_cast scale_below_pos numerator positiveBelow exponent
  have power : (0 : ℚ) < 2 ^ exponent := by positivity
  rw [zpow_add₀ two_ne_zero, zpow_natCast, mul_comm ((2 : ℚ) ^ exponent), ← div_lt_iff₀ power,
    ← scale_quotient, div_lt_iff₀ below]
  exact_mod_cast Iff.rfl

/-- The exponent at which a positive quotient is rounded gives it at most 53 bits, and exactly 53 bits
    unless it is the least exponent. -/
theorem fitting_exponent_spec (positive : 0 < numerator) (positiveBelow : 0 < denominator) :
    (numerator : ℚ) / denominator < 2 ^ (fittingExponent numerator denominator + 53) ∧
      (fittingExponent numerator denominator = leastExponent ∨
        (2 : ℚ) ^ (fittingExponent numerator denominator + 52) ≤ numerator / denominator) := by
  obtain ⟨low, high⟩ := quotient_between_powers positive positiveBelow
  let guess : Int := (numerator.log2 : Int) - denominator.log2 - 52
  let fitted : Int :=
    if (scale numerator denominator guess).1 / (scale numerator denominator guess).2 < 1 <<< 52
    then guess - 1 else guess
  have exponent : fittingExponent numerator denominator = max leastExponent fitted := rfl
  have bits : (numerator : ℚ) / denominator < 2 ^ (fitted + 53) ∧
      (2 : ℚ) ^ (fitted + 52) ≤ numerator / denominator := by
    have short : (scale numerator denominator guess).1 / (scale numerator denominator guess).2 <
        1 <<< 52 ↔ (numerator : ℚ) / denominator < 2 ^ (guess + 52) := by
      rw [Nat.one_shiftLeft, Nat.div_lt_iff_lt_mul (scale_below_pos numerator positiveBelow guess)]
      exact scale_lt_iff positiveBelow guess 52
    by_cases less : (numerator : ℚ) / denominator < 2 ^ (guess + 52)
    · rw [show fitted = guess - 1 from if_pos (short.mpr less)]
      exact ⟨by convert less using 2; ring, by convert low using 2; simp [guess]; ring⟩
    · rw [show fitted = guess from if_neg fun shorter => less (short.mp shorter)]
      exact ⟨by convert high using 2; simp [guess]; ring, not_lt.mp less⟩
  rw [exponent]
  rcases le_total leastExponent fitted with above | below
  · rw [max_eq_right above]
    exact ⟨bits.1, .inr bits.2⟩
  · rw [max_eq_left below]
    refine ⟨bits.1.trans_le ?_, .inl rfl⟩
    exact zpow_le_zpow_right₀ one_le_two (by omega)

theorem least_le_fittingExponent (numerator denominator : Nat) :
    leastExponent ≤ fittingExponent numerator denominator := le_max_left _ _

/-- A positive quotient is rounded to a significand at the fitting exponent. A significand that takes
    one bit too many is written with the next exponent and stands for the same number. -/
theorem ofRatio?_magnitude {x : Binary64} (positive : 0 < numerator)
    (rounded : ofRatio? numerator denominator = some x) :
    x.negative = false ∧
      x.magnitude =
        roundDiv (scale numerator denominator (fittingExponent numerator denominator)).1
          (scale numerator denominator (fittingExponent numerator denominator)).2 *
          2 ^ fittingExponent numerator denominator := by
  unfold ofRatio? at rounded
  rw [if_neg positive.ne'] at rounded
  dsimp only at rounded
  generalize fittingExponent numerator denominator = exponent at rounded ⊢
  generalize roundDiv (scale numerator denominator exponent).1
    (scale numerator denominator exponent).2 = significand at rounded ⊢
  by_cases carried : significand = 1 <<< 53
  · rw [if_pos carried] at rounded
    obtain rfl := Option.some.inj (Option.ite_none_left_eq_some.mp rounded).2
    refine ⟨rfl, ?_⟩
    rw [carried, magnitude, zpow_add_one₀ two_ne_zero]
    simp only [Nat.one_shiftLeft]
    push_cast
    ring
  · rw [if_neg carried] at rounded
    obtain rfl := Option.some.inj (Option.ite_none_left_eq_some.mp rounded).2
    exact ⟨rfl, rfl⟩

/-- Rounding is monotone on positive quotients. At one exponent the significands are in order; otherwise
    the lesser quotient has the lesser exponent, and all its 53 bits together are worth no more than
    the leading bit of the other. -/
theorem ofRatio?_mono_pos {other below : Nat} {x y : Binary64} (something : 0 < numerator)
    (somethingOther : 0 < other) (positive : 0 < denominator) (positiveBelow : 0 < below)
    (lesser : numerator * below ≤ other * denominator)
    (rounded : ofRatio? numerator denominator = some x)
    (roundedOther : ofRatio? other below = some y) : x.magnitude ≤ y.magnitude := by
  have quotients : (numerator : ℚ) / denominator ≤ other / below := by
    have first : (0 : ℚ) < denominator := by exact_mod_cast positive
    have second : (0 : ℚ) < below := by exact_mod_cast positiveBelow
    rw [div_le_div_iff₀ first second]
    exact_mod_cast lesser
  rw [(ofRatio?_magnitude something rounded).2, (ofRatio?_magnitude somethingOther roundedOther).2]
  obtain ⟨bits, leading⟩ := fitting_exponent_spec something positive
  obtain ⟨bitsOther, leadingOther⟩ := fitting_exponent_spec somethingOther positiveBelow
  have floor := least_le_fittingExponent numerator denominator
  have floorOther := least_le_fittingExponent other below
  generalize fittingExponent numerator denominator = exponent at *
  generalize fittingExponent other below = exponentOther at *
  have positiveScaled := scale_below_pos numerator positive exponent
  have positiveOther := scale_below_pos other positiveBelow exponentOther
  rcases lt_trichotomy exponent exponentOther with less | same | more
  · have ceiling : roundDiv (scale numerator denominator exponent).1
        (scale numerator denominator exponent).2 ≤ 2 ^ 53 :=
      roundDiv_le positiveScaled ((scale_lt_iff positive exponent 53).mpr bits)
    have ground : 2 ^ 52 ≤ roundDiv (scale other below exponentOther).1
        (scale other below exponentOther).2 := by
      refine le_roundDiv positiveOther (not_lt.mp fun short => ?_)
      have full := leadingOther.resolve_left (by omega)
      exact absurd ((scale_lt_iff positiveBelow exponentOther 52).mp short) (not_lt.mpr full)
    calc _ ≤ (2 : ℚ) ^ 53 * 2 ^ exponent :=
          mul_le_mul_of_nonneg_right (by exact_mod_cast ceiling) (by positivity)
      _ = 2 ^ 52 * 2 ^ (exponent + 1) := by
          rw [zpow_add_one₀ two_ne_zero]
          ring
      _ ≤ 2 ^ 52 * 2 ^ exponentOther :=
          mul_le_mul_of_nonneg_left (zpow_le_zpow_right₀ one_le_two (by omega)) (by positivity)
      _ ≤ _ := mul_le_mul_of_nonneg_right (by exact_mod_cast ground) (by positivity)
  · subst same
    refine mul_le_mul_of_nonneg_right ?_ (by positivity)
    refine Nat.cast_le.mpr (roundDiv_mono positiveScaled positiveOther ?_)
    have scaled : ((scale numerator denominator exponent).1 : ℚ) /
          (scale numerator denominator exponent).2 ≤
        (scale other below exponent).1 / (scale other below exponent).2 := by
      rw [scale_quotient, scale_quotient]
      exact div_le_div_of_nonneg_right quotients (by positivity)
    rw [div_le_div_iff₀ (by exact_mod_cast positiveScaled) (by exact_mod_cast positiveOther)]
      at scaled
    exact_mod_cast scaled
  · have full := leading.resolve_left (by omega)
    have step : (2 : ℚ) ^ (exponentOther + 53) ≤ 2 ^ (exponent + 52) :=
      zpow_le_zpow_right₀ one_le_two (by omega)
    linarith

/-- Rounding is monotone. -/
theorem ofRatio?_mono {other below : Nat} {x y : Binary64} (positive : 0 < denominator)
    (positiveBelow : 0 < below) (lesser : numerator * below ≤ other * denominator)
    (rounded : ofRatio? numerator denominator = some x)
    (roundedOther : ofRatio? other below = some y) : x.magnitude ≤ y.magnitude := by
  rcases Nat.eq_zero_or_pos numerator with rfl | something
  · obtain rfl : zero = x := Option.some.inj rounded
    have nothing : zero.magnitude = 0 := by simp [magnitude, zero]
    rw [nothing]
    unfold magnitude
    positivity
  · refine ofRatio?_mono_pos something ?_ positive positiveBelow lesser rounded roundedOther
    refine Nat.pos_of_ne_zero fun none => ?_
    have more := Nat.mul_pos something positiveBelow
    rw [none, Nat.zero_mul] at lesser
    omega

/-- One is a number itself. -/
theorem ofRatio?_one : ofRatio? 1 1 = some ⟨false, 2 ^ 52, -52⟩ ∧
    magnitude ⟨false, 2 ^ 52, -52⟩ = 1 :=
  ⟨by decide, by norm_num [magnitude]⟩

/-- A quotient of at most one is rounded to at most one. -/
theorem ofRatio?_le_one {x : Binary64} (positive : 0 < denominator)
    (atMost : numerator ≤ denominator) (rounded : ofRatio? numerator denominator = some x) :
    x.magnitude ≤ 1 := by
  rw [← ofRatio?_one.2]
  exact ofRatio?_mono positive Nat.one_pos (by omega) rounded ofRatio?_one.1

/-- A quotient of at least one is rounded to at least one. -/
theorem one_le_ofRatio? {x : Binary64} (positive : 0 < denominator)
    (atLeast : denominator ≤ numerator) (rounded : ofRatio? numerator denominator = some x) :
    1 ≤ x.magnitude := by
  rw [← ofRatio?_one.2]
  exact ofRatio?_mono Nat.one_pos positive (by omega) ofRatio?_one.1 rounded

/-- Rounding does not make a number negative. -/
theorem ofRatio?_negative {x : Binary64} (rounded : ofRatio? numerator denominator = some x) :
    x.negative = false := by
  rcases Nat.eq_zero_or_pos numerator with rfl | something
  · obtain rfl : zero = x := Option.some.inj rounded
    rfl
  · exact (ofRatio?_magnitude something rounded).1

end Scaling

/-- A number divided by one that is no less and not zero comes to at most one. -/
theorem div?_le_one {x y quotient : Binary64} (lesser : x.magnitude ≤ y.magnitude)
    (something : 0 < y.magnitude) (divided : x.div? y = some quotient) :
    quotient.magnitude ≤ 1 := by
  unfold div? at divided
  obtain ⟨rounded, made, rfl⟩ := Option.map_eq_some_iff.mp divided
  have xBelow := x.ratio_below_pos
  have yBelow := y.ratio_below_pos
  rw [magnitude_eq_ratio] at something
  have yAbove : 0 < y.ratio.1 := by
    refine Nat.pos_of_ne_zero fun none => ?_
    simp [none] at something
  have ratios : x.ratio.1 * y.ratio.2 ≤ x.ratio.2 * y.ratio.1 := by
    rw [magnitude_eq_ratio, magnitude_eq_ratio,
      div_le_div_iff₀ (by exact_mod_cast xBelow) (by exact_mod_cast yBelow)] at lesser
    rw [Nat.mul_comm x.ratio.2]
    exact_mod_cast lesser
  have atMost : rounded.magnitude ≤ 1 := ofRatio?_le_one (Nat.mul_pos xBelow yAbove) ratios made
  exact atMost

/-- A quotient of numbers of one sign is not negative. -/
theorem div?_negative {x y quotient : Binary64} (same : x.negative = y.negative)
    (divided : x.div? y = some quotient) : quotient.negative = false := by
  unfold div? at divided
  obtain ⟨rounded, -, rfl⟩ := Option.map_eq_some_iff.mp divided
  simp [same]

end Binary64

end HeaderSearch
