import ApkAtlas.Number.Rounding
import Mathlib.Algebra.Order.Field.Rat
import Mathlib.Tactic

namespace ApkAtlas.Number

/-!
# Rounded numbers

Rounding gives the integer that is nearest to a number, and the even one of two that are
equally near; this fixes it for every number, and larger numbers have no smaller roundings.
The double nearest to a quotient is at most the 2^53-th part of it away, and a quotient that
needs no more than 53 binary digits is a double itself.
-/

/-- The number that a quotient stands for. -/
def Ratio.value (ratio : Ratio) : ℚ :=
  ratio.numerator / ratio.denominator

/-- The number that a dyadic number stands for. -/
def Dyadic.value (number : Dyadic) : ℚ :=
  number.mantissa * 2 ^ number.exponent

/-- The integer is the nearest to a number, and the even one if two are equally near. -/
structure IsNearest (number : ℚ) (integer : ℤ) : Prop where
  near : |number - integer| ≤ 1 / 2
  even_of_tie : |number - integer| = 1 / 2 → Even integer

namespace IsNearest

variable {number other : ℚ} {integer second : ℤ}

/-- An integer that is closer than one half is the nearest. -/
theorem of_lt (closer : |number - integer| < 1 / 2) : IsNearest number integer where
  near := closer.le
  even_of_tie tie := absurd tie closer.ne

theorem self (integer : ℤ) : IsNearest integer integer :=
  of_lt (by simp)

/-- The nearest integers of opposite numbers are opposite. -/
theorem neg (nearest : IsNearest number integer) : IsNearest (-number) (-integer) := by
  have same : |-number - ((-integer : ℤ) : ℚ)| = |number - integer| := by
    rw [Int.cast_neg, ← abs_neg]
    congr 1
    ring
  exact ⟨same ▸ nearest.near, fun tie => (nearest.even_of_tie (same ▸ tie)).neg⟩

/-- Rounding keeps the order. -/
theorem mono
    (nearest : IsNearest number integer)
    (nearestOther : IsNearest other second)
    (below : number ≤ other) :
    integer ≤ second := by
  by_contra notBelow
  have above : (second : ℚ) + 1 ≤ integer := by
    exact_mod_cast Int.add_one_le_of_lt (not_le.mp notBelow)
  have far := (abs_le.mp nearest.near).1
  have farOther := (abs_le.mp nearestOther.near).2
  -- Both are halfway between two integers in a row, so both integers would be even.
  have tie : |number - integer| = 1 / 2 := by
    rw [abs_eq (by norm_num)]
    right
    linarith
  have tieOther : |other - second| = 1 / 2 := by
    rw [abs_eq (by norm_num)]
    left
    linarith
  have next : integer = second + 1 := by
    have : (integer : ℚ) = second + 1 := by linarith
    exact_mod_cast this
  have even := nearest.even_of_tie tie
  have evenOther := nearestOther.even_of_tie tieOther
  rw [next] at even
  exact Int.not_even_iff_odd.mpr evenOther.add_one even

/-- A number has one nearest integer: a tie is broken towards the even one. -/
theorem unique
    (nearest : IsNearest number integer)
    (nearestSecond : IsNearest number second) :
    integer = second :=
  le_antisymm (nearest.mono nearestSecond le_rfl) (nearestSecond.mono nearest le_rfl)

/-- Numbers that are more than one apart are rounded to different integers. -/
theorem lt_of_add_one_lt
    (nearest : IsNearest number integer)
    (nearestOther : IsNearest other second)
    (apart : number + 1 < other) :
    integer < second := by
  have close := (abs_le.mp nearest.near).1
  have closeOther := (abs_le.mp nearestOther.near).2
  have below : (integer : ℚ) < second := by linarith
  exact_mod_cast below

end IsNearest

section Quotients

variable {ratio : Ratio}

/-- Halfway between two integers the rounding is even. -/
theorem even_roundHalfEven
    (positive : 0 < ratio.denominator)
    (tie :
      2 * ratio.numerator = (2 * roundHalfEven ratio + 1) * ratio.denominator ∨
        2 * roundHalfEven ratio * ratio.denominator = 2 * ratio.numerator + ratio.denominator) :
    Even (roundHalfEven ratio) := by
  obtain ⟨numerator, denominator⟩ := ratio
  have split := Nat.div_add_mod numerator denominator
  have inRange := Nat.mod_lt numerator positive
  simp only [roundHalfEven] at tie inRange ⊢
  generalize numerator / denominator = whole at *
  generalize numerator % denominator = rest at *
  have expand : denominator * whole = whole * denominator := Nat.mul_comm _ _
  split_ifs at tie ⊢
  · rw [Nat.add_mul, Nat.mul_assoc] at tie
    omega
  · rw [Nat.add_mul, Nat.mul_assoc, Nat.add_mul] at tie
    omega
  · rw [Nat.even_iff]
    omega

/-- Rounding a ratio gives its nearest integer. -/
theorem isNearest_roundHalfEven (positive : 0 < ratio.denominator) :
    IsNearest ratio.value (roundHalfEven ratio) := by
  obtain ⟨below, above⟩ := roundHalfEven_near ratio positive
  have even := even_roundHalfEven positive
  rw [Ratio.value]
  generalize roundHalfEven ratio = integer at *
  have positiveRat : (0 : ℚ) < ratio.denominator := by exact_mod_cast positive
  have doubled : (ratio.numerator : ℚ) / ratio.denominator - (integer : ℤ) =
      (2 * ratio.numerator - 2 * integer * ratio.denominator) / (2 * ratio.denominator) := by
    push_cast
    field_simp
  refine ⟨?_, fun tie => (Int.even_coe_nat _).mpr (even ?_)⟩
  · have belowRat : (2 : ℚ) * ratio.numerator ≤ (2 * integer + 1) * ratio.denominator := by
      exact_mod_cast below
    have aboveRat : (2 : ℚ) * integer * ratio.denominator ≤
        2 * ratio.numerator + ratio.denominator := by
      exact_mod_cast above
    rw [doubled, abs_le, le_div_iff₀ (by positivity), div_le_iff₀ (by positivity)]
    constructor <;> linarith
  · rw [doubled, abs_eq (by norm_num), div_eq_iff (by positivity), div_eq_iff (by positivity)]
      at tie
    refine tie.imp (fun half => ?_) (fun half => ?_)
    · have tieRat : (2 : ℚ) * ratio.numerator = (2 * integer + 1) * ratio.denominator := by
        linarith
      exact_mod_cast tieRat
    · have tieRat : (2 : ℚ) * integer * ratio.denominator =
          2 * ratio.numerator + ratio.denominator := by
        linarith
      exact_mod_cast tieRat

/-- Scaling multiplies the value by a power of two. -/
theorem value_scale (ratio : Ratio) (exponent : ℤ) :
    (ratio.scale exponent).value = ratio.value * 2 ^ exponent := by
  rw [Ratio.scale]
  split
  · rename_i nonneg
    obtain ⟨places, rfl⟩ := Int.eq_ofNat_of_zero_le nonneg
    simp only [Ratio.value, Nat.pow_eq, Int.toNat_natCast, zpow_natCast]
    push_cast
    ring
  · rename_i negative
    obtain ⟨places, places_eq⟩ := Int.eq_ofNat_of_zero_le (by omega : 0 ≤ -exponent)
    obtain rfl : exponent = -places := by omega
    simp only [Ratio.value, Nat.pow_eq, neg_neg, Int.toNat_natCast, zpow_neg, zpow_natCast]
    push_cast
    rw [div_mul_eq_div_div, div_eq_mul_inv _ ((2 : ℚ) ^ places)]

/-- Scaling keeps the denominator positive. -/
theorem denominator_scale_pos
    (positive : 0 < ratio.denominator)
    (exponent : ℤ) :
    0 < (ratio.scale exponent).denominator := by
  rw [Ratio.scale]
  split
  · exact positive
  · exact Nat.mul_pos positive (Nat.pow_pos (by decide))

theorem denominator_times (ratio : Ratio) (factor : Nat) :
    (ratio.times factor).denominator = ratio.denominator :=
  rfl

/-- A ratio times a number has the product as its value. -/
theorem value_times (ratio : Ratio) (factor : Nat) :
    (ratio.times factor).value = ratio.value * factor := by
  simp only [Ratio.times, Ratio.value]
  push_cast
  ring

/-- A dyadic number is the ratio of the same value. -/
theorem value_toRatio (number : Dyadic) : number.toRatio.value = number.value := by
  rw [Dyadic.toRatio, Dyadic.value]
  split
  · rename_i nonneg
    obtain ⟨places, places_eq⟩ := Int.eq_ofNat_of_zero_le nonneg
    simp [Ratio.value, places_eq]
  · rename_i negative
    obtain ⟨places, places_eq⟩ := Int.eq_ofNat_of_zero_le (by omega : 0 ≤ -number.exponent)
    have exponent_eq : number.exponent = -places := by omega
    simp [Ratio.value, exponent_eq, div_eq_mul_inv]

theorem denominator_toRatio_pos (number : Dyadic) : 0 < number.toRatio.denominator := by
  rw [Dyadic.toRatio]
  split
  · exact Nat.one_pos
  · exact Nat.pow_pos (by decide)

/-! ## Doubles -/

/-- The lengths of both numbers bound a quotient from below. -/
theorem zpow_le_value
    (nonzero : ratio.numerator ≠ 0)
    (positive : 0 < ratio.denominator) :
    (2 : ℚ) ^ ((ratio.numerator.log2 : ℤ) - ratio.denominator.log2 - 1) ≤ ratio.value := by
  have numeratorLarge : (2 : ℚ) ^ ratio.numerator.log2 ≤ ratio.numerator := by
    exact_mod_cast Nat.log2_self_le nonzero
  have denominatorSmall : (ratio.denominator : ℚ) ≤ 2 ^ (ratio.denominator.log2 + 1) := by
    exact_mod_cast Nat.lt_log2_self.le
  have positiveRat : (0 : ℚ) < ratio.denominator := by exact_mod_cast positive
  rw [Ratio.value, le_div_iff₀ positiveRat]
  calc (2 : ℚ) ^ ((ratio.numerator.log2 : ℤ) - ratio.denominator.log2 - 1) * ratio.denominator
      ≤ 2 ^ ((ratio.numerator.log2 : ℤ) - ratio.denominator.log2 - 1) *
          2 ^ (ratio.denominator.log2 + 1) := by gcongr
    _ = 2 ^ ratio.numerator.log2 := by
        rw [← zpow_natCast, ← zpow_natCast, ← zpow_add₀ (by norm_num)]
        congr 1
        push_cast
        ring
    _ ≤ ratio.numerator := numeratorLarge

/-- At the exponent of its double a quotient has 53 binary digits before the point. -/
theorem le_value_scale
    (nonzero : ratio.numerator ≠ 0)
    (positive : 0 < ratio.denominator) :
    2 ^ 52 ≤ (ratio.scale (-ratio.doubleExponent)).value := by
  have large := zpow_le_value nonzero positive
  rw [Ratio.doubleExponent]
  generalize estimate_eq : (ratio.numerator.log2 : ℤ) - ratio.denominator.log2 - 53 = estimate
  have scaledPositive : (0 : ℚ) < (ratio.scale (-estimate)).denominator := by
    exact_mod_cast denominator_scale_pos positive (-estimate)
  split
  · rw [value_scale]
    calc (2 : ℚ) ^ 52 = 2 ^ (estimate + 52) * 2 ^ (-estimate) := by
          rw [← zpow_add₀ (by norm_num), ← zpow_natCast]
          congr 1
          push_cast
          ring
      _ ≤ ratio.value * 2 ^ (-estimate) := by
          have sameExponent : estimate + 52 =
              (ratio.numerator.log2 : ℤ) - ratio.denominator.log2 - 1 := by omega
          rw [sameExponent]
          gcongr
  · rename_i reaches
    rw [not_lt, Nat.pow_eq] at reaches
    have full : (2 : ℚ) ^ 53 ≤ ratio.value * 2 ^ (-estimate) := by
      rw [← value_scale, Ratio.value, le_div_iff₀ scaledPositive]
      exact_mod_cast reaches
    rw [value_scale, neg_add, zpow_add₀ (by norm_num), zpow_neg_one, ← mul_assoc]
    linarith

/-- The double nearest to a quotient, as a rounding at its exponent. -/
theorem exists_toDouble
    (nonzero : ratio.numerator ≠ 0)
    (positive : 0 < ratio.denominator) :
    ∃ (exponent : ℤ) (mantissa : ℕ),
      2 ^ 52 ≤ ratio.value / 2 ^ exponent ∧
        IsNearest (ratio.value / 2 ^ exponent) mantissa ∧
        ratio.toDouble.value = mantissa * 2 ^ exponent := by
  have large := le_value_scale nonzero positive
  have nearest := isNearest_roundHalfEven
    (denominator_scale_pos positive (-ratio.doubleExponent))
  rw [value_scale, zpow_neg, ← div_eq_mul_inv] at large nearest
  refine ⟨ratio.doubleExponent, _, large, nearest, ?_⟩
  rw [Ratio.toDouble, if_neg nonzero]
  rfl

/-- Zero is a double as it is. -/
theorem toDouble_of_numerator_eq_zero (zero : ratio.numerator = 0) :
    ratio.toDouble.value = ratio.value := by
  rw [Ratio.toDouble, if_pos zero, Dyadic.value, Ratio.value, zero]
  norm_num

theorem value_nonneg (ratio : Ratio) : 0 ≤ ratio.value := by
  rw [Ratio.value]
  positivity

/-- A double is nearer to its quotient than the quotient's 2^53-th part. -/
theorem toDouble_near (positive : 0 < ratio.denominator) :
    |ratio.toDouble.value - ratio.value| ≤ ratio.value / 2 ^ 53 := by
  by_cases zero : ratio.numerator = 0
  · rw [toDouble_of_numerator_eq_zero zero, sub_self, abs_zero]
    exact div_nonneg (value_nonneg ratio) (by norm_num)
  · obtain ⟨exponent, mantissa, large, nearest, isDouble⟩ := exists_toDouble zero positive
    have unit : (0 : ℚ) < 2 ^ exponent := by positivity
    have split : ratio.toDouble.value - ratio.value =
        -(ratio.value / 2 ^ exponent - mantissa) * 2 ^ exponent := by
      rw [isDouble]
      field_simp
      ring
    rw [split, abs_mul, abs_neg, abs_of_pos unit]
    rw [le_div_iff₀ unit] at large
    have near := nearest.near
    push_cast at near
    calc |ratio.value / 2 ^ exponent - mantissa| * 2 ^ exponent
        ≤ 1 / 2 * 2 ^ exponent := by gcongr
      _ ≤ ratio.value / 2 ^ 53 := by
          rw [le_div_iff₀ (by norm_num)]
          linarith

/-- A quotient of at most 53 binary digits is a double. -/
theorem toDouble_eq_self
    (positive : 0 < ratio.denominator)
    (number : Dyadic)
    (fits : number.mantissa < 2 ^ 53)
    (same : ratio.value = number.value) :
    ratio.toDouble.value = ratio.value := by
  by_cases zero : ratio.numerator = 0
  · exact toDouble_of_numerator_eq_zero zero
  obtain ⟨exponent, mantissa, large, nearest, isDouble⟩ := exists_toDouble zero positive
  have unit : (0 : ℚ) < 2 ^ exponent := by positivity
  rw [le_div_iff₀ unit, same, Dyadic.value] at large
  have fitsRat : (number.mantissa : ℚ) < 2 ^ 53 := by exact_mod_cast fits
  have coarse : exponent ≤ number.exponent := by
    have below : (2 : ℚ) ^ (52 + exponent) < 2 ^ (53 + number.exponent) := by
      rw [zpow_add₀ (by norm_num), zpow_add₀ (by norm_num)]
      exact lt_of_le_of_lt large (mul_lt_mul_of_pos_right fitsRat (by positivity))
    have := (zpow_lt_zpow_iff_right₀ (by norm_num)).mp below
    omega
  obtain ⟨places, places_eq⟩ := Int.eq_ofNat_of_zero_le (sub_nonneg.mpr coarse)
  have whole : ratio.value / 2 ^ exponent = ((number.mantissa * 2 ^ places : ℕ) : ℤ) := by
    rw [same, Dyadic.value, mul_div_assoc, ← zpow_sub₀ (by norm_num), places_eq]
    push_cast
    rfl
  rw [whole] at nearest
  have exactly := nearest.unique (.self _)
  rw [isDouble, ← Int.cast_natCast, exactly, ← whole]
  field_simp

/-! ## Decimals -/

/-- The second number has at most `places` decimals and is the nearest such number to the first
one; of two that are equally near, it is the one whose last place is even. -/
def IsRounded (places : ℕ) (number rounded : ℚ) : Prop :=
  ∃ units : ℤ, IsNearest (number * 10 ^ places) units ∧ rounded = units / 10 ^ places

namespace IsRounded

variable {places : ℕ} {number other rounded second : ℚ}

/-- An integer is rounded to itself. -/
theorem self (places : ℕ) (integer : ℤ) : IsRounded places integer integer := by
  refine ⟨integer * 10 ^ places, ?_, ?_⟩
  · have same : (integer : ℚ) * 10 ^ places = ((integer * 10 ^ places : ℤ) : ℚ) := by
      push_cast
      rfl
    rw [same]
    exact .self _
  · push_cast
    field_simp

/-- Opposite numbers are rounded to opposite ones. -/
theorem neg (isRounded : IsRounded places number rounded) :
    IsRounded places (-number) (-rounded) := by
  obtain ⟨units, nearest, rfl⟩ := isRounded
  refine ⟨-units, ?_, ?_⟩
  · rw [neg_mul]
    exact nearest.neg
  · push_cast
    ring

/-- Rounding keeps the order of numbers. -/
theorem mono
    (isRounded : IsRounded places number rounded)
    (isRoundedOther : IsRounded places other second)
    (below : number ≤ other) :
    rounded ≤ second := by
  obtain ⟨units, nearest, rfl⟩ := isRounded
  obtain ⟨unitsOther, nearestOther, rfl⟩ := isRoundedOther
  have ordered : units ≤ unitsOther := nearest.mono nearestOther (by gcongr)
  gcongr

/-- Numbers that are further apart than the last place stay apart. -/
theorem lt_of_lt
    (isRounded : IsRounded places number rounded)
    (isRoundedOther : IsRounded places other second)
    (apart : number * 10 ^ places + 1 < other * 10 ^ places) :
    rounded < second := by
  obtain ⟨units, nearest, rfl⟩ := isRounded
  obtain ⟨unitsOther, nearestOther, rfl⟩ := isRoundedOther
  have ordered : units < unitsOther := nearest.lt_of_add_one_lt nearestOther apart
  gcongr

/-- A number is at most half a unit of its last place from what it is rounded to. -/
theorem near (isRounded : IsRounded places number rounded) :
    |number - rounded| ≤ 1 / 2 / 10 ^ places := by
  obtain ⟨units, nearest, rfl⟩ := isRounded
  have scaled : number - units / 10 ^ places = (number * 10 ^ places - units) / 10 ^ places := by
    field_simp
  rw [scaled, abs_div, abs_of_pos (by positivity : (0 : ℚ) < 10 ^ places)]
  exact div_le_div_of_nonneg_right nearest.near (by positivity)

end IsRounded

/-- The count of units of a place is the nearest one. -/
theorem isNearest_units
    (places : ℕ)
    (positive : 0 < ratio.denominator) :
    IsNearest (ratio.value * 10 ^ places) (units places ratio) := by
  have nearest : IsNearest (ratio.times (Nat.pow 10 places)).value (units places ratio) :=
    isNearest_roundHalfEven (by rwa [denominator_times])
  rw [value_times, Nat.pow_eq] at nearest
  exact_mod_cast nearest

/-- A count of units of a place is the number rounded to that place. -/
theorem isRounded_units
    (places : ℕ)
    (positive : 0 < ratio.denominator) :
    IsRounded places ratio.value (units places ratio / 10 ^ places) :=
  ⟨units places ratio, isNearest_units places positive, rfl⟩

end Quotients

end ApkAtlas.Number
