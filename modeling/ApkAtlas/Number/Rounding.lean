namespace ApkAtlas.Number

/-!
# Rounding quotients

Every number text of this library comes from a quotient of natural numbers that is
rounded once, to the nearest integer with ties to the even one. Rounding to the 53
significant bits of a double is the same operation at another scale.
-/

/-- A nonnegative quotient; the denominator is meant to be positive. -/
structure Ratio where
  numerator : Nat
  denominator : Nat
deriving Repr, DecidableEq

/-- The integer nearest to a quotient, the even one of two that are equally near. -/
def roundHalfEven (ratio : Ratio) : Nat :=
  let whole := ratio.numerator / ratio.denominator
  let rest := 2 * (ratio.numerator % ratio.denominator)
  if rest < ratio.denominator then whole
  else if ratio.denominator < rest then whole + 1
  else whole + whole % 2

/-- A natural number times a power of two. -/
structure Dyadic where
  mantissa : Nat
  exponent : Int
deriving Repr, DecidableEq

namespace Dyadic

/-- A dyadic number as a quotient. -/
def toRatio (number : Dyadic) : Ratio :=
  if 0 ≤ number.exponent then
    ⟨number.mantissa * Nat.pow 2 number.exponent.toNat, 1⟩
  else
    ⟨number.mantissa, Nat.pow 2 (-number.exponent).toNat⟩

end Dyadic

namespace Ratio

/-- A quotient times a power of two. -/
def scale (ratio : Ratio) (exponent : Int) : Ratio :=
  if 0 ≤ exponent then
    ⟨ratio.numerator * Nat.pow 2 exponent.toNat, ratio.denominator⟩
  else
    ⟨ratio.numerator, ratio.denominator * Nat.pow 2 (-exponent).toNat⟩

/-- A quotient times a natural number. -/
def times (ratio : Ratio) (factor : Nat) : Ratio :=
  ⟨ratio.numerator * factor, ratio.denominator⟩

/-- The exponent at which a positive quotient has exactly 53 binary digits before the
point: the estimate from the lengths of both numbers is at most one too small. -/
def doubleExponent (ratio : Ratio) : Int :=
  let estimate : Int := (ratio.numerator.log2 : Int) - ratio.denominator.log2 - 53
  let scaled := ratio.scale (-estimate)
  if scaled.numerator < Nat.pow 2 53 * scaled.denominator then estimate else estimate + 1

/-- The double nearest to a quotient whose size lies well inside the range of doubles. -/
def toDouble (ratio : Ratio) : Dyadic :=
  if ratio.numerator = 0 then
    ⟨0, 0⟩
  else
    let exponent := ratio.doubleExponent
    ⟨roundHalfEven (ratio.scale (-exponent)), exponent⟩

end Ratio

/-- A rounded quotient is at most half a unit away. -/
theorem roundHalfEven_near
    (ratio : Ratio)
    (positive : 0 < ratio.denominator) :
    2 * ratio.numerator ≤
        (2 * roundHalfEven ratio + 1) * ratio.denominator ∧
      (2 * roundHalfEven ratio) * ratio.denominator ≤
        2 * ratio.numerator + ratio.denominator := by
  obtain ⟨numerator, denominator⟩ := ratio
  have split := Nat.div_add_mod numerator denominator
  have small := Nat.mod_lt numerator positive
  have parity := Nat.mod_two_eq_zero_or_one (numerator / denominator)
  simp only [roundHalfEven] at positive small ⊢
  generalize numerator / denominator = whole at *
  generalize numerator % denominator = rest at *
  have expand : denominator * whole = whole * denominator := Nat.mul_comm _ _
  split
  · constructor <;> (simp only [Nat.add_mul, Nat.mul_assoc]; omega)
  · split
    · constructor <;> (simp only [Nat.add_mul, Nat.mul_add, Nat.mul_assoc]; omega)
    · rcases parity with even | odd
      · rw [even]
        constructor <;> (simp only [Nat.add_mul, Nat.mul_add, Nat.mul_assoc]; omega)
      · rw [odd]
        constructor <;> (simp only [Nat.add_mul, Nat.mul_add, Nat.mul_assoc]; omega)

/-! ## Numbers with a fixed count of decimals

A quotient is rounded at its last shown place. The trimmed form leaves out zeros at the
end of the decimals, and the point with them when no decimal is left. -/

/-- The decimal digits of a number, padded with zeros at the front to `width`. -/
def paddedDigits (width number : Nat) : List Char :=
  let digits := Nat.toDigits 10 number
  List.replicate (width - digits.length) '0' ++ digits

/-- A quotient rounded to an integer count of units of the last place. -/
def units (places : Nat) (ratio : Ratio) : Nat :=
  roundHalfEven (ratio.times (Nat.pow 10 places))

/-- The sign of a number text; a negative number keeps it when it is shown as zero. -/
def signText (negative : Bool) : String :=
  if negative then "-" else ""

/-- A number with exactly `places` decimals. -/
def fixedText (places : Nat) (negative : Bool) (ratio : Ratio) : String :=
  let count := units places ratio
  let whole := String.ofList (Nat.toDigits 10 (count / Nat.pow 10 places))
  let decimals := String.ofList (paddedDigits places (count % Nat.pow 10 places))
  signText negative ++ whole ++ (if places = 0 then "" else "." ++ decimals)

/-- Decimals without zeros at the end. -/
def trimmedDecimals (digits : List Char) : List Char :=
  (digits.reverse.dropWhile (· == '0')).reverse

/-- The text of a count of units of the last of `places` decimals, trimmed. -/
def trimmedUnits (places : Nat) (negative : Bool) (count : Nat) : String :=
  let whole := String.ofList (Nat.toDigits 10 (count / Nat.pow 10 places))
  let decimals := trimmedDecimals (paddedDigits places (count % Nat.pow 10 places))
  signText negative ++ whole ++
    (if decimals.isEmpty then "" else "." ++ String.ofList decimals)

/-- A number with at most `places` decimals. -/
def trimmedText (places : Nat) (negative : Bool) (ratio : Ratio) : String :=
  trimmedUnits places negative (units places ratio)

end ApkAtlas.Number
