import ApkAtlas.Proofs.Number.Rounding
import Mathlib.Data.List.TakeWhile

namespace ApkAtlas.Number

/-!
# Decimal numerals

A numeral is a sign, a whole part without leading zeros and digits behind the point. Its text
says all of it, so two numerals are never written alike. Rounded numbers are written as
numerals, with a fixed count of decimals or without the zeros at their end.
-/

section Digits

/-! ## Padded and trimmed decimals -/

theorem isDigit_of_mem_paddedDigits
    {width number : ℕ}
    {c : Char}
    (member : c ∈ paddedDigits width number) :
    c.isDigit = true := by
  rcases List.mem_append.mp member with padding | digit
  · rw [List.eq_of_mem_replicate padding]
    rfl
  · exact Nat.isDigit_of_mem_toDigits (by decide) (by decide) digit

theorem length_paddedDigits
    {width number : ℕ}
    (wide : 0 < width)
    (fits : number < 10 ^ width) :
    (paddedDigits width number).length = width := by
  have short := (Nat.length_toDigits_le_iff (by decide : 1 < 10) wide).mpr fits
  rw [paddedDigits, List.length_append, List.length_replicate]
  omega

/-- Padded digits write the number. -/
theorem ofDigitChars_paddedDigits (width number : ℕ) :
    Nat.ofDigitChars 10 (paddedDigits width number) 0 = number := by
  rw [paddedDigits, Nat.ofDigitChars_append, Nat.ofDigitChars_replicate_zero, Nat.mul_zero,
    Nat.ofDigitChars_ten_toDigits]

/-- A zero at the end takes one more place. -/
theorem paddedDigits_mul_ten
    {width number : ℕ}
    (wide : 0 < width) :
    paddedDigits (width + 1) (10 * number) = paddedDigits width number ++ ['0'] := by
  rcases Nat.eq_zero_or_pos number with rfl | positive
  · obtain ⟨places, rfl⟩ := Nat.exists_eq_succ_of_ne_zero wide.ne'
    simp [paddedDigits, List.replicate_succ']
  · have shifted := Nat.toDigits_append_toDigits (b := 10) (d := 0) (by decide) positive (by decide)
    rw [Nat.add_zero, Nat.toDigits_zero] at shifted
    simp [paddedDigits, ← shifted, Nat.add_sub_add_right]

/-- Only zeros are left out at the end. -/
theorem exists_trimmedDecimals_append (digits : List Char) :
    ∃ count, digits = trimmedDecimals digits ++ List.replicate count '0' := by
  have split := List.takeWhile_append_dropWhile (p := (· == '0')) (l := digits.reverse)
  have zeros : ∀ c ∈ (digits.reverse.takeWhile (· == '0')).reverse, c = '0' := by
    intro c member
    have isZero := List.mem_takeWhile_imp (p := (· == '0')) (List.mem_reverse.mp member)
    exact eq_of_beq isZero
  refine ⟨(digits.reverse.takeWhile (· == '0')).reverse.length, ?_⟩
  rw [← List.eq_replicate_of_mem zeros, trimmedDecimals, ← List.reverse_append, split,
    List.reverse_reverse]

/-- A zero at the end is cut off. -/
theorem trimmedDecimals_append_zero (digits : List Char) :
    trimmedDecimals (digits ++ ['0']) = trimmedDecimals digits := by
  simp [trimmedDecimals]

/-- No zero is left at the end of trimmed decimals. -/
theorem getLast?_trimmedDecimals (digits : List Char) :
    (trimmedDecimals digits).getLast? ≠ some '0' := by
  rw [trimmedDecimals, List.getLast?_reverse]
  intro isZero
  have stays := List.head?_dropWhile_not (· == '0') digits.reverse
  rw [isZero] at stays
  exact Bool.noConfusion stays

end Digits

/-- A decimal numeral. -/
structure Numeral where
  negative : Bool
  whole : ℕ
  /-- The digits behind the point. -/
  decimals : List Char
  isDigit_of_mem : ∀ c ∈ decimals, c.isDigit = true

namespace Numeral

/-- The numeral as it is written: the point only stands in front of a digit. -/
def text (numeral : Numeral) : String :=
  signText numeral.negative ++ String.ofList (Nat.toDigits 10 numeral.whole) ++
    if numeral.decimals.isEmpty then "" else "." ++ String.ofList numeral.decimals

/-- The number without its sign. -/
def size (numeral : Numeral) : ℚ :=
  numeral.whole + Nat.ofDigitChars 10 numeral.decimals 0 / 10 ^ numeral.decimals.length

def value (numeral : Numeral) : ℚ :=
  if numeral.negative then -numeral.size else numeral.size

/-- The numeral has no zeros at the end of its decimals. -/
def IsTrimmed (numeral : Numeral) : Prop :=
  numeral.decimals.getLast? ≠ some '0'

/-- The digits of a numeral with what stands behind them. -/
def digits (numeral : Numeral) : List Char :=
  Nat.toDigits 10 numeral.whole ++
    if numeral.decimals.isEmpty then [] else '.' :: numeral.decimals

/-- A numeral is written with its sign and its digits. -/
theorem text_eq (numeral : Numeral) :
    numeral.text = signText numeral.negative ++ String.ofList numeral.digits := by
  rw [text, digits, String.append_assoc]
  congr 1
  split <;> simp

theorem toList_text (numeral : Numeral) :
    numeral.text.toList = (if numeral.negative then ['-'] else []) ++ numeral.digits := by
  rw [text_eq, String.toList_append, String.toList_ofList]
  cases numeral.negative <;> rfl

/-- A numeral has a digit in front. -/
theorem exists_digits_eq_cons (numeral : Numeral) :
    ∃ first rest, numeral.digits = first :: rest ∧ first.isDigit = true := by
  obtain ⟨first, rest, split⟩ :=
    List.exists_cons_of_ne_nil (Nat.toDigits_ne_nil (b := 10) (n := numeral.whole))
  refine ⟨first, _, by rw [digits, split, List.cons_append], ?_⟩
  exact Nat.isDigit_of_mem_toDigits (by decide) (by decide) (split ▸ List.mem_cons_self)

/-- The first digits of a numeral are those of its whole part. -/
theorem takeWhile_digits (numeral : Numeral) :
    numeral.digits.takeWhile Char.isDigit = Nat.toDigits 10 numeral.whole := by
  have whole : ∀ c ∈ Nat.toDigits 10 numeral.whole, c.isDigit = true :=
    fun c member => Nat.isDigit_of_mem_toDigits (by decide) (by decide) member
  rw [digits, List.takeWhile_append_of_pos whole]
  split
  · rw [List.takeWhile_nil, List.append_nil]
  · rw [List.takeWhile_cons_of_neg (by decide), List.append_nil]

/-- Numerals that are written alike are the same. -/
theorem text_injective : Function.Injective text := by
  intro numeral other same
  have lists := congrArg String.toList same
  rw [toList_text, toList_text] at lists
  obtain ⟨first, rest, split, isDigit⟩ := numeral.exists_digits_eq_cons
  obtain ⟨second, more, splitOther, isDigitOther⟩ := other.exists_digits_eq_cons
  have sameSign : numeral.negative = other.negative := by
    cases sign : numeral.negative <;> cases signOther : other.negative <;>
      simp only [sign, signOther, split, splitOther] at lists ⊢
    · obtain ⟨rfl, _⟩ := List.cons.inj lists
      cases isDigit
    · obtain ⟨rfl, _⟩ := List.cons.inj lists
      cases isDigitOther
  rw [sameSign] at lists
  have sameDigits := List.append_cancel_left lists
  have sameChars : Nat.toDigits 10 numeral.whole = Nat.toDigits 10 other.whole := by
    rw [← takeWhile_digits, ← takeWhile_digits, sameDigits]
  have sameWhole : numeral.whole = other.whole := by
    calc numeral.whole = Nat.ofDigitChars 10 (Nat.toDigits 10 numeral.whole) 0 :=
          Nat.ofDigitChars_ten_toDigits.symm
      _ = other.whole := by rw [sameChars, Nat.ofDigitChars_ten_toDigits]
  have sameDecimals : numeral.decimals = other.decimals := by
    rw [digits, digits, sameWhole] at sameDigits
    have tails := List.append_cancel_left sameDigits
    cases decimals : numeral.decimals <;> cases decimalsOther : other.decimals <;>
      simp_all
  cases numeral
  cases other
  simp_all

/-! ## Rounded numbers as numerals -/

/-- A count of units of the last of `places` decimals. -/
def fixed (places : ℕ) (negative : Bool) (count : ℕ) : Numeral where
  negative
  whole := count / 10 ^ places
  decimals := paddedDigits places (count % 10 ^ places)
  isDigit_of_mem _ := isDigit_of_mem_paddedDigits

/-- The same without the zeros at the end of the decimals. -/
def trimmed (places : ℕ) (negative : Bool) (count : ℕ) : Numeral where
  negative
  whole := count / 10 ^ places
  decimals := trimmedDecimals (paddedDigits places (count % 10 ^ places))
  isDigit_of_mem c member := by
    obtain ⟨zeros, split⟩ :=
      exists_trimmedDecimals_append (paddedDigits places (count % 10 ^ places))
    apply isDigit_of_mem_paddedDigits
    rw [split]
    exact List.mem_append_left _ member

variable {places : ℕ} (negative : Bool) (count : ℕ)

/-- Trimmed units are written as a trimmed numeral. -/
theorem text_trimmed : (trimmed places negative count).text = trimmedUnits places negative count :=
  rfl

/-- A trimmed numeral has no zero at its end. -/
theorem isTrimmed_trimmed : (trimmed places negative count).IsTrimmed :=
  getLast?_trimmedDecimals _

theorem length_decimals_fixed (wide : 0 < places) :
    (fixed places negative count).decimals.length = places :=
  length_paddedDigits wide (Nat.mod_lt _ (Nat.pow_pos (by decide)))

theorem length_decimals_trimmed (wide : 0 < places) :
    (trimmed places negative count).decimals.length ≤ places := by
  obtain ⟨zeros, split⟩ :=
    exists_trimmedDecimals_append (paddedDigits places (count % 10 ^ places))
  have whole := congrArg List.length split
  rw [length_paddedDigits wide (Nat.mod_lt _ (Nat.pow_pos (by decide))), List.length_append]
    at whole
  dsimp only [trimmed]
  omega

theorem size_fixed (wide : 0 < places) :
    (fixed places negative count).size = count / 10 ^ places := by
  have split := Nat.div_add_mod count (10 ^ places)
  rw [size, length_decimals_fixed negative count wide, fixed, ofDigitChars_paddedDigits]
  have parts : (count : ℚ) = 10 ^ places * ((count / 10 ^ places : ℕ) : ℚ) +
      ((count % 10 ^ places : ℕ) : ℚ) := by
    exact_mod_cast split.symm
  rw [parts]
  field_simp

/-- Zeros at the end of the decimals add nothing. -/
theorem size_trimmed (wide : 0 < places) :
    (trimmed places negative count).size = count / 10 ^ places := by
  obtain ⟨zeros, split⟩ :=
    exists_trimmedDecimals_append (paddedDigits places (count % 10 ^ places))
  rw [← size_fixed negative count wide, size, size, fixed, trimmed]
  dsimp only
  generalize trimmedDecimals (paddedDigits places (count % 10 ^ places)) = kept at split ⊢
  rw [split, Nat.ofDigitChars_append, Nat.ofDigitChars_replicate_zero, List.length_append,
    List.length_replicate, pow_add]
  push_cast
  rw [mul_comm, mul_div_mul_right _ _ (by positivity)]

/-- One more place shows a zero at the end, which is left out. -/
theorem trimmed_mul_ten (wide : 0 < places) :
    trimmed (places + 1) negative (10 * count) = trimmed places negative count := by
  simp only [trimmed, pow_succ', Nat.mul_div_mul_left _ _ (by decide : 0 < 10),
    Nat.mul_mod_mul_left, paddedDigits_mul_ten wide, trimmedDecimals_append_zero]

end Numeral

section Texts

variable (places : ℕ) (negative : Bool) (ratio : Ratio)

/-- The numeral that a number with at most `places` decimals is written as. -/
def trimmedNumeral : Numeral :=
  .trimmed places negative (units places ratio)

/-- A trimmed numeral is written as the number is. -/
theorem text_trimmedNumeral :
    (trimmedNumeral places negative ratio).text = trimmedText places negative ratio :=
  rfl

/-- The numeral that a number with exactly `places` decimals is written as. -/
def fixedNumeral : Numeral :=
  .fixed places negative (units places ratio)

/-- A fixed numeral is written as the number is. -/
theorem text_fixedNumeral (wide : 0 < places) :
    (fixedNumeral places negative ratio).text = fixedText places negative ratio := by
  have shown := Numeral.length_decimals_fixed negative (units places ratio) wide
  rw [Numeral.text, if_neg]
  · rw [fixedText, if_neg wide.ne']
    rfl
  · rw [List.isEmpty_iff_length_eq_zero, fixedNumeral, shown]
    exact wide.ne'

/-- A number as its sign says. -/
def withSign (number : ℚ) : ℚ :=
  if negative then -number else number

variable {places ratio}

/-- A numeral of the nearest count of units is the number rounded. -/
theorem isRounded_of_size
    {numeral : Numeral}
    (positive : 0 < ratio.denominator)
    (size : numeral.size = units places ratio / 10 ^ places) :
    IsRounded places (withSign numeral.negative ratio.value) numeral.value := by
  have rounded := isRounded_units places positive
  rw [← size] at rounded
  rw [withSign, Numeral.value]
  split
  · exact rounded.neg
  · exact rounded

end Texts

end ApkAtlas.Number
