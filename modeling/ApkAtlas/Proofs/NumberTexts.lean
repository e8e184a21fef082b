import ApkAtlas.Proofs.Number.Numeral
import ApkAtlas.ResourceValue
import ApkAtlas.SizeText

namespace ApkAtlas

/-!
# Numbers as they are shown

A dimension is shown as its number rounded to six decimals, in front of its unit. Up to
fifteen bits behind the point, numbers that differ are further apart than the last decimal, so
they are shown apart and in their order. The percentage of a fraction is that of the rounded
number, not of the number itself, and a size is shown in the unit that it fits before it is
rounded.
-/

open Number

namespace ResourceValue.Complex

section Words

variable (word : BitVec 32)

/-! ## Packed words -/

/-- The signed number in the upper 24 bits of a word. -/
def mantissaOf : ℤ :=
  (word.extractLsb 31 8).toInt

/-- The bits that select the place of the point. -/
def radixOf : ℕ :=
  (word.extractLsb 5 4).toNat

/-- How many bits of the mantissa lie behind the point. -/
def pointOf : ℕ :=
  [0, 7, 15, 23].getD (radixOf word) 0

/-- The code of the unit in the lowest four bits. -/
def unitOf : ℕ :=
  (word.extractLsb 3 0).toNat

/-- The number that a word stands for. -/
def numberOf : ℚ :=
  mantissaOf word / 2 ^ pointOf word

/-- The mantissa is the number with a sign in the upper 24 bits. -/
theorem mantissaOf_eq : mantissaOf word = Bytes.signed 24 (word.toNat / 256) := by
  have inRange := word.isLt
  rw [mantissaOf, BitVec.toInt_eq_toNat_cond, BitVec.extractLsb_toNat, Bytes.signed,
    Nat.shiftRight_eq_div_pow]
  simp only [Nat.pow_eq]
  split <;> split <;> omega

/-- The radix is in the bits four and five. -/
theorem radixOf_eq : radixOf word = word.toNat / 16 % 4 := by
  rw [radixOf, BitVec.extractLsb_toNat, Nat.shiftRight_eq_div_pow]

/-- The unit is in the lowest four bits. -/
theorem unitOf_eq : unitOf word = word.toNat % 16 := by
  rw [unitOf, BitVec.extractLsb_toNat, Nat.shiftRight_eq_div_pow]
  omega

theorem radixOf_lt : radixOf word < 4 := by
  rw [radixOf_eq]
  exact Nat.mod_lt _ (by decide)

/-- The radix tells how many bits are behind the point. -/
theorem pointOf_eq : pointOf word = fractionBitsOf (radixOf word) := by
  have known := radixOf_lt word
  rw [pointOf]
  generalize radixOf word = radix at known ⊢
  interval_cases radix <;> rfl

/-- A word is split into its mantissa, its point and its unit. -/
theorem ofWord_eq : ofWord word.toNat = ⟨mantissaOf word, pointOf word, unitOf word⟩ := by
  have bits : ((word.toNat : ℤ) % wordBound).toNat = word.toNat := by
    have inRange := word.isLt
    rw [wordBound]
    omega
  rw [ofWord, bits, mantissaOf_eq, pointOf_eq, radixOf_eq, unitOf_eq]

/-- The sign is that of the mantissa. -/
theorem negative_ofWord : (ofWord word.toNat).negative = true ↔ mantissaOf word < 0 := by
  rw [ofWord_eq, negative, decide_eq_true_eq]

theorem denominator_size_pos (number : Complex) : 0 < number.size.denominator :=
  Nat.pow_pos (by decide)

/-- The size is that of the mantissa, with the point set. -/
theorem value_size (number : Complex) :
    number.size.value = |(number.mantissa : ℚ)| / 2 ^ number.fractionBits := by
  rw [size, Ratio.value, Nat.pow_eq]
  push_cast [Nat.cast_natAbs]
  rfl

/-- The size with its sign is the number. -/
theorem withSign_value (number : Complex) :
    withSign number.negative number.size.value =
      number.mantissa / 2 ^ number.fractionBits := by
  rw [withSign, negative, value_size]
  by_cases below : number.mantissa < 0
  · have belowRat : (number.mantissa : ℚ) < 0 := by exact_mod_cast below
    rw [if_pos (by simpa using below), abs_of_neg belowRat, neg_div, neg_neg]
  · have nonneg : (0 : ℚ) ≤ number.mantissa := by exact_mod_cast not_lt.mp below
    rw [if_neg (by simpa using below), abs_of_nonneg nonneg]

/-- What is decoded from a word is its number. -/
theorem withSign_ofWord :
    withSign (ofWord word.toNat).negative (ofWord word.toNat).size.value = numberOf word := by
  rw [withSign_value, ofWord_eq, numberOf]

/-- A mantissa with a sign has 23 further bits. -/
theorem natAbs_mantissaOf_le : (mantissaOf word).natAbs ≤ 2 ^ 23 := by
  have inRange := word.isLt
  rw [mantissaOf_eq, Bytes.signed]
  simp only [Nat.pow_eq]
  split <;> omega

/-- The number of a word is a double: its mantissa is short, and the point only shifts it. -/
theorem toDouble_size :
    (ofWord word.toNat).size.toDouble.value = (ofWord word.toNat).size.value := by
  have short := natAbs_mantissaOf_le word
  apply toDouble_eq_self (denominator_size_pos _)
    ⟨(mantissaOf word).natAbs, -(pointOf word : ℤ)⟩
  · dsimp only
    omega
  · rw [ofWord_eq, size, Ratio.value, Dyadic.value, Nat.pow_eq, zpow_neg, zpow_natCast]
    push_cast
    rw [div_eq_mul_inv]

/-- No number of a word is larger than its mantissa can be. -/
theorem value_size_le : (ofWord word.toNat).size.value ≤ 2 ^ 23 := by
  have short : ((mantissaOf word).natAbs : ℚ) ≤ 2 ^ 23 := by
    exact_mod_cast natAbs_mantissaOf_le word
  rw [ofWord_eq, size, Ratio.value, Nat.pow_eq]
  rw [Nat.cast_pow, Nat.cast_ofNat]
  exact (div_le_self (Nat.cast_nonneg _) (one_le_pow₀ (by norm_num))).trans short

end Words

/-! ## Dimensions -/

section Dimensions

variable {first second : BitVec 32}

/-- The numeral that a number is shown as in a dimension. -/
def numeral (number : Complex) : Numeral :=
  trimmedNumeral places number.negative number.size

/-- The text of a dimension is its numeral and its unit. -/
theorem dimensionText_eq (number : Complex) :
    number.dimensionText = number.numeral.text ++ unitText dimensionUnits number.unit :=
  rfl

/-- The numeral of a word is its number rounded to six digits. -/
theorem isRounded_numeral (word : BitVec 32) :
    IsRounded 6 (numberOf word) (ofWord word.toNat).numeral.value := by
  rw [← withSign_ofWord]
  exact isRounded_of_size (denominator_size_pos _)
    (Numeral.size_trimmed _ _ (by decide))

/-- The only numeral that stands in front of the unit of a dimension. -/
theorem eq_numeral_of_dimensionText
    {word : BitVec 32}
    {numeral : Numeral}
    (shown : (ofWord word.toNat).dimensionText =
      numeral.text ++ unitText dimensionUnits (unitOf word)) :
    numeral = (ofWord word.toNat).numeral := by
  have sameUnit : (ofWord word.toNat).unit = unitOf word := by rw [ofWord_eq]
  rw [dimensionText_eq, sameUnit] at shown
  exact Numeral.text_injective (String.append_left_inj _ |>.mp shown.symm)

/-- Up to fifteen bits behind the point, numbers that differ are further apart than the last
decimal. -/
theorem numberOf_apart
    (sameRadix : radixOf first = radixOf second)
    (coarse : radixOf first < 3)
    (below : mantissaOf first < mantissaOf second) :
    numberOf first * 10 ^ 6 + 1 < numberOf second * 10 ^ 6 := by
  have samePoint : pointOf second = pointOf first := by
    rw [pointOf, pointOf, sameRadix]
  have point : pointOf first ≤ 15 := by
    rw [pointOf]
    generalize radixOf first = radix at coarse ⊢
    interval_cases radix <;> decide
  have power : (2 : ℚ) ^ pointOf first ≤ 2 ^ 15 := by
    gcongr
    norm_num
  have step : (mantissaOf first : ℚ) + 1 ≤ mantissaOf second := by
    exact_mod_cast Int.add_one_le_of_lt below
  have positive : (0 : ℚ) < 2 ^ pointOf first := by positivity
  rw [numberOf, numberOf, samePoint]
  have apart : 1 < (1 : ℚ) / 2 ^ pointOf first * 10 ^ 6 := by
    rw [div_mul_eq_mul_div, lt_div_iff₀ positive]
    linarith
  calc (mantissaOf first : ℚ) / 2 ^ pointOf first * 10 ^ 6 + 1
      < (mantissaOf first : ℚ) / 2 ^ pointOf first * 10 ^ 6 +
          1 / 2 ^ pointOf first * 10 ^ 6 := by linarith
    _ = ((mantissaOf first : ℚ) + 1) / 2 ^ pointOf first * 10 ^ 6 := by ring
    _ ≤ (mantissaOf second : ℚ) / 2 ^ pointOf first * 10 ^ 6 := by gcongr

/-- Numerals of one radix, but for the finest, are in the order of the mantissas. -/
theorem numeral_lt_iff
    (sameRadix : radixOf first = radixOf second)
    (coarse : radixOf first < 3) :
    mantissaOf first < mantissaOf second ↔
      (ofWord first.toNat).numeral.value < (ofWord second.toNat).numeral.value := by
  constructor
  · intro below
    exact (isRounded_numeral first).lt_of_lt (isRounded_numeral second)
      (numberOf_apart sameRadix coarse below)
  · intro shownBelow
    by_contra notBelow
    have ordered : numberOf second ≤ numberOf first := by
      have mantissas : (mantissaOf second : ℚ) ≤ mantissaOf first := by
        exact_mod_cast not_lt.mp notBelow
      rw [numberOf, numberOf, pointOf, pointOf, sameRadix]
      gcongr
    exact absurd shownBelow
      (not_lt.mpr ((isRounded_numeral second).mono (isRounded_numeral first) ordered))

/-- A dimension is shown as its number, which is a double, rounded to six decimals. With the
same unit and the same place of the point, at most fifteen bits behind it, numbers are shown
apart and in their order. -/
theorem dimensions_shown_exactly :
    (∀ word : BitVec 32,
      (ofWord word.toNat).size.toDouble.value = |numberOf word| ∧
        ∃ numeral : Numeral,
          (ofWord word.toNat).dimensionText =
              numeral.text ++ unitText dimensionUnits (unitOf word) ∧
            numeral.IsTrimmed ∧
            numeral.decimals.length ≤ 6 ∧
            (numeral.negative = true ↔ mantissaOf word < 0) ∧
            IsRounded 6 (numberOf word) numeral.value) ∧
      ∀ first second : BitVec 32,
        unitOf first = unitOf second → radixOf first = radixOf second → radixOf first < 3 →
          (mantissaOf first ≠ mantissaOf second →
              (ofWord first.toNat).dimensionText ≠ (ofWord second.toNat).dimensionText) ∧
            ∀ numeral other : Numeral,
              (ofWord first.toNat).dimensionText =
                  numeral.text ++ unitText dimensionUnits (unitOf first) →
                (ofWord second.toNat).dimensionText =
                    other.text ++ unitText dimensionUnits (unitOf second) →
                  (mantissaOf first < mantissaOf second ↔ numeral.value < other.value) := by
  refine ⟨fun word => ⟨?_, (ofWord word.toNat).numeral, ?_, ?_, ?_, ?_, ?_⟩, ?_⟩
  · rw [toDouble_size, value_size, ofWord_eq, numberOf, abs_div,
      abs_of_pos (by positivity : (0 : ℚ) < 2 ^ pointOf word)]
  · rw [dimensionText_eq, ofWord_eq]
  · exact Numeral.isTrimmed_trimmed _ _
  · exact Numeral.length_decimals_trimmed _ _ (by decide)
  · exact negative_ofWord word
  · exact isRounded_numeral word
  · intro first second sameUnit sameRadix coarse
    have ordered := numeral_lt_iff sameRadix coarse
    have orderedBack := numeral_lt_iff sameRadix.symm (sameRadix ▸ coarse)
    refine ⟨fun different alike => ?_, fun numeral other shown shownOther => ?_⟩
    · have shown : (ofWord second.toNat).dimensionText =
          (ofWord first.toNat).numeral.text ++ unitText dimensionUnits (unitOf second) := by
        rw [← alike, dimensionText_eq, ← sameUnit, ofWord_eq]
      have same := eq_numeral_of_dimensionText shown
      rw [same] at ordered
      rw [same] at orderedBack
      rcases lt_or_gt_of_ne different with below | above
      · exact lt_irrefl _ (ordered.mp below)
      · exact lt_irrefl _ (orderedBack.mp above)
    · rw [eq_numeral_of_dimensionText shown, eq_numeral_of_dimensionText shownOther]
      exact ordered

/-- Two numbers halfway between two decimals, of both signs. -/
theorem halfwayDimensions_shown :
    unitOf 0xFFFFFF11#32 = unitOf 0x00000311#32 ∧
      radixOf 0xFFFFFF11#32 = radixOf 0x00000311#32 ∧ radixOf 0xFFFFFF11#32 < 3 ∧
      mantissaOf 0xFFFFFF11#32 = -1 ∧ mantissaOf 0x00000311#32 = 3 ∧
      (ofWord 0xFFFFFF11).dimensionText = "-0.007812dp" ∧
      (ofWord 0x00000311).dimensionText = "0.023438dp" ∧
      (ofWord (0xFFFFFF11#32).toNat).dimensionText ≠
        (ofWord (0x00000311#32).toNat).dimensionText :=
  ⟨by decide, by decide, by decide, by decide, by decide, by decide +kernel, by decide +kernel,
    (dimensions_shown_exactly.2 0xFFFFFF11#32 0x00000311#32 (by decide) (by decide)
      (by decide)).1 (by decide)⟩

end Dimensions

/-! ## Fractions -/

section Fractions

/-- The double steps from a rounded number to its percentage are too small to be seen in six
decimals. -/
theorem units_percentage
    {size : Ratio}
    (positive : 0 < size.denominator)
    (small : size.value ≤ 2 ^ 23) :
    units 6 (percentage size) = 10 * (10 * units 6 size) := by
  generalize shown_eq : (⟨units 6 size, Nat.pow 10 6⟩ : Ratio) = shown
  have shownPositive : 0 < shown.denominator := by
    rw [← shown_eq]
    exact Nat.pow_pos (by decide)
  have shownValue : shown.value = units 6 size / 10 ^ 6 := by
    rw [← shown_eq, Ratio.value, Nat.pow_eq]
    norm_num
  have shownNonneg : 0 ≤ shown.value := value_nonneg shown
  have shownSmall : shown.value ≤ 2 ^ 23 := by
    have bound := IsRounded.self 6 (2 ^ 23)
    push_cast at bound
    rw [shownValue]
    exact (isRounded_units 6 positive).mono bound small
  have readBack := abs_le.mp (toDouble_near shownPositive)
  generalize hundredfold_eq : shown.toDouble.toRatio.times 100 = hundredfold
  have hundredfoldPositive : 0 < hundredfold.denominator := by
    rw [← hundredfold_eq, denominator_times]
    exact denominator_toRatio_pos shown.toDouble
  have hundredfoldValue : hundredfold.value = shown.toDouble.value * 100 := by
    rw [← hundredfold_eq, value_times, value_toRatio, Nat.cast_ofNat]
  have multiplied := abs_le.mp (toDouble_near hundredfoldPositive)
  rw [hundredfoldValue] at multiplied
  have isPercentage : percentage size = hundredfold.toDouble.toRatio := by
    rw [← hundredfold_eq, ← shown_eq]
    rfl
  have nearest := isNearest_units 6 (denominator_toRatio_pos hundredfold.toDouble)
  rw [value_toRatio, ← isPercentage] at nearest
  have hundred : IsNearest (hundredfold.toDouble.value * 10 ^ 6)
      ((10 * (10 * units 6 size) : ℕ) : ℤ) := by
    have whole : (units 6 size : ℚ) = shown.value * 10 ^ 6 := by
      rw [shownValue]
      field_simp
    apply IsNearest.of_lt
    push_cast
    rw [whole, abs_lt]
    constructor <;> linarith
  exact_mod_cast nearest.unique hundred

/-- The numeral that a number is shown as in a fraction: the percentage of the rounded number
has two decimals less. -/
def percentNumeral (number : Complex) : Numeral :=
  .trimmed 4 number.negative (units 6 number.size)

/-- The text of a fraction is its numeral as a percentage and its unit. -/
theorem fractionText_ofWord (word : BitVec 32) :
    (ofWord word.toNat).fractionText =
      (ofWord word.toNat).percentNumeral.text ++ unitText fractionUnits (unitOf word) := by
  have steps := units_percentage (denominator_size_pos (ofWord word.toNat)) (value_size_le word)
  have sameUnit : (ofWord word.toNat).unit = unitOf word := by rw [ofWord_eq]
  rw [fractionText, trimmedText, places, steps, ← Numeral.text_trimmed,
    Numeral.trimmed_mul_ten _ _ (by decide), Numeral.trimmed_mul_ten _ _ (by decide), sameUnit]
  rfl

/-- A percentage is a hundred times the numeral that was rounded before. -/
theorem value_percentNumeral (number : Complex) :
    number.percentNumeral.value = 100 * number.numeral.value := by
  have shown : number.percentNumeral.size = 100 * number.numeral.size := by
    rw [percentNumeral, numeral, trimmedNumeral, places, Numeral.size_trimmed _ _ (by decide),
      Numeral.size_trimmed _ _ (by decide)]
    ring
  rw [Numeral.value, Numeral.value, shown]
  show (if number.negative then _ else _) = 100 * if number.negative then _ else _
  split <;> ring

/-- A number rounded to six decimals has the rounded percentage exactly if it was rounded by no
more than half of the eighth decimal. -/
theorem isRounded_percentage_iff
    {number rounded : ℚ}
    (isRounded : IsRounded 6 number rounded) :
    IsRounded 6 (100 * number) (100 * rounded) ↔
      ∃ units : ℤ, |number * 10 ^ 6 - units| ≤ 1 / 200 := by
  obtain ⟨units, nearest, rfl⟩ := isRounded
  have scaled (integer : ℤ) :
      |100 * number * 10 ^ 6 - ((100 * integer : ℤ) : ℚ)| =
        100 * |number * 10 ^ 6 - integer| := by
    have factored : 100 * number * 10 ^ 6 - ((100 * integer : ℤ) : ℚ) =
        100 * (number * 10 ^ 6 - integer) := by
      push_cast
      ring
    rw [factored, abs_mul, abs_of_pos (by norm_num : (0 : ℚ) < 100)]
  constructor
  · rintro ⟨hundredfold, nearestHundredfold, same⟩
    have isHundred : hundredfold = 100 * units := by
      field_simp at same
      exact_mod_cast same.symm
    have close := nearestHundredfold.near
    rw [isHundred, scaled] at close
    exact ⟨units, by linarith⟩
  · rintro ⟨other, close⟩
    have isNearest : IsNearest (number * 10 ^ 6) other :=
      .of_lt (lt_of_le_of_lt close (by norm_num))
    obtain rfl := nearest.unique isNearest
    refine ⟨100 * units, ⟨?_, fun _ => ?_⟩, ?_⟩
    · rw [scaled]
      linarith
    · exact (by decide : Even (100 : ℤ)).mul_right units
    · push_cast
      ring

/-- A fraction is shown as the percentage of the number rounded to six decimals, so with four
decimals at most. That is the percentage rounded to six decimals exactly if the number is no
further than half of the eighth decimal from one with six. -/
theorem fractions_of_rounded_numbers (word : BitVec 32) :
    ∃ numeral : Numeral,
      (ofWord word.toNat).fractionText =
          numeral.text ++ unitText fractionUnits (unitOf word) ∧
        numeral.IsTrimmed ∧
        numeral.decimals.length ≤ 4 ∧
        (numeral.negative = true ↔ mantissaOf word < 0) ∧
        IsRounded 6 (numberOf word) (numeral.value / 100) ∧
        |100 * numberOf word - numeral.value| ≤ 1 / 20000 ∧
        (IsRounded 6 (100 * numberOf word) numeral.value ↔
          ∃ units : ℤ, |numberOf word * 10 ^ 6 - units| ≤ 1 / 200) := by
  have rounded := isRounded_numeral word
  have value := value_percentNumeral (ofWord word.toNat)
  refine ⟨(ofWord word.toNat).percentNumeral, fractionText_ofWord word,
    Numeral.isTrimmed_trimmed _ _, Numeral.length_decimals_trimmed _ _ (by decide),
    negative_ofWord word, ?_, ?_, ?_⟩
  · rw [value, mul_div_cancel_left₀ _ (by norm_num)]
    exact rounded
  · have near := rounded.near
    rw [value, ← mul_sub, abs_mul, abs_of_pos (by norm_num : (0 : ℚ) < 100)]
    linarith
  · rw [value]
    exact isRounded_percentage_iff rounded

/-- The smallest fraction above zero is shown as zero, although its percentage is not zero in
six decimals. -/
theorem smallestFraction_shown_as_zero :
    mantissaOf 0x130#32 = 1 ∧ pointOf 0x130#32 = 23 ∧
      (ofWord 0x130).fractionText = "0%" ∧
      ¬ ∃ numeral : Numeral,
        (ofWord 0x130).fractionText =
            numeral.text ++ unitText fractionUnits (unitOf 0x130#32) ∧
          IsRounded 6 (100 * numberOf 0x130#32) numeral.value := by
  have text : (ofWord 0x130).fractionText = "0%" := by decide +kernel
  refine ⟨by decide, by decide, text, ?_⟩
  rintro ⟨numeral, shown, rounded⟩
  have zero : (Numeral.trimmed 6 false 0).text ++ "%" = "0%" := by decide
  have unit : unitText fractionUnits (unitOf 0x130#32) = "%" := by decide
  rw [text, ← zero, unit] at shown
  have same := Numeral.text_injective ((String.append_left_inj _).mp shown)
  have near := rounded.near
  have number : numberOf 0x130#32 = 1 / 2 ^ 23 := by
    rw [numberOf, (by decide : mantissaOf 0x130#32 = 1), (by decide : pointOf 0x130#32 = 23)]
    norm_num
  have noValue : numeral.value = 0 := by
    rw [← same, Numeral.value, Numeral.size_trimmed _ _ (by decide)]
    norm_num
  rw [number, noValue] at near
  norm_num at near

end Fractions

end ResourceValue.Complex

/-! ## Sizes for people -/

namespace SizeText

/-- The units with the power of 1024 that each stands for. -/
def powers : List (ℕ × String) :=
  [(1, "KB"), (2, "MB"), (3, "GB")]

/-- The numeral that a size is shown as in units of a power of 1024. -/
def numeral (size power : ℕ) : Numeral :=
  fixedNumeral 1 false ⟨size, 1024 ^ power⟩

/-- The numeral of a size is the size in its unit, rounded to one digit behind the point. -/
theorem isRounded_numeral (size power : ℕ) :
    IsRounded 1 ((size : ℚ) / 1024 ^ power) (numeral size power).value := by
  have value : (⟨size, 1024 ^ power⟩ : Ratio).value = (size : ℚ) / 1024 ^ power := by
    rw [Ratio.value]
    push_cast
    rfl
  rw [← value]
  exact isRounded_of_size (Nat.pow_pos (by decide)) (Numeral.size_fixed false _ (by decide))

/-- A size fits a unit if it is below 1024 of it. -/
theorem fits_iff {numerator denominator : ℕ} :
    fits ⟨numerator, denominator⟩ = true ↔ numerator < 1024 * denominator :=
  decide_eq_true_iff

/-- A size that is at least one of the first unit is shown in the first unit that it fits, or in
the last one. -/
theorem exists_inUnits
    (units : List String)
    {size power : ℕ}
    (atLeast : 1024 ^ power ≤ size) :
    ∃ step unit,
      (units ++ ["GB"])[step]? = some unit ∧
        1024 ^ (power + step) ≤ size ∧
        (step < units.length → size < 1024 ^ (power + step + 1)) ∧
        inUnits ⟨size, 1024 ^ power⟩ units = (numeral size (power + step)).text ++ unit := by
  have shown (power : ℕ) : fixedText 1 false ⟨size, 1024 ^ power⟩ = (numeral size power).text :=
    (text_fixedNumeral 1 false _ (by decide)).symm
  induction units generalizing power with
  | nil =>
      refine ⟨0, "GB", rfl, atLeast, fun inside => absurd inside (Nat.not_lt_zero 0), ?_⟩
      rw [inUnits, shown, Nat.add_zero]
  | cons unit larger inductionHypothesis =>
      rw [inUnits]
      by_cases inUnit : size < 1024 * 1024 ^ power
      · refine ⟨0, unit, rfl, atLeast, fun _ => ?_, ?_⟩
        · rwa [Nat.add_zero, pow_succ']
        · rw [if_pos (fits_iff.mpr inUnit), shown, Nat.add_zero]
      · have next : 1024 ^ (power + 1) ≤ size := by
          rw [pow_succ']
          exact not_lt.mp inUnit
        obtain ⟨step, found, isUnit, reached, below, text⟩ := inductionHypothesis next
        rw [if_neg (fun fitting => inUnit (fits_iff.mp fitting)), nextUnit, ← pow_succ, text]
        refine ⟨step + 1, found, isUnit, ?_, fun inside => ?_, ?_⟩
        · rwa [Nat.add_comm step, ← Nat.add_assoc]
        · have limit := below (Nat.lt_of_succ_lt_succ inside)
          rwa [Nat.add_comm step, ← Nat.add_assoc power]
        · rw [Nat.add_comm step, ← Nat.add_assoc]

/-- A size is shown in the largest unit that it reaches, of those that there are. -/
theorem exists_sizeText
    {size : ℕ}
    (large : 1024 ≤ size)
    (isDouble : size < 2 ^ 53) :
    ∃ power unit,
      (power, unit) ∈ powers ∧
        1024 ^ power ≤ size ∧
        (power < 3 → size < 1024 ^ (power + 1)) ∧
        sizeText true size = (numeral size power).text ++ unit := by
  have inKilobytes : sizeText true size = inUnits ⟨size, 1024 ^ 1⟩ ["KB", "MB"] := by
    rw [sizeText, if_pos rfl, if_neg (by omega), kilobytes, Int.toNat_natCast, Nat.pow_eq,
      if_pos isDouble, Nat.pow_one]
  have aboveFirst : 1024 ^ 1 ≤ size := large
  obtain ⟨step, unit, isUnit, reached, below, text⟩ := exists_inUnits ["KB", "MB"] aboveFirst
  have known : step < 3 := (List.getElem?_eq_some_iff.mp isUnit).1
  refine ⟨1 + step, unit, ?_, reached, fun notLast => below ?_, inKilobytes.trans text⟩
  · interval_cases step <;> cases isUnit <;> decide
  · simp
    omega

/-- A rounded quotient reaches 1024 halfway between the last tenth below and 1024. -/
theorem lt_1024_iff
    {quotient rounded : ℚ}
    (isRounded : IsRounded 1 quotient rounded) :
    rounded < 1024 ↔ quotient < 1023.95 := by
  have boundary : IsRounded 1 1023.95 1024 := by
    refine ⟨10240, ⟨?_, fun _ => by decide⟩, by norm_num⟩
    norm_num [abs_le]
  constructor
  · intro below
    by_contra notBelow
    exact absurd below (not_lt.mpr (boundary.mono isRounded (not_lt.mp notBelow)))
  · intro below
    obtain ⟨units, nearest, rfl⟩ := isRounded
    have close := (abs_le.mp nearest.near).1
    have tenths : (units : ℚ) < 10240 := by
      norm_num at close below ⊢
      linarith
    have whole : units ≤ 10239 := by
      have : units < 10240 := by exact_mod_cast tenths
      omega
    have wholeRat : (units : ℚ) ≤ 10239 := by exact_mod_cast whole
    norm_num
    linarith

/-- A size is shown in bytes below 1024, and otherwise in a unit of which it is at least one and,
but for the last, less than 1024, rounded to a tenth. The number shown is below 1024 exactly if
the size is below 1023.95 units. -/
theorem sizes_shown_in_units (size : ℕ) (exact : size < 2 ^ 53) :
    (size < 1024 → sizeText true size = toString size ++ "B") ∧
      (1024 ≤ size →
        ∃ power unit, ∃ numeral : Numeral,
          (power, unit) ∈ powers ∧
            1024 ^ power ≤ size ∧
            (power < 3 → size < 1024 ^ (power + 1)) ∧
            sizeText true size = numeral.text ++ unit ∧
            numeral.negative = false ∧
            numeral.decimals.length = 1 ∧
            IsRounded 1 ((size : ℚ) / 1024 ^ power) numeral.value ∧
            1 ≤ numeral.value ∧
            (power < 3 → numeral.value ≤ 1024 ∧
              (numeral.value < 1024 ↔ (size : ℚ) / 1024 ^ power < 1023.95))) := by
  refine ⟨fun small => ?_, fun large => ?_⟩
  · rw [sizeText, if_pos rfl, if_pos (by omega)]
    rfl
  · obtain ⟨power, unit, isUnit, atLeast, below, text⟩ := exists_sizeText large exact
    have rounded := isRounded_numeral size power
    have positive : (0 : ℚ) < 1024 ^ power := by positivity
    refine ⟨power, unit, numeral size power, isUnit, atLeast, below, text, rfl,
      Numeral.length_decimals_fixed _ _ (by decide), rounded, ?_, fun notLast => ⟨?_, ?_⟩⟩
    · have one := IsRounded.self 1 1
      rw [Int.cast_one] at one
      refine one.mono rounded ?_
      rw [one_le_div positive]
      exact_mod_cast atLeast
    · have most := IsRounded.self 1 1024
      rw [Int.cast_ofNat] at most
      refine rounded.mono most ?_
      have inUnit := below notLast
      rw [pow_succ'] at inUnit
      rw [div_le_iff₀ positive]
      exact_mod_cast inUnit.le
    · exact lt_1024_iff rounded

/-- A size in bytes, and the first size that is shown as 1024 of a unit. -/
theorem firstSize_shown_as_1024 :
    (1023 < 1024 ∧ sizeText true (1023 : ℕ) = toString 1023 ++ "B") ∧
      1024 ≤ 1048525 ∧ 1048525 < 2 ^ 53 ∧
      sizeText true 1048524 = "1023.9KB" ∧ sizeText true 1048525 = "1024.0KB" ∧
      ∃ power unit, ∃ numeral : Numeral,
        (power, unit) ∈ powers ∧
          1024 ^ power ≤ 1048525 ∧
          (power < 3 → 1048525 < 1024 ^ (power + 1)) ∧
          sizeText true (1048525 : ℕ) = numeral.text ++ unit ∧
          numeral.negative = false ∧
          numeral.decimals.length = 1 ∧
          IsRounded 1 (((1048525 : ℕ) : ℚ) / 1024 ^ power) numeral.value ∧
          1 ≤ numeral.value ∧
          (power < 3 → numeral.value ≤ 1024 ∧
            (numeral.value < 1024 ↔ ((1048525 : ℕ) : ℚ) / 1024 ^ power < 1023.95)) :=
  ⟨⟨by decide, (sizes_shown_in_units 1023 (by decide)).1 (by decide)⟩, by decide, by decide,
    by decide +kernel, by decide +kernel,
    (sizes_shown_in_units 1048525 (by decide)).2 (by decide)⟩

/-- One byte less than a megabyte is shown as 1024 kilobytes. -/
theorem almostMegabyte_shown_as_kilobytes :
    sizeText true 1048575 = "1024.0KB" ∧
      ¬ ∃ power unit, ∃ numeral : Numeral,
        (power, unit) ∈ powers ∧
          sizeText true 1048575 = numeral.text ++ unit ∧
          (power < 3 → numeral.value < 1024) := by
  have text : sizeText true 1048575 = "1024.0KB" := by decide +kernel
  refine ⟨text, ?_⟩
  rintro ⟨power, unit, numeral, isUnit, shown, below⟩
  rw [text] at shown
  have kilobytes : (Numeral.fixed 1 false 10240).text ++ "KB" = "1024.0KB" := by decide
  have lastTwo := congrArg (fun shown => shown.toList.reverse.take 2) shown
  simp only [powers, List.mem_cons, Prod.mk.injEq, List.not_mem_nil, or_false] at isUnit
  rcases isUnit with ⟨rfl, rfl⟩ | ⟨_, rfl⟩ | ⟨_, rfl⟩
  · rw [← kilobytes] at shown
    have value := below (by decide)
    rw [← Numeral.text_injective ((String.append_left_inj _).mp shown), Numeral.value,
      Numeral.size_fixed _ _ (by decide)] at value
    norm_num [Numeral.fixed] at value
  · simp at lastTwo
  · simp at lastTwo

end SizeText

end ApkAtlas
