import ApkAtlas.Proofs.Number.Literal
import ApkAtlas.Proofs.Number.Numeral
import ApkAtlas.Proofs.Xml.NodeEffect

namespace ApkAtlas

/-!
# Typed values read as integers

A typed value is shown as a text, and the text may be read as an integer. Only numbers are read
back as numbers: behind a mark, a point, an exponent or a unit there is always a character that
no integer has.
-/

namespace Number

section Foreign

theorem opens_of_isDigit {c : Char} (digit : c.isDigit = true) : Opens c := by
  have range := Text.code_of_isDigit digit
  obtain ⟨code, least, most, rfl⟩ := exists_code range.1 range.2
  interval_cases code <;> decide

/-- Behind its sign, a text with a foreign character is no integer. -/
theorem ofLiteral?_signText_append
    (negative : Bool)
    {unsigned : String}
    {first c : Char}
    {rest : List Char}
    (written : unsigned.toList = first :: rest)
    (opens : Opens first)
    (member : c ∈ first :: rest)
    (foreign : IsForeign c) :
    ofLiteral? (signText negative ++ unsigned) = none := by
  have minus : (signText negative).toList ∈ [[], ['-']] := by
    cases negative <;> decide
  refine ofLiteral?_eq_none_of_foreign ?_ minus opens member foreign
  rw [String.toList_append, written]

/-- A number with a foreign character in its unit is no integer. -/
theorem ofLiteral?_trimmedText_append
    (places : ℕ)
    (negative : Bool)
    (ratio : Ratio)
    {suffix : String}
    {c : Char}
    (member : c ∈ suffix.toList)
    (foreign : IsForeign c) :
    ofLiteral? (trimmedText places negative ratio ++ suffix) = none := by
  obtain ⟨first, rest, split, isDigit⟩ :=
    (trimmedNumeral places negative ratio).exists_digits_eq_cons
  have signed :
      trimmedText places negative ratio ++ suffix =
        signText negative ++ (String.ofList (first :: rest) ++ suffix) := by
    rw [← text_trimmedNumeral, Numeral.text_eq, split, String.append_assoc]
    rfl
  have written :
      (String.ofList (first :: rest) ++ suffix).toList = first :: (rest ++ suffix.toList) := by
    rw [String.toList_append, String.toList_ofList, List.cons_append]
  rw [signed]
  exact ofLiteral?_signText_append negative written (opens_of_isDigit isDigit)
    (List.mem_append_right (first :: rest) member) foreign

/-- Behind digits stands a point or an exponent with its sign. -/
def IsMarked (text : String) : Prop :=
  ∃ whole mark rest, text.toList = whole ++ mark :: rest ∧ (∀ c ∈ whole, c.isDigit = true) ∧
    Opens mark ∧ ∃ c ∈ mark :: rest, IsForeign c

/-- Digits with a point behind them are no integer literal. -/
theorem isMarked_point
    {whole : List Char}
    (digits : ∀ c ∈ whole, c.isDigit = true)
    (rest : String) :
    IsMarked (String.ofList whole ++ "." ++ rest) := by
  refine ⟨whole, '.', rest.toList, ?_, digits, by decide, '.', List.mem_cons_self, by decide⟩
  simp

/-- Digits with an exponent behind them are no integer literal. -/
theorem isMarked_exponent
    {whole : List Char}
    (digits : ∀ c ∈ whole, c.isDigit = true)
    (below : Prop)
    [Decidable below]
    (rest : String) :
    IsMarked (String.ofList whole ++ (if below then "e-" else "e+") ++ rest) := by
  split
  · refine ⟨whole, 'e', '-' :: rest.toList, ?_, digits, by decide, '-', by simp, by decide⟩
    simp
  · refine ⟨whole, 'e', '+' :: rest.toList, ?_, digits, by decide, '+', by simp, by decide⟩
    simp

theorem isDigit_of_mem_trimmedDecimals
    {number : ℕ}
    {c : Char}
    (member : c ∈ trimmedDecimals (Nat.toDigits 10 number)) :
    c.isDigit = true := by
  obtain ⟨zeros, split⟩ := exists_trimmedDecimals_append (Nat.toDigits 10 number)
  have listed : c ∈ Nat.toDigits 10 number := by
    rw [split]
    exact List.mem_append_left _ member
  exact Nat.isDigit_of_mem_toDigits (by decide) (by decide) listed

/-- The text of a decimal is no integer literal. -/
theorem Decimal.isMarked_text (layout : Layout) (decimal : Decimal) :
    IsMarked (decimal.text layout) := by
  have isDigit (c : Char) := @isDigit_of_mem_trimmedDecimals decimal.digits c
  unfold Decimal.text
  dsimp only
  generalize trimmedDecimals (Nat.toDigits 10 decimal.digits) = digits at isDigit ⊢
  generalize decimal.exponent + (Nat.toDigits 10 decimal.digits).length - 1 = top
  have leading (count : ℕ) : ∀ c ∈ digits.take count, c.isDigit = true :=
    fun c member => isDigit c (List.mem_of_mem_take member)
  split
  · split
    · have zero : "0." = String.ofList ['0'] ++ "." := by
        decide
      rw [zero]
      exact isMarked_point (List.forall_mem_singleton.mpr rfl) _
    · refine isMarked_point (List.forall_mem_append.mpr ⟨leading _, ?_⟩) _
      intro c member
      rw [List.eq_of_mem_replicate member]
      rfl
  · split
    · rw [String.append_empty]
      exact isMarked_exponent (leading 1) _ _
    · rw [← String.append_assoc, String.append_assoc, String.append_assoc]
      exact isMarked_point (leading 1) _

/-- A text that a foreign character opens is no integer. -/
theorem ofLiteral?_eq_none_of_opening
    {text : String}
    {first : Char}
    {rest : List Char}
    (written : text.toList = first :: rest)
    (opens : Opens first)
    (foreign : IsForeign first) :
    ofLiteral? text = none := by
  have unsigned : text.toList = [] ++ first :: rest := written
  exact ofLiteral?_eq_none_of_foreign unsigned List.mem_cons_self opens List.mem_cons_self foreign

/-- The text of a floating-point number is no integer literal. -/
theorem ofLiteral?_singleText (bits : ℕ) : ofLiteral? (singleText bits) = none := by
  unfold singleText
  dsimp only
  generalize (bits / Nat.pow 2 31 % 2 == 1) = negative
  split
  · split
    · exact ofLiteral?_signText_append negative (show "inf".toList = ['i', 'n', 'f'] by decide)
        (by decide) List.mem_cons_self (by decide)
    · exact ofLiteral?_eq_none_of_opening (show "nan".toList = ['n', 'a', 'n'] by decide)
        (by decide) (by decide)
  · split
    · exact ofLiteral?_signText_append negative (show "0.0".toList = ['0', '.', '0'] by decide)
        (by decide) (show '.' ∈ ['0', '.', '0'] by decide) (by decide)
    · generalize Dyadic.shortest _ = decimal
      obtain ⟨whole, mark, rest, written, digits, opens, c, member, foreign⟩ :=
        decimal.isMarked_text plainLayout
      cases whole with
      | nil =>
          exact ofLiteral?_signText_append negative written opens member foreign
      | cons digit more =>
          have digitOpens := opens_of_isDigit (digits digit List.mem_cons_self)
          exact ofLiteral?_signText_append negative written digitOpens
            (List.mem_append_right (digit :: more) member) foreign

end Foreign

end Number

namespace ResourceValue

open Number

/-- A unit, and the code of one that is not known, has a character that no integer has. -/
theorem Complex.exists_foreign_unit
    {units : List String}
    (marked :
      (units.all fun unit => unit.toList.any fun c => decide (IsForeign c)) = true)
    (unit : ℕ) :
    ∃ c ∈ (unitText units unit).toList, IsForeign c := by
  rw [unitText]
  cases found : units[unit]? with
  | none =>
      refine ⟨'(', ?_, by decide⟩
      simp only [Option.getD_none, String.toList_append, List.mem_append]
      exact .inl (.inl (by decide))
  | some text =>
      obtain ⟨c, inText, foreign⟩ :=
        List.any_eq_true.mp (List.all_eq_true.mp marked text (List.mem_of_getElem? found))
      exact ⟨c, inText, of_decide_eq_true foreign⟩

/-- The integer that is read of the text of a typed value. Numbers are read as what they are,
strings as literals; all other kinds have texts that are no integers. -/
def number? (strings : StringPool) (data : ℕ) : Kind → Option ℤ
  | .decimal => some (BitVec.ofNat 32 data).toInt
  | .hexadecimal => some data
  | .string => ofLiteral? (strings.text data)
  | .reference | .attribute => none
  | .float | .dimension | .fraction => none
  | .boolean | .alphaColor | .opaqueColor => none
  | .null | .unknown _ => none

section Texts

variable (strings : StringPool) {data : ℕ}

/-- A word has ten decimal digits at most, so it is read whatever it is. -/
theorem ofLiteral?_decimal (inWord : data < 4294967296) :
    ofLiteral? (textOfKind strings data .decimal) = some (BitVec.ofNat 32 data).toInt := by
  have isWord : (UInt32.ofNat data).toNat = data := by
    rw [UInt32.toNat_ofNat', Nat.mod_eq_of_lt inWord]
  have shown := Xml.Assembly.decimal_text strings (UInt32.ofNat data)
  rw [isWord] at shown
  have written : textOfKind strings data .decimal = toString (BitVec.ofNat 32 data).toInt :=
    shown
  rw [written]
  refine ofLiteral?_eq_some_iff.mpr (isLiteral_toString ?_)
  have least := BitVec.le_toInt (BitVec.ofNat 32 data)
  have most := @BitVec.toInt_lt 32 (BitVec.ofNat 32 data)
  have small : (BitVec.ofNat 32 data).toInt.natAbs < 10 ^ 10 := by
    omega
  have short := (Nat.length_toDigits_le_iff (by decide : 1 < 10) (by decide)).mpr small
  omega

/-- A hexadecimal value is read back from its text. -/
theorem ofLiteral?_hexadecimal (data : ℕ) :
    ofLiteral? (textOfKind strings data .hexadecimal) = some (data : ℤ) := by
  have written : textOfKind strings data .hexadecimal = Text.markedHex 8 data := by
    rw [textOfKind, Text.paddedSignedHex, if_neg (by omega), Text.markedHex]
    rfl
  rw [written]
  exact ofLiteral?_eq_some_iff.mpr (isLiteral_markedHex 8 data)

/-- What number is read from the text of a value of each kind. -/
theorem ofLiteral?_textOfKind
    (inWord : data < 4294967296)
    (kind : Kind) :
    ofLiteral? (textOfKind strings data kind) = number? strings data kind := by
  match kind with
  | .null =>
      rfl
  | .reference =>
      rw [textOfKind]
      split
      · rfl
      · exact ofLiteral?_eq_none_of_opening (String.toList_append) (by decide) (by decide)
  | .attribute =>
      exact ofLiteral?_eq_none_of_opening (String.toList_append) (by decide) (by decide)
  | .string =>
      rfl
  | .float =>
      exact ofLiteral?_singleText _
  | .dimension =>
      obtain ⟨c, member, foreign⟩ :=
        @Complex.exists_foreign_unit Complex.dimensionUnits (by decide)
          (Complex.ofWord data).unit
      exact ofLiteral?_trimmedText_append _ _ _ member foreign
  | .fraction =>
      obtain ⟨c, member, foreign⟩ :=
        @Complex.exists_foreign_unit Complex.fractionUnits (by decide)
          (Complex.ofWord data).unit
      exact ofLiteral?_trimmedText_append _ _ _ member foreign
  | .decimal =>
      exact ofLiteral?_decimal strings inWord
  | .hexadecimal =>
      exact ofLiteral?_hexadecimal strings data
  | .boolean =>
      rw [textOfKind]
      split <;> rfl
  | .alphaColor =>
      exact ofLiteral?_eq_none_of_opening (String.toList_append) (by decide) (by decide)
  | .opaqueColor =>
      exact ofLiteral?_eq_none_of_opening (String.toList_append) (by decide) (by decide)
  | .unknown code =>
      rw [textOfKind, String.append_assoc, String.append_assoc]
      exact ofLiteral?_eq_none_of_opening (String.toList_append) (by decide) (by decide)

end Texts

end ResourceValue

end ApkAtlas
