import ApkAtlas.Datum.Json
import ApkAtlas.Proofs.Text.Utf16
import Mathlib.Data.List.TakeWhile
import Mathlib.Tactic.IntervalCases

namespace ApkAtlas.Datum

/-!
# Written JSON tokens are read back

A string is read back character by character: each has one of four written forms, and none of
them can be taken for another or for the closing quote. A number is read back as long as what
follows cannot go on with it.
-/

/-! ## Units of sixteen bits -/

/-- The hexadecimal digits are read back. -/
theorem hexDigit?_digitChar : ∀ digit < 16, hexDigit? (Nat.digitChar digit) = some digit := by
  decide

/-- The last digit comes behind those of the number without it. -/
theorem toList_hex_succ
    {width : Nat}
    (wide : 0 < width)
    (number : Nat) :
    (Text.hex (width + 1) number).toList =
      (Text.hex width (number / 16)).toList ++ [Nat.digitChar (number % 16)] := by
  rw [Text.hex, Text.hex, String.toList_ofList, String.toList_ofList]
  by_cases small : number < 16
  · have least : Nat.toDigits 16 (number / 16) = ['0'] := by
      rw [Nat.div_eq_of_lt small]
      rfl
    obtain ⟨places, rfl⟩ : ∃ places, width = places + 1 := ⟨width - 1, by omega⟩
    rw [Nat.toDigits_eq_if (by decide), if_pos small, least, Nat.mod_eq_of_lt small]
    simp [List.replicate_succ']
  · rw [Nat.toDigits_eq_if (by decide), if_neg small]
    simp [Nat.add_sub_add_right]

/-- A unit has four hexadecimal digits. -/
theorem toList_hex_four
    {unit : Nat}
    (small : unit < 0x10000) :
    (Text.hex 4 unit).toList =
      [ Nat.digitChar (unit / 16 / 16 / 16), Nat.digitChar (unit / 16 / 16 % 16),
        Nat.digitChar (unit / 16 % 16), Nat.digitChar (unit % 16) ] := by
  have leading :
      (Text.hex 1 (unit / 16 / 16 / 16)).toList = [Nat.digitChar (unit / 16 / 16 / 16)] := by
    rw [Text.hex, Nat.toDigits_eq_if (by decide), if_pos (by omega), String.toList_ofList]
    rfl
  rw [toList_hex_succ (by decide), toList_hex_succ (by decide), toList_hex_succ (by decide),
    leading]
  rfl

/-- A unit that is written with four digits is read back. -/
theorem jsonUnit?_hex
    {unit : Nat}
    (small : unit < 0x10000)
    (rest : List Char) :
    jsonUnit? ((Text.hex 4 unit).toList ++ rest) = some (unit, rest) := by
  have first := hexDigit?_digitChar (unit / 16 / 16 / 16) (by omega)
  have second := hexDigit?_digitChar (unit / 16 / 16 % 16) (by omega)
  have third := hexDigit?_digitChar (unit / 16 % 16) (by omega)
  have fourth := hexDigit?_digitChar (unit % 16) (by omega)
  have value :
      ((unit / 16 / 16 / 16 * 16 + unit / 16 / 16 % 16) * 16 + unit / 16 % 16) * 16 + unit % 16 =
        unit := by
    omega
  rw [toList_hex_four small]
  simp [jsonUnit?, first, second, third, fourth, value]

/-! ## Strings -/

/-- The reading of one character more. -/
def putChar (c : Char) (read : List Char × List Char) : List Char × List Char :=
  (c :: read.1, read.2)

/-- A short escape is one mark, which is read back as its character. -/
theorem exists_mark_of_shortEscape
    {c : Char}
    {escape : String}
    (short : shortEscape? c = some escape) :
    ∃ mark, escape.toList = ['\\', mark] ∧ mark ≠ 'u' ∧ shortEscaped? mark = some c := by
  unfold shortEscape? at short
  split_ifs at short with quote backslash line carriage tab back feed <;>
    cases short <;>
    subst_vars
  · exact ⟨'"', by decide⟩
  · exact ⟨'\\', by decide⟩
  · exact ⟨'n', by decide⟩
  · exact ⟨'r', by decide⟩
  · exact ⟨'t', by decide⟩
  · exact ⟨'b', by decide⟩
  · exact ⟨'f', by decide⟩

/-- A character with a short escape is read back. -/
theorem jsonString?_shortEscape
    {c : Char}
    {escape : String}
    (short : shortEscape? c = some escape)
    (fuel : Nat)
    (rest : List Char) :
    jsonString? (fuel + 1) (escape.toList ++ rest) = (jsonString? fuel rest).map (putChar c) := by
  obtain ⟨mark, written, noUnit, escaped⟩ := exists_mark_of_shortEscape short
  rw [written]
  simp only [List.cons_append, List.nil_append, jsonString?, escaped]
  cases jsonString? fuel rest <;> rfl

/-- A plain character is read back as it is. -/
theorem jsonString?_plain
    {c : Char}
    (noShort : shortEscape? c = none)
    (noControl : 0x20 ≤ c.toNat)
    (fuel : Nat)
    (rest : List Char) :
    jsonString? (fuel + 1) (c :: rest) = (jsonString? fuel rest).map (putChar c) := by
  have noQuote : c ≠ '"' := by
    rintro rfl
    cases noShort
  have noBackslash : c ≠ '\\' := by
    rintro rfl
    cases noShort
  have printed : ¬ c.toNat < 0x20 := by
    omega
  rw [jsonString?]
  · simp only [printed, if_false]
    cases jsonString? fuel rest <;> rfl
  · exact noQuote
  · exact fun _ isBackslash => absurd isBackslash noBackslash
  · exact fun _ _ isBackslash => absurd isBackslash noBackslash

/-- A character that is written by its units is read back. -/
theorem jsonString?_unitEscape
    (c : Char)
    (fuel : Nat)
    (rest : List Char) :
    jsonString? (fuel + 1) ((unitEscape c).toList ++ rest) =
      (jsonString? fuel rest).map (putChar c) := by
  have valid := Text.Utf16.toNat_valid c
  have marked (unit : Nat) (rest : List Char) :
      ("\\u" ++ Text.hex 4 unit).toList ++ rest =
        '\\' :: 'u' :: ((Text.hex 4 unit).toList ++ rest) := by
    simp
  rw [unitEscape]
  split
  · rename_i basic
    have noSurrogate : (decide (0xD800 ≤ c.toNat) && decide (c.toNat ≤ 0xDBFF)) = false := by
      simp
      omega
    rw [marked, jsonString?, jsonUnit?_hex basic]
    simp only [Option.bind_eq_bind, Option.bind_some, noSurrogate, Bool.false_eq_true, if_false,
      Option.pure_def, Char.ofNat_toNat]
    cases jsonString? fuel rest <;> rfl
  · rename_i beyond
    obtain ⟨high, isHighUnit⟩ : ∃ high, high = 0xD800 + (c.toNat - 0x10000) / 0x400 := ⟨_, rfl⟩
    obtain ⟨low, isLowUnit⟩ : ∃ low, low = 0xDC00 + (c.toNat - 0x10000) % 0x400 := ⟨_, rfl⟩
    have isHigh : (decide (0xD800 ≤ high) && decide (high ≤ 0xDBFF)) = true := by
      simp only [Bool.and_eq_true, decide_eq_true_eq]
      omega
    have isLow : (decide (0xDC00 ≤ low) && decide (low ≤ 0xDFFF)) = true := by
      simp only [Bool.and_eq_true, decide_eq_true_eq]
      omega
    have highUnit : high < 0x10000 := by
      omega
    have lowUnit : low < 0x10000 := by
      omega
    have paired : 0x10000 + (high - 0xD800) * 0x400 + (low - 0xDC00) = c.toNat := by
      omega
    have written :
        ("\\u" ++ Text.hex 4 high ++ "\\u" ++ Text.hex 4 low).toList ++ rest =
          '\\' :: 'u' :: ((Text.hex 4 high).toList ++
            '\\' :: 'u' :: ((Text.hex 4 low).toList ++ rest)) := by
      simp
    rw [← isHighUnit, ← isLowUnit, written, jsonString?, jsonUnit?_hex highUnit]
    simp only [Option.bind_eq_bind, Option.bind_some, isHigh, if_true, jsonUnit?_hex lowUnit,
      isLow, paired, Option.pure_def, Char.ofNat_toNat]
    cases jsonString? fuel rest <;> rfl

/-- Every written character is read back as one. -/
theorem jsonString?_jsonChar
    (ascii : Bool)
    (c : Char)
    (fuel : Nat)
    (rest : List Char) :
    jsonString? (fuel + 1) ((jsonChar ascii c).toList ++ rest) =
      (jsonString? fuel rest).map (putChar c) := by
  rw [jsonChar]
  split
  · rename_i short
    exact jsonString?_shortEscape short fuel rest
  · rename_i noShort
    split
    · exact jsonString?_unitEscape c fuel rest
    · rename_i printed
      have noControl : 0x20 ≤ c.toNat := by
        simp only [Bool.or_eq_true, decide_eq_true_eq, not_or] at printed
        omega
      rw [String.toList_singleton]
      exact jsonString?_plain noShort noControl fuel rest

/-- Written characters are read back up to the quotation mark. -/
theorem jsonString?_chars
    (ascii : Bool)
    (chars rest : List Char)
    {fuel : Nat}
    (enough : chars.length < fuel) :
    jsonString? fuel (chars.flatMap (fun c => (jsonChar ascii c).toList) ++ '"' :: rest) =
      some (chars, rest) := by
  induction chars generalizing fuel with
  | nil =>
      obtain ⟨more, rfl⟩ := Nat.exists_eq_add_one.mpr enough
      rfl
  | cons c others inductionHypothesis =>
      rw [List.length_cons] at enough
      obtain ⟨more, rfl⟩ := Nat.exists_eq_add_one.mpr (Nat.zero_lt_of_lt enough)
      rw [List.flatMap_cons, List.append_assoc, jsonString?_jsonChar,
        inductionHypothesis (by omega)]
      rfl

/-- The characters between the quotes of a written text. -/
def jsonBody (ascii : Bool) (text : String) : List Char :=
  text.toList.flatMap fun c => (jsonChar ascii c).toList

/-- A text is written between quotation marks. -/
theorem toList_jsonText
    (ascii : Bool)
    (text : String) :
    (jsonText ascii text).toList = '"' :: (jsonBody ascii text ++ ['"']) := by
  have joined : (String.join (text.toList.map (jsonChar ascii))).toList = jsonBody ascii text := by
    rw [String.toList_join, List.flatMap_map]
    rfl
  rw [jsonText, String.toList_append, String.toList_append, joined]
  rfl

/-- Nothing would be read back as no character. -/
theorem toList_jsonChar_ne_nil
    (ascii : Bool)
    (c : Char) :
    (jsonChar ascii c).toList ≠ [] := by
  intro empty
  have read := jsonString?_jsonChar ascii c 0 ['"']
  rw [empty] at read
  cases read

theorem length_le_jsonBody
    (ascii : Bool)
    (text : String) :
    text.toList.length ≤ (jsonBody ascii text).length := by
  rw [jsonBody]
  induction text.toList with
  | nil =>
      exact Nat.le_refl 0
  | cons c rest inductionHypothesis =>
      have positive := List.length_pos_iff.mpr (toList_jsonChar_ne_nil ascii c)
      rw [List.flatMap_cons, List.length_append, List.length_cons]
      omega

/-- A written text is read back, whatever follows it. -/
theorem jsonString?_jsonBody
    (ascii : Bool)
    (text : String)
    (rest : List Char) :
    jsonString? ((jsonBody ascii text ++ '"' :: rest).length + 1)
        (jsonBody ascii text ++ '"' :: rest) = some (text.toList, rest) := by
  apply jsonString?_chars
  have bounded := length_le_jsonBody ascii text
  rw [List.length_append]
  omega

/-! ## Numbers -/

/-- What may follow a written value: nothing, a comma or a new line. -/
def Stops (rest : List Char) : Prop :=
  ∀ c ∈ rest.head?, c = ',' ∨ c = '\n'

theorem toDigits_ne_nil (number : Nat) : Nat.toDigits 10 number ≠ [] := by
  rw [Nat.toDigits_eq_if (by decide)]
  split <;> simp

/-- A positive number is written without a zero in front. -/
theorem head?_toDigits_ne_zero
    {number : Nat}
    (positive : 0 < number) :
    (Nat.toDigits 10 number).head? ≠ some '0' := by
  induction number using Nat.strongRecOn with
  | ind number inductionHypothesis =>
      rw [Nat.toDigits_eq_if (by decide)]
      split
      · rename_i small
        have nonzero : ∀ digit < 10, 0 < digit → Nat.digitChar digit ≠ '0' := by
          decide
        simpa using nonzero number small positive
      · rename_i large
        have first := inductionHypothesis (number / 10) (by omega) (by omega)
        obtain ⟨digit, more, digits⟩ := List.exists_cons_of_ne_nil (toDigits_ne_nil (number / 10))
        rw [digits] at first ⊢
        exact first

/-- The digits of a number give the number. -/
theorem value_toDigits (number : Nat) :
    (Nat.toDigits 10 number).foldl (fun value c => value * 10 + (c.toNat - 0x30)) 0 = number := by
  have read := @Nat.ofDigitChars_ten_toDigits number
  rw [Nat.ofDigitChars_eq_foldl] at read
  simp only [Nat.mul_comm 10] at read
  exact read

/-- The digits of a number are read up to where they stop. -/
theorem takeWhile_toDigits
    {rest : List Char}
    (stops : Stops rest)
    (number : Nat) :
    (Nat.toDigits 10 number ++ rest).takeWhile Char.isDigit = Nat.toDigits 10 number := by
  rw [List.takeWhile_append_of_pos fun c member =>
    Nat.isDigit_of_mem_toDigits (by decide) (by decide) member]
  have nothing : rest.takeWhile Char.isDigit = [] := by
    cases rest with
    | nil =>
        rfl
    | cons c more =>
        rcases stops c rfl with rfl | rfl <;> rfl
  rw [nothing, List.append_nil]

/-- A number is written with a digit in front. -/
theorem exists_digit (number : Nat) :
    ∃ first more, Nat.toDigits 10 number = first :: more ∧ first ≠ '-' := by
  obtain ⟨first, more, digits⟩ := List.exists_cons_of_ne_nil (toDigits_ne_nil number)
  have isDigit : first.isDigit = true :=
    Nat.isDigit_of_mem_toDigits (by decide) (by decide) (digits ▸ List.mem_cons_self)
  refine ⟨first, more, digits, ?_⟩
  rintro rfl
  cases isDigit

/-- A number without a sign is read back. -/
theorem jsonInt?_toDigits
    {rest : List Char}
    (stops : Stops rest)
    (number : Nat) :
    jsonInt? (Nat.toDigits 10 number ++ rest) = some ((number : Int), rest) := by
  have taken := takeWhile_toDigits stops number
  have value := value_toDigits number
  obtain ⟨first, more, digits, noSign⟩ := exists_digit number
  have noZero (second : Char) (others : List Char) :
      Nat.toDigits 10 number ≠ '0' :: second :: others := by
    intro leading
    by_cases zero : number = 0
    · subst zero
      cases leading
    · apply head?_toDigits_ne_zero (Nat.pos_of_ne_zero zero)
      rw [leading]
      rfl
  rw [jsonInt?]
  · simp only [taken, List.drop_left, value]
    split
    · rename_i none
      exact absurd none (toDigits_ne_nil number)
    · rename_i leading
      exact absurd leading (noZero _ _)
    · rcases stops _ rfl with wrong | wrong <;> cases wrong
    · rcases stops _ rfl with wrong | wrong <;> cases wrong
    · rcases stops _ rfl with wrong | wrong <;> cases wrong
    · rfl
  · intro body signed
    rw [digits] at signed
    exact noSign (List.cons.inj signed).1

/-- A sign in front of digits gives the opposite number. -/
theorem jsonInt?_minus
    {first : Char}
    (noSign : first ≠ '-')
    (more : List Char) :
    jsonInt? ('-' :: first :: more) =
      (jsonInt? (first :: more)).map fun read => (-read.1, read.2) := by
  rw [jsonInt?, jsonInt?]
  · split <;> simp_all
  · exact fun _ signed => noSign (List.cons.inj signed).1

/-- A written integer is read back. -/
theorem jsonInt?_toString
    {rest : List Char}
    (stops : Stops rest)
    (value : Int) :
    jsonInt? ((toString value).toList ++ rest) = some (value, rest) := by
  cases value with
  | ofNat number =>
      have written : (toString (Int.ofNat number)).toList = Nat.toDigits 10 number :=
        Nat.toList_repr
      rw [written]
      exact jsonInt?_toDigits stops number
  | negSucc number =>
      have written : (toString (Int.negSucc number)).toList =
          '-' :: Nat.toDigits 10 (number + 1) := by
        have signed : toString (Int.negSucc number) = "-" ++ (number + 1).repr := rfl
        rw [signed, String.toList_append, Nat.toList_repr]
        rfl
      have read := jsonInt?_toDigits stops (number + 1)
      obtain ⟨first, more, digits, noSign⟩ := exists_digit (number + 1)
      rw [digits, List.cons_append] at read
      rw [written, digits, List.cons_append, List.cons_append, jsonInt?_minus noSign, read]
      rfl

end ApkAtlas.Datum
