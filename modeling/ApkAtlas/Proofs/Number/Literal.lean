import ApkAtlas.Number.Literal
import ApkAtlas.Proofs.Datum.JsonToken
import ApkAtlas.Proofs.Text.Name
import ApkAtlas.Proofs.Text.Trim
import ApkAtlas.Text.Hex
import Mathlib.Data.List.DropRight
import Mathlib.Tactic

namespace ApkAtlas.Number

/-!
# The grammar of integer literals

A literal with the base taken from the text is an optional sign and digits, with space around
it. The digits are those of the base that a mark selects, or decimal ones; single underscores
may stand between them. A text is read as an integer exactly if it is a literal of that
integer. So the texts of integers, decimal or marked as hexadecimal, are read back, and a text
with any other character is read as no integer.
-/

/-! ## Grammar -/

/-- The character is the digit of a value in a base, where letters are of either case. -/
def IsDigitOf (base : ℕ) (c : Char) (value : ℕ) : Prop :=
  value < base ∧ (c = Nat.digitChar value ∨ c = (Nat.digitChar value).toUpper)

instance (base : ℕ) (c : Char) (value : ℕ) : Decidable (IsDigitOf base c value) :=
  inferInstanceAs (Decidable (_ ∧ _))

/-- Digits with their values; one underscore may stand between two digits. -/
inductive IsDigits (base : ℕ) : List Char → List ℕ → Prop where
  | single {c : Char} {value : ℕ} (digit : IsDigitOf base c value) : IsDigits base [c] [value]
  | next {c : Char} {value : ℕ} {text : List Char} {values : List ℕ}
      (digit : IsDigitOf base c value) (rest : IsDigits base text values) :
      IsDigits base (c :: text) (value :: values)
  | spaced {c : Char} {value : ℕ} {text : List Char} {values : List ℕ}
      (digit : IsDigitOf base c value) (rest : IsDigits base text values) :
      IsDigits base (c :: '_' :: text) (value :: values)

/-- The marks behind a zero that select a base. -/
def marks : List (Char × ℕ) :=
  [('x', 16), ('X', 16), ('o', 8), ('O', 8), ('b', 2), ('B', 2)]

/-- Literals without sign. A decimal one has at most 4300 digits and no zero in front, unless it
is zero itself; marked ones are of any length, and an underscore may follow the mark. -/
inductive IsUnsigned : List Char → ℕ → Prop where
  | decimal {text : List Char} {values : List ℕ} (digits : IsDigits 10 text values)
      (short : values.length ≤ 4300)
      (leading : text.head? = some '0' → ofDigits 10 values = 0) :
      IsUnsigned text (ofDigits 10 values)
  | marked {mark : Char} {base : ℕ} {text : List Char} {values : List ℕ}
      (known : (mark, base) ∈ marks) (digits : IsDigits base text values) :
      IsUnsigned ('0' :: mark :: text) (ofDigits base values)
  | spaced {mark : Char} {base : ℕ} {text : List Char} {values : List ℕ}
      (known : (mark, base) ∈ marks) (digits : IsDigits base text values) :
      IsUnsigned ('0' :: mark :: '_' :: text) (ofDigits base values)

/-- A sign with the number that it makes of a magnitude. -/
inductive IsSigned : List Char → ℕ → ℤ → Prop where
  | none {magnitude : ℕ} : IsSigned [] magnitude magnitude
  | plus {magnitude : ℕ} : IsSigned ['+'] magnitude magnitude
  | minus {magnitude : ℕ} : IsSigned ['-'] magnitude (-magnitude)

/-- The text is a literal of an integer: space, sign, digits of any script, space. -/
def IsLiteral (text : String) (number : ℤ) : Prop :=
  ∃ front sign body back magnitude,
    text.toList = front ++ (sign ++ (body ++ back)) ∧
      (∀ c ∈ front, isMargin c = true) ∧
      (∀ c ∈ back, isMargin c = true) ∧
      IsUnsigned (body.map plainDigit) magnitude ∧
      IsSigned sign magnitude number

section Digits

variable {base : ℕ} {c : Char} {value : ℕ} {text : List Char} {values : List ℕ}

/-- The characters between two of them are those with the codes between theirs. -/
theorem exists_code
    {first last : ℕ}
    (least : first ≤ c.toNat)
    (most : c.toNat ≤ last) :
    ∃ code, first ≤ code ∧ code ≤ last ∧ c = Char.ofNat code :=
  ⟨c.toNat, least, most, (Char.ofNat_toNat c).symm⟩

/-- The reader of digits knows exactly those of base sixteen. -/
theorem digit?_eq_some_iff : digit? c = some value ↔ IsDigitOf 16 c value := by
  constructor
  · intro read
    rw [digit?] at read
    split at read
    · rename_i isDigit
      have range := Text.code_of_isDigit isDigit
      obtain ⟨code, least, most, rfl⟩ := exists_code range.1 range.2
      cases read
      interval_cases code <;> decide
    · split at read
      · rename_i range
        obtain ⟨code, least, most, rfl⟩ :=
          exists_code (show 97 ≤ c.toNat from range.1) (show c.toNat ≤ 102 from range.2)
        cases read
        interval_cases code <;> decide
      · split at read
        · rename_i range
          obtain ⟨code, least, most, rfl⟩ :=
            exists_code (show 65 ≤ c.toNat from range.1) (show c.toNat ≤ 70 from range.2)
          cases read
          interval_cases code <;> decide
        · cases read
  · rintro ⟨small, rfl | rfl⟩
    · revert small
      revert value
      decide
    · revert small
      revert value
      decide

/-- Below a base the reader knows exactly the digits of that base. -/
theorem digitBelow?_eq_some_iff (small : base ≤ 16) :
    digitBelow? base c = some value ↔ IsDigitOf base c value := by
  rw [digitBelow?, Option.filter_eq_some_iff, digit?_eq_some_iff, decide_eq_true_eq]
  constructor
  · rintro ⟨⟨_, written⟩, below⟩
    exact ⟨below, written⟩
  · rintro ⟨below, written⟩
    exact ⟨⟨by omega, written⟩, below⟩

/-- An underscore is no digit in any base. -/
theorem not_isDigitOf_underscore (small : base ≤ 16) : ¬ IsDigitOf base '_' value := by
  intro digit
  have read := (digitBelow?_eq_some_iff small).mpr digit
  cases read

/-- Exactly digits with single underscores between them are read. -/
theorem digits?_eq_some_iff (small : base ≤ 16) :
    digits? base text = some values ↔ IsDigits base text values := by
  constructor
  · intro read
    fun_induction digits? base text generalizing values with
    | case1 =>
        cases read
    | case2 c =>
        obtain ⟨value, isDigit, rfl⟩ := Option.map_eq_some_iff.mp read
        exact .single ((digitBelow?_eq_some_iff small).mp isDigit)
    | case3 c rest inductionHypothesis =>
        obtain ⟨value, isDigit, read⟩ := Option.bind_eq_some_iff.mp read
        obtain ⟨others, readOthers, same⟩ := Option.bind_eq_some_iff.mp read
        cases same
        exact .spaced ((digitBelow?_eq_some_iff small).mp isDigit) (inductionHypothesis readOthers)
    | case4 c next rest _ inductionHypothesis =>
        obtain ⟨value, isDigit, read⟩ := Option.bind_eq_some_iff.mp read
        obtain ⟨others, readOthers, same⟩ := Option.bind_eq_some_iff.mp read
        cases same
        exact .next ((digitBelow?_eq_some_iff small).mp isDigit) (inductionHypothesis readOthers)
  · intro digits
    induction digits with
    | single digit =>
        rw [digits?, (digitBelow?_eq_some_iff small).mpr digit]
        rfl
    | next digit rest inductionHypothesis =>
        rename_i c value text values
        cases text with
        | nil =>
            cases rest
        | cons next more =>
            have noUnderscore : next ≠ '_' := by
              rintro rfl
              cases rest <;> exact not_isDigitOf_underscore small ‹_›
            rw [digits?, (digitBelow?_eq_some_iff small).mpr digit, inductionHypothesis]
            · rfl
            · exact noUnderscore
    | spaced digit rest inductionHypothesis =>
        rw [digits?, (digitBelow?_eq_some_iff small).mpr digit, inductionHypothesis]
        rfl

end Digits

/-! ## Literals without sign -/

section Unsigned

variable {base : ℕ} {text : List Char} {magnitude : ℕ}

/-- Digits do not begin with an underscore. -/
theorem not_isDigits_underscore
    (small : base ≤ 16)
    {rest : List Char}
    {values : List ℕ} :
    ¬ IsDigits base ('_' :: rest) values := by
  intro digits
  cases digits <;> exact not_isDigitOf_underscore small ‹_›

/-- Exactly decimal digits are read that are not too many, as the number that they write. -/
theorem decimal?_eq_some_iff :
    decimal? text = some magnitude ↔
      ∃ values, IsDigits 10 text values ∧ values.length ≤ 4300 ∧
        ofDigits 10 values = magnitude := by
  constructor
  · intro read
    obtain ⟨values, readDigits, read⟩ := Option.bind_eq_some_iff.mp read
    refine ⟨values, (digits?_eq_some_iff (by decide)).mp readDigits, ?_⟩
    rw [digitLimit] at read
    split at read
    · cases read
    · rename_i short
      cases read
      exact ⟨Nat.not_lt.mp short, rfl⟩
  · rintro ⟨values, digits, short, rfl⟩
    rw [decimal?, (digits?_eq_some_iff (by decide)).mpr digits]
    simp [digitLimit, Nat.not_lt.mpr short]

/-- Behind the mark of a base one underscore may stand before the digits. -/
theorem marked?_eq_some_iff (small : base ≤ 16) :
    marked? base text = some magnitude ↔
      ∃ values, ofDigits base values = magnitude ∧
        (IsDigits base text values ∨ ∃ rest, text = '_' :: rest ∧ IsDigits base rest values) := by
  unfold marked?
  simp only [Option.map_eq_some_iff, digits?_eq_some_iff small]
  constructor
  · rintro ⟨values, digits, value⟩
    refine ⟨values, value, ?_⟩
    split at digits
    · exact .inr ⟨_, rfl, digits⟩
    · exact .inl digits
  · rintro ⟨values, value, digits | ⟨rest, rfl, digits⟩⟩
    · refine ⟨values, ?_, value⟩
      split
      · exact absurd digits (not_isDigits_underscore small)
      · exact digits
    · exact ⟨values, digits, value⟩

/-- No digits of a base stand around a mark, so a mark is told from decimal digits. -/
theorem not_isDigits_mark
    {mark : Char}
    (known : (mark, base) ∈ marks)
    {first : Char}
    {rest : List Char}
    {values : List ℕ} :
    ¬ IsDigits 10 (first :: mark :: rest) values := by
  have noDigit : ∀ entry ∈ marks, ∀ value < 10, ¬ IsDigitOf 10 entry.1 value := by
    decide
  intro digits
  have foreign (value : ℕ) : ¬ IsDigitOf 10 mark value :=
    fun digit => noDigit _ known value digit.1 digit
  cases digits with
  | next _ digits =>
      cases digits <;> exact foreign _ ‹_›
  | spaced =>
      revert known
      simp [marks]

/-- No base that has a mark exceeds sixteen. -/
theorem small_of_mem_marks {mark : Char} (known : (mark, base) ∈ marks) : base ≤ 16 := by
  have bases : ∀ entry ∈ marks, entry.2 ≤ 16 := by
    decide
  exact bases _ known

/-- A mark tells in which base the digits behind it are read. -/
theorem anyBase?_of_mem_marks
    {mark : Char}
    (known : (mark, base) ∈ marks)
    (rest : List Char) :
    anyBase? ('0' :: mark :: rest) = marked? base rest := by
  simp only [marks, List.mem_cons, Prod.mk.injEq, List.not_mem_nil, or_false] at known
  rcases known with ⟨rfl, rfl⟩ | ⟨rfl, rfl⟩ | ⟨rfl, rfl⟩ | ⟨rfl, rfl⟩ | ⟨rfl, rfl⟩ | ⟨rfl, rfl⟩ <;>
    rfl

/-- Without a mark behind a zero a literal is decimal, and a zero in front is the only digit
that counts. -/
theorem anyBase?_of_unmarked
    (unmarked : ∀ mark base rest, (mark, base) ∈ marks → text ≠ '0' :: mark :: rest) :
    anyBase? text =
      (decimal? text).filter fun value => decide (text.head? = some '0' → value = 0) := by
  unfold anyBase?
  split
  · rename_i next rest
    have other :
        next ≠ 'x' ∧ next ≠ 'X' ∧ next ≠ 'o' ∧ next ≠ 'O' ∧ next ≠ 'b' ∧ next ≠ 'B' := by
      refine ⟨?_, ?_, ?_, ?_, ?_, ?_⟩ <;> rintro rfl
      · exact unmarked 'x' 16 rest (by decide) rfl
      · exact unmarked 'X' 16 rest (by decide) rfl
      · exact unmarked 'o' 8 rest (by decide) rfl
      · exact unmarked 'O' 8 rest (by decide) rfl
      · exact unmarked 'b' 2 rest (by decide) rfl
      · exact unmarked 'B' 2 rest (by decide) rfl
    simp [other, beq_eq_decide]
  · rename_i other
    cases text with
    | nil =>
        rfl
    | cons first rest =>
        by_cases zero : first = '0'
        · subst zero
          cases rest with
          | nil =>
              rfl
          | cons next rest =>
              exact absurd rfl (other next rest)
        · ext value
          simp [Option.filter_eq_some_iff, zero]

/-- A text without sign is read as a number exactly if it is a literal of it. -/
theorem anyBase?_eq_some_iff : anyBase? text = some magnitude ↔ IsUnsigned text magnitude := by
  constructor
  · intro read
    by_cases shape : ∃ mark base rest, (mark, base) ∈ marks ∧ text = '0' :: mark :: rest
    · obtain ⟨mark, base, rest, known, rfl⟩ := shape
      rw [anyBase?_of_mem_marks known, marked?_eq_some_iff (small_of_mem_marks known)] at read
      obtain ⟨values, rfl, digits | ⟨rest, rfl, digits⟩⟩ := read
      · exact .marked known digits
      · exact .spaced known digits
    · rw [anyBase?_of_unmarked fun mark base rest known same =>
        shape ⟨mark, base, rest, known, same⟩] at read
      obtain ⟨isDecimal, leading⟩ := Option.filter_eq_some_iff.mp read
      obtain ⟨values, digits, short, rfl⟩ := decimal?_eq_some_iff.mp isDecimal
      exact .decimal digits short (of_decide_eq_true leading)
  · intro unsigned
    cases unsigned with
    | decimal digits short leading =>
        rw [anyBase?_of_unmarked fun mark base rest known same =>
          not_isDigits_mark known (same ▸ digits)]
        rw [decimal?_eq_some_iff.mpr ⟨_, digits, short, rfl⟩]
        exact Option.filter_some_pos (decide_eq_true leading)
    | marked known digits =>
        rw [anyBase?_of_mem_marks known, marked?_eq_some_iff (small_of_mem_marks known)]
        exact ⟨_, rfl, .inl digits⟩
    | spaced known digits =>
        rw [anyBase?_of_mem_marks known, marked?_eq_some_iff (small_of_mem_marks known)]
        exact ⟨_, rfl, .inr ⟨_, rfl, digits⟩⟩

/-- The characters of literals without sign. -/
def characters : List Char :=
  "0123456789abcdefABCDEFxXoO_".toList

theorem IsDigitOf.mem_characters
    (small : base ≤ 16)
    {c : Char}
    {value : ℕ}
    (digit : IsDigitOf base c value) :
    c ∈ characters := by
  have listed :
      ∀ value < 16,
        Nat.digitChar value ∈ characters ∧ (Nat.digitChar value).toUpper ∈ characters := by
    decide
  obtain ⟨below, rfl | rfl⟩ := digit
  · exact (listed value (by omega)).1
  · exact (listed value (by omega)).2

theorem IsDigits.mem_characters
    (small : base ≤ 16)
    {values : List ℕ}
    (digits : IsDigits base text values) :
    ∀ c ∈ text, c ∈ characters := by
  induction digits with
  | single digit =>
      exact List.forall_mem_singleton.mpr (digit.mem_characters small)
  | next digit _ inductionHypothesis =>
      exact List.forall_mem_cons.mpr ⟨digit.mem_characters small, inductionHypothesis⟩
  | spaced digit _ inductionHypothesis =>
      refine List.forall_mem_cons.mpr ⟨digit.mem_characters small, ?_⟩
      exact List.forall_mem_cons.mpr ⟨by decide, inductionHypothesis⟩

theorem IsUnsigned.mem_characters (unsigned : IsUnsigned text magnitude) :
    ∀ c ∈ text, c ∈ characters := by
  have listed : '0' ∈ characters ∧ '_' ∈ characters ∧ ∀ entry ∈ marks, entry.1 ∈ characters := by
    decide
  obtain ⟨zero, underscore, mark⟩ := listed
  cases unsigned with
  | decimal digits _ _ =>
      exact digits.mem_characters (by decide)
  | marked known digits =>
      refine List.forall_mem_cons.mpr ⟨zero, List.forall_mem_cons.mpr ⟨mark _ known, ?_⟩⟩
      exact digits.mem_characters (small_of_mem_marks known)
  | spaced known digits =>
      refine List.forall_mem_cons.mpr ⟨zero, List.forall_mem_cons.mpr ⟨mark _ known, ?_⟩⟩
      refine List.forall_mem_cons.mpr ⟨underscore, ?_⟩
      exact digits.mem_characters (small_of_mem_marks known)

theorem IsUnsigned.ne_nil (unsigned : IsUnsigned text magnitude) : text ≠ [] := by
  cases unsigned with
  | decimal digits _ _ =>
      cases digits <;> simp
  | marked _ _ =>
      simp
  | spaced _ _ =>
      simp

end Unsigned

/-! ## Space, sign and digits of other scripts -/

section Signed

variable {c : Char} {text : List Char}

/-- A character stays as it is or becomes one of the ten plain digits. -/
theorem plainDigit_eq_or (c : Char) :
    plainDigit c = c ∨ ∃ value < 10, plainDigit c = Char.ofNat (0x30 + value) := by
  unfold plainDigit
  split
  · rename_i value isDigit
    refine .inr ⟨value, ?_, rfl⟩
    unfold Text.decimalDigit? at isDigit
    split at isDigit
    · split at isDigit
      · rename_i isDigitChar
        have range := Text.code_of_isDigit isDigitChar
        cases isDigit
        omega
      · cases isDigit
    · obtain ⟨start, _, rfl⟩ := Option.map_eq_some_iff.mp isDigit
      exact Nat.mod_lt _ (by decide)
  · exact .inl rfl

/-- A character that is no digit in ASCII comes from no digit of another script. -/
theorem eq_of_plainDigit_eq
    {d : Char}
    (noDigit : d.isDigit = false)
    (same : plainDigit c = d) :
    c = d := by
  rcases plainDigit_eq_or c with unchanged | ⟨value, small, isDigit⟩
  · rw [← unchanged, same]
  · have digits : ∀ value < 10, (Char.ofNat (0x30 + value)).isDigit = true := by
      decide
    rw [← same, isDigit, digits value small] at noDigit
    cases noDigit

/-- A digit of any script is no space. -/
theorem plainDigit_of_isMargin (margin : isMargin c = true) : plainDigit c = c := by
  have blank : Text.isBlank c = true :=
    (Bool.and_eq_true_iff.mp margin).1
  unfold plainDigit
  split
  · rename_i value isDigit
    have plain := Text.isPlain_of_isDecimalDigit (show Text.isDecimalDigit c = true by
      rw [Text.isDecimalDigit, isDigit]
      rfl)
    rw [Text.not_isBlank_of_isPlain plain] at blank
    cases blank
  · rfl

theorem isMargin_of_mem_characters (member : plainDigit c ∈ characters) : isMargin c = false := by
  have solid : (characters.all fun c => !isMargin c) = true := by
    decide
  by_contra margin
  have margin := Bool.not_eq_false _ ▸ margin
  rw [plainDigit_of_isMargin margin] at member
  have notMargin := List.all_eq_true.mp solid c member
  rw [margin] at notMargin
  cases notMargin

/-- Nothing of a literal with its sign is cut off as a margin. -/
theorem isMargin_of_mem_signed
    {sign body : List Char}
    {magnitude : ℕ}
    {number : ℤ}
    (unsigned : IsUnsigned (body.map plainDigit) magnitude)
    (signed : IsSigned sign magnitude number) :
    ∀ c ∈ sign ++ body, isMargin c = false := by
  refine List.forall_mem_append.mpr ⟨?_, ?_⟩
  · cases signed with
    | none =>
        exact List.forall_mem_nil _
    | plus | minus =>
        exact List.forall_mem_singleton.mpr (by decide)
  · exact fun c member =>
      isMargin_of_mem_characters (unsigned.mem_characters _ (List.mem_map_of_mem member))

/-- Space at the ends is cut off, and no more than that. -/
theorem core_eq
    {text : String}
    {front middle back : List Char}
    (written : text.toList = front ++ (middle ++ back))
    (frontMargin : ∀ c ∈ front, isMargin c = true)
    (backMargin : ∀ c ∈ back, isMargin c = true)
    (solid : ∀ c ∈ middle, isMargin c = false)
    (nonempty : middle ≠ []) :
    core text = middle := by
  obtain ⟨first, rest, rfl⟩ := List.exists_cons_of_ne_nil nonempty
  have firstStays : ¬ isMargin first = true := by
    simp [solid first List.mem_cons_self]
  rw [core, written, List.dropWhile_append_of_pos frontMargin, List.cons_append,
    List.dropWhile_cons_of_neg firstStays, ← List.cons_append,
    Text.trimEndWhere_append backMargin]
  exact Text.trimEndWhere_eq_self (List.getLast?_eq_some_getLast nonempty)
    (solid _ (List.getLast_mem nonempty))

/-- A text is its core between two margins. -/
theorem exists_margins (text : String) :
    ∃ front back, text.toList = front ++ (core text ++ back) ∧
      (∀ c ∈ front, isMargin c = true) ∧ ∀ c ∈ back, isMargin c = true := by
  refine ⟨text.toList.takeWhile isMargin, (text.toList.dropWhile isMargin).rtakeWhile isMargin,
    ?_, fun _ => List.mem_takeWhile_imp, fun _ => List.mem_rtakeWhile_imp⟩
  have cut :
      Text.trimEndWhere isMargin (text.toList.dropWhile isMargin) ++
          (text.toList.dropWhile isMargin).rtakeWhile isMargin =
        text.toList.dropWhile isMargin :=
    List.rdropWhile_append_rtakeWhile
  rw [core, cut]
  exact List.takeWhile_append_dropWhile.symm

/-- Exactly literals behind one sign or none are read. -/
theorem signed?_eq_some_iff {number : ℤ} :
    signed? anyBase? (text.map plainDigit) = some number ↔
      ∃ sign body magnitude, text = sign ++ body ∧ IsUnsigned (body.map plainDigit) magnitude ∧
        IsSigned sign magnitude number := by
  have signs : '-' ∉ characters ∧ '+' ∉ characters := by
    decide
  constructor
  · intro read
    unfold signed? at read
    split at read <;> rename_i shape
    · rename_i rest
      rcases found : anyBase? rest with _ | magnitude <;> rw [found] at read <;> cases read
      have unsigned := anyBase?_eq_some_iff.mp found
      obtain ⟨c, body, rfl, isMinus, rfl⟩ := List.map_eq_cons_iff.mp shape
      cases eq_of_plainDigit_eq (by decide) isMinus
      exact ⟨['-'], body, magnitude, rfl, unsigned, .minus⟩
    · obtain ⟨magnitude, found, rfl⟩ := Option.map_eq_some_iff.mp read
      have unsigned := anyBase?_eq_some_iff.mp found
      obtain ⟨c, body, rfl, isPlus, rfl⟩ := List.map_eq_cons_iff.mp shape
      cases eq_of_plainDigit_eq (by decide) isPlus
      exact ⟨['+'], body, magnitude, rfl, unsigned, .plus⟩
    · obtain ⟨magnitude, found, rfl⟩ := Option.map_eq_some_iff.mp read
      exact ⟨[], text, magnitude, rfl, anyBase?_eq_some_iff.mp found, .none⟩
  · rintro ⟨sign, body, magnitude, rfl, unsigned, signed⟩
    have read := anyBase?_eq_some_iff.mpr unsigned
    cases signed with
    | none =>
        rw [List.nil_append]
        unfold signed?
        split
        · rename_i shape
          exact absurd (unsigned.mem_characters '-' (by simp [shape])) signs.1
        · rename_i shape
          exact absurd (unsigned.mem_characters '+' (by simp [shape])) signs.2
        · rw [read]
          rfl
    | plus =>
        have plus : plainDigit '+' = '+' := by
          decide
        rw [List.singleton_append, List.map_cons, plus, signed?, read]
        rfl
    | minus =>
        have minus : plainDigit '-' = '-' := by
          decide
        rw [List.singleton_append, List.map_cons, minus, signed?, read]
        rfl

/-- Exactly the literals of the grammar are read, each as its number. -/
theorem ofLiteral?_eq_some_iff {text : String} {number : ℤ} :
    ofLiteral? text = some number ↔ IsLiteral text number := by
  rw [ofLiteral?, signed?_eq_some_iff]
  constructor
  · rintro ⟨sign, body, magnitude, shape, unsigned, signed⟩
    obtain ⟨front, back, written, frontMargin, backMargin⟩ := exists_margins text
    rw [shape, List.append_assoc] at written
    exact ⟨front, sign, body, back, magnitude, written, frontMargin, backMargin, unsigned, signed⟩
  · rintro ⟨front, sign, body, back, magnitude, written, frontMargin, backMargin, unsigned, signed⟩
    refine ⟨sign, body, magnitude, ?_, unsigned, signed⟩
    rw [← List.append_assoc sign] at written
    refine core_eq written frontMargin backMargin (isMargin_of_mem_signed unsigned signed) ?_
    exact List.append_ne_nil_of_right_ne_nil _ (fun none => unsigned.ne_nil (by rw [none]; rfl))

/-! ## Written numbers -/

theorem plainDigit_of_mem_characters (member : c ∈ characters) : plainDigit c = c := by
  have plain : (characters.all fun c => plainDigit c == c) = true := by
    decide
  exact eq_of_beq (List.all_eq_true.mp plain c member)

/-- A literal in ASCII without space around it. -/
theorem isLiteral_of_unsigned
    {text : String}
    {sign body : List Char}
    {magnitude : ℕ}
    {number : ℤ}
    (written : text.toList = sign ++ body)
    (unsigned : IsUnsigned body magnitude)
    (signed : IsSigned sign magnitude number) :
    IsLiteral text number := by
  have plain : body.map plainDigit = body :=
    (List.map_congr_left fun c member =>
      plainDigit_of_mem_characters (unsigned.mem_characters c member)).trans (List.map_id' body)
  refine ⟨[], sign, body, [], magnitude, ?_, by simp, by simp, ?_, signed⟩
  · rw [List.append_nil, written, List.nil_append]
  · rwa [plain]

end Signed

section Written

variable {base : ℕ} {text : List Char} {values : List ℕ}

/-- One more digit multiplies the number by the base and adds its value. -/
theorem ofDigits_append_singleton (value : ℕ) :
    ofDigits base (values ++ [value]) = ofDigits base values * base + value := by
  rw [ofDigits, List.foldl_append]
  rfl

/-- Digits may be followed by one more. -/
theorem IsDigits.append_singleton
    (digits : IsDigits base text values)
    {c : Char}
    {value : ℕ}
    (digit : IsDigitOf base c value) :
    IsDigits base (text ++ [c]) (values ++ [value]) := by
  induction digits with
  | single first =>
      exact .next first (.single digit)
  | next first _ inductionHypothesis =>
      exact .next first inductionHypothesis
  | spaced first _ inductionHypothesis =>
      exact .spaced first inductionHypothesis

/-- The digits of a number are written with its last digit behind those of the rest. -/
theorem exists_isDigits_toDigits
    (least : 1 < base)
    (number : ℕ) :
    ∃ values, IsDigits base (Nat.toDigits base number) values ∧
      values.length = (Nat.toDigits base number).length ∧ ofDigits base values = number := by
  induction number using Nat.strongRecOn with
  | ind number inductionHypothesis =>
      rw [Nat.toDigits_eq_if least]
      split
      · rename_i small
        refine ⟨[number], .single ⟨small, .inl rfl⟩, rfl, ?_⟩
        simp [ofDigits]
      · rename_i large
        have smaller : number / base < number :=
          Nat.div_lt_self (by omega) least
        obtain ⟨values, digits, length, value⟩ := inductionHypothesis _ smaller
        have last : IsDigitOf base (Nat.digitChar (number % base)) (number % base) :=
          ⟨Nat.mod_lt _ (by omega), .inl rfl⟩
        refine ⟨values ++ [number % base], digits.append_singleton last, ?_, ?_⟩
        · simp [length]
        · rw [ofDigits_append_singleton, value]
          exact Nat.div_add_mod' number base

/-- Leading zeros do not change the number. -/
theorem IsDigits.padded
    (positive : 0 < base)
    (digits : IsDigits base text values)
    (zeros : ℕ) :
    ∃ longer, IsDigits base (List.replicate zeros '0' ++ text) longer ∧
      ofDigits base longer = ofDigits base values := by
  induction zeros with
  | zero =>
      exact ⟨values, digits, rfl⟩
  | succ zeros inductionHypothesis =>
      obtain ⟨longer, digits, value⟩ := inductionHypothesis
      refine ⟨0 :: longer, .next ⟨positive, .inl rfl⟩ digits, ?_⟩
      rw [← value, ofDigits, List.foldl_cons, Nat.zero_mul]
      rfl

/-- The decimal digits of a number are a literal of it, if they are not too many. -/
theorem isUnsigned_toDigits
    {number : ℕ}
    (short : (Nat.toDigits 10 number).length ≤ 4300) :
    IsUnsigned (Nat.toDigits 10 number) number := by
  obtain ⟨values, digits, length, value⟩ :=
    exists_isDigits_toDigits (show 1 < 10 by decide) number
  have unsigned := IsUnsigned.decimal digits (length.trans_le short)
  rw [value] at unsigned
  refine unsigned fun leading => ?_
  by_contra positive
  exact Datum.head?_toDigits_ne_zero (Nat.pos_of_ne_zero positive) leading

/-- The decimal text of an integer is a literal of it. -/
theorem isLiteral_toString
    {number : ℤ}
    (short : (Nat.toDigits 10 number.natAbs).length ≤ 4300) :
    IsLiteral (toString number) number := by
  cases number with
  | ofNat magnitude =>
      have written : (toString (Int.ofNat magnitude)).toList = Nat.toDigits 10 magnitude :=
        Nat.toList_repr
      exact isLiteral_of_unsigned written (isUnsigned_toDigits short) .none
  | negSucc magnitude =>
      have written :
          (toString (Int.negSucc magnitude)).toList =
            ['-'] ++ Nat.toDigits 10 (magnitude + 1) := by
        have signed : toString (Int.negSucc magnitude) = "-" ++ (magnitude + 1).repr := rfl
        rw [signed, String.toList_append, Nat.toList_repr]
        rfl
      exact isLiteral_of_unsigned written (isUnsigned_toDigits short) .minus

/-- The marked hexadecimal text of a number is a literal of it. -/
theorem isLiteral_markedHex (width number : ℕ) :
    IsLiteral (Text.markedHex width number) number := by
  obtain ⟨values, digits, _, value⟩ := exists_isDigits_toDigits (show 1 < 16 by decide) number
  obtain ⟨longer, digits, same⟩ :=
    digits.padded (by decide) (width - (Nat.toDigits 16 number).length)
  have unsigned := IsUnsigned.marked (show ('x', 16) ∈ marks by decide) digits
  rw [same, value] at unsigned
  refine isLiteral_of_unsigned ?_ unsigned .none
  simp [Text.markedHex, Text.hex]

end Written

/-! ## Texts that are no literals -/

/-- The characters that stand neither behind the sign of a literal nor around it. -/
def IsForeign (c : Char) : Prop :=
  isMargin c = false ∧ plainDigit c ∉ characters

instance (c : Char) : Decidable (IsForeign c) :=
  inferInstanceAs (Decidable (_ ∧ _))

/-- The characters that are part of the number of a text if they open it: no space, no sign. -/
def Opens (c : Char) : Prop :=
  isMargin c = false ∧ c ≠ '-' ∧ c ≠ '+'

instance (c : Char) : Decidable (Opens c) :=
  inferInstanceAs (Decidable (_ ∧ _))

section Foreign

variable {text : String} {number : ℤ} {front sign body : List Char} {c : Char}

/-- What opens a number behind a minus sign or without one is behind the space and the sign of
any literal that it is part of. -/
theorem eq_of_append_eq_opens
    {otherSign otherBody : List Char}
    {magnitude : ℕ}
    {first : Char}
    {rest : List Char}
    (opens : Opens first)
    (minus : sign ∈ [[], ['-']])
    (margins : ∀ c ∈ front, isMargin c = true)
    (signed : IsSigned otherSign magnitude number)
    (noMinus : '-' ∉ otherBody)
    (same : sign ++ first :: rest = front ++ (otherSign ++ otherBody)) :
    first :: rest = otherBody := by
  obtain ⟨solid, notMinus, notPlus⟩ := opens
  simp only [List.mem_cons, List.not_mem_nil, or_false] at minus
  have noFront : front = [] := by
    cases front with
    | nil =>
        rfl
    | cons margin more =>
        have isMargin := margins margin List.mem_cons_self
        rcases minus with rfl | rfl
        · rw [← (List.cons.inj same).1, solid] at isMargin
          cases isMargin
        · rw [← (List.cons.inj same).1] at isMargin
          cases isMargin
  subst noFront
  rcases minus with rfl | rfl
  · cases signed with
    | none =>
        exact same
    | plus =>
        exact absurd (List.cons.inj same).1 notPlus
    | minus =>
        exact absurd (List.cons.inj same).1 notMinus
  · cases signed with
    | none =>
        have isBody : '-' :: first :: rest = otherBody := same
        exact absurd (isBody ▸ List.mem_cons_self) noMinus
    | plus =>
        cases (List.cons.inj same).1
    | minus =>
        exact (List.cons.inj same).2

/-- A text with a foreign character behind its minus sign, or without one, is no integer. -/
theorem ofLiteral?_eq_none_of_foreign
    {first : Char}
    {rest : List Char}
    (written : text.toList = sign ++ first :: rest)
    (minus : sign ∈ [[], ['-']])
    (opens : Opens first)
    (member : c ∈ first :: rest)
    (foreign : IsForeign c) :
    ofLiteral? text = none := by
  rw [Option.eq_none_iff_forall_ne_some]
  intro number read
  obtain ⟨front, otherSign, otherBody, back, magnitude, shape, frontMargin, backMargin, unsigned,
    signed⟩ := ofLiteral?_eq_some_iff.mp read
  have familiar (c : Char) (foreign : IsForeign c) : c ∉ otherBody ++ back := by
    intro member
    rcases List.mem_append.mp member with inBody | inBack
    · exact foreign.2 (unsigned.mem_characters _ (List.mem_map_of_mem inBody))
    · exact Bool.false_ne_true (foreign.1.symm.trans (backMargin c inBack))
  rw [written] at shape
  have same :=
    eq_of_append_eq_opens opens minus frontMargin signed (familiar '-' (by decide)) shape
  exact familiar c foreign (same ▸ member)

end Foreign

end ApkAtlas.Number
