import ApkAtlas.Text.Blank
import ApkAtlas.Text.CodeRange
import ApkAtlas.Text.Word
import ApkAtlas.Proofs.Text.Segment

namespace ApkAtlas.Text

/-!
# Names

Names are made of word characters, `$` and `-`; a class name has dots between its names.
So no character that has a meaning in a signature or in a line of a text stands in a name.
-/

/-- Whether the character may stand in a name. -/
def isNameChar (c : Char) : Bool :=
  isWordChar c || c == '$' || c == '-'

/-- A name of its own: of a package, a class in it, or a member. -/
def IsName (name : String) : Prop :=
  name ≠ "" ∧ ∀ c ∈ name.toList, isNameChar c

instance (name : String) : Decidable (IsName name) :=
  @instDecidableAnd _ _ _ (List.decidableBAll _ _)

/-- A class name, which is names with dots between them. -/
def IsClassName (name : String) : Prop :=
  ∀ segment ∈ split '.' name, IsName segment

instance (name : String) : Decidable (IsClassName name) :=
  List.decidableBAll _ _

/-- Characters that delimit the parts of signatures. -/
def delimiters : List Char :=
  ['/', ';', '[', '(', ')', ',', ':']

/-- A character of plain text: neither blank nor a delimiter. -/
def isPlain (c : Char) : Bool :=
  !isBlank c && !delimiters.contains c

/-- A text of plain characters. -/
def IsPlain (text : List Char) : Prop :=
  ∀ c ∈ text, isPlain c

instance (text : List Char) : Decidable (IsPlain text) :=
  List.decidableBAll _ _

/-- The blank characters beyond the first 128. -/
def distantBlanks : List Nat :=
  [0x85, 0xA0, 0x1680, 0x2000, 0x2001, 0x2002, 0x2003, 0x2004, 0x2005, 0x2006, 0x2007, 0x2008,
    0x2009, 0x200A, 0x2028, 0x2029, 0x202F, 0x205F, 0x3000]

/-- A blank character is among the first 128 or one of the distant ones. -/
theorem mem_distantBlanks
    {c : Char}
    (blank : isBlank c)
    (distant : ¬ c.toNat < 0x80) :
    c.toNat ∈ distantBlanks := by
  simp only [isBlank, Bool.or_eq_true, Bool.and_eq_true, decide_eq_true_eq, beq_iff_eq] at blank
  simp only [distantBlanks, List.mem_cons]
  omega

/-- No range of word characters holds a distant blank. -/
theorem wordRanges_apart_from_blanks :
    (wordRanges.toList.all fun range =>
      distantBlanks.all fun blank => blank < range.1 || range.2 < blank) = true := by
  decide +kernel

/-- No range of decimal digits holds a distant blank. -/
theorem decimalDigitRanges_apart_from_blanks :
    (decimalDigitRanges.toList.all fun range =>
      distantBlanks.all fun blank => blank < range.1 || range.2 < blank) = true := by
  decide +kernel

/-- No word character among the first 128 is blank or a delimiter. -/
theorem isPlain_of_isWordChar_of_lt :
    ∀ code < 0x80, isWordChar (Char.ofNat code) → isPlain (Char.ofNat code) := by
  decide +kernel

/-- No digit among the first 128 is blank or a delimiter. -/
theorem isPlain_of_isDecimalDigit_of_lt :
    ∀ code < 0x80, isDecimalDigit (Char.ofNat code) → isPlain (Char.ofNat code) := by
  decide +kernel

/-- Beyond the first 128, a character is plain if it is in a table apart from the blanks. -/
theorem isPlain_of_holds
    {ranges : CodeRanges}
    (apart :
      (ranges.toList.all fun range =>
        distantBlanks.all fun blank => blank < range.1 || range.2 < blank) = true)
    {c : Char}
    (distant : ¬ c.toNat < 0x80)
    (held : ranges.holds c.toNat) :
    isPlain c := by
  rw [CodeRanges.holds_iff] at held
  obtain ⟨range, inRanges, lower, upper⟩ := held
  have notBlank : isBlank c = false := by
    rw [← Bool.not_eq_true]
    intro blank
    have apart :=
      List.all_eq_true.mp
        (List.all_eq_true.mp apart range (Array.mem_toList_iff.mpr inRanges))
        c.toNat (mem_distantBlanks blank distant)
    simp only [Bool.or_eq_true, decide_eq_true_eq] at apart
    omega
  have noDelimiter : c ∉ delimiters := by
    intro member
    have close : (delimiters.all fun delimiter => delimiter.toNat < 0x80) = true := by
      decide
    exact distant (of_decide_eq_true (List.all_eq_true.mp close c member))
  simp [isPlain, notBlank, noDelimiter]

theorem isPlain_of_isWordChar {c : Char} (word : isWordChar c) : isPlain c := by
  by_cases near : c.toNat < 0x80
  · have plain := isPlain_of_isWordChar_of_lt c.toNat near
    rw [Char.ofNat_toNat] at plain
    exact plain word
  · rw [isWordChar, if_neg near] at word
    exact isPlain_of_holds wordRanges_apart_from_blanks near word

theorem isPlain_of_isDecimalDigit {c : Char} (digit : isDecimalDigit c) : isPlain c := by
  by_cases near : c.toNat < 0x80
  · have plain := isPlain_of_isDecimalDigit_of_lt c.toNat near
    rw [Char.ofNat_toNat] at plain
    exact plain digit
  · rw [isDecimalDigit, decimalDigit?, if_neg near, Option.isSome_map, CodeRanges.start?,
      Option.isSome_map, Array.find?_isSome] at digit
    refine isPlain_of_holds decimalDigitRanges_apart_from_blanks near ?_
    rw [CodeRanges.holds_iff]
    simpa using digit

/-- The digits of ASCII have the codes from 48 to 57. -/
theorem code_of_isDigit {c : Char} (isDigit : c.isDigit) : 48 ≤ c.toNat ∧ c.toNat ≤ 57 := by
  simpa [Char.isDigit, UInt32.le_iff_toNat_le] using isDigit

theorem isPlain_of_isNameChar {c : Char} (isName : isNameChar c) : isPlain c := by
  rw [isNameChar, Bool.or_eq_true, Bool.or_eq_true, beq_iff_eq, beq_iff_eq] at isName
  rcases isName with (word | rfl) | rfl
  · exact isPlain_of_isWordChar word
  · decide
  · decide

section Plain

variable {c : Char} {text : List Char}

/-- No plain character is blank. -/
theorem not_isBlank_of_isPlain (plain : isPlain c) : isBlank c = false := by
  rw [isPlain, Bool.and_eq_true, Bool.not_eq_true'] at plain
  exact plain.1

/-- A plain text has no delimiters. -/
theorem IsPlain.not_mem
    (plain : IsPlain text)
    {delimiter : Char}
    (isDelimiter : isPlain delimiter = false) :
    delimiter ∉ text := by
  intro member
  rw [plain delimiter member] at isDelimiter
  cases isDelimiter

end Plain

section Names

variable {name : String}

/-- Characters of a text are separators or stand in its segments. -/
theorem eq_or_mem_segments
    (separator : Char)
    {c : Char}
    {text : List Char}
    (member : c ∈ text) :
    c = separator ∨ ∃ segment ∈ segments separator text, c ∈ segment := by
  induction text with
  | nil =>
      cases member
  | cons first rest inductionHypothesis =>
      by_cases isSeparator : first = separator
      · rcases List.mem_cons.mp member with rfl | inRest
        · exact .inl isSeparator
        · rcases inductionHypothesis inRest with same | ⟨segment, isSegment, inSegment⟩
          · exact .inl same
          · refine .inr ⟨segment, ?_, inSegment⟩
            rw [segments, if_pos isSeparator]
            exact List.mem_cons_of_mem _ isSegment
      · obtain ⟨piece, pieces, split⟩ :=
          List.exists_cons_of_ne_nil (segments_ne_nil separator rest)
        rw [segments, if_neg isSeparator, split]
        rw [split] at inductionHypothesis
        rcases List.mem_cons.mp member with rfl | inRest
        · exact .inr ⟨c :: piece, List.mem_cons_self, List.mem_cons_self⟩
        · rcases inductionHypothesis inRest with same | ⟨segment, isSegment, inSegment⟩
          · exact .inl same
          · rcases List.mem_cons.mp isSegment with rfl | isLater
            · exact .inr ⟨first :: segment, List.mem_cons_self, List.mem_cons_of_mem _ inSegment⟩
            · exact .inr ⟨segment, List.mem_cons_of_mem _ isLater, inSegment⟩

/-- A name is plain. -/
theorem IsName.isPlain (isName : IsName name) : IsPlain name.toList :=
  fun c member => isPlain_of_isNameChar (isName.2 c member)

/-- The characters of a class name are those of names, and dots. -/
theorem IsClassName.isNameChar_or_eq_dot
    (isClassName : IsClassName name)
    {c : Char}
    (member : c ∈ name.toList) :
    isNameChar c ∨ c = '.' := by
  rcases eq_or_mem_segments '.' member with same | ⟨segment, isSegment, inSegment⟩
  · exact .inr same
  · have isName := isClassName (String.ofList segment) (List.mem_map_of_mem isSegment)
    exact .inl (isName.2 c (by simpa using inSegment))

/-- A class name is plain. -/
theorem IsClassName.isPlain (isClassName : IsClassName name) : IsPlain name.toList := by
  intro c member
  rcases isClassName.isNameChar_or_eq_dot member with isName | rfl
  · exact isPlain_of_isNameChar isName
  · decide

theorem IsClassName.ne_empty (isClassName : IsClassName name) : name ≠ "" := by
  rintro rfl
  exact (isClassName "" (by decide)).1 rfl

end Names

end ApkAtlas.Text
