import ApkAtlas.Proofs.Text.Name
import ApkAtlas.Symbols.MappingText

namespace ApkAtlas.MappingText

/-!
# The grammar of mapping lines

A line of a mapping text is parts in a row: tokens, gaps and an arrow, and for a member a line
range, an argument list and source lines that may be missing. The reader goes through a line
once, from front to back, and never takes back what it took as a part. It accepts exactly the
lines that can be divided into such parts in some way.
-/

/-- Blanks, of which there is at least one. -/
def IsGap (text : List Char) : Prop :=
  text ≠ [] ∧ ∀ c ∈ text, Text.isBlank c

/-- Characters without a blank, of which there is at least one. -/
def IsSolid (text : List Char) : Prop :=
  text ≠ [] ∧ ∀ c ∈ text, Text.isBlank c = false

/-- Decimal digits, of which there is at least one. -/
def IsLineNumber (text : List Char) : Prop :=
  text ≠ [] ∧ ∀ c ∈ text, Text.isDecimalDigit c

/-- The name of a member ends in front of its argument list. -/
def IsMemberName (text : List Char) : Prop :=
  IsSolid text ∧ '(' ∉ text

/-- `->` with gaps around it. -/
inductive IsArrow : List Char → Prop
  | between
      {before after : List Char}
      (gapBefore : IsGap before)
      (gapAfter : IsGap after) :
      IsArrow (before ++ '-' :: '>' :: after)

/-- The line range of a member in front of its type, as in `1:4:`, or none. -/
inductive IsRange : List Char → Prop
  | missing : IsRange []
  | lines
      {first last : List Char}
      (isFirst : IsLineNumber first)
      (isLast : IsLineNumber last) :
      IsRange (first ++ ':' :: (last ++ [':']))

/-- The argument list of a member, as in `(int)`, or none. -/
inductive IsArguments : List Char → Prop
  | missing : IsArguments []
  | listed
      {inner : List Char}
      (closes : ')' ∉ inner) :
      IsArguments ('(' :: (inner ++ [')']))

/-- The source lines of a member, as in `:12` and `:12:15`, or none. -/
inductive IsSourceLines : List Char → Prop
  | missing : IsSourceLines []
  | single
      {line : List Char}
      (isLine : IsLineNumber line) :
      IsSourceLines (':' :: line)
  | range
      {first last : List Char}
      (isFirst : IsLineNumber first)
      (isLast : IsLineNumber last) :
      IsSourceLines (':' :: (first ++ ':' :: last))

/-- A class line: `original -> obfuscated:`. -/
inductive IsClassLine : List Char → Prop
  | parts
      {source arrow target : List Char}
      (isSource : IsSolid source)
      (isArrow : IsArrow arrow)
      (isTarget : IsSolid target) :
      IsClassLine (source ++ (arrow ++ (target ++ [':'])))

/-- A member line: `    1:4:type name(arguments):12:15 -> obfuscated`, where all but the type,
the names and the arrow may be missing. -/
inductive IsMemberLine : List Char → Prop
  | parts
      {indent range type gap name arguments lines arrow target : List Char}
      (isIndent : IsGap indent)
      (isRange : IsRange range)
      (isType : IsSolid type)
      (isGap : IsGap gap)
      (isName : IsMemberName name)
      (isArguments : IsArguments arguments)
      (isLines : IsSourceLines lines)
      (isArrow : IsArrow arrow)
      (isTarget : IsSolid target) :
      IsMemberLine
        (indent ++
          (range ++ (type ++ (gap ++ (name ++ (arguments ++ (lines ++ (arrow ++ target))))))))

section Parts

variable {text rest : List Char}

/-- A text does not go on with a character of some kind. -/
def StopsAt (goesOn : Char → Bool) (rest : List Char) : Prop :=
  ∀ first, rest.head? = some first → goesOn first = false

/-- A text goes on up to where it stops. -/
theorem takeWhile_append_of_stopsAt
    {goesOn : Char → Bool}
    (all : ∀ c ∈ text, goesOn c)
    (stops : StopsAt goesOn rest) :
    (text ++ rest).takeWhile goesOn = text ∧ (text ++ rest).dropWhile goesOn = rest := by
  rw [List.takeWhile_append_of_pos all, List.dropWhile_append_of_pos all]
  cases rest with
  | nil =>
      simp
  | cons first more =>
      have ends : ¬ goesOn first = true := by
        rw [stops first rfl]
        exact Bool.false_ne_true
      rw [List.takeWhile_cons_of_neg ends, List.dropWhile_cons_of_neg ends, List.append_nil]
      exact ⟨rfl, rfl⟩

/-- What is left of a text stops where it was cut. -/
theorem stopsAt_dropWhile (goesOn : Char → Bool) (text : List Char) :
    StopsAt goesOn (text.dropWhile goesOn) := by
  intro first opens
  have stops := List.head?_dropWhile_not goesOn text
  rw [opens] at stops
  simpa using stops

/-- Blanks stop where solid text begins. -/
theorem IsSolid.stopsAt
    (isSolid : IsSolid text)
    (rest : List Char) :
    StopsAt Text.isBlank (text ++ rest) := by
  obtain ⟨first, more, rfl⟩ := List.exists_cons_of_ne_nil isSolid.1
  intro c opens
  cases opens
  exact isSolid.2 first List.mem_cons_self

/-- Solid text stops where a gap begins. -/
theorem IsGap.stopsAt
    (isGap : IsGap text)
    (rest : List Char) :
    StopsAt (!Text.isBlank ·) (text ++ rest) := by
  obtain ⟨first, more, rfl⟩ := List.exists_cons_of_ne_nil isGap.1
  intro c opens
  cases opens
  simp [isGap.2 first List.mem_cons_self]

/-- Solid text stops where an arrow between blanks begins. -/
theorem IsArrow.stopsAt
    (isArrow : IsArrow text)
    (rest : List Char) :
    StopsAt (!Text.isBlank ·) (text ++ rest) := by
  obtain ⟨gapBefore, _⟩ := isArrow
  rw [List.append_assoc]
  exact gapBefore.stopsAt _

/-- A line number has no blanks. -/
theorem IsLineNumber.isSolid (isNumber : IsLineNumber text) : IsSolid text :=
  ⟨isNumber.1, fun c member =>
    Text.not_isBlank_of_isPlain (Text.isPlain_of_isDecimalDigit (isNumber.2 c member))⟩

theorem isSolid_append
    (isSolid : ∀ c ∈ text, Text.isBlank c = false)
    (restSolid : IsSolid rest) :
    IsSolid (text ++ rest) := by
  refine ⟨List.append_ne_nil_of_right_ne_nil text restSolid.1, ?_⟩
  intro c member
  rcases List.mem_append.mp member with inText | inRest
  · exact isSolid c inText
  · exact restSolid.2 c inRest

/-- A line range is no part of its own: it could belong to the type. -/
theorem IsRange.isSolid
    (isRange : IsRange text)
    (isType : IsSolid rest) :
    IsSolid (text ++ rest) := by
  apply isSolid_append _ isType
  cases isRange with
  | missing =>
      exact List.forall_mem_nil _
  | lines isFirst isLast =>
      have colon : Text.isBlank ':' = false := by
        decide
      simp only [List.forall_mem_append, List.forall_mem_cons, List.not_mem_nil, false_implies,
        implies_true, and_true]
      exact ⟨isFirst.isSolid.2, colon, isLast.isSolid.2, colon⟩

end Parts

section Scanning

variable {text rest : List Char}

/-- Exactly a gap is skipped, as far as it goes. -/
theorem afterBlanks?_eq_some_iff :
    afterBlanks? text = some rest ↔
      ∃ gap, IsGap gap ∧ StopsAt Text.isBlank rest ∧ text = gap ++ rest := by
  constructor
  · intro read
    cases text with
    | nil =>
        cases read
    | cons first more =>
        rw [afterBlanks?] at read
        split at read
        · rename_i blank
          cases read
          refine ⟨first :: more.takeWhile Text.isBlank, ⟨List.cons_ne_nil _ _, ?_⟩,
            stopsAt_dropWhile _ _, ?_⟩
          · exact List.forall_mem_cons.mpr ⟨blank, fun c member => List.mem_takeWhile_imp member⟩
          · rw [List.cons_append, List.takeWhile_append_dropWhile]
        · cases read
  · rintro ⟨gap, isGap, stops, rfl⟩
    obtain ⟨first, more, rfl⟩ := List.exists_cons_of_ne_nil isGap.1
    obtain ⟨blank, moreBlank⟩ := List.forall_mem_cons.mp isGap.2
    rw [List.cons_append, afterBlanks?, if_pos blank,
      (takeWhile_append_of_stopsAt moreBlank stops).2]

/-- Exactly an arrow with the blanks around it is skipped. -/
theorem afterArrow?_eq_some_iff :
    afterArrow? text = some rest ↔
      ∃ arrow, IsArrow arrow ∧ StopsAt Text.isBlank rest ∧ text = arrow ++ rest := by
  have bracket : Text.isBlank '-' = false := by
    decide
  constructor
  · intro read
    simp only [afterArrow?, Option.bind_eq_bind, Option.bind_eq_some_iff] at read
    obtain ⟨fromMark, beforeMark, read⟩ := read
    obtain ⟨before, gapBefore, _, rfl⟩ := afterBlanks?_eq_some_iff.mp beforeMark
    split at read
    · obtain ⟨after, gapAfter, stops, rfl⟩ := afterBlanks?_eq_some_iff.mp read
      exact ⟨_, .between gapBefore gapAfter, stops, by simp⟩
    · cases read
  · rintro ⟨_, ⟨gapBefore, gapAfter⟩, stops, rfl⟩
    rename_i before after
    have atMark : StopsAt Text.isBlank ('-' :: '>' :: (after ++ rest)) := by
      intro first opens
      cases opens
      exact bracket
    have beforeMark :
        afterBlanks? (before ++ '-' :: '>' :: (after ++ rest)) =
          some ('-' :: '>' :: (after ++ rest)) :=
      afterBlanks?_eq_some_iff.mpr ⟨before, gapBefore, atMark, rfl⟩
    have afterMark : afterBlanks? (after ++ rest) = some rest :=
      afterBlanks?_eq_some_iff.mpr ⟨after, gapAfter, stops, rfl⟩
    rw [afterArrow?, List.append_assoc, List.cons_append, List.cons_append, beforeMark]
    exact afterMark

/-- Exactly solid text is a last token. -/
theorem lastToken?_eq_some_iff :
    lastToken? text = some rest ↔ IsSolid text ∧ rest = text := by
  rw [lastToken?]
  constructor
  · intro read
    split at read
    · cases read
    · rename_i isToken
      cases read
      rw [Bool.or_eq_true, not_or, List.isEmpty_iff, List.any_eq_true, not_exists] at isToken
      refine ⟨⟨isToken.1, ?_⟩, rfl⟩
      intro c member
      simpa using fun blank => isToken.2 c ⟨member, blank⟩
  · rintro ⟨isSolid, rfl⟩
    have noneBlank : rest.any Text.isBlank = false := by
      rw [List.any_eq_false]
      intro c member
      simp [isSolid.2 c member]
    rw [noneBlank, Bool.or_false, if_neg]
    simpa using isSolid.1

/-- A token and what is behind it. -/
theorem token_eq_iff
    {word : List Char} :
    token text = (word, rest) ↔
      (∀ c ∈ word, Text.isBlank c = false) ∧ StopsAt (!Text.isBlank ·) rest ∧
        text = word ++ rest := by
  rw [token, Prod.mk.injEq]
  constructor
  · rintro ⟨rfl, rfl⟩
    refine ⟨?_, stopsAt_dropWhile _ _, List.takeWhile_append_dropWhile.symm⟩
    intro c member
    simpa using List.mem_takeWhile_imp member
  · rintro ⟨isSolid, stops, rfl⟩
    exact takeWhile_append_of_stopsAt (fun c member => by simp [isSolid c member]) stops

/-- Exactly a colon and the digits behind it are skipped. -/
theorem afterLineNumber?_eq_some_iff :
    afterLineNumber? text = some rest ↔
      ∃ number, IsLineNumber number ∧ StopsAt Text.isDecimalDigit rest ∧
        text = ':' :: (number ++ rest) := by
  constructor
  · intro read
    unfold afterLineNumber? at read
    split at read
    · rename_i first more
      split at read
      · rename_i digit
        cases read
        refine ⟨first :: more.takeWhile Text.isDecimalDigit, ⟨List.cons_ne_nil _ _, ?_⟩,
          stopsAt_dropWhile _ _, ?_⟩
        · exact List.forall_mem_cons.mpr ⟨digit, fun c member => List.mem_takeWhile_imp member⟩
        · rw [List.cons_append, List.takeWhile_append_dropWhile]
      · cases read
    · cases read
  · rintro ⟨number, isNumber, stops, rfl⟩
    obtain ⟨first, more, rfl⟩ := List.exists_cons_of_ne_nil isNumber.1
    obtain ⟨digit, moreDigits⟩ := List.forall_mem_cons.mp isNumber.2
    rw [List.cons_append, afterLineNumber?, if_pos digit,
      (takeWhile_append_of_stopsAt moreDigits stops).2]

/-- No line number stands in front of a gap. -/
theorem afterLineNumber?_of_gap
    (gap : StopsAt (!Text.isBlank ·) rest) :
    afterLineNumber? rest = none ∧ StopsAt Text.isDecimalDigit rest := by
  constructor
  · unfold afterLineNumber?
    split
    · cases gap _ rfl
    · rfl
  · intro first opens
    have blank : Text.isBlank first := by
      simpa using gap first opens
    rw [← Bool.not_eq_true]
    intro digit
    rw [Text.not_isBlank_of_isPlain (Text.isPlain_of_isDecimalDigit digit)] at blank
    cases blank

/-- The lines of a member in the source are skipped. -/
theorem afterSourceLines
    (isLines : IsSourceLines text)
    (gap : StopsAt (!Text.isBlank ·) rest) :
    (match afterLineNumber? (text ++ rest) with
      | none => some (text ++ rest)
      | some second => some ((afterLineNumber? second).getD second)) = some rest := by
  obtain ⟨noNumber, stops⟩ := afterLineNumber?_of_gap gap
  have number {line more : List Char}
      (isLine : IsLineNumber line)
      (stops : StopsAt Text.isDecimalDigit more) :
      afterLineNumber? (':' :: (line ++ more)) = some more :=
    afterLineNumber?_eq_some_iff.mpr ⟨line, isLine, stops, rfl⟩
  cases isLines with
  | missing =>
      rw [List.nil_append, noNumber]
  | single isLine =>
      rw [List.cons_append, number isLine stops]
      simp only [noNumber, Option.getD_none]
  | @range first last isFirst isLast =>
      have colon : StopsAt Text.isDecimalDigit (':' :: (last ++ rest)) := by
        intro c opens
        cases opens
        decide
      rw [List.cons_append, List.append_assoc, List.cons_append, number isFirst colon]
      simp only [number isLast stops, Option.getD_some]

/-- The arguments of a method and the lines behind them are skipped. -/
theorem afterArguments?_append
    {arguments lines : List Char}
    (isArguments : IsArguments arguments)
    (isLines : IsSourceLines lines)
    (together : arguments = [] → lines = [])
    (gap : StopsAt (!Text.isBlank ·) rest) :
    afterArguments? (arguments ++ (lines ++ rest)) = some rest := by
  cases isArguments with
  | missing =>
      rw [together rfl, List.nil_append, List.nil_append]
      unfold afterArguments?
      split
      · cases gap _ rfl
      · rfl
  | listed closes =>
      rename_i inner
      have shape :
          '(' :: (inner ++ [')']) ++ (lines ++ rest) =
            '(' :: (inner ++ ')' :: (lines ++ rest)) := by
        simp
      rw [shape, afterArguments?]
      simp only [Text.cutFirst_append_cons closes]
      exact afterSourceLines isLines gap

/-- What is skipped behind a name is an argument list with its source lines. -/
theorem exists_of_afterArguments?
    (read : afterArguments? text = some rest) :
    ∃ arguments lines, IsArguments arguments ∧ IsSourceLines lines ∧
      text = arguments ++ (lines ++ rest) := by
  unfold afterArguments? at read
  split at read
  · rename_i inside
    by_cases closed : ')' ∈ inside
    · obtain ⟨inner, after, rfl, closes⟩ := List.eq_append_cons_of_mem closed
      simp only [Text.cutFirst_append_cons closes] at read
      suffices ∃ lines, IsSourceLines lines ∧ after = lines ++ rest by
        obtain ⟨lines, isLines, rfl⟩ := this
        exact ⟨_, lines, .listed closes, isLines, by simp⟩
      cases first : afterLineNumber? after with
      | none =>
          rw [first] at read
          cases read
          exact ⟨[], .missing, rfl⟩
      | some second =>
          obtain ⟨line, isLine, _, rfl⟩ := afterLineNumber?_eq_some_iff.mp first
          rw [first] at read
          cases read
          cases last : afterLineNumber? second with
          | none =>
              exact ⟨_, .single isLine, rfl⟩
          | some behind =>
              obtain ⟨lastLine, isLast, _, rfl⟩ := afterLineNumber?_eq_some_iff.mp last
              exact ⟨_, .range isLine isLast, by simp⟩
    · simp only [Text.cutFirst_of_not_mem closed] at read
      cases read
  · cases read
    exact ⟨[], [], .missing, .missing, rfl⟩

end Scanning

section Lines

variable {line : List Char}

/-- A class line is read as its two names. -/
theorem classLine?_eq_some_iff
    {entry : Line} :
    classLine? line = some entry ↔
      ∃ source arrow target, IsSolid source ∧ IsArrow arrow ∧ IsSolid target ∧
        line = source ++ (arrow ++ (target ++ [':'])) ∧
        entry = .classEntry (String.ofList source) (String.ofList target) := by
  have colon : Text.isBlank ':' = false := by
    decide
  constructor
  · intro read
    cases cut : token line with
    | mk source behind =>
    obtain ⟨sourceSolid, _, rfl⟩ := token_eq_iff.mp cut
    simp only [classLine?, cut, Option.bind_eq_bind, Option.bind_eq_some_iff] at read
    obtain ⟨_, afterArrow, target, isLast, read⟩ := read
    obtain ⟨arrow, isArrow, _, rfl⟩ := afterArrow?_eq_some_iff.mp afterArrow
    obtain ⟨lastSolid, rfl⟩ := lastToken?_eq_some_iff.mp isLast
    split at read
    · rename_i first more c name reversed
      cases read
      have shape : target = (c :: name).reverse ++ [':'] := by
        rw [← List.reverse_cons, ← reversed, List.reverse_reverse]
      subst shape
      refine ⟨_, arrow, _, ⟨List.cons_ne_nil _ _, sourceSolid⟩, isArrow, ⟨?_, ?_⟩, rfl, rfl⟩
      · simp
      · exact fun c member => lastSolid.2 c (List.mem_append_left _ member)
    · cases read
  · rintro ⟨source, arrow, target, isSource, isArrow, isTarget, rfl, rfl⟩
    have isLast : IsSolid (target ++ [':']) :=
      isSolid_append isTarget.2 ⟨List.cons_ne_nil _ _, List.forall_mem_singleton.mpr colon⟩
    have cut :
        token (source ++ (arrow ++ (target ++ [':']))) = (source, arrow ++ (target ++ [':'])) :=
      token_eq_iff.mpr ⟨isSource.2, isArrow.stopsAt _, rfl⟩
    have behind : afterArrow? (arrow ++ (target ++ [':'])) = some (target ++ [':']) :=
      afterArrow?_eq_some_iff.mpr ⟨arrow, isArrow, isTarget.stopsAt _, rfl⟩
    obtain ⟨first, more, rfl⟩ := List.exists_cons_of_ne_nil isSource.1
    obtain ⟨c, name, reversed⟩ :=
      List.exists_cons_of_ne_nil (List.reverse_ne_nil_iff.mpr isTarget.1)
    have whole : (c :: name).reverse = target := by
      rw [← reversed, List.reverse_reverse]
    simp only [classLine?, cut, behind, lastToken?_eq_some_iff.mpr ⟨isLast, rfl⟩,
      Option.bind_eq_bind, Option.bind_some, List.reverse_append, List.reverse_singleton,
      List.singleton_append, reversed, whole]

/-- The reader takes exactly the class lines. -/
theorem isSome_classLine?_iff : (classLine? line).isSome ↔ IsClassLine line := by
  rw [Option.isSome_iff_exists]
  constructor
  · rintro ⟨entry, read⟩
    obtain ⟨source, arrow, target, isSource, isArrow, isTarget, rfl, _⟩ :=
      classLine?_eq_some_iff.mp read
    exact .parts isSource isArrow isTarget
  · rintro ⟨isSource, isArrow, isTarget⟩
    exact ⟨_, classLine?_eq_some_iff.mpr ⟨_, _, _, isSource, isArrow, isTarget, rfl, rfl⟩⟩

/-- A name ends where a blank or an argument list comes. -/
def endsName (c : Char) : Bool :=
  Text.isBlank c || c == '('

/-- The names of members are the texts of characters that do not end one. -/
theorem isMemberName_iff
    {name : List Char} :
    IsMemberName name ↔ name ≠ [] ∧ ∀ c ∈ name, endsName c = false := by
  simp only [IsMemberName, IsSolid, endsName, Bool.or_eq_false_iff, beq_eq_false_iff_ne]
  constructor
  · rintro ⟨⟨notEmpty, isSolid⟩, noOpening⟩
    exact ⟨notEmpty, fun c member => ⟨isSolid c member, ne_of_mem_of_not_mem member noOpening⟩⟩
  · rintro ⟨notEmpty, inName⟩
    exact ⟨⟨notEmpty, fun c member => (inName c member).1⟩, fun member => (inName _ member).2 rfl⟩

/-- How a line of a member is read: type, name, arguments, arrow and target. -/
theorem memberLine?_eq (line : List Char) :
    memberLine? line =
      (afterBlanks? line).bind fun onType =>
        (afterBlanks? (token onType).2).bind fun onName =>
          (afterArguments? (onName.dropWhile (!endsName ·))).bind fun onArrow =>
            (afterArrow? onArrow).bind fun onTarget =>
              (lastToken? onTarget).bind fun target =>
                if (token onType).1.isEmpty || (onName.takeWhile (!endsName ·)).isEmpty then none
                else
                  some (.memberEntry
                    (String.ofList (Text.afterLast '.' (onName.takeWhile (!endsName ·))))
                    (String.ofList target)) :=
  rfl

/-- Line numbers in the source could stand in a name. -/
theorem IsSourceLines.inName
    {lines : List Char}
    (isLines : IsSourceLines lines) :
    ∀ c ∈ lines, endsName c = false := by
  have colon : endsName ':' = false := by
    decide
  have digits {number : List Char} (isNumber : IsLineNumber number) :
      ∀ c ∈ number, endsName c = false := by
    intro c member
    have plain := Text.isPlain_of_isDecimalDigit (isNumber.2 c member)
    rw [endsName, Text.not_isBlank_of_isPlain plain, Bool.false_or, beq_eq_false_iff_ne]
    rintro rfl
    revert plain
    decide
  cases isLines with
  | missing =>
      exact List.forall_mem_nil _
  | single isLine =>
      exact List.forall_mem_cons.mpr ⟨colon, digits isLine⟩
  | range isFirst isLast =>
      rw [List.forall_mem_cons, List.forall_mem_append, List.forall_mem_cons]
      exact ⟨colon, digits isFirst, colon, digits isLast⟩

/-- A line of parts is read as its names, if source lines come behind an argument list only. -/
theorem memberLine?_of_parts
    {indent type gap name arguments lines arrow target : List Char}
    (isIndent : IsGap indent)
    (isType : IsSolid type)
    (isGap : IsGap gap)
    (isName : IsMemberName name)
    (isArguments : IsArguments arguments)
    (isLines : IsSourceLines lines)
    (together : arguments = [] → lines = [])
    (isArrow : IsArrow arrow)
    (isTarget : IsSolid target) :
    memberLine?
        (indent ++ (type ++ (gap ++ (name ++ (arguments ++ (lines ++ (arrow ++ target))))))) =
      some (.memberEntry (String.ofList (Text.afterLast '.' name)) (String.ofList target)) := by
  obtain ⟨nameNotEmpty, inName⟩ := isMemberName_iff.mp isName
  have endsHere :
      StopsAt (!endsName ·) (arguments ++ (lines ++ (arrow ++ target))) := by
    cases isArguments with
    | missing =>
        rw [together rfl]
        intro first opens
        have blank : Text.isBlank first := by
          simpa using isArrow.stopsAt target first opens
        simp [endsName, blank]
    | listed _ =>
        intro first opens
        cases opens
        decide
  have nameGoesOn : ∀ c ∈ name, (!endsName c) = true := by
    intro c member
    simp [inName c member]
  obtain ⟨wholeName, behindName⟩ := takeWhile_append_of_stopsAt nameGoesOn endsHere
  have onType := afterBlanks?_eq_some_iff.mpr ⟨indent, isIndent, isType.stopsAt
    (gap ++ (name ++ (arguments ++ (lines ++ (arrow ++ target))))), rfl⟩
  have cut := token_eq_iff.mpr ⟨isType.2, isGap.stopsAt
    (name ++ (arguments ++ (lines ++ (arrow ++ target)))), rfl⟩
  have onName := afterBlanks?_eq_some_iff.mpr ⟨gap, isGap, isName.1.stopsAt
    (arguments ++ (lines ++ (arrow ++ target))), rfl⟩
  have onArrow := afterArguments?_append isArguments isLines together (isArrow.stopsAt target)
  have onTarget : afterArrow? (arrow ++ target) = some target :=
    afterArrow?_eq_some_iff.mpr ⟨arrow, isArrow, by simpa using isTarget.stopsAt [], rfl⟩
  have last := lastToken?_eq_some_iff.mpr ⟨isTarget, rfl⟩
  have noneEmpty : (type.isEmpty || name.isEmpty) = false := by
    simp [isType.1, nameNotEmpty]
  rw [memberLine?_eq, onType]
  simp only [cut, onName, wholeName, behindName, onArrow, onTarget, last, noneEmpty,
    Option.bind_some, Bool.false_eq_true, if_false]

/-- A line that is read as a member has the parts of a member line. -/
theorem isMemberLine_of_memberLine?
    {entry : Line}
    (read : memberLine? line = some entry) :
    IsMemberLine line := by
  simp only [memberLine?_eq, Option.bind_eq_some_iff] at read
  obtain ⟨onType, atType, onName, atName, onArrow, atArrow, onTarget, atTarget, target, isLast,
    read⟩ := read
  obtain ⟨indent, isIndent, _, rfl⟩ := afterBlanks?_eq_some_iff.mp atType
  cases cut : token onType with
  | mk type behindType =>
  obtain ⟨typeSolid, _, rfl⟩ := token_eq_iff.mp cut
  simp only [cut] at atName read
  obtain ⟨gap, isGap, _, rfl⟩ := afterBlanks?_eq_some_iff.mp atName
  obtain ⟨arguments, lines, isArguments, isLines, behindName⟩ := exists_of_afterArguments? atArrow
  obtain ⟨arrow, isArrow, _, rfl⟩ := afterArrow?_eq_some_iff.mp atTarget
  obtain ⟨isTarget, rfl⟩ := lastToken?_eq_some_iff.mp isLast
  have noneEmpty : ¬ (type.isEmpty || (onName.takeWhile (!endsName ·)).isEmpty) = true := by
    intro empty
    rw [if_pos empty] at read
    cases read
  rw [Bool.or_eq_true, not_or, List.isEmpty_iff, List.isEmpty_iff] at noneEmpty
  have isName : IsMemberName (onName.takeWhile (!endsName ·)) := by
    refine isMemberName_iff.mpr ⟨noneEmpty.2, ?_⟩
    intro c member
    simpa using List.mem_takeWhile_imp member
  have parts :=
    IsMemberLine.parts isIndent .missing ⟨noneEmpty.1, typeSolid⟩ isGap isName isArguments isLines
      isArrow isTarget
  rwa [← behindName, List.takeWhile_append_dropWhile, List.nil_append] at parts

/-- The reader takes exactly the member lines. -/
theorem isSome_memberLine?_iff : (memberLine? line).isSome ↔ IsMemberLine line := by
  rw [Option.isSome_iff_exists]
  constructor
  · rintro ⟨entry, read⟩
    exact isMemberLine_of_memberLine? read
  · intro isMember
    cases isMember with
    | @parts indent range type gap name arguments lines arrow target isIndent isRange isType
        isGap isName isArguments isLines isArrow isTarget =>
    have isToken := isRange.isSolid isType
    rw [← List.append_assoc range]
    by_cases listed : arguments = []
    · -- Source lines without an argument list are read as the end of the name.
      obtain ⟨notEmpty, inName⟩ := isMemberName_iff.mp isName
      have longerName : IsMemberName (name ++ lines) := by
        refine isMemberName_iff.mpr ⟨List.append_ne_nil_of_left_ne_nil notEmpty lines, ?_⟩
        exact List.forall_mem_append.mpr ⟨inName, isLines.inName⟩
      have read :=
        memberLine?_of_parts isIndent isToken isGap longerName .missing .missing (fun _ => rfl)
          isArrow isTarget
      rw [List.nil_append, List.nil_append, List.append_assoc name] at read
      rw [listed, List.nil_append]
      exact ⟨_, read⟩
    · exact ⟨_, memberLine?_of_parts isIndent isToken isGap isName isArguments isLines
        (fun empty => absurd empty listed) isArrow isTarget⟩

end Lines

end ApkAtlas.MappingText
