import ApkAtlas.Proofs.Symbols.LineGrammar
import ApkAtlas.Proofs.Symbols.LineReader
import ApkAtlas.Proofs.Symbols.SeedPrint

namespace ApkAtlas

/-!
# The first bad line of a mapping or seed text

Which lines of a text fit in is said by the grammar of its lines: for a mapping text with a look
at the lines before them, because members belong to a class, and for a seed text line by line.
-/

namespace MappingText

/-- A line opens with a blank. -/
def Indented (raw : String) : Prop :=
  ∃ first ∈ (chomp raw).head?, Text.isBlank first

/-- A class line that is not taken for a remark. -/
def OpensClass (raw : String) : Prop :=
  isRemark raw = false ∧ ¬ Indented raw ∧ IsClassLine (chomp raw)

/-- A remark fits in anywhere, a class line if it is not indented, and a member line if it is
and a class line is before it. -/
def Fits (before : List String) (raw : String) : Prop :=
  isRemark raw ∨ ¬ Indented raw ∧ IsClassLine (chomp raw) ∨
    Indented raw ∧ IsMemberLine (chomp raw) ∧ ∃ opening ∈ before, OpensClass opening

/-- The first line that is no remark is not indented. -/
def StartsUnindented (lines : List String) : Prop :=
  ∀ raw ∈ lines.find? fun raw => !isRemark raw, ¬ Indented raw

/-- The reader of mapping texts. -/
def reader : LineReader Reading Defect where
  start symbols := ⟨symbols, none⟩
  symbols := Reading.symbols
  step := Reading.step
  words := Defect.text

theorem reader_step : reader.step = Reading.step :=
  rfl

/-- The parser of mappings is the reader of their lines. -/
theorem parse_eq : parse = reader.parse := by
  have filled (number : Nat) (reading : Reading) (lines : List String) :
      fill number reading lines = reader.fill number reading lines := by
    induction lines generalizing number reading with
    | nil =>
        rfl
    | cons raw rest inductionHypothesis =>
        rw [fill, LineReader.fill, reader_step]
        cases reading.step raw with
        | error defect =>
            rfl
        | ok next =>
            exact inductionHypothesis (number + 1) next
  funext symbols source lines
  rw [parse, filled, LineReader.parse]
  change _ = reader.outcome source (reader.fill 1 ⟨symbols, none⟩ lines)
  generalize reader.fill 1 ⟨symbols, none⟩ lines = result
  obtain ⟨reached, _ | ⟨number, defect⟩⟩ := result <;> rfl

section Lines

variable {raw : String}

/-- What is no remark opens with a character, and behind its indent it does not open with a
comment mark. -/
theorem exists_of_not_isRemark (notRemark : isRemark raw = false) :
    ∃ c more first rest, chomp raw = c :: more ∧ Text.strip (chomp raw) = first :: rest ∧
      first ≠ '#' := by
  rw [isRemark] at notRemark
  cases line : chomp raw with
  | nil =>
      rw [line] at notRemark
      cases notRemark
  | cons c more =>
      cases stripped : Text.strip (c :: more) with
      | nil =>
          rw [line, stripped] at notRemark
          cases notRemark
      | cons first rest =>
          rw [line, stripped] at notRemark
          exact ⟨c, more, first, rest, rfl, rfl, by simpa using notRemark⟩

/-- A line is indented if its first character is blank. -/
theorem indented_iff
    {c : Char}
    {more : List Char}
    (line : chomp raw = c :: more) :
    Indented raw ↔ Text.isBlank c := by
  simp [Indented, line]

/-- A member line is told from a class line by its indent. -/
theorem readLine_of_indented
    (notRemark : isRemark raw = false)
    (indented : Indented raw) :
    readLine raw =
      match memberLine? (chomp raw) with
      | some entry => .ok entry
      | none => .error (.unknownMemberLine (String.ofList (Text.strip (chomp raw)))) := by
  obtain ⟨c, more, first, rest, line, stripped, noComment⟩ := exists_of_not_isRemark notRemark
  rw [indented_iff line] at indented
  rw [readLine_eq, stripped, line]
  exact (if_neg noComment).trans (if_pos indented)

/-- A line that is not indented is one of a class, or it is not recognised. -/
theorem readLine_of_not_indented
    (notRemark : isRemark raw = false)
    (notIndented : ¬ Indented raw) :
    readLine raw =
      match classLine? (chomp raw) with
      | some entry => .ok entry
      | none => .error (.unknownClassLine (String.ofList (Text.strip (chomp raw)))) := by
  obtain ⟨c, more, first, rest, line, stripped, noComment⟩ := exists_of_not_isRemark notRemark
  rw [indented_iff line] at notIndented
  rw [readLine_eq, stripped, line]
  exact (if_neg noComment).trans (if_neg notIndented)

/-- What is read of a member is one of a member. -/
theorem exists_memberEntry
    {line : List Char}
    {entry : Line}
    (read : memberLine? line = some entry) :
    ∃ sourceName bytecodeName, entry = .memberEntry sourceName bytecodeName := by
  simp only [memberLine?_eq, Option.bind_eq_some_iff] at read
  obtain ⟨_, _, _, _, _, _, _, _, _, _, read⟩ := read
  split at read
  · cases read
  · cases read
    exact ⟨_, _, rfl⟩

/-- Remarks and blank lines change nothing. -/
theorem step_of_isRemark
    (remark : isRemark raw)
    (reading : Reading) :
    reading.step raw = .ok reading := by
  rw [Reading.step, readLine_of_isRemark remark]
  rfl

/-- What a line does to a reading: remarks nothing, class lines open their class, and member
lines go into the open class. -/
inductive Does (reading : Reading) (raw : String) : Except Defect Reading → Prop
  | passes
      (remark : isRemark raw) :
      Does reading raw (.ok reading)
  | opens
      {sourceName bytecodeName : String}
      (opensClass : OpensClass raw) :
      Does reading raw
        (.ok ⟨reading.symbols.addClass bytecodeName sourceName, some bytecodeName⟩)
  | renames
      {className sourceName bytecodeName : String}
      (notRemark : isRemark raw = false)
      (indented : Indented raw)
      (isMember : IsMemberLine (chomp raw))
      (isOpen : reading.openClass = some className) :
      Does reading raw
        (.ok { reading with
          symbols := reading.symbols.addMember className bytecodeName sourceName })
  | noClass
      {defect : Defect}
      (notRemark : isRemark raw = false)
      (notIndented : ¬ Indented raw)
      (bad : ¬ IsClassLine (chomp raw)) :
      Does reading raw (.error defect)
  | noMember
      {defect : Defect}
      (notRemark : isRemark raw = false)
      (indented : Indented raw)
      (bad : ¬ (IsMemberLine (chomp raw) ∧ reading.openClass.isSome)) :
      Does reading raw (.error defect)

/-- A step does what the kind of its line tells. -/
theorem does_step (reading : Reading) (raw : String) : Does reading raw (reading.step raw) := by
  rw [Reading.step]
  by_cases remark : isRemark raw
  · rw [readLine_of_isRemark remark]
    exact .passes remark
  rw [Bool.not_eq_true] at remark
  by_cases indented : Indented raw
  · rw [readLine_of_indented remark indented]
    cases read : memberLine? (chomp raw) with
    | none =>
        refine .noMember remark indented ?_
        rintro ⟨isMember, _⟩
        rw [← isSome_memberLine?_iff, read] at isMember
        cases isMember
    | some entry =>
        obtain ⟨sourceName, bytecodeName, rfl⟩ := exists_memberEntry read
        have isMember := isMemberLine_of_memberLine? read
        change Does reading raw (reading.enter (.memberEntry sourceName bytecodeName))
        rw [Reading.enter]
        cases isOpen : reading.openClass with
        | none =>
            refine .noMember remark indented ?_
            rw [isOpen]
            rintro ⟨_, ⟨⟩⟩
        | some className =>
            have renames :
                Does reading raw
                  (.ok ⟨reading.symbols.addMember className bytecodeName sourceName,
                    reading.openClass⟩) :=
              .renames remark indented isMember isOpen
            rwa [isOpen] at renames
  · rw [readLine_of_not_indented remark indented]
    cases read : classLine? (chomp raw) with
    | none =>
        refine .noClass remark indented ?_
        rw [← isSome_classLine?_iff, read]
        rintro ⟨⟩
    | some entry =>
        obtain ⟨source, arrow, target, isSource, isArrow, isTarget, line, rfl⟩ :=
          classLine?_eq_some_iff.mp read
        refine .opens ⟨remark, indented, ?_⟩
        rw [line]
        exact .parts isSource isArrow isTarget

/-- A line leads on if it fits in behind a class line or not, as a class is open or not. -/
theorem exists_step_iff {reading : Reading} :
    (∃ next, reading.step raw = .ok next) ↔
      isRemark raw ∨ ¬ Indented raw ∧ IsClassLine (chomp raw) ∨
        Indented raw ∧ IsMemberLine (chomp raw) ∧ reading.openClass.isSome := by
  have does := does_step reading raw
  constructor
  · rintro ⟨next, stepped⟩
    rw [stepped] at does
    cases does with
    | passes remark =>
        exact .inl remark
    | opens opensClass =>
        exact .inr (.inl opensClass.2)
    | renames notRemark indented isMember isOpen =>
        refine .inr (.inr ⟨indented, isMember, ?_⟩)
        rw [isOpen]
        rfl
  · intro fits
    cases stepped : reading.step raw with
    | ok next =>
        exact ⟨next, rfl⟩
    | error defect =>
        rw [stepped] at does
        cases does with
        | noClass notRemark notIndented bad =>
            simp [notRemark, notIndented, bad] at fits
        | noMember notRemark indented bad =>
            simp only [notRemark, indented, Bool.false_eq_true, not_true, false_and, true_and,
              false_or] at fits
            exact absurd fits bad

/-- A class is open from its line on. -/
theorem isSome_openClass_step
    {reading next : Reading}
    (stepped : reading.step raw = .ok next) :
    next.openClass.isSome ↔ OpensClass raw ∨ reading.openClass.isSome := by
  have does := does_step reading raw
  rw [stepped] at does
  cases does with
  | passes remark =>
      simp [OpensClass, remark]
  | opens opensClass =>
      simp [opensClass]
  | renames notRemark indented isMember isOpen =>
      simp [OpensClass, indented]

/-- A class is open behind a line that opens one, and stays open. -/
theorem isSome_openClass_foldlM
    {lines : List String}
    {reading reached : Reading}
    (through : lines.foldlM Reading.step reading = .ok reached) :
    reached.openClass.isSome ↔
      (∃ opening ∈ lines, OpensClass opening) ∨ reading.openClass.isSome := by
  induction lines generalizing reading with
  | nil =>
      cases through
      simp
  | cons raw rest inductionHypothesis =>
      rw [List.foldlM_cons] at through
      obtain ⟨next, stepped, through⟩ := exists_of_bind_eq_ok through
      rw [inductionHypothesis through, isSome_openClass_step stepped, List.exists_mem_cons_iff,
        ← or_assoc, or_comm (b := OpensClass raw)]

end Lines

/-- The reader of mappings accepts exactly the texts whose lines fit. -/
theorem reader_accepts : reader.Accepts Fits := by
  intro symbols before raw reached through
  have isOpen := isSome_openClass_foldlM through
  change (∃ next, reached.step raw = .ok next) ↔ _
  rw [exists_step_iff, isOpen, Fits]
  simp [reader]

/-- A class line is read the same wherever it stands. -/
theorem step_eq_of_not_indented
    {raw : String}
    (notRemark : isRemark raw = false)
    (notIndented : ¬ Indented raw)
    (symbols : SymbolMap)
    (openClass other : Option String) :
    Reading.step ⟨symbols, openClass⟩ raw = Reading.step ⟨symbols, other⟩ raw := by
  rw [Reading.step, Reading.step, readLine_of_not_indented notRemark notIndented]
  cases read : classLine? (chomp raw) with
  | none =>
      rfl
  | some entry =>
      obtain ⟨_, _, _, _, _, _, _, rfl⟩ := classLine?_eq_some_iff.mp read
      rfl

/-- A text that starts with a line of a class can be read on its own. -/
theorem reader_restarts : reader.Restarts StartsUnindented := by
  intro number reading lines unindented
  obtain ⟨symbols, openClass⟩ := reading
  change reader.fill number ⟨symbols, openClass⟩ lines = reader.fill number ⟨symbols, none⟩ lines
  induction lines generalizing number with
  | nil =>
      rfl
  | cons raw rest inductionHypothesis =>
      rw [LineReader.fill, LineReader.fill]
      by_cases remark : isRemark raw
      · rw [StartsUnindented, List.find?_cons_of_neg (by simp [remark])] at unindented
        rw [reader_step, step_of_isRemark remark, step_of_isRemark remark]
        exact inductionHypothesis (number + 1) unindented
      · rw [StartsUnindented, List.find?_cons_of_pos (by simp [remark])] at unindented
        rw [Bool.not_eq_true] at remark
        rw [reader_step,
          step_eq_of_not_indented remark (unindented raw rfl) symbols openClass none]
        rfl

end MappingText

namespace SeedText

/-- The part of a text in front of the first `: `; all of it if there is none. -/
def IsHead (head text : List Char) : Prop :=
  ¬ [':', ' '] <:+: head ∧ (text = head ∨ ∃ rest, text = head ++ ':' :: ' ' :: rest)

/-- Characters of class names, of which there is at least one. -/
def IsSeedName (name : List Char) : Prop :=
  name ≠ [] ∧ ∀ c ∈ name, isNameChar c

/-- A remark fits in, and so does a line with a class name in front of the first `: `. Blanks
around the line and around the name do not count. -/
def Fits (_ : List String) (raw : String) : Prop :=
  isRemark raw ∨ ∃ head, IsHead head (Text.strip raw.toList) ∧ IsSeedName (Text.strip head)

/-- The reader of seed texts. -/
def reader : LineReader SymbolMap String where
  start symbols := symbols
  symbols filled := filled
  step symbols raw := (readLine raw).map (enter symbols)
  words text := "Unrecognized seed entry: " ++ Text.quoted text

/-- The parser of seeds is the reader of their lines. -/
theorem parse_eq : parse = reader.parse := by
  have filled (number : Nat) (symbols : SymbolMap) (lines : List String) :
      fill number symbols lines = reader.fill number symbols lines := by
    induction lines generalizing number symbols with
    | nil =>
        rfl
    | cons raw rest inductionHypothesis =>
        have step : reader.step symbols raw = (readLine raw).map (enter symbols) := rfl
        rw [fill, LineReader.fill, step]
        cases readLine raw with
        | error text =>
            rfl
        | ok line =>
            exact inductionHypothesis (number + 1) (enter symbols line)
  funext symbols source lines
  have start : reader.start symbols = symbols := rfl
  rw [parse, filled, LineReader.parse, start]
  generalize reader.fill 1 symbols lines = result
  obtain ⟨reached, _ | ⟨number, text⟩⟩ := result <;> rfl

section Lines

variable {raw : String}

/-- What is cut off at the first `: ` is the part in front of it. -/
theorem isHead_iff
    {head text : List Char} :
    IsHead head text ↔ head = ((Text.cutAt? [':', ' '] text).getD (text, [])).1 := by
  constructor
  · rintro ⟨noMark, rfl | ⟨rest, rfl⟩⟩
    · rw [cutAt?_eq_none_iff.mpr noMark]
      rfl
    · rw [cutAt?_append noMark]
      rfl
  · rintro rfl
    cases cut : Text.cutAt? [':', ' '] text with
    | none =>
        exact ⟨cutAt?_eq_none_iff.mp cut, .inl rfl⟩
    | some parts =>
        obtain ⟨shape, noMark⟩ := exists_of_cutAt? cut
        exact ⟨noMark, .inr ⟨parts.2, shape⟩⟩

/-- The names of seeds are texts of characters of names. -/
theorem isSeedName_iff
    {name : List Char} :
    IsSeedName name ↔ ¬ (name.isEmpty || !name.all isNameChar) = true := by
  simp [IsSeedName]

/-- A line that fits in says something. -/
theorem exists_readLine_iff : (∃ line, readLine raw = .ok line) ↔ Fits [] raw := by
  by_cases remark : isRemark raw
  · exact ⟨fun _ => .inl remark, fun _ => ⟨_, readLine_of_isRemark remark⟩⟩
  have fits :
      Fits [] raw ↔
        IsSeedName (Text.strip
          ((Text.cutAt? [':', ' '] (Text.strip raw.toList)).getD
            (Text.strip raw.toList, [])).1) := by
    simp only [Fits, remark, Bool.false_eq_true, false_or, isHead_iff, exists_eq_left]
  rw [fits, isSeedName_iff, readLine]
  rw [isRemark] at remark
  split
  · rename_i isEmpty
    simp [isEmpty] at remark
  · rename_i isComment
    simp [isComment] at remark
  · dsimp only
    split
    · rename_i bad
      simp [bad]
    · rename_i good
      refine iff_of_true ?_ good
      split
      · exact ⟨_, rfl⟩
      · exact ⟨_, rfl⟩

end Lines

/-- The reader of seeds accepts exactly the texts whose lines fit. -/
theorem reader_accepts : reader.Accepts Fits := by
  intro symbols before raw reached _
  have step : reader.step reached raw = (readLine raw).map (enter reached) := rfl
  rw [step, show Fits before raw ↔ Fits [] raw from Iff.rfl, ← exists_readLine_iff]
  cases readLine raw <;> simp [Except.map]

/-- Every text of seeds can be read on its own. -/
theorem reader_restarts (StandsAlone : List String → Prop) : reader.Restarts StandsAlone :=
  fun _ _ _ _ => rfl

/-- The same without a look past blanks at the ends. -/
def FitsAsWritten (_ : List String) (raw : String) : Prop :=
  isRemark raw ∨ ∃ head, IsHead head raw.toList ∧ ∀ c ∈ head, isNameChar c

end SeedText

/-- Both parsers stop at the first bad line. A mapping text is read by itself wherever it stands
if it starts with a line that is not indented, and a seed text always. -/
theorem stops_at_first_bad_line :
    StopsAtFirstBad MappingText.Fits MappingText.StartsUnindented MappingText.parse ∧
      StopsAtFirstBad SeedText.Fits (fun _ => True) SeedText.parse := by
  rw [MappingText.parse_eq, SeedText.parse_eq]
  exact ⟨LineReader.stopsAtFirstBad MappingText.reader_accepts MappingText.reader_restarts,
    LineReader.stopsAtFirstBad SeedText.reader_accepts (SeedText.reader_restarts _)⟩

/-- A blank behind the class name is no reason to refuse a seed. -/
theorem seeds_do_not_fit_as_written :
    ¬ StopsAtFirstBad SeedText.FitsAsWritten (fun _ => True) SeedText.parse := by
  intro stops
  have accepted : (SeedText.parse {} "" ["A : m()"]).2 = none := by
    decide
  have fits := (stops.accepts {} "" ["A : m()"]).mp accepted [] "A : m()" [] rfl
  rcases fits with remark | ⟨head, isHead, names⟩
  · revert remark
    decide
  · rw [SeedText.isHead_iff] at isHead
    have blank := names ' ' (by rw [isHead]; decide)
    revert blank
    decide

end ApkAtlas
