import ApkAtlas.Proofs.Symbols.History

namespace ApkAtlas.MappingText

/-!
# Mapping texts as they are laid out

The lines of a mapping text may end in any line break, and blank lines and comments may
stand between them. However its sections are laid out, reading the text gives a map that
answers from them: a class goes by the source name in its last section, a member by the
last segment of the name on its first line.
-/

/-- What may stand at the end of a line. -/
def lineEnds : List String :=
  ["", "\n", "\r\n"]

/-- Lines are laid out with blank lines and comments anywhere between them. -/
inductive LaidOut : List String → List String → Prop
  | nil : LaidOut [] []
  | blank
      {texts raws : List String}
      (blanks ending : String)
      (areBlank : blanks.toList.all Text.isBlank)
      (ends : ending ∈ lineEnds)
      (rest : LaidOut texts raws) :
      LaidOut texts ((blanks ++ ending) :: raws)
  | comment
      {texts raws : List String}
      (indent words ending : String)
      (areBlank : indent.toList.all Text.isBlank)
      (ends : ending ∈ lineEnds)
      (rest : LaidOut texts raws) :
      LaidOut texts ((indent ++ "#" ++ words ++ ending) :: raws)
  | line
      {texts raws : List String}
      (text ending : String)
      (ends : ending ∈ lineEnds)
      (rest : LaidOut texts raws) :
      LaidOut (text :: texts) ((text ++ ending) :: raws)

/-- A map that answers from the sections of a text. -/
structure AnswersFrom (symbols : SymbolMap) (sections : List Section) : Prop where
  /-- The last section of a class gives its source name. -/
  resolveClass : ∀ name,
    symbols.resolveClass name =
      ((sections.reverse.find? fun part => part.bytecodeName == name).map
        Section.sourceName).getD name
  /-- The first line for a member of a class gives its source name. -/
  resolveMember : ∀ part ∈ sections, ∀ entry ∈ part.members,
    ∃ first,
      (entriesOf sections part.bytecodeName).find?
          (fun other => other.bytecodeName == entry.bytecodeName) = some first ∧
        (first.qualifiedName.toList.splitOn '.').getLast? =
          some (symbols.resolveMember part.bytecodeName entry.bytecodeName).toList

section Layout

/-- The end of a line is cut off. -/
theorem chomp_append
    {ending : String}
    (ends : ending ∈ lineEnds)
    (text : String) :
    chomp (text ++ ending) = chomp text := by
  have areBreaks : ending.toList.all fun c => c == '\r' || c == '\n' := by
    simp only [lineEnds, List.mem_cons, List.not_mem_nil, or_false] at ends
    rcases ends with rfl | rfl | rfl <;> decide
  rw [chomp, String.toList_append, Text.trimEndWhere_append (List.all_eq_true.mp areBreaks),
    chomp]

theorem isRemark_of_blank
    {raw : String}
    (areBlank : ∀ c ∈ chomp raw, Text.isBlank c) :
    isRemark raw := by
  rw [isRemark, Text.strip_of_forall_blank areBlank]

theorem isRemark_of_comment
    {raw : String}
    {indent words : List Char}
    (areBlank : ∀ c ∈ indent, Text.isBlank c)
    (written : chomp raw = indent ++ '#' :: words) :
    isRemark raw := by
  have mark : Text.isBlank '#' = false := by
    decide
  have stripped : Text.strip (chomp raw) = '#' :: Text.trimEndWhere Text.isBlank words := by
    rw [written, ← Text.strip_cons mark words,
      ← Text.strip_append_blank areBlank (List.forall_mem_nil _) ('#' :: words),
      List.append_nil]
  rw [isRemark, stripped]
  rfl

/-- A line that ends with a character and says something. -/
structure Speaks (text : String) : Prop where
  ends : ∃ last, text.toList.getLast? = some last ∧ Text.isBlank last = false
  notRemark : ∀ raw, chomp raw = text.toList → isRemark raw = false

/-- A line that speaks has no end to cut off. -/
theorem Speaks.chomp_eq
    {text : String}
    (speaks : Speaks text) :
    chomp text = text.toList := by
  obtain ⟨last, ends, notBlank⟩ := speaks.ends
  apply Text.trimEndWhere_eq_self ends
  rw [Bool.or_eq_false_iff, beq_eq_false_iff_ne, beq_eq_false_iff_ne]
  constructor <;> rintro rfl <;> exact absurd notBlank (by decide)

/-- Lines that say something are what is left of a layout without its remarks. -/
theorem LaidOut.remains
    {texts raws : List String}
    (laidOut : LaidOut texts raws)
    (speak : ∀ text ∈ texts, Speaks text) :
    (raws.filter fun raw => !isRemark raw).map chomp = texts.map String.toList := by
  induction laidOut with
  | nil =>
      rfl
  | blank blanks ending areBlank ends _ inductionHypothesis =>
      have remark : isRemark (blanks ++ ending) := by
        apply isRemark_of_blank
        rw [chomp_append ends]
        exact fun c member =>
          List.all_eq_true.mp areBlank c (Text.mem_of_mem_trimEndWhere member)
      rw [List.filter_cons_of_neg (by simp [remark])]
      exact inductionHypothesis speak
  | comment indent words ending areBlank ends _ inductionHypothesis =>
      have remark : isRemark (indent ++ "#" ++ words ++ ending) := by
        obtain ⟨more, written⟩ :
            ∃ more, chomp (indent ++ "#" ++ words) = indent.toList ++ '#' :: more := by
          have shape :
              (indent ++ "#" ++ words).toList = indent.toList ++ '#' :: words.toList := by
            simp
          rw [chomp, shape]
          exact ⟨_, Text.trimEndWhere_append_cons (by decide) _ _⟩
        exact isRemark_of_comment (List.all_eq_true.mp areBlank)
          ((chomp_append ends _).trans written)
      rw [List.filter_cons_of_neg (by simp [remark])]
      exact inductionHypothesis speak
  | line text ending ends _ inductionHypothesis =>
      obtain ⟨first, others⟩ := List.forall_mem_cons.mp speak
      have written : chomp (text ++ ending) = text.toList := by
        rw [chomp_append ends, first.chomp_eq]
      rw [List.filter_cons_of_pos (by simp [first.notRemark _ written]), List.map_cons, written,
        List.map_cons, inductionHypothesis others]

/-- A line that is read as something else than a remark is none. -/
theorem notRemark_of_readLine
    {raw : String}
    {said : Line}
    (read : readLine raw = .ok said)
    (notBlank : said ≠ .blank) :
    isRemark raw = false := by
  rw [← Bool.not_eq_true]
  intro remark
  rw [readLine_of_isRemark remark] at read
  cases read
  exact notBlank rfl

/-- The lines of a legible section speak. -/
theorem Section.Legible.speaks
    {part : Section}
    (legible : part.Legible) :
    ∀ text ∈ part.lines, Speaks text := by
  intro text member
  rcases List.mem_cons.mp member with rfl | inMembers
  · constructor
    · refine ⟨':', ?_, by decide⟩
      rw [Section.classText, String.toList_append, List.getLast?_append]
      rfl
    · exact fun raw written =>
        notRemark_of_readLine (readLine_classText legible written) (by simp)
  · obtain ⟨entry, inPart, rfl⟩ := List.mem_map.mp inMembers
    have ofEntry := legible.members entry inPart
    constructor
    · obtain ⟨last, ends, notBlank⟩ := ofEntry.bytecodeName.exists_last
      refine ⟨last, ?_, notBlank⟩
      rw [MemberEntry.text, String.toList_append, List.getLast?_append, ends]
      rfl
    · exact fun raw written =>
        notRemark_of_readLine (readLine_memberText ofEntry written) (by simp)

/-- Sections that are laid out are printed. -/
theorem prints_of_laidOut
    {sections : List Section}
    {lines : List String}
    (legible : ∀ part ∈ sections, part.Legible)
    (laidOut : LaidOut (sections.flatMap Section.lines) lines) :
    Prints lines sections := by
  apply laidOut.remains
  intro text member
  obtain ⟨part, inSections, inPart⟩ := List.mem_flatMap.mp member
  exact (legible part inSections).speaks text inPart

end Layout

section Answers

variable (sections : List Section)

/-- The entries of simplified sections are the entries simplified. -/
theorem entriesOf_simplified (className : String) :
    entriesOf (sections.map Section.simplified) className =
      (entriesOf sections className).map MemberEntry.simplified := by
  rw [entriesOf, entriesOf, List.filter_map, List.flatMap_map, List.map_flatMap]
  rfl

/-- What is entered for a member is the last segment of the name on its first line. -/
theorem entered?_simplified (className name : String) :
    ((sections.map Section.simplified).foldl Section.enter {}).renames.entered? className name =
      ((entriesOf sections className).find? fun entry => entry.bytecodeName == name).map
        MemberEntry.simpleName := by
  have noneBefore : ({} : SymbolMap).renames.entered? className name = none := by
    simp [RenameTable.entered?]
  rw [foldl_enter_entered?, noneBefore, Option.none_or, entriesOf_simplified, List.find?_map,
    Option.map_map]
  rfl

/-- The last part of a qualified name is the simple one. -/
theorem getLast?_splitOn_qualifiedName (entry : MemberEntry) :
    (entry.qualifiedName.toList.splitOn '.').getLast? = some entry.simpleName.toList := by
  rw [← Text.segments_eq_splitOn, Text.getLast?_segments, MemberEntry.simpleName,
    String.toList_ofList]

/-- Simplified sections give the same answers. -/
theorem answersFrom_simplified :
    AnswersFrom ((sections.map Section.simplified).foldl Section.enter {}) sections where
  resolveClass := by
    intro name
    have noneBefore : ({} : SymbolMap).renames.classes[name]? = none := by
      simp
    rw [SymbolMap.resolveClass, RenameTable.resolveClass, foldl_enter_classes, noneBefore,
      Option.or_none, ← List.map_reverse, List.find?_map, Option.map_map]
    rfl
  resolveMember := by
    intro part inSections entry inPart
    have listed : entry ∈ entriesOf sections part.bytecodeName :=
      List.mem_flatMap.mpr
        ⟨part, List.mem_filter.mpr ⟨inSections, beq_self_eq_true _⟩, inPart⟩
    cases found :
        (entriesOf sections part.bytecodeName).find?
          fun other => other.bytecodeName == entry.bytecodeName with
    | none =>
        have absent := List.find?_eq_none.mp found entry listed
        simp at absent
    | some first =>
        refine ⟨first, rfl, ?_⟩
        have entered := entered?_simplified sections part.bytecodeName entry.bytecodeName
        rw [found, Option.map_some] at entered
        have isKnown := Option.isSome_of_eq_some entered
        rw [SymbolMap.resolveMember, RenameTable.resolveMember_of_known isKnown, entered]
        exact getLast?_splitOn_qualifiedName first

end Answers

/-- Reading the lines of sections, however they are laid out, gives a map that answers from
the sections. -/
theorem reading_undoes_layout
    {sections : List Section}
    {lines : List String}
    (legible : ∀ part ∈ sections, part.Legible)
    (laidOut : LaidOut (sections.flatMap Section.lines) lines)
    (source : String) :
    ∃ symbols, parse {} source lines = (symbols, none) ∧ AnswersFrom symbols sections :=
  ⟨_, parse_of_legible legible (prints_of_laidOut legible laidOut) {} source,
    answersFrom_simplified sections⟩

/-- A class with two sections, between them another class, and inlined frames under the names
of other members. -/
def reopenedSections : List Section :=
  [ { sourceName := "com.example.Old"
      bytecodeName := "a"
      members :=
        [ { range := some (1, 4), type := "void", sourceName := "run"
            arguments := some ("int,java.lang.String", .range 12 15), bytecodeName := "b" },
          { range := some (1, 4), type := "void", owner := some "com.example.Bar"
            sourceName := "helper", arguments := some ("", .single 5), bytecodeName := "b" } ] },
    { sourceName := "com.example.Other", bytecodeName := "c" },
    { sourceName := "com.example.New"
      bytecodeName := "a"
      members :=
        [ { type := "int[]", sourceName := "count", bytecodeName := "b" },
          { range := some (7, 7), type := "int", owner := some "com.example.Bar"
            sourceName := "total", arguments := some ("-> x ->", .unknown)
            bytecodeName := "d" } ] } ]

/-- The sections with lines of both endings, and with remarks. -/
def reopenedText : List String :=
  [ "# compiler: R8\n",
    "com.example.Old -> a:\r\n",
    "    1:4:void run(int,java.lang.String):12:15 -> b\n",
    "\t  # sourceFile: Old.kt\r\n",
    "    1:4:void com.example.Bar.helper():5 -> b\r\n",
    "   \n",
    "com.example.Other -> c:\n",
    "com.example.New -> a:\n",
    "    int[] count -> b\n",
    "    7:7:int com.example.Bar.total(-> x ->) -> d",
    "" ]

/-- A text that opens one class twice is a layout of its sections. -/
theorem laidOut_reopenedText :
    LaidOut (reopenedSections.flatMap Section.lines) reopenedText :=
  .comment "" " compiler: R8" "\n" (by decide) (by decide) <|
    .line _ "\r\n" (by decide) <|
    .line _ "\n" (by decide) <|
    .comment "\t  " " sourceFile: Old.kt" "\r\n" (by decide) (by decide) <|
    .line _ "\r\n" (by decide) <|
    .blank "   " "\n" (by decide) (by decide) <|
    .line _ "\n" (by decide) <|
    .line _ "\n" (by decide) <|
    .line _ "\n" (by decide) <|
    .line _ "" (by decide) <|
    .blank "" "" (by decide) (by decide) .nil

/-- The last section names the class, and first lines name its members. -/
theorem reading_reopenedText :
    ∃ symbols,
      parse {} "mapping.txt" reopenedText = (symbols, none) ∧
        symbols.resolveClass "a" = "com.example.New" ∧
        symbols.resolveClass "com.example.New" = "com.example.New" ∧
        symbols.resolveMember "a" "b" = "run" ∧
        symbols.resolveMember "a" "d" = "total" := by
  obtain ⟨symbols, read, answers⟩ :=
    reading_undoes_layout (by decide +kernel) laidOut_reopenedText "mapping.txt"
  refine ⟨symbols, read, answers.resolveClass "a", answers.resolveClass "com.example.New",
    ?_, ?_⟩
  · obtain ⟨first, found, last⟩ :=
      answers.resolveMember reopenedSections[2] (by decide)
        reopenedSections[2].members[0] (by decide)
    cases found
    exact String.toList_injective (Option.some.inj (last.symm.trans (by decide +kernel)))
  · obtain ⟨first, found, last⟩ :=
      answers.resolveMember reopenedSections[2] (by decide)
        reopenedSections[2].members[1] (by decide)
    cases found
    exact String.toList_injective (Option.some.inj (last.symm.trans (by decide +kernel)))

end ApkAtlas.MappingText
