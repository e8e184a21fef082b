import ApkAtlas.Package.Build
import ApkAtlas.Proofs.Symbols.MemberType
import ApkAtlas.Proofs.Symbols.SeedPrint

namespace ApkAtlas

/-!
# Programs under two names

The classes and members of a program go by their source names in sources and in seeds, and
by other names in bytecode. A mapping text that covers a program gives back its source
names, and with them the source form of each member is found from its signature.
-/

open Package (constructorName simpleName seedSignature)

/-- A member under both names. -/
structure ProgramMember where
  sourceName : String
  bytecodeName : String
  type : MemberType
deriving Repr, DecidableEq

namespace ProgramMember

/-- The signature of a member in bytecode. -/
def signature (member : ProgramMember) : String :=
  member.type.signature member.bytecodeName

/-- Members have names, except constructors and class initializers, which are methods and
go by the same mark everywhere. -/
@[mk_iff]
structure WellFormed (member : ProgramMember) : Prop where
  type : member.type.WellFormed
  names :
    (Text.IsName member.sourceName ∧ Text.IsName member.bytecodeName) ∨
      (member.type.kind = .method ∧ member.sourceName = member.bytecodeName ∧
        member.bytecodeName ∈ [constructorName, "<clinit>"])

instance (member : ProgramMember) : Decidable member.WellFormed :=
  decidable_of_iff' _ member.wellFormed_iff

end ProgramMember

/-- A class under both names. -/
structure ProgramClass where
  sourceName : String
  bytecodeName : String
  members : List ProgramMember
deriving Repr, DecidableEq

/-- A class is declared under its name in bytecode or its descriptor, with members of
its own. -/
@[mk_iff]
structure ProgramClass.DeclaredBy (part : ProgramClass) (declared : ClassSymbols) : Prop where
  name :
    declared.name = part.bytecodeName ∨
      declared.name = String.ofList (ElementType.named part.bytecodeName).descriptor
  methods :
    ∀ signature ∈ declared.methods, ∃ member ∈ part.members,
      member.type.kind = .method ∧ member.signature = signature
  fields :
    ∀ signature ∈ declared.fields, ∃ member ∈ part.members,
      member.type.kind = .field ∧ member.signature = signature

instance (part : ProgramClass) (declared : ClassSymbols) : Decidable (part.DeclaredBy declared) :=
  decidable_of_iff' _ (part.declaredBy_iff declared)

/-- The classes of a program. -/
structure Program where
  classes : List ProgramClass
deriving Repr, DecidableEq

namespace Program

/-- The source name of a class; a class that is not of the program has one name. -/
def sourceName (program : Program) (bytecodeName : String) : String :=
  ((program.classes.find? fun part => part.bytecodeName == bytecodeName).map
    ProgramClass.sourceName).getD bytecodeName

/-- The source form of a member of a class. -/
def sourceMember
    (program : Program)
    (part : ProgramClass)
    (member : ProgramMember) :
    SeedText.SourceMember :=
  match member.type with
  | .field type => .field (type.sourceText program.sourceName) member.sourceName
  | .method parameters result =>
      let parameterTexts := parameters.map (JavaType.sourceText program.sourceName)
      if member.bytecodeName = constructorName then
        .constructor (simpleName part.sourceName) parameterTexts
      else
        .method (result.sourceText program.sourceName) member.sourceName parameterTexts

/-- Classes have one name each in sources and in bytecode, and members of a class that
share a name in bytecode share it in sources. -/
@[mk_iff]
structure WellFormed (program : Program) : Prop where
  classNames :
    ∀ part ∈ program.classes,
      Text.IsClassName part.sourceName ∧ Text.IsClassName part.bytecodeName
  members : ∀ part ∈ program.classes, ∀ member ∈ part.members, member.WellFormed
  distinct :
    ∀ first ∈ program.classes, ∀ second ∈ program.classes,
      first.sourceName = second.sourceName ∨ first.bytecodeName = second.bytecodeName →
        first = second
  sharedNames :
    ∀ part ∈ program.classes, ∀ first ∈ part.members, ∀ second ∈ part.members,
      first.bytecodeName = second.bytecodeName → first.sourceName = second.sourceName

instance (program : Program) : Decidable program.WellFormed :=
  decidable_of_iff' _ program.wellFormed_iff

/-- A line of a mapping text is about a member. -/
def Names (entry : MappingText.MemberEntry) (member : ProgramMember) : Prop :=
  entry.sourceName = member.sourceName ∧ entry.bytecodeName = member.bytecodeName

instance (entry : MappingText.MemberEntry) (member : ProgramMember) :
    Decidable (Names entry member) :=
  inferInstanceAs (Decidable (_ ∧ _))

/-- A mapping text has sections for the classes of a program and no others, and lines for
all their members but constructors. The first line of a name in bytecode is about a
member; lines of inlined frames may follow it. -/
@[mk_iff]
structure CoveredBy (program : Program) (sections : List MappingText.Section) : Prop where
  wellFormed : ∀ part ∈ sections, part.WellFormed
  known :
    ∀ part ∈ sections, ∃ known ∈ program.classes,
      part.sourceName = known.sourceName ∧ part.bytecodeName = known.bytecodeName
  classes :
    ∀ known ∈ program.classes, ∃ part ∈ sections, part.bytecodeName = known.bytecodeName
  members :
    ∀ known ∈ program.classes, ∀ member ∈ known.members,
      member.bytecodeName ≠ constructorName →
        ∃ entry ∈ MappingText.entriesOf sections known.bytecodeName, Names entry member
  first :
    ∀ known ∈ program.classes, ∀ member ∈ known.members,
      ∀ entry ∈ (MappingText.entriesOf sections known.bytecodeName).find? fun entry =>
          entry.bytecodeName == member.bytecodeName,
        ∃ named ∈ known.members, Names entry named

instance (program : Program) (sections : List MappingText.Section) :
    Decidable (program.CoveredBy sections) :=
  decidable_of_iff' _ (program.coveredBy_iff sections)

end Program

section Names

variable {member : ProgramMember}

/-- Both names of a well-formed member are plain. -/
theorem ProgramMember.WellFormed.isPlain (wellFormed : member.WellFormed) :
    Text.IsPlain member.sourceName.toList ∧ Text.IsPlain member.bytecodeName.toList := by
  rcases wellFormed.names with ⟨source, bytecode⟩ | ⟨_, same, special⟩
  · exact ⟨source.isPlain, bytecode.isPlain⟩
  · rw [same, and_self]
    have plain : ∀ name ∈ [constructorName, "<clinit>"], Text.IsPlain name.toList := by
      decide
    exact plain _ special

theorem ProgramMember.WellFormed.sourceName_ne_empty (wellFormed : member.WellFormed) :
    member.sourceName ≠ "" := by
  rcases wellFormed.names with ⟨source, _⟩ | ⟨_, same, special⟩
  · exact source.1
  · rw [same]
    have notEmpty : ∀ name ∈ [constructorName, "<clinit>"], name ≠ "" := by
      decide
    exact notEmpty _ special

/-- A constructor is a method. -/
theorem ProgramMember.WellFormed.kind_of_constructor
    (wellFormed : member.WellFormed)
    (isConstructor : member.bytecodeName = constructorName) :
    member.type.kind = .method := by
  rcases wellFormed.names with ⟨_, bytecode⟩ | ⟨isMethod, _⟩
  · have noName : Text.isNameChar '<' = false := by
      decide
    rw [isConstructor] at bytecode
    rw [bytecode.2 '<' (by decide)] at noName
    cases noName
  · exact isMethod

/-- The name of a member can be taken from its signature. -/
theorem ProgramMember.WellFormed.memberName_signature (wellFormed : member.WellFormed) :
    Signature.memberName member.signature = member.bytecodeName :=
  MemberType.memberName_signature
    (wellFormed.isPlain.2.not_mem (by decide)) (wellFormed.isPlain.2.not_mem (by decide))
    wellFormed.type

/-- A signature is no token of a line. -/
theorem not_isToken_signature (name : String) (type : MemberType) :
    ¬ MappingText.IsToken (type.signature name) := by
  intro isToken
  cases type with
  | field type =>
      have member : ':' ∈ ((MemberType.field type).signature name).toList := by
        simp [MemberType.signature, MemberType.descriptor]
      exact (isToken.2.2 ':' member).2.2 rfl
  | method parameters result =>
      have member : '(' ∈ ((MemberType.method parameters result).signature name).toList := by
        simp [MemberType.signature, MemberType.descriptor]
      exact (isToken.2.2 '(' member).2.1 rfl

/-- No signature is a source form: a source form has a blank or ends with its
parameters. -/
theorem text_ne_signature
    (written : SeedText.SourceMember)
    {name : String}
    {type : MemberType}
    (plainName : Text.IsPlain name.toList)
    (wellFormed : type.WellFormed) :
    written.text ≠ type.signature name := by
  intro same
  cases written with
  | constructor className parameters =>
      apply MemberType.getLast?_signature name wellFormed
      rw [← same, SeedText.SourceMember.text, String.toList_append, List.getLast?_append,
        SeedText.getLast?_parameterText]
      rfl
  | method result member parameters =>
      apply MemberType.blank_not_mem_signature plainName wellFormed
      rw [← same]
      simp [SeedText.SourceMember.text]
  | field type member =>
      apply MemberType.blank_not_mem_signature plainName wellFormed
      rw [← same]
      simp [SeedText.SourceMember.text]

end Names

namespace Program

variable
  {program : Program}
  {sections : List MappingText.Section}
  {part : ProgramClass}
  {member : ProgramMember}

/-- A class of a program has its source name. -/
theorem sourceName_of_mem
    (wellFormed : program.WellFormed)
    (inProgram : part ∈ program.classes) :
    program.sourceName part.bytecodeName = part.sourceName := by
  rw [sourceName]
  cases found : program.classes.find? fun known => known.bytecodeName == part.bytecodeName with
  | none =>
      have absent := List.find?_eq_none.mp found part inProgram
      simp at absent
  | some known =>
      have sameName := List.find?_some found
      have same :=
        wellFormed.distinct known (List.mem_of_find?_eq_some found) part inProgram
          (.inr (beq_iff_eq.mp sameName))
      rw [same]
      rfl

theorem sourceName_of_forall_ne
    {bytecodeName : String}
    (foreign : ∀ known ∈ program.classes, known.bytecodeName ≠ bytecodeName) :
    program.sourceName bytecodeName = bytecodeName := by
  have absent :
      (program.classes.find? fun known => known.bytecodeName == bytecodeName) = none := by
    rw [List.find?_eq_none]
    intro known inProgram
    simpa using foreign known inProgram
  rw [sourceName, absent]
  rfl

section Resolution

variable {symbols : SymbolMap}

/-- The source names of classes come back from a mapping text. -/
theorem CoveredBy.resolveClass
    (wellFormed : program.WellFormed)
    (covered : program.CoveredBy sections)
    (entered : symbols.renames = (sections.foldl MappingText.Section.enter {}).renames) :
    symbols.resolveClass = program.sourceName := by
  funext bytecodeName
  rw [SymbolMap.resolveClass, RenameTable.resolveClass, entered,
    MappingText.foldl_enter_classes]
  cases found :
      sections.reverse.find? fun part => part.bytecodeName == bytecodeName with
  | none =>
      have absent := List.find?_eq_none.mp found
      rw [sourceName_of_forall_ne]
      · rfl
      · intro known inProgram same
        obtain ⟨part, inSections, sameName⟩ := covered.classes known inProgram
        have different := absent part (List.mem_reverse.mpr inSections)
        simp [sameName, same] at different
  | some part =>
      have sameName := List.find?_some found
      rw [beq_iff_eq] at sameName
      obtain ⟨known, inProgram, source, bytecode⟩ :=
        covered.known part (List.mem_reverse.mp (List.mem_of_find?_eq_some found))
      rw [← sameName, bytecode, sourceName_of_mem wellFormed inProgram, ← source]
      rfl

/-- The source name of each member but a constructor comes back from a mapping text. -/
theorem CoveredBy.resolveMember
    (wellFormed : program.WellFormed)
    (covered : program.CoveredBy sections)
    (entered : symbols.renames = (sections.foldl MappingText.Section.enter {}).renames)
    (inProgram : part ∈ program.classes)
    (inClass : member ∈ part.members)
    (noConstructor : member.bytecodeName ≠ constructorName) :
    symbols.resolveMember part.bytecodeName member.signature = member.sourceName := by
  have ofMember := wellFormed.members part inProgram member inClass
  rw [SymbolMap.resolveMember, entered]
  apply RenameTable.resolveMember_of_entered?
  · rw [MappingText.foldl_enter_entered?]
    have absent :
        ((MappingText.entriesOf sections part.bytecodeName).find? fun entry =>
          entry.bytecodeName == member.signature) = none := by
      rw [List.find?_eq_none]
      intro entry listed same
      obtain ⟨listing, inSections, inListing⟩ := List.mem_flatMap.mp listed
      have ofListing := covered.wellFormed listing (List.mem_of_mem_filter inSections)
      have isToken := (ofListing.members entry inListing).bytecodeName
      rw [beq_iff_eq.mp same] at isToken
      exact not_isToken_signature _ _ isToken
    rw [absent]
    rfl
  · obtain ⟨entry, listed, _, sameName⟩ :=
      covered.members part inProgram member inClass noConstructor
    rw [ofMember.memberName_signature, MappingText.foldl_enter_entered?]
    cases found :
        (MappingText.entriesOf sections part.bytecodeName).find? fun entry =>
          entry.bytecodeName == member.bytecodeName with
    | none =>
        have absent := List.find?_eq_none.mp found entry listed
        simp [sameName] at absent
    | some first =>
        obtain ⟨named, inNamed, source, bytecode⟩ :=
          covered.first part inProgram member inClass first found
        have sameBytecode := List.find?_some found
        rw [beq_iff_eq, bytecode] at sameBytecode
        have sameSource :=
          wellFormed.sharedNames part inProgram named inNamed member inClass sameBytecode
        rw [Option.map_some, source, sameSource]
        rfl

end Resolution

section SourceForms

theorem isPlain_sourceName
    (wellFormed : program.WellFormed)
    {bytecodeName : String}
    (plain : Text.IsPlain bytecodeName.toList) :
    Text.IsPlain (program.sourceName bytecodeName).toList := by
  rw [sourceName]
  cases found : program.classes.find? fun known => known.bytecodeName == bytecodeName with
  | none =>
      exact plain
  | some known =>
      exact (wellFormed.classNames known (List.mem_of_find?_eq_some found)).1.isPlain

/-- No type is written with a bracket that opens parameters. -/
theorem opening_not_mem_sourceText
    (wellFormed : program.WellFormed)
    {type : JavaType}
    (ofType : type.WellFormed) :
    '(' ∉ (type.sourceText program.sourceName).toList := by
  have noneInElement : '(' ∉ (type.element.sourceName program.sourceName).toList := by
    cases element : type.element with
    | primitive base =>
        rw [ElementType.sourceName]
        cases base <;> decide
    | named className =>
        rw [JavaType.WellFormed, element] at ofType
        exact (isPlain_sourceName wellFormed ofType).not_mem (by decide)
  have noneInDimensions :
      '(' ∉ (String.join (List.replicate type.dimensions "[]")).toList := by
    induction type.dimensions with
    | zero =>
        decide
    | succ dimensions inductionHypothesis =>
        rw [List.replicate_succ, String.join_cons, String.toList_append, List.mem_append, not_or]
        exact ⟨by decide, inductionHypothesis⟩
  rw [JavaType.sourceText, String.toList_append, List.mem_append, not_or]
  exact ⟨noneInElement, noneInDimensions⟩

/-- The source form of a member has a parameter list if the member is a method. -/
theorem contains_sourceMember
    (wellFormed : program.WellFormed)
    (inProgram : part ∈ program.classes)
    (inClass : member ∈ part.members) :
    (program.sourceMember part member).text.toList.contains '(' =
      (member.type.kind == .method) := by
  have ofMember := wellFormed.members part inProgram member inClass
  rw [sourceMember]
  cases type : member.type with
  | field fieldType =>
      have ofType := ofMember.type
      rw [type] at ofType
      have noneInType := opening_not_mem_sourceText wellFormed ofType
      have noneInName : '(' ∉ member.sourceName.toList := ofMember.isPlain.1.not_mem (by decide)
      simp [SeedText.SourceMember.text, MemberType.kind, noneInType, noneInName]
  | method parameters result =>
      by_cases isConstructor : member.bytecodeName = constructorName
      · simp [isConstructor, SeedText.SourceMember.text, SeedText.SourceMember.parameterText,
          MemberType.kind]
      · simp [isConstructor, SeedText.SourceMember.text, SeedText.SourceMember.parameterText,
          MemberType.kind]

/-- The first parenthesis in the source form of a method opens its parameter list. -/
theorem dropWhile_sourceText
    {resolve : String → String}
    {name : String}
    {parameters : List JavaType}
    {result : JavaType}
    (noneInResult : '(' ∉ (result.sourceText resolve).toList)
    (noneInName : '(' ∉ name.toList) :
    ((MemberType.method parameters result).sourceText resolve name).toList.dropWhile (· != '(') =
      '(' :: (",".intercalate (parameters.map (JavaType.sourceText resolve)) ++ ")").toList := by
  have shape :
      ((MemberType.method parameters result).sourceText resolve name).toList =
        ((result.sourceText resolve).toList ++ ' ' :: name.toList) ++
          '(' :: (",".intercalate (parameters.map (JavaType.sourceText resolve)) ++
            ")").toList := by
    simp [MemberType.sourceText, MemberType.parameterText]
  have passes :
      ∀ c ∈ (result.sourceText resolve).toList ++ ' ' :: name.toList, (c != '(') = true := by
    intro c inBefore
    rw [bne_iff_ne]
    rintro rfl
    rcases List.mem_append.mp inBefore with inResult | inRest
    · exact noneInResult inResult
    · rcases List.mem_cons.mp inRest with same | inName
      · cases same
      · exact noneInName inName
  rw [shape, List.dropWhile_append_of_pos passes, List.dropWhile_cons_of_neg (by simp)]

/-- The seed signature of a member is its source form. -/
theorem CoveredBy.seedSignature
    (wellFormed : program.WellFormed)
    (covered : program.CoveredBy sections)
    {symbols : SymbolMap}
    (entered : symbols.renames = (sections.foldl MappingText.Section.enter {}).renames)
    (inProgram : part ∈ program.classes)
    (inClass : member ∈ part.members) :
    seedSignature symbols part.bytecodeName part.sourceName member.signature =
      .ok (program.sourceMember part member).text := by
  have ofMember := wellFormed.members part inProgram member inClass
  have ofType := ofMember.type
  have resolve := covered.resolveClass wellFormed entered
  have plainSource := ofMember.isPlain.1
  have plainBytecode := ofMember.isPlain.2
  have form (chosen : String) :
      Signature.sourceForm program.sourceName chosen member.signature =
        member.type.sourceText program.sourceName
          (Signature.chosenName chosen member.bytecodeName) :=
    MemberType.sourceForm_signature (plainBytecode.not_mem (by decide))
      (plainBytecode.not_mem (by decide)) ofType program.sourceName chosen
  rw [Package.seedSignature, ofMember.memberName_signature, resolve]
  by_cases isConstructor : member.bytecodeName = constructorName
  · have isMethod := ofMember.kind_of_constructor isConstructor
    rw [if_pos isConstructor, form, sourceMember]
    cases type : member.type with
    | field _ =>
        rw [type] at isMethod
        cases isMethod
    | method parameters result =>
        rw [type] at ofType
        have ownName :
            Signature.chosenName "" member.bytecodeName = member.bytecodeName := by
          rfl
        have noneInResult := opening_not_mem_sourceText wellFormed ofType.2
        have noneInName : '(' ∉ member.bytecodeName.toList := plainBytecode.not_mem (by decide)
        rw [ownName]
        simp only [dropWhile_sourceText noneInResult noneInName, if_pos isConstructor]
        rw [String.ofList_cons, String.ofList_toList, SeedText.SourceMember.text,
          SeedText.SourceMember.parameterText, String.append_assoc]
        rfl
  · have resolved := covered.resolveMember wellFormed entered inProgram inClass isConstructor
    have bareName : Signature.memberName member.sourceName = member.sourceName := by
      rw [Signature.memberName,
        Text.beforeFirst_of_not_mem (plainSource.not_mem (by decide)),
        Text.beforeFirst_of_not_mem (plainSource.not_mem (by decide)), String.ofList_toList]
    have chosen :
        Signature.chosenName member.sourceName member.bytecodeName = member.sourceName := by
      rw [Signature.chosenName, if_neg]
      simpa using ofMember.sourceName_ne_empty
    rw [if_neg isConstructor, resolved, bareName]
    simp only [form, chosen, sourceMember]
    cases member.type with
    | field _ =>
        rfl
    | method parameters result =>
        simp only [if_neg isConstructor]
        rfl

end SourceForms

end Program

end ApkAtlas
