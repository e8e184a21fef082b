import ApkAtlas.Proofs.Package.Content
import ApkAtlas.Proofs.Symbols.Program
import Mathlib.Data.Set.Card

namespace ApkAtlas.Package

open PackageNode

/-!
# What the referenced counters say

A class counts a declared member as referenced if bytecode refers to it or if the seeds
list it. Bytecode refers to members by signatures under bytecode names, seeds list them in
source form under source names, and both are recorded side by side; since no signature is
a source form, neither is taken for the other.
-/

section Counting

variable
  {symbols : SymbolMap}
  {kind : MemberKind}
  {bytecodeName sourceName signature : String}

/-- A member is referenced if it is used under one of its two names. -/
theorem isReferenced_eq
    {form : String}
    (formed : seedSignature symbols bytecodeName sourceName signature = .ok form) :
    isReferenced symbols kind bytecodeName sourceName signature =
      .ok (symbols.usage.usesMember bytecodeName signature kind ||
        symbols.usage.usesMember sourceName form kind) := by
  rw [isReferenced, formed]
  cases ofBytecode : symbols.usage.usesMember bytecodeName signature kind with
  | true =>
      rfl
  | false =>
      cases isEmpty : (symbols.usage.members sourceName kind).isEmpty with
      | true =>
          rw [Std.ExtTreeSet.isEmpty_iff] at isEmpty
          simp [UsageRecord.usesMember, isEmpty]
          rfl
      | false =>
          rfl

/-- Where it is known which members are referenced, they are counted. -/
theorem countReferenced_eq
    {used : String → Bool}
    {signatures : List String}
    (each :
      ∀ signature ∈ signatures,
        isReferenced symbols kind bytecodeName sourceName signature = .ok (used signature)) :
    countReferenced symbols kind bytecodeName sourceName signatures =
      .ok (signatures.countP used) := by
  induction signatures with
  | nil =>
      rfl
  | cons signature rest inductionHypothesis =>
      obtain ⟨ofFirst, ofRest⟩ := List.forall_mem_cons.mp each
      rw [countReferenced, ofFirst, inductionHypothesis ofRest, List.countP_cons]
      cases used signature <;> rfl

/-- Where it is known of each signature whether it is referenced, they are counted as the
set of those that are. -/
theorem countReferenced_distinct
    {IsUsed : String → Prop}
    {signatures : List String}
    (each :
      ∀ signature ∈ signatures,
        ∃ hit,
          isReferenced symbols kind bytecodeName sourceName signature = .ok hit ∧
            (hit ↔ IsUsed signature)) :
    countReferenced symbols kind bytecodeName sourceName (distinct signatures) =
      .ok {signature | signature ∈ signatures ∧ IsUsed signature}.ncard := by
  classical
  have nodup : (distinct signatures).Nodup := by
    apply Std.ExtTreeSet.distinct_toList.imp
    intro first second different
    rintro rfl
    exact different Std.ReflCmp.compare_self
  have asFinset :
      {signature | signature ∈ signatures ∧ IsUsed signature} =
        (((distinct signatures).filter fun signature => IsUsed signature).toFinset :
          Set String) := by
    ext signature
    simp [mem_distinct]
  have decided (signature : String) (member : signature ∈ distinct signatures) :
      isReferenced symbols kind bytecodeName sourceName signature =
        .ok (decide (IsUsed signature)) := by
    obtain ⟨hit, answered, isHit⟩ := each signature (mem_distinct.mp member)
    rw [answered, ← Bool.decide_congr isHit, Bool.decide_eq_true]
  rw [asFinset, Set.ncard_coe_finset, List.toFinset_card_of_nodup (nodup.filter _),
    ← List.countP_eq_length_filter]
  exact countReferenced_eq decided

end Counting

/-- What a tree is built from: what a mapping text and a seed text were printed from, and
the symbols of some files. -/
structure BuildInput where
  settings : BuildSettings := {}
  sections : List MappingText.Section
  seeds : List SeedText.SeedEntry
  sources : List SymbolSource

namespace BuildInput

/-- The symbol map after the mapping text and the seed text were read. -/
def recorded (input : BuildInput) : SymbolMap :=
  input.seeds.foldl SeedText.SeedEntry.enter
    (input.sections.foldl MappingText.Section.enter {})

/-- The symbol map that the build looks names up in. -/
def symbols (input : BuildInput) : SymbolMap :=
  input.settings.symbolsFor input.recorded input.sources

/-- Code in some file refers to a member of a class. -/
def Refers (input : BuildInput) (kind : MemberKind) (className signature : String) : Prop :=
  ∃ source ∈ input.sources, ∃ reference ∈ source.references,
    reference.kind = kind ∧ Descriptor.className reference.className = className ∧
      reference.signature = signature

/-- The seeds list a member of a class. -/
def Lists (input : BuildInput) (kind : MemberKind) (className text : String) : Prop :=
  ∃ entry ∈ input.seeds, ∃ member ∈ entry.member,
    member.kind = kind ∧ entry.className = className ∧ member.text = text

/-- The input belongs to a program: the mapping text covers it, and the files declare its
classes and refer to members by signatures. -/
structure BelongsTo (input : BuildInput) (program : Program) : Prop where
  wellFormed : program.WellFormed
  sections : program.CoveredBy input.sections
  seeds : ∀ entry ∈ input.seeds, entry.WellFormed
  classes :
    ∀ source ∈ input.sources, ∀ declared ∈ source.classes,
      ∃ part ∈ program.classes, part.DeclaredBy declared
  references :
    ∀ source ∈ input.sources, ∀ reference ∈ source.references,
      ∃ name type, Text.IsPlain name.toList ∧ MemberType.WellFormed type ∧
        reference.signature = type.signature name

/-- A member of a program is used: references count and some code refers to it by its name
in bytecode, or the seeds list its source form. -/
def Uses
    (input : BuildInput)
    (program : Program)
    (part : ProgramClass)
    (member : ProgramMember) :
    Prop :=
  (input.settings.recordReferences ∧
      input.Refers member.type.kind part.bytecodeName member.signature) ∨
    ∃ entry ∈ input.seeds, entry.className = part.sourceName ∧
      ∃ written ∈ entry.member, written.text = (program.sourceMember part member).text

/-- The used ones among the signatures of members of a class. -/
def usedAmong
    (input : BuildInput)
    (program : Program)
    (part : ProgramClass)
    (kind : MemberKind)
    (signatures : List String) :
    Set String :=
  {signature | signature ∈ signatures ∧
    ∃ member ∈ part.members, member.type.kind = kind ∧ member.signature = signature ∧
      input.Uses program part member}

section Evidence

variable (input : BuildInput)

theorem renames_symbols :
    input.symbols.renames =
      (input.sections.foldl MappingText.Section.enter {}).renames := by
  rw [symbols, renames_symbolsFor, recorded, SeedText.foldl_enter_renames]

/-- A build knows of the use of a member from references and seeds alone. -/
theorem usesMember_symbols (kind : MemberKind) (className signature : String) :
    input.symbols.usage.usesMember className signature kind ↔
      (input.settings.recordReferences ∧ input.Refers kind className signature) ∨
        input.Lists kind className signature := by
  have unused :
      (input.sections.foldl MappingText.Section.enter {}).usage.usesMember
        className signature kind = false := by
    rw [MappingText.foldl_enter_usage]
    cases kind <;> simp [UsageRecord.usesMember, UsageRecord.members, UsageRecord.ofKind]
  have ofSeeds :
      input.recorded.usage.usesMember className signature kind ↔
        input.Lists kind className signature := by
    rw [recorded, SeedText.usesMember_foldl_enter, unused, Lists]
    simp
  rw [symbols, BuildSettings.symbolsFor]
  by_cases record : input.settings.recordReferences
  · rw [if_pos record, SymbolMap.usesMember_recordSources, ofSeeds, Refers]
    simp [record]
  · rw [if_neg record, ofSeeds]
    simp [record]

end Evidence

namespace BelongsTo

variable
  {input : BuildInput}
  {program : Program}
  {part : ProgramClass}
  {member : ProgramMember}

/-- Seeds list no bytecode signatures. -/
theorem not_lists_signature
    (belongs : input.BelongsTo program)
    (inProgram : part ∈ program.classes)
    (inClass : member ∈ part.members)
    (kind : MemberKind)
    (className : String) :
    ¬ input.Lists kind className member.signature := by
  have ofMember := belongs.wellFormed.members part inProgram member inClass
  rintro ⟨_, _, written, _, _, _, same⟩
  exact text_ne_signature written ofMember.isPlain.2 ofMember.type same

/-- Bytecode refers to no source forms. -/
theorem not_refers_text
    (belongs : input.BelongsTo program)
    (kind : MemberKind)
    (className : String)
    (form : SeedText.SourceMember) :
    ¬ input.Refers kind className form.text := by
  rintro ⟨source, inSources, reference, inReferences, _, _, same⟩
  obtain ⟨name, type, plainName, ofType, isSignature⟩ :=
    belongs.references source inSources reference inReferences
  exact text_ne_signature form plainName ofType (same.symm.trans isSignature)

/-- A line for the source form of a member is a line for a member of its kind. -/
theorem lists_sourceMember
    (belongs : input.BelongsTo program)
    (inProgram : part ∈ program.classes)
    (inClass : member ∈ part.members) :
    input.Lists member.type.kind part.sourceName (program.sourceMember part member).text ↔
      ∃ entry ∈ input.seeds, entry.className = part.sourceName ∧
        ∃ written ∈ entry.member, written.text = (program.sourceMember part member).text := by
  constructor
  · rintro ⟨entry, inSeeds, written, isMember, _, sameClass, sameText⟩
    exact ⟨entry, inSeeds, sameClass, written, isMember, sameText⟩
  · rintro ⟨entry, inSeeds, sameClass, written, isMember, sameText⟩
    refine ⟨entry, inSeeds, written, isMember, ?_, sameClass, sameText⟩
    have ofWritten := (belongs.seeds entry inSeeds).member written isMember
    have bothContain := written.contains_text ofWritten
    rw [sameText, Program.contains_sourceMember belongs.wellFormed inProgram inClass]
      at bothContain
    cases ofKind : written.kind <;> cases memberKind : member.type.kind <;>
      simp [ofKind, memberKind] at bothContain ⊢

/-- A build takes a member as referenced exactly if it is used. -/
theorem exists_isReferenced
    (belongs : input.BelongsTo program)
    (inProgram : part ∈ program.classes)
    (inClass : member ∈ part.members) :
    ∃ hit,
      isReferenced input.symbols member.type.kind part.bytecodeName part.sourceName
          member.signature = .ok hit ∧
        (hit ↔ input.Uses program part member) := by
  have formed :=
    belongs.sections.seedSignature belongs.wellFormed input.renames_symbols inProgram inClass
  have notListed :=
    belongs.not_lists_signature inProgram inClass member.type.kind part.bytecodeName
  have notReferred :=
    belongs.not_refers_text member.type.kind part.sourceName (program.sourceMember part member)
  refine ⟨_, isReferenced_eq formed, ?_⟩
  rw [Bool.or_eq_true, usesMember_symbols, usesMember_symbols,
    belongs.lists_sourceMember inProgram inClass, Uses]
  simp only [notListed, notReferred, and_false, or_false, false_or]

/-- Of some declared members the used ones are counted. -/
theorem countReferenced
    (belongs : input.BelongsTo program)
    (inProgram : part ∈ program.classes)
    {kind : MemberKind}
    {signatures : List String}
    (members :
      ∀ signature ∈ signatures, ∃ member ∈ part.members,
        member.type.kind = kind ∧ member.signature = signature) :
    countReferenced input.symbols kind part.bytecodeName part.sourceName
        (distinct signatures) =
      .ok (input.usedAmong program part kind signatures).ncard := by
  apply countReferenced_distinct
  intro signature inSignatures
  obtain ⟨member, inClass, rfl, rfl⟩ := members signature inSignatures
  obtain ⟨hit, answered, isHit⟩ := belongs.exists_isReferenced inProgram inClass
  refine ⟨hit, answered, ?_⟩
  constructor
  · intro found
    exact ⟨member, inClass, rfl, rfl, isHit.mp found⟩
  · rintro ⟨other, otherInClass, sameKind, sameSignature, used⟩
    obtain ⟨otherHit, otherAnswered, isOtherHit⟩ :=
      belongs.exists_isReferenced inProgram otherInClass
    rw [sameKind, sameSignature, answered] at otherAnswered
    cases otherAnswered
    exact isOtherHit.mpr used

/-- A declared class has the bytecode name of its part of the program. -/
theorem className_declared
    (belongs : input.BelongsTo program)
    (inProgram : part ∈ program.classes)
    {declared : ClassSymbols}
    (declaredBy : part.DeclaredBy declared) :
    Descriptor.className declared.name = part.bytecodeName := by
  have plain := (belongs.wellFormed.classNames part inProgram).2.isPlain
  rcases declaredBy.name with dotted | descriptor
  · rw [dotted]
    exact Descriptor.className_of_not_mem (plain.not_mem (by decide))
  · rw [descriptor, ElementType.className_descriptor plain]

/-- A declared class goes into the tree under its source name. -/
theorem sourceName_declared
    (belongs : input.BelongsTo program)
    (inProgram : part ∈ program.classes)
    {declared : ClassSymbols}
    (declaredBy : part.DeclaredBy declared) :
    sourceName input.symbols declared = part.sourceName := by
  rw [sourceName, belongs.className_declared inProgram declaredBy,
    belongs.sections.resolveClass belongs.wellFormed input.renames_symbols,
    Program.sourceName_of_mem belongs.wellFormed inProgram]

/-- The label of a declared class counts the used ones among its members. -/
theorem declaredLabel_eq
    (belongs : input.BelongsTo program)
    (inProgram : part ∈ program.classes)
    {declared : ClassSymbols}
    (declaredBy : part.DeclaredBy declared)
    (fileName : String) :
    declaredLabel input.symbols fileName declared =
      .ok {
        name := simpleName part.sourceName
        kind := .classNode
        own := {
          methods := declared.methods.length
          fields := declared.fields.length
          referencedMethods :=
            (input.usedAmong program part .method declared.methods).ncard
          referencedFields := (input.usedAmong program part .field declared.fields).ncard }
        dexFile := some fileName
        sourceFile := declared.sourceFile } := by
  rw [declaredLabel, belongs.sourceName_declared inProgram declaredBy,
    belongs.className_declared inProgram declaredBy, classLabel,
    belongs.countReferenced inProgram declaredBy.methods,
    belongs.countReferenced inProgram declaredBy.fields]
  rfl

end BelongsTo

end BuildInput

/--
What the referenced counters of a built tree say. A mapping text and a seed text that are
printed for a program are read without error into an empty map, and the build over its
files returns; every class node then belongs to a class of the program and counts, among
the members that the kept declaration of the class has, those that are used.
-/
theorem referenced_counts_of_program
    {program : Program}
    {input : BuildInput}
    {mappingLines seedLines : List String}
    (belongs : input.BelongsTo program)
    (mappingPrinted : MappingText.Prints mappingLines input.sections)
    (seedsPrinted : SeedText.Prints seedLines input.seeds)
    (tolerant : input.settings.policy ≠ .refuse)
    (mappingFile seedFile : String) :
    ∃ renamed symbols result,
      MappingText.parse {} mappingFile mappingLines = (renamed, none) ∧
      SeedText.parse renamed seedFile seedLines = (symbols, none) ∧
      (build input.settings symbols input.sources).result = .ok result ∧
      ∀ path label, (path, label) ∈ result.root.classes →
        ∃ part ∈ program.classes, ∃ entry,
          part.sourceName = qualifiedName path ∧
          keptDeclaration? symbols input.settings.policy (qualifiedName path)
            ((build input.settings symbols input.sources).entries input.sources) =
              some entry ∧
          part.DeclaredBy entry.declared ∧
          label.own.referencedMethods =
            (input.usedAmong program part .method entry.declared.methods).ncard ∧
          label.own.referencedFields =
            (input.usedAmong program part .field entry.declared.fields).ncard := by
  have mappingRead :=
    MappingText.parse_of_prints belongs.sections.wellFormed mappingPrinted {} mappingFile
  have seedsRead :=
    SeedText.parse_of_prints belongs.seeds seedsPrinted
      (input.sections.foldl MappingText.Section.enter {}) seedFile
  have labelled :
      ∀ source ∈ input.sources, ∀ declared ∈ source.classes,
        ∃ label, declaredLabel input.symbols source.name declared = .ok label := by
    intro source inSources declared inClasses
    obtain ⟨part, inProgram, declaredBy⟩ :=
      belongs.classes source inSources declared inClasses
    exact ⟨_, belongs.declaredLabel_eq inProgram declaredBy source.name⟩
  obtain ⟨result, returned⟩ := exists_result tolerant labelled
  refine ⟨_, input.recorded, result, mappingRead, seedsRead, returned, ?_⟩
  intro path label member
  obtain ⟨root, rolled, contents⟩ := contents_of_result returned
  rw [rolled] at member
  obtain ⟨entry, before, kept, keptLabel, sameLabel⟩ := contents.exists_kept_of_class member
  obtain ⟨inEntries, _, spelled⟩ := mem_of_keptDeclaration? kept
  obtain ⟨part, inProgram, declaredBy⟩ :
      ∃ part ∈ program.classes, part.DeclaredBy entry.declared := by
    have isDeclared :
        entry.declaration ∈
          ((build input.settings input.recorded input.sources).entries input.sources).map
            Entry.declaration :=
      List.mem_map_of_mem inEntries
    rw [(run_build (result_eq_ok returned).1).2, Entry.declaration, mem_declarations]
      at isDeclared
    obtain ⟨source, inSources, _, inClasses⟩ := isDeclared
    exact belongs.classes source inSources entry.declared inClasses
  have counted := belongs.declaredLabel_eq inProgram declaredBy entry.fileName
  rw [BuildInput.symbols, keptLabel] at counted
  cases counted
  rw [keptDeclaration?_symbolsFor] at kept
  refine ⟨part, inProgram, entry, ?_, kept, declaredBy, ?_, ?_⟩
  · rw [← spelled]
    exact (belongs.sourceName_declared inProgram declaredBy).symm
  · rw [sameLabel]
  · rw [sameLabel]

/-- A class with a constructor, two methods and a field, under new names in bytecode. -/
def renamedClass : ProgramClass where
  sourceName := "com.example.Foo"
  bytecodeName := "a.b"
  members :=
    [ ⟨"<init>", "<init>", .method [⟨.primitive .int, 0⟩] ⟨.primitive .void, 0⟩⟩,
      ⟨"run", "a", .method [⟨.named "a.b", 1⟩] ⟨.primitive .int, 0⟩⟩,
      ⟨"stop", "c", .method [] ⟨.primitive .void, 0⟩⟩,
      ⟨"size", "b", .field ⟨.named "java.lang.String", 0⟩⟩ ]

/-- The seeds list the constructor and one method, and some code refers to the field. -/
def renamedInput : BuildInput where
  sections :=
    [ { sourceName := "com.example.Foo"
        bytecodeName := "a.b"
        members :=
          [ { type := "int", sourceName := "run", bytecodeName := "a"
              arguments := some ("com.example.Foo[]", .unknown) },
            { type := "void", sourceName := "stop", bytecodeName := "c"
              arguments := some ("", .single 7) },
            { type := "java.lang.String", sourceName := "size", bytecodeName := "b" } ] } ]
  seeds :=
    [ { className := "com.example.Foo" },
      { className := "com.example.Foo", member := some (.constructor "Foo" ["int"]) },
      { className := "com.example.Foo"
        member := some (.method "int" "run" ["com.example.Foo[]"]) } ]
  sources :=
    [ { name := "classes.dex"
        classes :=
          [ { name := "La/b;"
              methods := ["<init>(I)V", "a([La/b;)I", "c()V"]
              fields := ["b:Ljava/lang/String;"] } ]
        references :=
          [ { className := "La/b;", signature := "b:Ljava/lang/String;", kind := .field } ] } ]

/-- The mapping text of the renamed class. -/
def renamedMapping : List String :=
  [ "# compiler: R8",
    "com.example.Foo -> a.b:",
    "    int run(com.example.Foo[]) -> a",
    "    void stop():7 -> c",
    "    java.lang.String size -> b" ]

/-- The seed text of the renamed class. -/
def renamedSeeds : List String :=
  [ "com.example.Foo",
    "com.example.Foo: Foo(int)",
    "com.example.Foo: int run(com.example.Foo[])" ]

/-- The symbol map of both texts. -/
def renamedSymbols : SymbolMap :=
  let renamed := (MappingText.parse {} "mapping.txt" renamedMapping).1
  (SeedText.parse renamed "seeds.txt" renamedSeeds).1

/-- The tree of the renamed class. -/
def renamedBuild : Build :=
  build renamedInput.settings renamedSymbols renamedInput.sources

theorem renamedInput_belongsTo : renamedInput.BelongsTo ⟨[renamedClass]⟩ where
  wellFormed := by
    decide +kernel
  sections := by
    decide +kernel
  seeds := by
    decide +kernel
  classes := by
    decide +kernel
  references source inSources reference inReferences := by
    cases List.mem_singleton.mp inSources
    cases List.mem_singleton.mp inReferences
    refine ⟨"b", .field ⟨.named "java.lang.String", 0⟩, ?_, ?_, rfl⟩
    · decide +kernel
    · decide +kernel

/-- The class of the renamed build counts two used methods and a used field. -/
theorem referenced_counts_of_renamedInput :
    (renamedInput.usedAmong ⟨[renamedClass]⟩ renamedClass .method
        ["<init>(I)V", "a([La/b;)I", "c()V"]).ncard = 2 ∧
      (renamedInput.usedAmong ⟨[renamedClass]⟩ renamedClass .field
        ["b:Ljava/lang/String;"]).ncard = 1 := by
  obtain ⟨renamed, symbols, result, mappingRead, seedsRead, returned, counted⟩ :=
    @referenced_counts_of_program _ _ renamedMapping renamedSeeds renamedInput_belongsTo
      (by decide +kernel) (by decide +kernel) (by decide) "mapping.txt" "seeds.txt"
  obtain rfl := congrArg Prod.fst mappingRead
  obtain rfl := congrArg Prod.fst seedsRead
  have result_eq : renamedBuild.result = .ok result := returned
  have counters :
      (result.root.classes.map fun node =>
        (node.1, node.2.own.referencedMethods, node.2.own.referencedFields)) =
          [(["com", "example", "Foo"], 2, 1)] := by
    have evaluated :
        (renamedBuild.result.toOption.map fun result =>
          result.root.classes.map fun node =>
            (node.1, node.2.own.referencedMethods, node.2.own.referencedFields)) =
          some [(["com", "example", "Foo"], 2, 1)] := by
      decide +kernel
    rw [result_eq] at evaluated
    exact Option.some.inj evaluated
  have declaration :
      (keptDeclaration? renamedSymbols .firstWins "com.example.Foo"
        (renamedBuild.entries renamedInput.sources)).map Entry.declaration =
          (declarations renamedInput.sources).head? := by
    decide +kernel
  obtain ⟨⟨path, label⟩, member, same⟩ :=
    List.mem_map.mp (counters ▸ List.mem_cons_self)
  obtain ⟨part, inProgram, entry, _, kept, _, methods, fields⟩ := counted path label member
  cases List.mem_singleton.mp inProgram
  simp only [Prod.mk.injEq] at same
  obtain ⟨rfl, twoMethods, oneField⟩ := same
  have isKept :
      keptDeclaration? renamedSymbols .firstWins "com.example.Foo"
        (renamedBuild.entries renamedInput.sources) = some entry :=
    kept
  rw [isKept] at declaration
  have declared : entry.declared = _ := congrArg Prod.snd (Option.some.inj declaration)
  rw [twoMethods, declared] at methods
  rw [oneField, declared] at fields
  constructor
  · exact_mod_cast methods.symm
  · exact_mod_cast fields.symm

end ApkAtlas.Package
