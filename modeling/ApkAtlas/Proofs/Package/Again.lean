import ApkAtlas.Proofs.Package.Stopping
import ApkAtlas.Proofs.Symbols.Calls

namespace ApkAtlas

/-!
# Building again on the same map

A build writes into the map that it looks names up in, and the next build finds what it wrote.
All references are noted before the first class is inserted, and an insertion only reads, so a
second build on the map that the first one left comes to the same and leaves the map as it is.
-/

namespace MemberReference

/-- The use that is noted for a reference. -/
def use (reference : MemberReference) : Use :=
  ⟨Descriptor.className reference.className, some reference.signature, reference.kind⟩

end MemberReference

namespace SymbolMap

/-- The references of some files are noted as uses and enter no name. -/
theorem recordSources_eq (symbols : SymbolMap) (sources : List SymbolSource) :
    symbols.recordSources sources =
      { symbols with
        usage :=
          ((sources.flatMap SymbolSource.references).map MemberReference.use).foldl
            UsageRecord.note symbols.usage } := by
  rw [recordSources_eq_foldl]
  induction sources.flatMap SymbolSource.references generalizing symbols with
  | nil =>
      rfl
  | cons reference rest inductionHypothesis =>
      rw [List.foldl_cons, inductionHypothesis]
      rfl

/-- References that are recorded again change nothing. -/
theorem recordSources_again (symbols : SymbolMap) (sources : List SymbolSource) :
    (symbols.recordSources sources).recordSources sources = symbols.recordSources sources := by
  rw [recordSources_eq, recordSources_eq]
  dsimp only
  rw [← List.foldl_append, UsageRecord.foldl_note_append_of_subset fun _ member => member]

/-- A class is used if a source refers to it, or if it was used before. -/
theorem usesClass_recordSources
    {symbols : SymbolMap}
    {sources : List SymbolSource}
    {className : String} :
    (symbols.recordSources sources).usage.usesClass className ↔
      (∃ source ∈ sources, ∃ reference ∈ source.references,
        Descriptor.className reference.className = className) ∨
        symbols.usage.usesClass className := by
  rw [recordSources_eq, UsageRecord.usesClass_foldl_note]
  simp only [List.mem_map, List.mem_flatMap, MemberReference.use]
  constructor
  · rintro (⟨_, ⟨reference, ⟨source, inSources, inReferences⟩, rfl⟩, same⟩ | before)
    · exact .inl ⟨source, inSources, reference, inReferences, same⟩
    · exact .inr before
  · rintro (⟨source, inSources, reference, inReferences, same⟩ | before)
    · exact .inl ⟨_, ⟨reference, ⟨source, inSources, inReferences⟩, rfl⟩, same⟩
    · exact .inr before

end SymbolMap

namespace Package

/-- Records the references of some files, one after another. -/
def recordAll (sources : List SymbolSource) : StateM SymbolMap Unit :=
  sources.forM fun source =>
    source.references.forM fun reference => modify fun symbols => symbols.recordReference reference

/-- Puts the classes of one file into the tree, each with a look at the map as it is then. -/
def insertAllOn
    (policy : DuplicatePolicy)
    (fileName : String) :
    Progress → List ClassSymbols →
      StateM SymbolMap (Progress × List Decision × Option BuildError)
  | progress, [] => return (progress, [], none)
  | progress, declared :: rest => do
      let symbols ← get
      match insert symbols policy fileName progress declared with
      | .error error =>
          let decision := decisionOn? symbols policy fileName progress declared
          return (progress, decision.toList, some error)
      | .ok (next, decision) =>
          let (final, decisions, stop) ← insertAllOn policy fileName next rest
          return (final, decision :: decisions, stop)

/-- Puts the classes of all files into the tree. -/
def insertSourcesOn
    (policy : DuplicatePolicy) :
    Progress → List SymbolSource → StateM SymbolMap Build
  | progress, [] => return { progress }
  | progress, source :: rest => do
      match ← insertAllOn policy source.name progress source.classes with
      | (final, decisions, some error) =>
          return { progress := final, files := [(source.name, decisions)], stop := some error }
      | (next, decisions, none) =>
          let build ← insertSourcesOn policy next rest
          return { build with files := (source.name, decisions) :: build.files }

/-- Builds the tree of some files on a map that later builds find as this one leaves it. -/
def buildOn (settings : BuildSettings) (sources : List SymbolSource) : StateM SymbolMap Build := do
  if settings.recordReferences then
    recordAll sources
  insertSourcesOn settings.policy {} sources

section Running

variable {policy : DuplicatePolicy} {symbols : SymbolMap}

/-- Recording sources changes the map by their references. -/
theorem run_recordAll (sources : List SymbolSource) :
    (recordAll sources).run symbols = ((), symbols.recordSources sources) := by
  have recorded (references : List MemberReference) (symbols : SymbolMap) :
      StateT.run
          (references.forM fun reference =>
            (modify fun symbols => symbols.recordReference reference : StateM SymbolMap PUnit))
          symbols =
        pure ((), references.foldl SymbolMap.recordReference symbols) := by
    induction references generalizing symbols with
    | nil =>
        rfl
    | cons reference rest inductionHypothesis =>
        exact inductionHypothesis (symbols.recordReference reference)
  induction sources generalizing symbols with
  | nil =>
      rfl
  | cons source rest inductionHypothesis =>
      change StateT.run (source.references.forM _ >>= fun _ => recordAll rest) symbols = _
      rw [StateT.run_bind, recorded]
      exact inductionHypothesis

/-- Insertions leave the map as it is. -/
theorem run_insertAllOn
    (fileName : String)
    (progress : Progress)
    (classes : List ClassSymbols) :
    (insertAllOn policy fileName progress classes).run symbols =
      (insertAll symbols policy fileName progress classes, symbols) := by
  induction classes generalizing progress with
  | nil =>
      rfl
  | cons declared rest inductionHypothesis =>
      rw [insertAllOn, insertAll, StateT.run_bind, StateT.run_get, pure_bind]
      dsimp only
      cases insert symbols policy fileName progress declared with
      | error _ =>
          rfl
      | ok outcome =>
          obtain ⟨next, decision⟩ := outcome
          dsimp only
          rw [StateT.run_bind, inductionHypothesis]
          rfl

/-- Inserting on a map leaves the map as it is. -/
theorem run_insertSourcesOn
    (progress : Progress)
    (sources : List SymbolSource) :
    (insertSourcesOn policy progress sources).run symbols =
      (insertSources symbols policy progress sources, symbols) := by
  induction sources generalizing progress with
  | nil =>
      rfl
  | cons source rest inductionHypothesis =>
      rw [insertSourcesOn, insertSources, StateT.run_bind, run_insertAllOn]
      cases insertAll symbols policy source.name progress source.classes with
      | mk next outcome =>
      obtain ⟨decisions, _ | error⟩ := outcome
      · change StateT.run (insertSourcesOn policy next rest >>= _) symbols = _
        rw [StateT.run_bind, inductionHypothesis]
        rfl
      · rfl

/-- A build on a map is the build with it, and leaves the map with all references recorded. -/
theorem run_buildOn
    (settings : BuildSettings)
    (symbols : SymbolMap)
    (sources : List SymbolSource) :
    (buildOn settings sources).run symbols =
      (build settings symbols sources, settings.symbolsFor symbols sources) := by
  rw [buildOn, build, BuildSettings.symbolsFor]
  split
  · rw [StateT.run_bind, run_recordAll]
    exact run_insertSourcesOn {} sources
  · exact run_insertSourcesOn {} sources

end Running

/-- What a build leaves of a map: all names resolve as before, and the use that was noted before
is noted, with the references of all files if they are recorded. -/
structure Leaves
    (settings : BuildSettings)
    (sources : List SymbolSource)
    (before after : SymbolMap) :
    Prop where
  resolveClass : ∀ name, after.resolveClass name = before.resolveClass name
  resolveMember : ∀ className signature,
    after.resolveMember className signature = before.resolveMember className signature
  usesMember : ∀ className signature kind,
    after.usage.usesMember className signature kind ↔
      (settings.recordReferences ∧ ∃ source ∈ sources, ∃ reference ∈ source.references,
        reference.kind = kind ∧ Descriptor.className reference.className = className ∧
          reference.signature = signature) ∨
        before.usage.usesMember className signature kind
  usesClass : ∀ className,
    after.usage.usesClass className ↔
      (settings.recordReferences ∧ ∃ source ∈ sources, ∃ reference ∈ source.references,
        Descriptor.className reference.className = className) ∨
        before.usage.usesClass className
  unrecorded : settings.recordReferences = false → after = before

/-- A build leaves the map with the references of its sources, if it records them. -/
theorem leaves_symbolsFor
    (settings : BuildSettings)
    (symbols : SymbolMap)
    (sources : List SymbolSource) :
    Leaves settings sources symbols (settings.symbolsFor symbols sources) := by
  have renames := renames_symbolsFor settings symbols sources
  refine ⟨?_, ?_, ?_, ?_, ?_⟩
  · intro name
    rw [SymbolMap.resolveClass, renames, SymbolMap.resolveClass]
  · intro className signature
    rw [SymbolMap.resolveMember, renames, SymbolMap.resolveMember]
  · intro className signature kind
    rw [BuildSettings.symbolsFor]
    split
    · rename_i recorded
      rw [SymbolMap.usesMember_recordSources, and_iff_right recorded]
    · rename_i unrecorded
      simp only [unrecorded, Bool.false_eq_true, false_and, false_or]
  · intro className
    rw [BuildSettings.symbolsFor]
    split
    · rename_i recorded
      rw [SymbolMap.usesClass_recordSources, and_iff_right recorded]
    · rename_i unrecorded
      simp only [unrecorded, Bool.false_eq_true, false_and, false_or]
  · intro unrecorded
    rw [BuildSettings.symbolsFor, unrecorded]
    rfl

/-- The members that go by the name of constructors have parameter lists. -/
def HaveParameters (sources : List SymbolSource) : Prop :=
  ∀ source ∈ sources, ∀ declared ∈ source.classes, ∀ kind, ∀ signature ∈ declared.members kind,
    Signature.memberName signature = constructorName → '(' ∈ signature.toList

/-- The source form of a method has its parameter list. -/
theorem opening_mem_sourceForm
    {signature : String}
    (opening : '(' ∈ signature.toList)
    (resolve : String → String)
    (name : String) :
    '(' ∈ (Signature.sourceForm resolve name signature).toList := by
  obtain ⟨member, rest, shape, noOpening⟩ := List.eq_append_cons_of_mem opening
  rw [Signature.sourceForm, shape, Text.cutFirst_append_cons noOpening]
  simp

theorem exists_declaredLabel
    {sources : List SymbolSource}
    (haveParameters : HaveParameters sources)
    (symbols : SymbolMap) :
    ∀ source ∈ sources, ∀ declared ∈ source.classes,
      ∃ label, declaredLabel symbols source.name declared = .ok label := by
  intro source inSources declared inClasses
  cases labelled : declaredLabel symbols source.name declared with
  | ok label =>
      exact ⟨label, rfl⟩
  | error error =>
      obtain ⟨_, kind, signature, isMember, lacking⟩ := declaredLabel_eq_error_iff.mp labelled
      have opening :=
        haveParameters source inSources declared inClasses kind signature isMember lacking.named
      exact absurd (opening_mem_sourceForm opening symbols.resolveClass "") lacking.bare

/-- A build on the map that the same build left comes to the same and leaves the map as it is,
whatever it comes to. It comes to a result if duplicates are not refused and constructors have
parameter lists. -/
theorem build_again
    (settings : BuildSettings)
    (symbols : SymbolMap)
    (sources : List SymbolSource) :
    let first := (buildOn settings sources).run symbols
    (buildOn settings sources).run first.2 = first ∧
      Leaves settings sources symbols first.2 ∧
      (settings.policy ≠ .refuse → HaveParameters sources →
        ∃ result, first.1.result = .ok result) := by
  intro first
  have again :
      settings.symbolsFor (settings.symbolsFor symbols sources) sources =
        settings.symbolsFor symbols sources := by
    rw [BuildSettings.symbolsFor, BuildSettings.symbolsFor]
    split
    · exact symbols.recordSources_again sources
    · rfl
  have ran : first = (build settings symbols sources, settings.symbolsFor symbols sources) :=
    run_buildOn settings symbols sources
  rw [ran, run_buildOn]
  refine ⟨?_, leaves_symbolsFor settings symbols sources, ?_⟩
  · dsimp only
    rw [build, again]
    rfl
  · intro tolerant haveParameters
    exact exists_result tolerant (exists_declaredLabel haveParameters _)

/-- The seeds list a constructor. -/
def listedConstructor : SymbolMap :=
  SymbolMap.recordMember {} .method "A" "A(int)"

/-- Two files declare a class with the constructor, and one refers to it. -/
def constructorFiles : List SymbolSource :=
  [ { name := "classes.dex", classes := [{ name := "LA;", methods := ["<init>(I)V"] }] },
    { name := "classes2.dex"
      classes := [{ name := "LA;", methods := ["<init>(I)V"] }]
      references := [⟨"LA;", "<init>(I)V", .method⟩] } ]

/-- Files with constructors that seeds list, built twice. -/
theorem build_again_of_constructorFiles :
    let first := (buildOn { policy := .lastWins } constructorFiles).run listedConstructor
    HaveParameters constructorFiles ∧
      (buildOn { policy := .lastWins } constructorFiles).run first.2 = first ∧
      ∃ result, first.1.result = .ok result := by
  have opening :
      ∀ source ∈ constructorFiles, ∀ declared ∈ source.classes,
        ∀ kind ∈ [MemberKind.method, .field], ∀ signature ∈ declared.members kind,
          '(' ∈ signature.toList := by
    decide
  have haveParameters : HaveParameters constructorFiles := by
    intro source inSources declared inClasses kind signature isMember _
    refine opening source inSources declared inClasses kind ?_ signature isMember
    cases kind <;> simp
  obtain ⟨again, _, returns⟩ :=
    build_again { policy := .lastWins } listedConstructor constructorFiles
  exact ⟨haveParameters, again, returns (by decide) haveParameters⟩

end Package

end ApkAtlas
