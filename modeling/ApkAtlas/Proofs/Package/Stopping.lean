import ApkAtlas.Proofs.Package.Run

namespace ApkAtlas

/-!
# What stops a build

A build goes on until a declared class cannot be inserted. There are two reasons: the class
is declared again where that is refused, or its constructor is to be looked up in the seeds
and has no parameter list. `build_outcome` says that nothing else stops a build, and for
which class the second reason does.
-/

/-- The signatures of the members of a kind. -/
def ClassSymbols.members (declared : ClassSymbols) : MemberKind → List String
  | .method => declared.methods
  | .field => declared.fields

namespace Package

/-! ## The first class that cannot be inserted -/

section Position

variable
  {symbols : SymbolMap}
  {policy : DuplicatePolicy}
  {progress : Progress}

/-- The progress of a build after one more class of a file. -/
def advance
    (symbols : SymbolMap)
    (policy : DuplicatePolicy)
    (progress : Progress)
    (declaration : String × ClassSymbols) :
    Except BuildError Progress :=
  (insert symbols policy declaration.1 progress declaration.2).map Prod.fst

/-- The progress of a build that was not stopped. -/
def unlessStopped (progress : Progress) : Option BuildError → Except BuildError Progress
  | none => .ok progress
  | some error => .error error

/-- The classes of a file are advanced through up to where the build stops. -/
theorem foldlM_advance_file (fileName : String) (classes : List ClassSymbols) :
    (classes.map fun declared => (fileName, declared)).foldlM (advance symbols policy) progress =
      unlessStopped (insertAll symbols policy fileName progress classes).1
        (insertAll symbols policy fileName progress classes).2.2 := by
  induction classes generalizing progress with
  | nil =>
      rfl
  | cons declared rest inductionHypothesis =>
      rw [List.map_cons, List.foldlM_cons, advance, insertAll]
      cases inserted : insert symbols policy fileName progress declared with
      | error _ =>
          rfl
      | ok outcome =>
          exact inductionHypothesis

/-- A build inserts the declared classes of its files one after another. -/
theorem foldlM_advance (sources : List SymbolSource) :
    (declarations sources).foldlM (advance symbols policy) progress =
      unlessStopped (insertSources symbols policy progress sources).progress
        (insertSources symbols policy progress sources).stop := by
  induction sources generalizing progress with
  | nil =>
      rfl
  | cons source rest inductionHypothesis =>
      rw [declarations, List.flatMap_cons, List.foldlM_append, foldlM_advance_file,
        insertSources]
      cases inserted : insertAll symbols policy source.name progress source.classes with
      | mk next outcome =>
      obtain ⟨decisions, _ | error⟩ := outcome
      · exact inductionHypothesis
      · rfl

/-- A run advances through its declarations. -/
theorem foldlM_advance_of_run
    {entries : List Entry}
    (run : Run symbols policy entries progress) :
    (entries.map Entry.declaration).foldlM (advance symbols policy) {} = .ok progress := by
  induction run with
  | start =>
      rfl
  | step _ inserted inductionHypothesis =>
      rw [List.map_append, List.foldlM_append, inductionHypothesis]
      change advance symbols policy _ _ >>= _ = _
      rw [advance, Entry.declaration, inserted]
      rfl

/-- What is advanced through extends a run. -/
theorem Run.of_foldlM_advance
    {entries : List Entry}
    {classes : List (String × ClassSymbols)}
    {final : Progress}
    (run : Run symbols policy entries progress)
    (through : classes.foldlM (advance symbols policy) progress = .ok final) :
    ∃ more, Run symbols policy (entries ++ more) final ∧
      more.map Entry.declaration = classes := by
  induction classes generalizing entries progress with
  | nil =>
      cases through
      exact ⟨[], by simpa using run, rfl⟩
  | cons declaration rest inductionHypothesis =>
      rw [List.foldlM_cons, advance] at through
      cases inserted : insert symbols policy declaration.1 progress declaration.2 with
      | error _ =>
          rw [inserted] at through
          cases through
      | ok outcome =>
          rw [inserted] at through
          obtain ⟨more, restRun, restDeclared⟩ :=
            inductionHypothesis (run.step inserted) through
          refine ⟨⟨declaration.1, declaration.2, outcome.2⟩ :: more, ?_, ?_⟩
          · simpa using restRun
          · rw [List.map_cons, restDeclared, Entry.declaration]

/-- A build stops exactly at a class that cannot be inserted after the classes before it. -/
theorem stop_eq_some_iff
    {settings : BuildSettings}
    {sources : List SymbolSource}
    {error : BuildError} :
    (build settings symbols sources).stop = some error ↔
      ∃ before fileName declared after entries progress,
        declarations sources = before ++ (fileName, declared) :: after ∧
          Run (settings.symbolsFor symbols sources) settings.policy entries progress ∧
          entries.map Entry.declaration = before ∧
          insert (settings.symbolsFor symbols sources) settings.policy fileName progress
            declared = .error error := by
  have asFold :
      (build settings symbols sources).stop = some error ↔
        (declarations sources).foldlM
          (advance (settings.symbolsFor symbols sources) settings.policy) {} = .error error := by
    rw [foldlM_advance, build]
    cases (insertSources _ settings.policy {} sources).stop <;> simp [unlessStopped]
  rw [asFold, foldlM_eq_error_iff]
  constructor
  · rintro ⟨before, ⟨fileName, declared⟩, after, reached, split, through, failed⟩
    obtain ⟨entries, run, rfl⟩ := Run.start.of_foldlM_advance through
    refine ⟨_, fileName, declared, after, entries, reached, split, run, rfl, ?_⟩
    rw [advance] at failed
    cases inserted : insert _ settings.policy fileName reached declared with
    | error _ =>
        rw [inserted] at failed
        cases failed
        rfl
    | ok _ =>
        rw [inserted] at failed
        cases failed
  · rintro ⟨before, fileName, declared, after, entries, reached, split, run, rfl, failed⟩
    refine ⟨_, (fileName, declared), after, reached, split, foldlM_advance_of_run run, ?_⟩
    rw [advance, failed]
    rfl

end Position

/-! ## A constructor without parameters -/

section Members

variable
  {symbols : SymbolMap}
  {kind : MemberKind}
  {bytecodeName sourceName signature : String}
  {error : BuildError}

/-- A member goes by the name of constructors, is to be looked up among the seeds of its
class, and has no parameter list to be looked up by. -/
structure LacksParameters
    (symbols : SymbolMap)
    (kind : MemberKind)
    (bytecodeName sourceName signature : String) : Prop where
  named : Signature.memberName signature = constructorName
  bare : '(' ∉ (Signature.sourceForm symbols.resolveClass "" signature).toList
  unused : symbols.usage.usesMember bytecodeName signature kind = false
  compared : ∃ listed, symbols.usage.usesMember sourceName listed kind

theorem dropWhile_eq_nil_iff_not_mem (text : List Char) :
    text.dropWhile (· != '(') = [] ↔ '(' ∉ text := by
  rw [List.dropWhile_eq_nil_iff]
  constructor
  · intro noneOpens member
    simpa using noneOpens '(' member
  · intro noneOpens c member
    rw [bne_iff_ne]
    rintro rfl
    exact noneOpens member

/-- A seed signature is missing for constructors without parameters only. -/
theorem seedSignature_eq_error_iff :
    seedSignature symbols bytecodeName sourceName signature = .error error ↔
      error = .noParameterList ∧
        Signature.memberName signature = constructorName ∧
          '(' ∉ (Signature.sourceForm symbols.resolveClass "" signature).toList := by
  rw [seedSignature, ← dropWhile_eq_nil_iff_not_mem]
  by_cases named : Signature.memberName signature = constructorName
  · simp only [named, true_and]
    cases (Signature.sourceForm symbols.resolveClass "" signature).toList.dropWhile
        (· != '(') with
    | nil =>
        simp [eq_comm]
    | cons _ _ =>
        simp
  · simp [named]

theorem isEmpty_eq_false_iff (signatures : Std.ExtTreeSet String) :
    signatures.isEmpty = false ↔ ∃ signature, signatures.contains signature := by
  rw [← Bool.not_eq_true, Std.ExtTreeSet.isEmpty_iff]
  constructor
  · intro nonempty
    by_contra none
    apply nonempty
    apply Std.ExtTreeSet.ext_mem
    intro signature
    simpa using fun member => none ⟨signature, member⟩
  · rintro ⟨signature, member⟩ rfl
    simp at member

/-- It is unknown whether a member is referenced exactly if it lacks parameters. -/
theorem isReferenced_eq_error_iff :
    isReferenced symbols kind bytecodeName sourceName signature = .error error ↔
      error = .noParameterList ∧
        LacksParameters symbols kind bytecodeName sourceName signature := by
  rw [isReferenced]
  cases unused : symbols.usage.usesMember bytecodeName signature kind with
  | true =>
      constructor
      · intro impossible
        cases impossible
      · rintro ⟨_, lacking⟩
        cases unused.symm.trans lacking.unused
  | false =>
      cases isEmpty : (symbols.usage.members sourceName kind).isEmpty with
      | true =>
          constructor
          · intro impossible
            cases impossible
          · rintro ⟨_, lacking⟩
            cases isEmpty.symm.trans ((isEmpty_eq_false_iff _).mpr lacking.compared)
      | false =>
          have compared := (isEmpty_eq_false_iff _).mp isEmpty
          change (seedSignature symbols bytecodeName sourceName signature >>= _) = _ ↔ _
          rw [bind_eq_error_iff, seedSignature_eq_error_iff]
          constructor
          · rintro (⟨same, named, bare⟩ | ⟨_, _, impossible⟩)
            · exact ⟨same, named, bare, unused, compared⟩
            · cases impossible
          · rintro ⟨same, lacking⟩
            exact .inl ⟨same, lacking.named, lacking.bare⟩

/-- Counting fails for a signature without parameters only. -/
theorem countReferenced_eq_error_iff {signatures : List String} :
    countReferenced symbols kind bytecodeName sourceName signatures = .error error ↔
      error = .noParameterList ∧
        ∃ signature ∈ signatures,
          LacksParameters symbols kind bytecodeName sourceName signature := by
  induction signatures with
  | nil =>
      simp [countReferenced]
  | cons signature rest inductionHypothesis =>
      rw [countReferenced, List.exists_mem_cons_iff, and_or_left, ← inductionHypothesis,
        ← isReferenced_eq_error_iff, bind_eq_error_iff]
      simp only [bind_eq_error_iff]
      constructor
      · rintro (failed | ⟨_, _, failed | ⟨_, _, impossible⟩⟩)
        · exact .inl failed
        · exact .inr failed
        · cases impossible
      · rintro (failed | failed)
        · exact .inl failed
        · cases ofFirst : isReferenced symbols kind bytecodeName sourceName signature with
          | error _ =>
              rw [(isReferenced_eq_error_iff.mp ofFirst).1, (inductionHypothesis.mp failed).1]
              exact .inl rfl
          | ok isHit =>
              exact .inr ⟨isHit, rfl, .inl failed⟩

/-- A declared class has no label exactly if one of its members lacks parameters. -/
theorem declaredLabel_eq_error_iff
    {fileName : String}
    {declared : ClassSymbols} :
    declaredLabel symbols fileName declared = .error error ↔
      error = .noParameterList ∧
        ∃ kind, ∃ signature ∈ declared.members kind,
          LacksParameters symbols kind (Descriptor.className declared.name)
            (Package.sourceName symbols declared) signature := by
  have ofKind (kind : MemberKind) :
      countReferenced symbols kind (Descriptor.className declared.name)
          (Package.sourceName symbols declared) (distinct (declared.members kind)) =
        .error error ↔
      error = .noParameterList ∧
        ∃ signature ∈ declared.members kind,
          LacksParameters symbols kind (Descriptor.className declared.name)
            (Package.sourceName symbols declared) signature := by
    simp only [countReferenced_eq_error_iff, mem_distinct]
  rw [declaredLabel, classLabel, bind_eq_error_iff]
  simp only [bind_eq_error_iff]
  constructor
  · rintro (failed | ⟨_, _, failed | ⟨_, _, impossible⟩⟩)
    · obtain ⟨same, found⟩ := (ofKind .method).mp failed
      exact ⟨same, .method, found⟩
    · obtain ⟨same, found⟩ := (ofKind .field).mp failed
      exact ⟨same, .field, found⟩
    · cases impossible
  · rintro ⟨same, kind, found⟩
    have failed := (ofKind kind).mpr ⟨same, found⟩
    cases kind with
    | method =>
        exact .inl failed
    | field =>
        cases methods :
            countReferenced symbols .method (Descriptor.className declared.name)
              (Package.sourceName symbols declared) (distinct declared.methods) with
        | error _ =>
            rw [(countReferenced_eq_error_iff.mp methods).1, same]
            exact .inl rfl
        | ok count =>
            exact .inr ⟨count, rfl, .inl failed⟩

end Members

/-! ## A class that cannot be inserted -/

section Insertion

open PackageNode

variable
  {symbols : SymbolMap}
  {policy : DuplicatePolicy}
  {fileName : String}
  {progress : Progress}
  {declared : ClassSymbols}
  {error : BuildError}

/-- A declared class is to be written into the tree: its place is free, or it takes the
place of a class of its name. -/
def IsWritten
    (symbols : SymbolMap)
    (policy : DuplicatePolicy)
    (root : PackageNode)
    (declared : ClassSymbols) : Prop :=
  ∃ path,
    ClassName.path? (sourceName symbols declared) = some path ∧
      ¬ Conflict root path ∧
      (root.labelAt? path = none ∨ policy = .lastWins)

/-- What an insertion can fail for. -/
inductive Refusal
    (symbols : SymbolMap)
    (policy : DuplicatePolicy)
    (fileName : String)
    (declared : ClassSymbols)
    (root : PackageNode) :
    BuildError → Prop where
  | declaredAgain
      {path : List String}
      {known : NodeLabel}
      {keptFile : String} :
      policy = .refuse →
      ClassName.path? (sourceName symbols declared) = some path →
      root.labelAt? path = some known →
      known.isClass →
      Refusal symbols policy fileName declared root
        (.duplicateClass (sourceName symbols declared) keptFile fileName)
  | unlabelled
      {error : BuildError} :
      IsWritten symbols policy root declared →
      declaredLabel symbols fileName declared = .error error →
      Refusal symbols policy fileName declared root error

/-- Every insertion that fails does so for one of the two reasons. -/
theorem refusal_of_insert
    (failed : insert symbols policy fileName progress declared = .error error) :
    Refusal symbols policy fileName declared progress.root error := by
  simp only [insert, ClassName.path_eq] at failed
  cases split : ClassName.path? (sourceName symbols declared) with
  | none =>
      rw [sourceName] at split
      simp only [split] at failed
      cases failed
  | some path =>
      have longer := ClassName.path?_ne_nil split
      have nameSplit := split
      rw [sourceName] at nameSplit
      simp only [nameSplit] at failed
      cases walked : openPackages path.dropLast progress.root with
      | mk opened defect? =>
      have through : (openPackages path.dropLast progress.root).2 = defect? := by
        rw [walked]
      cases defect? with
      | some _ =>
          simp only [walked] at failed
          cases failed
      | none =>
          have atPath := labelAt?_path_openPackages through longer
          rw [walked, labelAt?] at atPath
          have unlabelled
              (free : ∀ known, progress.root.labelAt? path = some known → known.isClass)
              (written : progress.root.labelAt? path = none ∨ policy = .lastWins)
              (label : declaredLabel symbols fileName declared = .error error) :
              Refusal symbols policy fileName declared progress.root error := by
            refine .unlabelled ⟨path, split, ?_, written⟩ label
            intro conflict
            cases conflict with
            | classOnTheWay some_met leading shorter atMet isClass =>
                exact not_isClass_of_openPackages through some_met
                  (prefix_dropLast leading shorter) atMet isClass
            | packageInPlace atPath isPackage =>
                exact isPackage (free _ atPath)
          simp only [walked] at failed
          cases found : opened.find? path with
          | none =>
              simp only [found, Option.map_none] at failed atPath
              apply unlabelled
              · intro known atKnown
                cases atPath.trans atKnown
              · exact .inl atPath.symm
              · rcases bind_eq_error_iff.mp failed with label | ⟨_, _, impossible⟩
                · exact label
                · cases impossible
          | some known =>
              simp only [found, Option.map_some] at failed atPath
              by_cases isClass : known.label.isClass
              · simp only [isClass, Bool.not_true, Bool.false_eq_true, ↓reduceIte] at failed
                cases policy with
                | refuse =>
                    cases failed
                    exact .declaredAgain rfl split atPath.symm isClass
                | firstWins =>
                    cases failed
                | lastWins =>
                    apply unlabelled
                    · intro other atOther
                      cases atPath.trans atOther
                      exact isClass
                    · exact .inr rfl
                    · rcases bind_eq_error_iff.mp failed with label | ⟨_, _, impossible⟩
                      · exact label
                      · cases impossible
              · simp only [isClass, Bool.not_false, ↓reduceIte] at failed
                cases failed

/-- A class that is to be written and has no label cannot be inserted. -/
theorem insert_of_unlabelled
    (written : IsWritten symbols policy progress.root declared)
    (unlabelled : declaredLabel symbols fileName declared = .error error) :
    insert symbols policy fileName progress declared = .error error := by
  obtain ⟨path, split, noConflict, free⟩ := written
  cases inserted : insert symbols policy fileName progress declared with
  | error _ =>
      cases refusal_of_insert inserted with
      | declaredAgain refuses splitAgain atPath _ =>
          cases split.symm.trans splitAgain
          rcases free with missing | lastWins
          · cases missing.symm.trans atPath
          · cases lastWins.symm.trans refuses
      | unlabelled _ again =>
          cases again.symm.trans unlabelled
          rfl
  | ok outcome =>
      obtain ⟨next, decision⟩ := outcome
      cases insert_cases inserted with
      | rejected conflict =>
          exact absurd (conflict path split) noConflict
      | added _ labelled =>
          cases unlabelled.symm.trans labelled
      | kept firstWins splitAgain atPath _ =>
          cases split.symm.trans splitAgain
          rcases free with missing | lastWins
          · cases missing.symm.trans atPath
          · cases lastWins.symm.trans firstWins
      | replaced _ _ labelled =>
          cases unlabelled.symm.trans labelled

end Insertion

/-- A build that goes through returns, and one that is stopped ends with the error. -/
theorem result_eq_error_iff {build : Build} {error : BuildError} :
    build.result = .error error ↔ build.stop = some error := by
  rw [Build.result]
  cases build.stop <;> simp

/--
How a build can end. It returns, or a class is declared again and the policy refuses that,
or a constructor lacks the parameters to be looked up by. The last happens exactly if some
class with such a member is to be written once all classes before it have gone through.
-/
theorem build_outcome
    (settings : BuildSettings)
    (symbols : SymbolMap)
    (sources : List SymbolSource) :
    let known := settings.symbolsFor symbols sources
    let outcome := (build settings symbols sources).result
    ((∃ result, outcome = .ok result) ∨
      (settings.policy = .refuse ∧
        ∃ className keptFile fileName,
          outcome = .error (.duplicateClass className keptFile fileName)) ∨
      outcome = .error .noParameterList) ∧
    (outcome = .error .noParameterList ↔
      ∃ before fileName declared after entries progress,
        declarations sources = before ++ (fileName, declared) :: after ∧
          Run known settings.policy entries progress ∧
          entries.map Entry.declaration = before ∧
          IsWritten known settings.policy progress.root declared ∧
          ∃ kind, ∃ signature ∈ declared.members kind,
            LacksParameters known kind (Descriptor.className declared.name)
              (sourceName known declared) signature) := by
  intro known outcome
  constructor
  · cases ended : outcome with
    | ok result =>
        exact .inl ⟨result, rfl⟩
    | error error =>
        obtain ⟨_, fileName, _, _, _, _, _, _, _, failed⟩ :=
          stop_eq_some_iff.mp (result_eq_error_iff.mp ended)
        cases refusal_of_insert failed with
        | @declaredAgain _ _ keptFile refuses =>
            exact .inr (.inl ⟨refuses, _, keptFile, fileName, rfl⟩)
        | unlabelled _ label =>
            rw [(declaredLabel_eq_error_iff.mp label).1]
            exact .inr (.inr rfl)
  · rw [result_eq_error_iff, stop_eq_some_iff]
    constructor
    · rintro ⟨before, fileName, declared, after, entries, progress, split, run, same, failed⟩
      cases refusal_of_insert failed with
      | unlabelled written label =>
          exact ⟨before, fileName, declared, after, entries, progress, split, run, same,
            written, (declaredLabel_eq_error_iff.mp label).2⟩
    · rintro ⟨before, fileName, declared, after, entries, progress, split, run, same,
        written, lacking⟩
      exact ⟨before, fileName, declared, after, entries, progress, split, run, same,
        insert_of_unlabelled written (declaredLabel_eq_error_iff.mpr ⟨rfl, lacking⟩)⟩

/-- The seeds list a field of a class. -/
def listedField : SymbolMap :=
  SymbolMap.recordMember {} .field "A" "int x"

/-- The class has another field, which goes by the name of constructors. -/
def constructorField : List SymbolSource :=
  [{ name := "classes.dex", classes := [{ name := "LA;", fields := ["<init>:I"] }] }]

/-- A field that goes by the name of constructors stops the build of its class. -/
theorem not_returns_constructorField :
    ¬ ∀ settings symbols sources, settings.policy ≠ .refuse →
      ∃ result, (build settings symbols sources).result = .ok result := by
  intro returns
  obtain ⟨result, returned⟩ := returns {} listedField constructorField (by decide)
  have stopped : (build {} listedField constructorField).result = .error .noParameterList :=
    rfl
  cases stopped.symm.trans returned

end Package

end ApkAtlas
