import ApkAtlas.Proofs.Package.Insertion

namespace ApkAtlas.Package

/-!
# Runs of a build

A build inserts declared classes one after another. `Run` lists them with what became of
each, so a state that a build can reach is the end of a run, and facts about builds are
proved step by step. A build that is not stopped is the run of all classes of its files.
-/

/-- A declared class with its file and the decision on it. -/
structure Entry where
  fileName : String
  declared : ClassSymbols
  decision : Decision

namespace Entry

/-- Whether the class was not rejected. -/
def accepted (entry : Entry) : Bool :=
  entry.decision.rejection?.isNone

/-- The source name under which the class goes into the tree. -/
def sourceName (symbols : SymbolMap) (entry : Entry) : String :=
  Package.sourceName symbols entry.declared

/-- The class with its file. -/
def declaration (entry : Entry) : String × ClassSymbols :=
  (entry.fileName, entry.declared)

end Entry

/-- The classes that some files declare, in order. -/
def declarations (sources : List SymbolSource) : List (String × ClassSymbols) :=
  sources.flatMap fun source => source.classes.map fun declared => (source.name, declared)

theorem mem_declarations
    {sources : List SymbolSource}
    {fileName : String}
    {declared : ClassSymbols} :
    (fileName, declared) ∈ declarations sources ↔
      ∃ source ∈ sources, source.name = fileName ∧ declared ∈ source.classes := by
  simp only [declarations, List.mem_flatMap, List.mem_map, Prod.mk.injEq]
  constructor
  · rintro ⟨source, inSources, _, inClasses, sameFile, rfl⟩
    exact ⟨source, inSources, sameFile, inClasses⟩
  · rintro ⟨source, inSources, sameFile, inClasses⟩
    exact ⟨source, inSources, declared, inClasses, sameFile, rfl⟩

/-- The states that a build reaches, with the classes inserted so far. -/
inductive Run
    (symbols : SymbolMap)
    (policy : DuplicatePolicy) :
    List Entry → Progress → Prop where
  | start :
      Run symbols policy [] {}
  | step
      {entries : List Entry}
      {progress next : Progress}
      {fileName : String}
      {declared : ClassSymbols}
      {decision : Decision} :
      Run symbols policy entries progress →
      insert symbols policy fileName progress declared = .ok (next, decision) →
      Run symbols policy (entries ++ [⟨fileName, declared, decision⟩]) next

/-- The classes of one file with the decisions on them. -/
def entriesOf
    (fileName : String)
    (classes : List ClassSymbols)
    (decisions : List Decision) :
    List Entry :=
  List.zipWith (fun declared decision => ⟨fileName, declared, decision⟩) classes decisions

/-- The classes of all files with the decisions that a build made on them. -/
def Build.entries (build : Build) (sources : List SymbolSource) : List Entry :=
  (sources.zip build.files).flatMap fun (source, file) =>
    entriesOf source.name source.classes file.2

/-- The classes of a file that goes through are put into the tree one after another. -/
theorem exists_of_insertAll_cons
    {symbols : SymbolMap}
    {policy : DuplicatePolicy}
    {fileName : String}
    {declared : ClassSymbols}
    {classes : List ClassSymbols}
    {progress final : Progress}
    {decisions : List Decision}
    (through :
      insertAll symbols policy fileName progress (declared :: classes) =
        (final, decisions, none)) :
    ∃ next decision rest,
      insert symbols policy fileName progress declared = .ok (next, decision) ∧
        insertAll symbols policy fileName next classes = (final, rest, none) ∧
        decisions = decision :: rest := by
  rw [insertAll] at through
  cases inserted : insert symbols policy fileName progress declared with
  | error _ =>
      rw [inserted] at through
      cases through
  | ok outcome =>
      obtain ⟨next, decision⟩ := outcome
      cases remaining : insertAll symbols policy fileName next classes with
      | mk last more =>
      obtain ⟨rest, stop⟩ := more
      simp only [inserted, remaining] at through
      cases through
      exact ⟨next, decision, rest, rfl, remaining, rfl⟩

/-- The files of a build that goes through are read one after another. -/
theorem exists_of_insertSources_cons
    {symbols : SymbolMap}
    {policy : DuplicatePolicy}
    {source : SymbolSource}
    {sources : List SymbolSource}
    {progress : Progress}
    (through : (insertSources symbols policy progress (source :: sources)).stop = none) :
    ∃ next decisions,
      insertAll symbols policy source.name progress source.classes =
          (next, decisions, none) ∧
        (insertSources symbols policy next sources).stop = none ∧
        insertSources symbols policy progress (source :: sources) =
          { insertSources symbols policy next sources with
            files :=
              (source.name, decisions) :: (insertSources symbols policy next sources).files } := by
  rw [insertSources] at through ⊢
  cases inserted : insertAll symbols policy source.name progress source.classes with
  | mk next outcome =>
  obtain ⟨decisions, stop⟩ := outcome
  cases stop with
  | some _ =>
      simp only [inserted] at through
      cases through
  | none =>
      simp only [inserted] at through
      exact ⟨next, decisions, rfl, through, rfl⟩

/-- The classes of a file that goes through continue a run. -/
theorem Run.insertAll
    {symbols : SymbolMap}
    {policy : DuplicatePolicy}
    {fileName : String}
    {classes : List ClassSymbols}
    {entries : List Entry}
    {progress final : Progress}
    {decisions : List Decision}
    (run : Run symbols policy entries progress)
    (through :
      insertAll symbols policy fileName progress classes = (final, decisions, none)) :
    Run symbols policy (entries ++ entriesOf fileName classes decisions) final ∧
      (entriesOf fileName classes decisions).map Entry.declaration =
        classes.map fun declared => (fileName, declared) := by
  induction classes generalizing entries progress decisions with
  | nil =>
      cases through
      simpa [entriesOf] using run
  | cons declared rest inductionHypothesis =>
      obtain ⟨next, decision, more, inserted, remaining, rfl⟩ :=
        exists_of_insertAll_cons through
      obtain ⟨restRun, restDeclared⟩ := inductionHypothesis (run.step inserted) remaining
      constructor
      · simpa [entriesOf] using restRun
      · simpa [entriesOf, Entry.declaration] using restDeclared

/-- The files of a build that goes through continue a run. -/
theorem Run.insertSources
    {symbols : SymbolMap}
    {policy : DuplicatePolicy}
    {sources : List SymbolSource}
    {entries : List Entry}
    {progress : Progress}
    (run : Run symbols policy entries progress)
    (through : (insertSources symbols policy progress sources).stop = none) :
    Run symbols policy
        (entries ++ (insertSources symbols policy progress sources).entries sources)
        (insertSources symbols policy progress sources).progress ∧
      ((insertSources symbols policy progress sources).entries sources).map
          Entry.declaration =
        declarations sources := by
  induction sources generalizing entries progress with
  | nil =>
      simpa [Package.insertSources, Build.entries, declarations] using run
  | cons source rest inductionHypothesis =>
      obtain ⟨next, decisions, inserted, remaining, built⟩ :=
        exists_of_insertSources_cons through
      obtain ⟨fileRun, fileDeclared⟩ := run.insertAll inserted
      obtain ⟨restRun, restDeclared⟩ := inductionHypothesis fileRun remaining
      rw [built]
      constructor
      · simpa [Build.entries] using restRun
      · simpa [Build.entries, declarations, fileDeclared] using restDeclared

/-- A build that is not stopped is a run over all declared classes. -/
theorem run_build
    {settings : BuildSettings}
    {symbols : SymbolMap}
    {sources : List SymbolSource}
    (through : (build settings symbols sources).stop = none) :
    Run (settings.symbolsFor symbols sources) settings.policy
        ((build settings symbols sources).entries sources)
        (build settings symbols sources).progress ∧
      ((build settings symbols sources).entries sources).map Entry.declaration =
        declarations sources := by
  have run :
      Run (settings.symbolsFor symbols sources) settings.policy [] {} :=
    .start
  simpa [build] using run.insertSources through

/-- A build that returns was not stopped, and returns its tree rolled up. -/
theorem result_eq_ok
    {build : Build}
    {result : BuildResult}
    (returned : build.result = .ok result) :
    build.stop = none ∧ result.root = build.progress.root.rollUp := by
  rw [Build.result] at returned
  cases stop : build.stop with
  | some _ =>
      rw [stop] at returned
      cases returned
  | none =>
      rw [stop] at returned
      cases returned
      exact ⟨rfl, rfl⟩

section Returning

variable
  {symbols : SymbolMap}
  {policy : DuplicatePolicy}
  {fileName : String}

/-- An insertion is not stopped where the class has a label and may be declared again. -/
theorem exists_insert
    {declared : ClassSymbols}
    {label : NodeLabel}
    (tolerant : policy ≠ .refuse)
    (labelled : declaredLabel symbols fileName declared = .ok label)
    (progress : Progress) :
    ∃ outcome, insert symbols policy fileName progress declared = .ok outcome := by
  rw [declaredLabel, sourceName] at labelled
  rw [insert, labelled]
  cases ClassName.path (symbols.resolveClass (Descriptor.className declared.name)) fileName with
  | error _ =>
      exact ⟨_, rfl⟩
  | ok path =>
      cases walked : progress.root.openPackages path.dropLast with
      | mk opened defect? =>
      cases defect? with
      | some _ =>
          simp only [walked]
          exact ⟨_, rfl⟩
      | none =>
          simp only [walked]
          cases opened.find? path with
          | none =>
              exact ⟨_, rfl⟩
          | some known =>
              cases isClass : known.label.isClass with
              | false =>
                  simp only [isClass]
                  exact ⟨_, rfl⟩
              | true =>
                  simp only [isClass]
                  cases policy with
                  | firstWins =>
                      exact ⟨_, rfl⟩
                  | lastWins =>
                      exact ⟨_, rfl⟩
                  | refuse =>
                      exact absurd rfl tolerant

/-- Classes with labels do not stop a build that tolerates duplicates. -/
theorem insertAll_through
    {classes : List ClassSymbols}
    (tolerant : policy ≠ .refuse)
    (labelled :
      ∀ declared ∈ classes, ∃ label, declaredLabel symbols fileName declared = .ok label)
    (progress : Progress) :
    (insertAll symbols policy fileName progress classes).2.2 = none := by
  induction classes generalizing progress with
  | nil =>
      rfl
  | cons declared rest inductionHypothesis =>
      obtain ⟨⟨label, ofFirst⟩, ofRest⟩ := List.forall_mem_cons.mp labelled
      obtain ⟨⟨next, decision⟩, inserted⟩ := exists_insert tolerant ofFirst progress
      rw [insertAll, inserted]
      exact inductionHypothesis ofRest next

/-- Sources of such classes do not stop it either. -/
theorem insertSources_through
    {sources : List SymbolSource}
    (tolerant : policy ≠ .refuse)
    (labelled :
      ∀ source ∈ sources, ∀ declared ∈ source.classes,
        ∃ label, declaredLabel symbols source.name declared = .ok label)
    (progress : Progress) :
    (insertSources symbols policy progress sources).stop = none := by
  induction sources generalizing progress with
  | nil =>
      rfl
  | cons source rest inductionHypothesis =>
      obtain ⟨ofFirst, ofRest⟩ := List.forall_mem_cons.mp labelled
      have through := insertAll_through tolerant ofFirst progress
      rw [insertSources]
      cases inserted : insertAll symbols policy source.name progress source.classes with
      | mk next outcome =>
      obtain ⟨decisions, stop⟩ := outcome
      rw [inserted] at through
      cases through
      exact inductionHypothesis ofRest next

/-- A build returns where all classes have labels and may be declared again. -/
theorem exists_result
    {settings : BuildSettings}
    {sources : List SymbolSource}
    (tolerant : settings.policy ≠ .refuse)
    (labelled :
      ∀ source ∈ sources, ∀ declared ∈ source.classes,
        ∃ label,
          declaredLabel (settings.symbolsFor symbols sources) source.name declared = .ok label) :
    ∃ result, (build settings symbols sources).result = .ok result := by
  have through : (build settings symbols sources).stop = none :=
    insertSources_through tolerant labelled {}
  rw [Build.result, through]
  exact ⟨_, rfl⟩

end Returning

theorem renames_symbolsFor
    (settings : BuildSettings)
    (symbols : SymbolMap)
    (sources : List SymbolSource) :
    (settings.symbolsFor symbols sources).renames = symbols.renames := by
  have recordSource (known : SymbolMap) (source : SymbolSource) :
      (known.recordSource source).renames = known.renames := by
    rw [SymbolMap.recordSource]
    induction source.references generalizing known with
    | nil =>
        rfl
    | cons reference rest inductionHypothesis =>
        rw [List.foldl_cons, inductionHypothesis]
        rfl
  rw [BuildSettings.symbolsFor]
  split
  · rw [SymbolMap.recordSources]
    induction sources generalizing symbols with
    | nil =>
        rfl
    | cons source rest inductionHypothesis =>
        rw [List.foldl_cons, inductionHypothesis, recordSource]
  · rfl

theorem Entry.sourceName_symbolsFor
    (settings : BuildSettings)
    (symbols : SymbolMap)
    (sources : List SymbolSource) :
    Entry.sourceName (settings.symbolsFor symbols sources) = Entry.sourceName symbols := by
  funext entry
  rw [Entry.sourceName, Package.sourceName, SymbolMap.resolveClass, renames_symbolsFor]
  rfl

end ApkAtlas.Package
