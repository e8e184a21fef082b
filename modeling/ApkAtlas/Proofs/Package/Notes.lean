import ApkAtlas.Proofs.Package.Run

namespace ApkAtlas.Package

/-!
# What a build notes

Besides the tree a build leaves warnings on classes declared again and a table of the
classes it rejected. Both can be read off its decisions: the warnings are those of the
duplicates in order, and a build that rejects nothing has no rejections.
-/

/-- The warning of a decision. -/
def Decision.warning? : Decision → Option DuplicateWarning
  | .duplicate warning => some warning
  | _ => none

/-- An insertion notes the warning of its decision behind the others. -/
theorem warnings_of_insert
    {symbols : SymbolMap}
    {policy : DuplicatePolicy}
    {fileName : String}
    {progress next : Progress}
    {declared : ClassSymbols}
    {decision : Decision}
    (inserted :
      insert symbols policy fileName progress declared = .ok (next, decision)) :
    next.warnings = progress.warnings ++ decision.warning?.toList := by
  simp only [insert] at inserted
  split at inserted
  · cases inserted
    exact (List.append_nil _).symm
  · split at inserted
    · cases inserted
      exact (List.append_nil _).symm
    · split at inserted
      · obtain ⟨_, _, written⟩ := exists_of_bind_eq_ok inserted
        cases written
        exact (List.append_nil _).symm
      · split at inserted
        · cases inserted
          exact (List.append_nil _).symm
        · cases policy with
          | refuse =>
              cases inserted
          | firstWins =>
              cases inserted
              rfl
          | lastWins =>
              obtain ⟨_, _, written⟩ := exists_of_bind_eq_ok inserted
              cases written
              rfl

/-- The warnings at the end of a run are those of its decisions. -/
theorem Run.warnings
    {symbols : SymbolMap}
    {policy : DuplicatePolicy}
    {entries : List Entry}
    {progress : Progress}
    (run : Run symbols policy entries progress) :
    progress.warnings = entries.filterMap fun entry => entry.decision.warning? := by
  induction run with
  | start =>
      rfl
  | @step _ _ _ _ _ decision _ inserted inductionHypothesis =>
      rw [warnings_of_insert inserted, inductionHypothesis, List.filterMap_append]
      cases decision <;> rfl

section Files

variable
  {symbols : SymbolMap}
  {policy : DuplicatePolicy}

theorem length_insertAll
    {fileName : String}
    {classes : List ClassSymbols}
    {progress final : Progress}
    {decisions : List Decision}
    (through :
      insertAll symbols policy fileName progress classes = (final, decisions, none)) :
    decisions.length = classes.length := by
  induction classes generalizing progress decisions with
  | nil =>
      cases through
      rfl
  | cons declared rest inductionHypothesis =>
      obtain ⟨_, _, _, _, remaining, rfl⟩ := exists_of_insertAll_cons through
      rw [List.length_cons, List.length_cons, inductionHypothesis remaining]

theorem map_decision_entriesOf
    (fileName : String)
    {classes : List ClassSymbols}
    {decisions : List Decision}
    (length : decisions.length = classes.length) :
    (entriesOf fileName classes decisions).map Entry.decision = decisions := by
  rw [entriesOf, List.map_zipWith]
  exact List.map_uncurry_zip_eq_zipWith.symm.trans (List.map_snd_zip length.le)

/-- The decisions on all classes are those on the classes of each file. -/
theorem map_decision_entries
    {sources : List SymbolSource}
    {progress : Progress}
    (through : (insertSources symbols policy progress sources).stop = none) :
    ((insertSources symbols policy progress sources).entries sources).map Entry.decision =
      (insertSources symbols policy progress sources).files.flatMap Prod.snd := by
  induction sources generalizing progress with
  | nil =>
      rfl
  | cons source rest inductionHypothesis =>
      obtain ⟨_, _, inserted, remaining, built⟩ := exists_of_insertSources_cons through
      have ofFirst := map_decision_entriesOf source.name (length_insertAll inserted)
      have ofRest := inductionHypothesis remaining
      rw [Build.entries] at ofRest ⊢
      rw [built, List.zip_cons_cons, List.flatMap_cons, List.map_append, ofFirst, ofRest,
        List.flatMap_cons]

end Files

/-- The warnings of a build are those of the decisions on its files. -/
theorem warnings_build
    {settings : BuildSettings}
    {symbols : SymbolMap}
    {sources : List SymbolSource}
    (through : (build settings symbols sources).stop = none) :
    (build settings symbols sources).progress.warnings =
      ((build settings symbols sources).files.flatMap Prod.snd).filterMap
        Decision.warning? := by
  rw [(run_build through).1.warnings, build, ← map_decision_entries through,
    List.filterMap_map]
  rfl

theorem notes_of_result
    {build : Build}
    {result : BuildResult}
    (returned : build.result = .ok result) :
    result.warnings = build.progress.warnings ∧ result.rejections = build.rejections := by
  rw [Build.result] at returned
  cases stop : build.stop with
  | some _ =>
      rw [stop] at returned
      cases returned
  | none =>
      rw [stop] at returned
      cases returned
      exact ⟨rfl, rfl⟩

/-- The rejected classes of a file. -/
def rejectedOf (file : String × List Decision) : String × List ClassName.Rejection :=
  (file.1, file.2.filterMap Decision.rejection?)

/-- The table of rejections is filled file by file. -/
theorem Build.rejections_eq_foldl (build : Build) :
    build.rejections =
      ((build.files.map rejectedOf).filter fun file => !file.2.isEmpty).foldl
        (fun table file => Table.put file.1 file.2 table) [] := by
  rw [rejections, List.foldl_filter, List.foldl_map]
  congr
  funext known file
  cases rejected : (rejectedOf file).2 <;> simp_all [rejectedOf]

/-- Where no file has a rejected class, the table of rejections is empty. -/
theorem Build.rejections_eq_nil
    {build : Build}
    (none : ∀ decision ∈ build.files.flatMap Prod.snd, decision.rejection? = none) :
    build.rejections = [] := by
  have nothing :
      ((build.files.map rejectedOf).filter fun file => !file.2.isEmpty) = [] := by
    rw [List.filter_eq_nil_iff]
    intro file member
    obtain ⟨known, inFiles, rfl⟩ := List.mem_map.mp member
    have empty : known.2.filterMap Decision.rejection? = [] := by
      rw [List.filterMap_eq_nil_iff]
      intro decision inDecisions
      exact none decision (List.mem_flatMap.mpr ⟨known, inFiles, inDecisions⟩)
    rw [rejectedOf, empty]
    exact Bool.false_ne_true
  rw [rejections_eq_foldl, nothing, List.foldl_nil]

end ApkAtlas.Package
