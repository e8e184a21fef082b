import ApkAtlas.Proofs.Package.Fitting
import ApkAtlas.Proofs.Package.Rearranged

namespace ApkAtlas.Package

open PackageNode

/-!
# What the policy on duplicates decides

Three builds of the same files, one for each policy, go side by side. The outlines of the
trees of the two tolerant ones stay the same, so they reject the same classes and warn of the
same ones. The third one is the first until that meets a class for the second time, and then
it stops. So policies differ on classes declared again and on nothing else:
`policies_differ_on_duplicates`.
-/

/-- The error where a class is declared again and that is refused. -/
def DuplicateWarning.refusal (warning : DuplicateWarning) : BuildError :=
  .duplicateClass warning.className warning.keptFile warning.duplicateFile

/-- The decisions on the classes of a file in gist. -/
def gistOf
    (file : String × List Decision) :
    String × List (Option ClassName.Rejection × Option String) :=
  (file.1, file.2.map Decision.gist)

section Steps

variable
  {symbols : SymbolMap}
  {fileName : String}
  {progress next : Progress}
  {declared : ClassSymbols}
  {decision : Decision}

/-- Where a class is not declared again, every policy inserts it in the same way. -/
theorem insert_of_silent
    (inserted : insert symbols .firstWins fileName progress declared = .ok (next, decision))
    (silent : decision.warning? = none)
    (policy : DuplicatePolicy) :
    insert symbols policy fileName progress declared = .ok (next, decision) := by
  rw [insert_eq] at inserted ⊢
  cases fit : fitOf progress.root (sourceName symbols declared) with
  | defective _ =>
      simp only [fit] at inserted ⊢
      exact inserted
  | free _ =>
      simp only [fit] at inserted ⊢
      exact inserted
  | taken path known =>
      simp only [fit] at inserted
      cases inserted
      cases silent

/-- Where a class is declared again, it is refused with what the warning would say. -/
theorem insert_refuse
    {warning : DuplicateWarning}
    (inserted : insert symbols .firstWins fileName progress declared = .ok (next, decision))
    (warned : decision.warning? = some warning) :
    insert symbols .refuse fileName progress declared = .error warning.refusal := by
  rw [insert_eq] at inserted ⊢
  cases fit : fitOf progress.root (sourceName symbols declared) with
  | defective _ =>
      simp only [fit] at inserted
      cases inserted
      cases warned
  | free path =>
      simp only [fit] at inserted
      obtain ⟨_, _, placed⟩ := exists_of_map_eq_ok inserted
      cases placed
      cases warned
  | taken path known =>
      simp only [fit] at inserted ⊢
      cases inserted
      cases warned
      rfl

end Steps

/-! ## Tolerant policies side by side -/

section Tolerant

variable
  {symbols : SymbolMap}
  {policy other : DuplicatePolicy}

theorem insertAll_side_by_side
    {fileName : String}
    {classes : List ClassSymbols}
    {first second firstFinal secondFinal : Progress}
    {decisions others : List Decision}
    (same : first.root.outline = second.root.outline)
    (through :
      insertAll symbols policy fileName first classes = (firstFinal, decisions, none))
    (otherThrough :
      insertAll symbols other fileName second classes = (secondFinal, others, none)) :
    firstFinal.root.outline = secondFinal.root.outline ∧
      decisions.map Decision.gist = others.map Decision.gist := by
  induction classes generalizing first second decisions others with
  | nil =>
      cases through
      cases otherThrough
      exact ⟨same, rfl⟩
  | cons declared rest inductionHypothesis =>
      obtain ⟨next, decision, more, inserted, remaining, rfl⟩ := exists_of_insertAll_cons through
      obtain ⟨otherNext, otherDecision, otherMore, otherInserted, otherRemaining, rfl⟩ :=
        exists_of_insertAll_cons otherThrough
      have effect := effect_of_insert inserted
      rw [same, ← effect_of_insert otherInserted] at effect
      obtain ⟨sameNext, sameDecision⟩ := Prod.mk.inj effect
      obtain ⟨sameFinal, sameMore⟩ := inductionHypothesis sameNext remaining otherRemaining
      refine ⟨sameFinal, ?_⟩
      rw [List.map_cons, List.map_cons, sameDecision, sameMore]

/-- Builds of the same files under two policies keep trees of the same outline and decide
alike, as long as neither is stopped. -/
theorem insertSources_side_by_side
    {sources : List SymbolSource}
    {first second : Progress}
    (same : first.root.outline = second.root.outline)
    (through : (insertSources symbols policy first sources).stop = none)
    (otherThrough : (insertSources symbols other second sources).stop = none) :
    (insertSources symbols policy first sources).progress.root.outline =
        (insertSources symbols other second sources).progress.root.outline ∧
      (insertSources symbols policy first sources).files.map gistOf =
        (insertSources symbols other second sources).files.map gistOf := by
  induction sources generalizing first second with
  | nil =>
      exact ⟨same, rfl⟩
  | cons source rest inductionHypothesis =>
      obtain ⟨next, decisions, inserted, remaining, built⟩ :=
        exists_of_insertSources_cons through
      obtain ⟨otherNext, others, otherInserted, otherRemaining, otherBuilt⟩ :=
        exists_of_insertSources_cons otherThrough
      obtain ⟨sameNext, sameDecisions⟩ := insertAll_side_by_side same inserted otherInserted
      obtain ⟨sameFinal, sameFiles⟩ := inductionHypothesis sameNext remaining otherRemaining
      rw [built, otherBuilt]
      refine ⟨sameFinal, ?_⟩
      rw [List.map_cons, List.map_cons, sameFiles, gistOf, gistOf, sameDecisions]

theorem map_rejectedOf_eq (files : List (String × List Decision)) :
    files.map rejectedOf =
      (files.map gistOf).map fun file => (file.1, file.2.filterMap Prod.fst) := by
  rw [List.map_map]
  apply List.map_congr_left
  intro file _
  rw [rejectedOf, Function.comp, gistOf, List.filterMap_map]
  rfl

/-- The classes that a build warns of are those that its decisions say are declared again. -/
theorem map_className_warnings (files : List (String × List Decision)) :
    ((files.flatMap Prod.snd).filterMap Decision.warning?).map DuplicateWarning.className =
      ((files.map gistOf).flatMap Prod.snd).filterMap Prod.snd := by
  have gathered : (files.map gistOf).flatMap Prod.snd =
      (files.flatMap Prod.snd).map Decision.gist := by
    rw [List.flatMap_map, List.map_flatMap]
    rfl
  rw [gathered, List.filterMap_map, List.map_filterMap]
  rfl

end Tolerant

/-! ## Refusing duplicates -/

section Refusing

variable {symbols : SymbolMap}

/-- As long as nothing is declared again, every policy inserts the classes of a file in the
same way; the first class that is declared again is refused. -/
theorem insertAll_of_firstWins
    {fileName : String}
    {classes : List ClassSymbols}
    {progress final : Progress}
    {decisions : List Decision}
    (through :
      insertAll symbols .firstWins fileName progress classes = (final, decisions, none)) :
    (decisions.filterMap Decision.warning? = [] →
      ∀ policy, insertAll symbols policy fileName progress classes = (final, decisions, none)) ∧
    ∀ warning ∈ (decisions.filterMap Decision.warning?).head?,
      (insertAll symbols .refuse fileName progress classes).2.2 = some warning.refusal := by
  induction classes generalizing progress decisions with
  | nil =>
      cases through
      refine ⟨fun _ _ => rfl, ?_⟩
      intro warning isFirst
      cases isFirst
  | cons declared rest inductionHypothesis =>
      obtain ⟨next, decision, more, inserted, remaining, rfl⟩ := exists_of_insertAll_cons through
      obtain ⟨silentRest, refusedRest⟩ := inductionHypothesis remaining
      cases warned : decision.warning? with
      | none =>
          have anyway := insert_of_silent inserted warned
          rw [List.filterMap_cons_none warned]
          constructor
          · intro silent policy
            rw [insertAll, anyway policy]
            simp only [silentRest silent policy]
          · intro warning isFirst
            rw [insertAll, anyway .refuse]
            exact refusedRest warning isFirst
      | some first =>
          rw [List.filterMap_cons_some warned]
          constructor
          · intro silent
            cases silent
          · intro warning isFirst
            cases isFirst
            rw [insertAll, insert_refuse inserted warned]

theorem insertSources_of_firstWins
    {sources : List SymbolSource}
    {progress : Progress}
    (through : (insertSources symbols .firstWins progress sources).stop = none) :
    let known := insertSources symbols .firstWins progress sources
    let warnings := (known.files.flatMap Prod.snd).filterMap Decision.warning?
    (warnings = [] → ∀ policy, insertSources symbols policy progress sources = known) ∧
    ∀ warning ∈ warnings.head?,
      (insertSources symbols .refuse progress sources).stop = some warning.refusal := by
  induction sources generalizing progress with
  | nil =>
      refine ⟨fun _ _ => rfl, ?_⟩
      intro warning isFirst
      cases isFirst
  | cons source rest inductionHypothesis =>
      intro known warnings
      obtain ⟨next, decisions, inserted, remaining, built⟩ :=
        exists_of_insertSources_cons through
      obtain ⟨silentFile, refusedFile⟩ := insertAll_of_firstWins inserted
      obtain ⟨silentRest, refusedRest⟩ := inductionHypothesis remaining
      have split :
          warnings =
            decisions.filterMap Decision.warning? ++
              ((insertSources symbols .firstWins next rest).files.flatMap Prod.snd).filterMap
                Decision.warning? := by
        simp only [warnings, known, built, List.flatMap_cons, List.filterMap_append]
      rw [split]
      cases ofFile : decisions.filterMap Decision.warning? with
      | nil =>
          rw [List.nil_append]
          constructor
          · intro silent policy
            simp only [known, insertSources, silentFile ofFile policy, inserted,
              silentRest silent policy]
          · intro warning isFirst
            rw [insertSources, silentFile ofFile .refuse]
            exact refusedRest warning isFirst
      | cons first more =>
          constructor
          · intro silent
            cases silent
          · intro warning isFirst
            cases isFirst
            have refused := refusedFile first (by rw [ofFile]; rfl)
            rw [insertSources]
            cases stopped : insertAll symbols .refuse source.name progress source.classes with
            | mk final outcome =>
            obtain ⟨before, stop⟩ := outcome
            rw [stopped] at refused
            cases refused
            rfl

end Refusing

/-! ## Three builds of the same files -/

section Builds

variable
  {symbols : SymbolMap}
  {sources : List SymbolSource}
  {recordReferences : Bool}

/-- Two builds that return, under different policies, have trees of the same outline, the
same rejections, and warnings of the same classes. -/
theorem result_side_by_side
    {policy other : DuplicatePolicy}
    {first second : BuildResult}
    (returned : (build ⟨policy, recordReferences⟩ symbols sources).result = .ok first)
    (otherReturned : (build ⟨other, recordReferences⟩ symbols sources).result = .ok second) :
    first.root.outline = second.root.outline ∧
      first.rejections = second.rejections ∧
      first.warnings.map DuplicateWarning.className =
        second.warnings.map DuplicateWarning.className := by
  obtain ⟨through, rolled⟩ := result_eq_ok returned
  obtain ⟨otherThrough, otherRolled⟩ := result_eq_ok otherReturned
  obtain ⟨warned, listed⟩ := notes_of_result returned
  obtain ⟨otherWarned, otherListed⟩ := notes_of_result otherReturned
  obtain ⟨sameOutline, sameFiles⟩ :
      (build ⟨policy, recordReferences⟩ symbols sources).progress.root.outline =
          (build ⟨other, recordReferences⟩ symbols sources).progress.root.outline ∧
        (build ⟨policy, recordReferences⟩ symbols sources).files.map gistOf =
          (build ⟨other, recordReferences⟩ symbols sources).files.map gistOf :=
    insertSources_side_by_side rfl through otherThrough
  refine ⟨?_, ?_, ?_⟩
  · rw [rolled, otherRolled, outline_rollUp, outline_rollUp, sameOutline]
  · rw [listed, otherListed, Build.rejections_eq_foldl, Build.rejections_eq_foldl,
      map_rejectedOf_eq, map_rejectedOf_eq, sameFiles]
  · rw [warned, otherWarned, warnings_build through, warnings_build otherThrough,
      map_className_warnings, map_className_warnings, sameFiles]

/-- A build that keeps first declarations and warns of nothing returns the same under every
policy; where it warns, refusing duplicates stops a build at its first warning. -/
theorem result_beside_firstWins
    {first : BuildResult}
    (returned : (build ⟨.firstWins, recordReferences⟩ symbols sources).result = .ok first) :
    (first.warnings = [] →
      ∀ policy, (build ⟨policy, recordReferences⟩ symbols sources).result = .ok first) ∧
      ∀ warning ∈ first.warnings.head?,
        (build ⟨.refuse, recordReferences⟩ symbols sources).result =
          .error warning.refusal := by
  have through := (result_eq_ok returned).1
  obtain ⟨silently, refused⟩ := insertSources_of_firstWins through
  rw [(notes_of_result returned).1.trans (warnings_build through)]
  constructor
  · intro silent policy
    rw [← returned]
    exact congrArg Build.result (silently silent policy)
  · intro warning isFirst
    exact result_eq_error_iff.mpr (refused warning isFirst)

/--
Policies differ on classes declared again and on nothing else. Whether the first or the last
declaration wins, a build returns with the same nodes in the same order, the same rejections
and warnings of the same classes. Where duplicates are refused, a build is stopped exactly
if the first declaration winning would warn of a class, and names what its first warning
names; else it returns what both others return.
-/
theorem policies_differ_on_duplicates
    (symbols : SymbolMap)
    (recordReferences : Bool)
    {sources : List SymbolSource}
    (parameters :
      ∀ declaration ∈ declarations sources,
        ∀ signature ∈ declaration.2.methods ++ declaration.2.fields,
          Signature.memberName signature = constructorName → '(' ∈ signature.toList) :
    let outcome policy := (build ⟨policy, recordReferences⟩ symbols sources).result
    ∃ first last,
      outcome .firstWins = .ok first ∧
        outcome .lastWins = .ok last ∧
        first.root.inventory = last.root.inventory ∧
        first.rejections = last.rejections ∧
        first.warnings.map DuplicateWarning.className =
          last.warnings.map DuplicateWarning.className ∧
        ((∃ className keptFile fileName,
            outcome .refuse = .error (.duplicateClass className keptFile fileName)) ↔
          first.warnings ≠ []) ∧
        (∀ warning ∈ first.warnings.head?,
          outcome .refuse =
            .error (.duplicateClass warning.className warning.keptFile warning.duplicateFile)) ∧
        (first.warnings = [] → outcome .refuse = .ok first) ∧
        ∀ result, outcome .refuse = .ok result →
          result = first ∧ result = last ∧ result.warnings = [] := by
  intro outcome
  have labelled (policy : DuplicatePolicy) (source : SymbolSource) (inSources : source ∈ sources)
      (declared : ClassSymbols) (inClasses : declared ∈ source.classes) :
      ∃ label,
        declaredLabel (BuildSettings.symbolsFor ⟨policy, recordReferences⟩ symbols sources)
          source.name declared = .ok label := by
    apply exists_declaredLabel_of_parameters
    exact parameters _ (mem_declarations.mpr ⟨source, inSources, rfl, inClasses⟩)
  obtain ⟨first, returned⟩ : ∃ first, outcome .firstWins = .ok first :=
    exists_result nofun (labelled .firstWins)
  obtain ⟨last, otherReturned⟩ : ∃ last, outcome .lastWins = .ok last :=
    exists_result nofun (labelled .lastWins)
  obtain ⟨sameOutline, sameRejections, sameClasses⟩ := result_side_by_side returned otherReturned
  obtain ⟨unstopped, stopped⟩ := result_beside_firstWins returned
  refine ⟨first, last, returned, otherReturned, ?_, sameRejections, sameClasses, ?_, stopped,
    fun silent => unstopped silent .refuse, ?_⟩
  · rw [← inventory_outline, sameOutline, inventory_outline]
  · constructor
    · rintro ⟨_, _, _, failed⟩ silent
      cases failed.symm.trans (unstopped silent .refuse)
    · intro some_warning
      obtain ⟨warning, rest, listed⟩ := List.exists_cons_of_ne_nil some_warning
      exact ⟨_, _, _, stopped warning (by rw [listed]; rfl)⟩
  · intro result refusedReturned
    cases listed : first.warnings with
    | nil =>
        cases (unstopped listed .refuse).symm.trans refusedReturned
        cases (unstopped listed .lastWins).symm.trans otherReturned
        exact ⟨rfl, rfl, listed⟩
    | cons warning rest =>
        have failed := stopped warning (by rw [listed]; rfl)
        cases failed.symm.trans refusedReturned

/-- Files that declare a class with constructors again, around a class that is in conflict
with it. -/
def disputedFiles : List SymbolSource :=
  [ { name := "classes.dex"
      classes :=
        [ { name := "Lp/q/B;" },
          { name := "Lp/A;", methods := ["<init>()V", "<init>(I)V", "m()V"] },
          { name := "Lp/q;" } ] },
    { name := "classes2.dex"
      classes :=
        [ { name := "Lp/A;", methods := ["<init>()V"], fields := ["x:I"] },
          { name := "Lp/q/B;" },
          { name := "Lr/C;" } ] } ]

/-- Of the disputed files two classes are declared again; the first of them stops a build that
refuses that. -/
theorem disputedFiles_under_policies :
    (∀ declaration ∈ declarations disputedFiles,
      ∀ signature ∈ declaration.2.methods ++ declaration.2.fields,
        Signature.memberName signature = constructorName → '(' ∈ signature.toList) ∧
      ∃ first last,
        (build { policy := .firstWins } {} disputedFiles).result = .ok first ∧
          (build { policy := .lastWins } {} disputedFiles).result = .ok last ∧
          first.root.inventory = last.root.inventory ∧
          last.rejections = [("classes.dex", [⟨"p.q", "classes.dex", .packageAtClass⟩])] ∧
          last.warnings.map DuplicateWarning.className = ["p.A", "p.q.B"] ∧
          (build { policy := .refuse } {} disputedFiles).result =
            .error (.duplicateClass "p.A" "classes.dex" "classes2.dex") := by
  have parameters :
      ∀ declaration ∈ declarations disputedFiles,
        ∀ signature ∈ declaration.2.methods ++ declaration.2.fields,
          Signature.memberName signature = constructorName → '(' ∈ signature.toList := by
    decide +kernel
  obtain ⟨first, last, returned, otherReturned, sameNodes, sameRejections, sameClasses, _,
    stopped, _⟩ := policies_differ_on_duplicates {} true parameters
  refine ⟨parameters, first, last, returned, otherReturned, sameNodes, ?_, ?_, ?_⟩
  · rw [← sameRejections]
    cases returned
    rfl
  · rw [← sameClasses]
    cases returned
    rfl
  · apply stopped ⟨"p.A", "classes.dex", "classes2.dex", .firstWins⟩
    cases returned
    rfl

end Builds

end ApkAtlas.Package
