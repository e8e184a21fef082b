import ApkAtlas.Proofs.Package.Collisions
import ApkAtlas.Proofs.Package.Content
import ApkAtlas.Proofs.Package.Repeated

namespace ApkAtlas.Package

open PackageNode

/-!
# Every declaration is accounted for

A declared class makes a node, collides with an earlier declaration, or is rejected, and a
build keeps one record of each: a class node, a warning, a rejection.
-/

/-- A declaration that made the node of its class. -/
def Entry.isFirst (entry : Entry) : Bool :=
  decide (entry.decision = .added)

/-- The rejections of the classes of a file, in the order of their declarations. -/
def rejectionsIn (fileName : String) (entries : List Entry) : List ClassName.Rejection :=
  (entries.filter fun entry => entry.fileName == fileName).filterMap fun entry =>
    entry.decision.rejection?

/-- Each entry is the first of its name, a duplicate or rejected. -/
theorem length_eq_add_add (entries : List Entry) :
    entries.length =
      (entries.filter Entry.isFirst).length +
        (entries.filterMap fun entry => entry.decision.warning?).length +
          (entries.filterMap fun entry => entry.decision.rejection?).length := by
  induction entries with
  | nil =>
      rfl
  | cons entry rest inductionHypothesis =>
      cases made : entry.decision <;>
        simp [Entry.isFirst, made, Decision.warning?, Decision.rejection?,
          inductionHypothesis] <;>
        omega

section Nodes

variable
  {symbols : SymbolMap}
  {policy : DuplicatePolicy}
  {entries : List Entry}
  {progress : Progress}

/-- The first of a name is accepted without a warning. -/
theorem Entry.isFirst_iff (entry : Entry) :
    entry.isFirst ↔ entry.accepted ∧ entry.decision.warning? = none := by
  cases made : entry.decision <;>
    simp [isFirst, accepted, made, Decision.warning?, Decision.rejection?]

/-- The first declarations of the accepted classes are of different names. -/
theorem Run.nodup_firsts
    (run : Run symbols policy entries progress) :
    ((entries.filter Entry.isFirst).map (Entry.sourceName symbols)).Nodup := by
  induction run with
  | start =>
      exact List.nodup_nil
  | @step entries progress next fileName declared decision run inserted inductionHypothesis =>
      have noted := run.noted_of_insert inserted
      generalize (⟨fileName, declared, decision⟩ : Entry) = entry at noted ⊢
      rw [List.filter_append, List.map_append]
      by_cases first : entry.isFirst
      · obtain ⟨accepted, silent⟩ := entry.isFirst_iff.mp first
        have none : entriesNamed symbols (entry.sourceName symbols) entries = [] := by
          generalize next.origins = after at noted
          cases noted with
          | rejected rejected _ =>
              exact absurd accepted rejected
          | added _ _ none =>
              exact none
          | duplicate _ warned _ =>
              cases silent.symm.trans warned
        rw [List.filter_cons_of_pos first, List.filter_nil, List.map_singleton,
          ← List.concat_eq_append, List.nodup_concat]
        refine ⟨?_, inductionHypothesis⟩
        intro member
        obtain ⟨earlier, inFirsts, sameName⟩ := List.mem_map.mp member
        obtain ⟨inEntries, isFirst⟩ := List.mem_filter.mp inFirsts
        have named : earlier ∈ entriesNamed symbols (entry.sourceName symbols) entries :=
          mem_entriesNamed.mpr ⟨inEntries, (earlier.isFirst_iff.mp isFirst).1, sameName⟩
        rw [none] at named
        cases named
      · rw [List.filter_cons_of_neg first, List.filter_nil, List.map_nil, List.append_nil]
        exact inductionHypothesis

/-- Every accepted declaration has the name of a first one. -/
theorem Run.exists_first
    (run : Run symbols policy entries progress)
    {entry : Entry}
    (member : entry ∈ entries)
    (accepted : entry.accepted) :
    ∃ first ∈ entries, first.isFirst ∧
      first.sourceName symbols = entry.sourceName symbols := by
  induction run generalizing entry with
  | start =>
      cases member
  | @step entries progress next fileName declared decision run inserted inductionHypothesis =>
      have noted := run.noted_of_insert inserted
      generalize (⟨fileName, declared, decision⟩ : Entry) = last at noted member ⊢
      have earlier {entry : Entry} (member : entry ∈ entries) (accepted : entry.accepted) :
          ∃ first ∈ entries ++ [last], first.isFirst ∧
            first.sourceName symbols = entry.sourceName symbols := by
        obtain ⟨first, inEntries, rest⟩ := inductionHypothesis member accepted
        exact ⟨first, List.mem_append_left _ inEntries, rest⟩
      rcases List.mem_append.mp member with old | new
      · exact earlier old accepted
      · cases List.mem_singleton.mp new
        generalize next.origins = after at noted
        cases noted with
        | rejected rejected _ =>
            exact absurd accepted rejected
        | added _ silent _ =>
            exact ⟨entry, member, entry.isFirst_iff.mpr ⟨accepted, silent⟩, rfl⟩
        | duplicate _ _ isKept =>
            obtain ⟨inEntries, keptAccepted, sameName⟩ := mem_of_keptDeclaration? isKept
            rw [← sameName]
            exact earlier inEntries keptAccepted

/-- The class nodes of a tree are as many as the first declarations. -/
theorem Run.classes_eq
    (run : Run symbols policy entries progress) :
    progress.root.rollUp.label.totals.classes = (entries.filter Entry.isFirst).length := by
  have sameNames :
      progress.root.rollUp.classNames.Perm
        ((entries.filter Entry.isFirst).map (Entry.sourceName symbols)) := by
    rw [List.perm_ext_iff_of_nodup run.contents.nodup_classNames run.nodup_firsts]
    intro name
    rw [run.contents.mem_classNames_iff, List.mem_map]
    constructor
    · rintro ⟨entry, member, accepted, rfl⟩
      obtain ⟨first, inEntries, isFirst, sameName⟩ := run.exists_first member accepted
      exact ⟨first, List.mem_filter.mpr ⟨inEntries, isFirst⟩, sameName⟩
    · rintro ⟨first, member, rfl⟩
      obtain ⟨inEntries, isFirst⟩ := List.mem_filter.mp member
      exact ⟨first, inEntries, (first.isFirst_iff.mp isFirst).1, rfl⟩
  have counted := value_rollUp .classes progress.root
  rw [← classSum_rollUp, Metric.classSum_classes] at counted
  have length := sameNames.length_eq
  rw [classNames, List.length_map, List.length_map] at length
  rw [← length]
  exact counted

end Nodes

/-! ## Rejections by file -/

theorem rejectionsIn_append
    (fileName : String)
    (first second : List Entry) :
    rejectionsIn fileName (first ++ second) =
      rejectionsIn fileName first ++ rejectionsIn fileName second := by
  rw [rejectionsIn, List.filter_append, List.filterMap_append]
  rfl

theorem rejectionsIn_eq_nil
    {fileName : String}
    {entries : List Entry}
    (others : ∀ entry ∈ entries, entry.fileName ≠ fileName) :
    rejectionsIn fileName entries = [] := by
  have none : (entries.filter fun entry => entry.fileName == fileName) = [] := by
    rw [List.filter_eq_nil_iff]
    intro entry member
    simpa using others entry member
  rw [rejectionsIn, none, List.filterMap_nil]

section Files

variable
  {symbols : SymbolMap}
  {policy : DuplicatePolicy}
  {progress : Progress}

/-- The entries of a file have its name. -/
theorem fileName_of_mem_entriesOf
    {fileName : String}
    {classes : List ClassSymbols}
    {decisions : List Decision}
    {entry : Entry}
    (member : entry ∈ entriesOf fileName classes decisions) :
    entry.fileName = fileName := by
  rw [entriesOf, ← List.map_uncurry_zip_eq_zipWith] at member
  obtain ⟨_, _, rfl⟩ := List.mem_map.mp member
  rfl

/-- The rejections in a file are those that were decided on its classes. -/
theorem rejectionsIn_entriesOf
    (fileName : String)
    {classes : List ClassSymbols}
    {decisions : List Decision}
    (length : decisions.length = classes.length) :
    rejectionsIn fileName (entriesOf fileName classes decisions) =
      decisions.filterMap Decision.rejection? := by
  have all :
      ((entriesOf fileName classes decisions).filter fun entry =>
        entry.fileName == fileName) = entriesOf fileName classes decisions := by
    rw [List.filter_eq_self]
    intro entry member
    simpa using fileName_of_mem_entriesOf member
  have decided := map_decision_entriesOf fileName length
  rw [rejectionsIn, all, ← decided, List.filterMap_map, decided]
  rfl

/-- Each entry is of one of the sources. -/
theorem exists_source_of_mem_entries
    {build : Build}
    {sources : List SymbolSource}
    {entry : Entry}
    (member : entry ∈ build.entries sources) :
    ∃ source ∈ sources, source.name = entry.fileName := by
  obtain ⟨⟨source, file⟩, inFiles, inFile⟩ := List.mem_flatMap.mp member
  exact ⟨source, (List.of_mem_zip inFiles).1, (fileName_of_mem_entriesOf inFile).symm⟩

/-- The rejections of a build whose files have names of their own, file by file. -/
theorem map_rejectedOf_files
    {sources : List SymbolSource}
    (through : (insertSources symbols policy progress sources).stop = none)
    (separate : (sources.map SymbolSource.name).Nodup) :
    (insertSources symbols policy progress sources).files.map rejectedOf =
      sources.map fun source =>
        (source.name,
          rejectionsIn source.name
            ((insertSources symbols policy progress sources).entries sources)) := by
  induction sources generalizing progress with
  | nil =>
      rfl
  | cons source rest inductionHypothesis =>
      obtain ⟨next, decisions, inserted, remaining, built⟩ :=
        exists_of_insertSources_cons through
      rw [List.map_cons, List.nodup_cons] at separate
      obtain ⟨apart, separateRest⟩ := separate
      have apartFrom {entry : Entry}
          (member : entry ∈ (insertSources symbols policy next rest).entries rest) :
          entry.fileName ≠ source.name := by
        obtain ⟨other, inRest, named⟩ := exists_source_of_mem_entries member
        rw [← named]
        exact fun same => apart (same ▸ List.mem_map_of_mem inRest)
      have split :
          (insertSources symbols policy progress (source :: rest)).entries (source :: rest) =
            entriesOf source.name source.classes decisions ++
              (insertSources symbols policy next rest).entries rest := by
        rw [built, Build.entries, List.zip_cons_cons, List.flatMap_cons]
        rfl
      rw [split, built, List.map_cons, List.map_cons, inductionHypothesis remaining separateRest]
      congr 1
      · rw [rejectionsIn_append, rejectionsIn_entriesOf _ (length_insertAll inserted),
          rejectionsIn_eq_nil fun entry member => apartFrom member, List.append_nil]
        rfl
      · apply List.map_congr_left
        intro other member
        have none :
            rejectionsIn other.name (entriesOf source.name source.classes decisions) = [] := by
          apply rejectionsIn_eq_nil
          intro entry inFile sameName
          rw [fileName_of_mem_entriesOf inFile] at sameName
          exact apart (sameName ▸ List.mem_map_of_mem member)
        rw [rejectionsIn_append, none, List.nil_append]

/-- The rejections of all files are those of all declarations. -/
theorem flatMap_rejectedOf_files
    {sources : List SymbolSource}
    (through : (insertSources symbols policy progress sources).stop = none) :
    ((insertSources symbols policy progress sources).files.map rejectedOf).flatMap Prod.snd =
      ((insertSources symbols policy progress sources).entries sources).filterMap
        fun entry => entry.decision.rejection? := by
  have decided := congrArg (List.filterMap Decision.rejection?) (map_decision_entries through)
  rw [List.filterMap_map, List.filterMap_flatMap] at decided
  rw [List.flatMap_map]
  exact decided.symm

end Files

/-- A rejection names the class and the file of the declaration. -/
theorem Run.rejection_eq
    {symbols : SymbolMap}
    {policy : DuplicatePolicy}
    {entries : List Entry}
    {progress : Progress}
    (run : Run symbols policy entries progress)
    {entry : Entry}
    (member : entry ∈ entries)
    {rejection : ClassName.Rejection}
    (rejected : entry.decision = .rejected rejection) :
    rejection.className = entry.sourceName symbols ∧
      rejection.fileName = entry.fileName := by
  induction run with
  | start =>
      cases member
  | step run inserted inductionHypothesis =>
      rcases List.mem_append.mp member with old | new
      · exact inductionHypothesis old
      · cases List.mem_singleton.mp new
        cases rejected
        have decided := rejection_of_insert inserted
        split at decided
        · cases decided
          exact ⟨rfl, rfl⟩
        · obtain ⟨_, _, rfl⟩ := Option.map_eq_some_iff.mp decided.symm
          exact ⟨rfl, rfl⟩

/-- Leaving out files without rejections leaves out no rejection. -/
theorem flatMap_filter_isEmpty (files : List (String × List ClassName.Rejection)) :
    (files.filter fun file => !file.2.isEmpty).flatMap Prod.snd = files.flatMap Prod.snd := by
  induction files with
  | nil =>
      rfl
  | cons file rest inductionHypothesis =>
      cases listed : file.2 <;> simp [listed, inductionHypothesis]

section Builds

variable
  {settings : BuildSettings}
  {symbols : SymbolMap}
  {sources : List SymbolSource}

/-- Where each file has a name of its own, the rejections are listed file by file. -/
theorem rejections_of_separate
    (through : (build settings symbols sources).stop = none)
    (separate : (sources.map SymbolSource.name).Nodup) :
    (build settings symbols sources).rejections =
      ((sources.map fun source =>
          (source.name,
            rejectionsIn source.name ((build settings symbols sources).entries sources))).filter
        fun file => !file.2.isEmpty) := by
  have filed :
      (build settings symbols sources).files.map rejectedOf =
        sources.map fun source =>
          (source.name,
            rejectionsIn source.name ((build settings symbols sources).entries sources)) :=
    map_rejectedOf_files through separate
  rw [Build.rejections_eq_foldl, filed]
  apply Table.foldl_put_of_nodup
  apply (List.filter_sublist.map Prod.fst).nodup
  rwa [List.map_map]

/-- Where each file has a name of its own, no rejection is lost. -/
theorem length_rejections_of_separate
    (through : (build settings symbols sources).stop = none)
    (separate : (sources.map SymbolSource.name).Nodup) :
    ((build settings symbols sources).rejections.flatMap Prod.snd).length =
      (((build settings symbols sources).entries sources).filterMap
        fun entry => entry.decision.rejection?).length := by
  have filed := map_rejectedOf_files through separate
  have gathered := flatMap_rejectedOf_files through
  rw [rejections_of_separate through separate, flatMap_filter_isEmpty]
  rw [filed] at gathered
  exact congrArg List.length gathered

/--
Every declaration of a build is accounted for once: it has a class node of its own, a
warning, or a rejection. The warnings on a class name the files of its accepted
declarations one after another, and its node has the file of the one that is kept. Each
file with rejected classes is listed with their rejections in order, and no other file is.
-/
theorem declarations_accounted_for
    {result : BuildResult}
    (separate : (sources.map SymbolSource.name).Nodup)
    (returned : (build settings symbols sources).result = .ok result) :
    let entries := (build settings symbols sources).entries sources
    entries.map Entry.declaration = declarations sources ∧
      ((declarations sources).length : Int) =
        result.root.label.totals.classes + result.warnings.length + result.rejectionCount ∧
      (∀ name,
        (result.warnings.filter fun warning => warning.className == name) =
          collisions settings.policy name (entriesNamed symbols name entries)) ∧
      (∀ path label, (path, label) ∈ result.root.classes →
        ∃ kept,
          keptDeclaration? symbols settings.policy (qualifiedName path) entries = some kept ∧
            label.dexFile = some kept.fileName) ∧
      result.rejections =
        ((sources.map fun source => (source.name, rejectionsIn source.name entries)).filter
          fun file => !file.2.isEmpty) ∧
      ∀ entry ∈ entries, ∀ rejection, entry.decision = .rejected rejection →
        rejection.className = entry.sourceName symbols ∧
          rejection.fileName = entry.fileName := by
  intro entries
  obtain ⟨through, rolled⟩ := result_eq_ok returned
  obtain ⟨run, declared⟩ := run_build through
  obtain ⟨warned, listed⟩ := notes_of_result returned
  refine ⟨declared, ?_, ?_, ?_, ?_, ?_⟩
  · have total := length_eq_add_add entries
    have rejected := length_rejections_of_separate through separate
    rw [← declared, List.length_map, total, rolled, run.classes_eq, warned, run.warnings,
      BuildResult.rejectionCount, listed, rejected]
    push_cast
    rfl
  · intro name
    have named :
        entriesNamed (settings.symbolsFor symbols sources) name =
          entriesNamed symbols name := by
      funext entries
      simp only [entriesNamed, Entry.sourceName_symbolsFor]
    rw [warned, run.warnings_named name, named]
  · intro path label member
    rw [rolled] at member
    obtain ⟨kept, before, isKept, labelled, same⟩ := run.contents.exists_kept_of_class member
    rw [keptDeclaration?_symbolsFor] at isKept
    refine ⟨kept, isKept, ?_⟩
    rw [same]
    exact (declaredLabel_eq_ok labelled).2.2.2.2.1
  · rw [listed, rejections_of_separate through separate]
  · intro entry member rejection rejected
    simpa only [Entry.sourceName_symbolsFor] using run.rejection_eq member rejected

/-- Three files of which each declares a class again, and two have a class that is
rejected. -/
def collidingFiles : List SymbolSource :=
  [ { name := "classes.dex"
      classes := [{ name := "Lp/A;" }, { name := "Lp/A$B;" }, { name := "Lp/A/Inner;" }] },
    { name := "classes2.dex"
      classes := [{ name := "Lp/A;" }, { name := "Lp/A;" }] },
    { name := "classes3.dex"
      classes := [{ name := "Lp//C;" }, { name := "Lp/A;" }, { name := "Lp/A/Other;" }] } ]

/-- Of the eight declarations of the colliding files two make a node, three make a warning
and three are rejected. -/
theorem collidingFiles_accounted_for :
    (collidingFiles.map SymbolSource.name).Nodup ∧
      ∃ result,
        (build { policy := .lastWins } {} collidingFiles).result = .ok result ∧
          (8 : Int) =
            result.root.label.totals.classes + result.warnings.length +
              result.rejectionCount ∧
          (result.warnings.filter fun warning => warning.className == "p.A") =
            [ ⟨"p.A", "classes2.dex", "classes.dex", .lastWins⟩,
              ⟨"p.A", "classes2.dex", "classes2.dex", .lastWins⟩,
              ⟨"p.A", "classes3.dex", "classes2.dex", .lastWins⟩ ] ∧
          result.rejections =
            [ ("classes.dex", [⟨"p.A.Inner", "classes.dex", .classAtPackage "A"⟩]),
              ("classes3.dex",
                [ ⟨"p..C", "classes3.dex", .emptySegment⟩,
                  ⟨"p.A.Other", "classes3.dex", .classAtPackage "A"⟩ ]) ] := by
  have separate : (collidingFiles.map SymbolSource.name).Nodup := by
    decide
  obtain ⟨result, returned⟩ :
      ∃ result, (build { policy := .lastWins } {} collidingFiles).result = .ok result :=
    ⟨_, rfl⟩
  obtain ⟨_, total, warned, _, listed, _⟩ := declarations_accounted_for separate returned
  refine ⟨separate, result, returned, total, ?_, ?_⟩
  · rw [warned "p.A"]
    rfl
  · rw [listed]
    rfl

end Builds

/-! ## Files that share a name

The table of rejections has one entry for a name, so of several files of one name that
have rejected classes it lists those of the last one. Rejections are lost exactly if two
files with rejected classes share a name: `rejections_of_last_files`. -/

/-- The files of a build that have rejected classes, with the rejections of each. -/
def Build.rejectedFiles (build : Build) : List (String × List ClassName.Rejection) :=
  (build.files.map rejectedOf).filter fun file => !file.2.isEmpty

theorem Build.ne_nil_of_mem_rejectedFiles
    {build : Build}
    {file : String × List ClassName.Rejection}
    (member : file ∈ build.rejectedFiles) :
    file.2 ≠ [] := by
  have listed := (List.mem_filter.mp member).2
  simpa using listed

/-- A build has a file for each source, in order. -/
theorem map_fst_files
    {symbols : SymbolMap}
    {policy : DuplicatePolicy}
    {progress : Progress}
    {sources : List SymbolSource}
    (through : (insertSources symbols policy progress sources).stop = none) :
    (insertSources symbols policy progress sources).files.map Prod.fst =
      sources.map SymbolSource.name := by
  induction sources generalizing progress with
  | nil =>
      rfl
  | cons source rest inductionHypothesis =>
      obtain ⟨_, _, _, remaining, built⟩ := exists_of_insertSources_cons through
      rw [built, List.map_cons, List.map_cons, inductionHypothesis remaining]

/--
What a build lists of the classes it rejects. Each rejection belongs to one of the files,
and under a name stand those of the last file of that name that has any. So never more
rejections are listed than there are, and all of them exactly if the files that have some
are of different names.
-/
theorem rejections_of_last_files
    {settings : BuildSettings}
    {symbols : SymbolMap}
    {sources : List SymbolSource}
    {result : BuildResult}
    (returned : (build settings symbols sources).result = .ok result) :
    let build := build settings symbols sources
    let rejected :=
      (build.entries sources).filterMap fun entry => entry.decision.rejection?
    build.files.map Prod.fst = sources.map SymbolSource.name ∧
      build.rejectedFiles.flatMap Prod.snd = rejected ∧
      (∀ name,
        Table.get? name result.rejections =
          (build.rejectedFiles.reverse.find? fun file => decide (file.1 = name)).map
            Prod.snd) ∧
      result.rejectionCount ≤ rejected.length ∧
      (result.rejectionCount = rejected.length ↔
        (build.rejectedFiles.map Prod.fst).Nodup) := by
  intro build rejected
  have through := (result_eq_ok returned).1
  have gathered : build.rejectedFiles.flatMap Prod.snd = rejected := by
    rw [Build.rejectedFiles, flatMap_filter_isEmpty]
    exact flatMap_rejectedOf_files through
  have table :
      result.rejections =
        build.rejectedFiles.foldl (fun table file => Table.put file.1 file.2 table) [] := by
    rw [(notes_of_result returned).2, Build.rejections_eq_foldl]
    rfl
  have some_rejections : ∀ file ∈ build.rejectedFiles, file.2 ≠ [] :=
    fun _ member => Build.ne_nil_of_mem_rejectedFiles member
  have counted := Table.length_flatMap_foldl_put some_rejections
  rw [← table, gathered] at counted
  refine ⟨map_fst_files through, gathered, ?_, counted⟩
  intro name
  rw [table, Table.get?_foldl_put]

/-- Two files of one name with a file between them, all with rejected classes. -/
def interleavedFiles : List SymbolSource :=
  [ { name := "classes.dex", classes := [{ name := "Lp//A;" }] },
    { name := "classes2.dex", classes := [{ name := "Lq//C;" }, { name := "Lq//D;" }] },
    { name := "classes.dex", classes := [{ name := "Lp/A;" }, { name := "Lp/A/B;" }] } ]

/-- Of the interleaved files the first one is not listed, and a rejection is missing. -/
theorem rejections_of_interleavedFiles :
    ∃ result,
      (build {} {} interleavedFiles).result = .ok result ∧
        Table.get? "classes.dex" result.rejections =
          some [⟨"p.A.B", "classes.dex", .classAtPackage "A"⟩] ∧
        Table.get? "classes2.dex" result.rejections =
          some
            [ ⟨"q..C", "classes2.dex", .emptySegment⟩,
              ⟨"q..D", "classes2.dex", .emptySegment⟩ ] ∧
        result.rejectionCount ≤ 4 ∧ result.rejectionCount ≠ 4 := by
  obtain ⟨result, returned⟩ : ∃ result, (build {} {} interleavedFiles).result = .ok result :=
    ⟨_, rfl⟩
  obtain ⟨_, _, found, bounded, whole⟩ := rejections_of_last_files returned
  refine ⟨result, returned, ?_, ?_, bounded, ?_⟩
  · rw [found]
    rfl
  · rw [found]
    rfl
  · intro all
    exact absurd (whole.mp all) (by decide +kernel)

/-- Two files of one name, each with a class that has an empty segment in its name. -/
def namesakeFiles : List SymbolSource :=
  [ { name := "classes.dex", classes := [{ name := "Lp//A;" }] },
    { name := "classes.dex", classes := [{ name := "Lp//B;" }] } ]

/-- Of two files of one name, both with a rejected class, only the second one is listed. -/
theorem namesakeFiles_lose_rejection :
    ∃ result,
      (build {} {} namesakeFiles).result = .ok result ∧
        (((build {} {} namesakeFiles).entries namesakeFiles).filterMap
            fun entry => entry.decision.rejection?) =
          [ ⟨"p..A", "classes.dex", .emptySegment⟩,
            ⟨"p..B", "classes.dex", .emptySegment⟩ ] ∧
        result.rejections = [("classes.dex", [⟨"p..B", "classes.dex", .emptySegment⟩])] ∧
        result.rejectionCount = 1 :=
  ⟨_, rfl, rfl, rfl, rfl⟩

end ApkAtlas.Package
