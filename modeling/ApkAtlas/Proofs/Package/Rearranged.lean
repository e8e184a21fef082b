import ApkAtlas.Proofs.Package.Agreement
import ApkAtlas.Proofs.Package.Notes
import ApkAtlas.Proofs.Package.Rejection
import ApkAtlas.Proofs.Package.Stopping
import ApkAtlas.Proofs.Symbols.History
import Mathlib.Data.List.Forall2

namespace ApkAtlas

/-!
# Files and classes in another order

Declared classes are independent if their names are different and none is on the way to
another. A build then adds each of them in its own place, whatever came before it, so files,
classes and references can come in any order: `build_rearranged`.
-/

/-- The same file with its classes and its references in some order. -/
structure SymbolSource.Rearranges (source other : SymbolSource) : Prop where
  name : source.name = other.name
  classes : source.classes.Perm other.classes
  references : source.references.Perm other.references

/-- Names with the same path are the same. -/
theorem ClassName.eq_of_path?
    {first second : String}
    {path : List String}
    (splitFirst : path? first = some path)
    (splitSecond : path? second = some path) :
    first = second :=
  (qualifiedName_path splitFirst).symm.trans (qualifiedName_path splitSecond)

theorem Signature.mem_sourceForm
    {signature : String}
    (opens : '(' ∈ signature.toList)
    (resolve : String → String)
    (name : String) :
    '(' ∈ (sourceForm resolve name signature).toList := by
  obtain ⟨before, after, whole, absent⟩ := List.eq_append_cons_of_mem opens
  rw [sourceForm, whole, Text.cutFirst_append_cons absent]
  simp

namespace Package

open PackageNode

/-- The same files in some order, each with its classes and references in some order. -/
def Rearranged (sources others : List SymbolSource) : Prop :=
  ∃ between, sources.Perm between ∧ List.Forall₂ SymbolSource.Rearranges between others

/-- What is collected of rearranged sources is collected in another order. -/
theorem Rearranged.flatMap_perm
    {Item : Type}
    {sources others : List SymbolSource}
    (rearranged : Rearranged sources others)
    {items : SymbolSource → List Item}
    (each :
      ∀ source other, source.Rearranges other → (items source).Perm (items other)) :
    (sources.flatMap items).Perm (others.flatMap items) := by
  obtain ⟨between, perm, pairs⟩ := rearranged
  refine (perm.flatMap_right items).trans ?_
  clear perm
  induction pairs with
  | nil =>
      rfl
  | cons first _ inductionHypothesis =>
      rw [List.flatMap_cons, List.flatMap_cons]
      exact (each _ _ first).append inductionHypothesis

/-- Rearranged sources declare the same in another order. -/
theorem Rearranged.declarations_perm
    {sources others : List SymbolSource}
    (rearranged : Rearranged sources others) :
    (declarations sources).Perm (declarations others) := by
  apply rearranged.flatMap_perm
  intro source other same
  rw [same.name]
  exact same.classes.map _

/-- Rearranged sources record the same references. -/
theorem Rearranged.symbolsFor_eq
    {sources others : List SymbolSource}
    (rearranged : Rearranged sources others)
    (settings : BuildSettings)
    (symbols : SymbolMap) :
    settings.symbolsFor symbols sources = settings.symbolsFor symbols others := by
  rw [BuildSettings.symbolsFor, BuildSettings.symbolsFor]
  split
  · apply SymbolMap.recordSources_eq_of_perm
    exact rearranged.flatMap_perm fun _ _ same => same.references
  · rfl

/-! ## Independent classes -/

/-- A class whose constructors have parameters has a label. -/
theorem exists_declaredLabel_of_parameters
    {symbols : SymbolMap}
    {fileName : String}
    {declared : ClassSymbols}
    (parameters :
      ∀ signature ∈ declared.methods ++ declared.fields,
        Signature.memberName signature = constructorName → '(' ∈ signature.toList) :
    ∃ label, declaredLabel symbols fileName declared = .ok label := by
  cases labelled : declaredLabel symbols fileName declared with
  | ok label =>
      exact ⟨label, rfl⟩
  | error _ =>
      obtain ⟨_, kind, signature, inMembers, lacking⟩ :=
        declaredLabel_eq_error_iff.mp labelled
      have inClass : signature ∈ declared.methods ++ declared.fields := by
        cases kind with
        | method =>
            exact List.mem_append_left _ inMembers
        | field =>
            exact List.mem_append_right _ inMembers
      have opens := parameters signature inClass lacking.named
      exact absurd (Signature.mem_sourceForm opens _ _) lacking.bare

/-- Declared classes with valid, different names of which none is on the way to another,
and with parameters for all members that go by the name of constructors. -/
structure Independent
    (symbols : SymbolMap)
    (classes : List (String × ClassSymbols)) : Prop where
  valid : ∀ declaration ∈ classes, (ClassName.path? (sourceName symbols declaration.2)).isSome
  different : (classes.map fun declaration => sourceName symbols declaration.2).Nodup
  apart :
    ∀ first ∈ classes, ∀ second ∈ classes,
      ∀ path ∈ ClassName.path? (sourceName symbols first.2),
        ∀ classPath ∈ ClassName.path? (sourceName symbols second.2),
          path <+: classPath → path = classPath
  parameters :
    ∀ declaration ∈ classes, ∀ signature ∈ declaration.2.methods ++ declaration.2.fields,
      Signature.memberName signature = constructorName → '(' ∈ signature.toList

namespace Independent

variable
  {symbols : SymbolMap}
  {classes others : List (String × ClassSymbols)}

/-- The order of classes does not matter for their independence. -/
theorem perm
    (independent : Independent symbols classes)
    (perm : classes.Perm others) :
    Independent symbols others where
  valid declaration member := independent.valid declaration (perm.mem_iff.mpr member)
  different := (perm.map _).nodup_iff.mp independent.different
  apart first inFirst second inSecond :=
    independent.apart first (perm.mem_iff.mpr inFirst) second (perm.mem_iff.mpr inSecond)
  parameters declaration member :=
    independent.parameters declaration (perm.mem_iff.mpr member)

/-- Some of independent classes are independent. -/
theorem of_append
    (independent : Independent symbols (classes ++ others)) :
    Independent symbols classes where
  valid declaration member :=
    independent.valid declaration (List.mem_append_left _ member)
  different := by
    have different := independent.different
    rw [List.map_append] at different
    exact different.of_append_left
  apart first inFirst second inSecond :=
    independent.apart first (List.mem_append_left _ inFirst) second
      (List.mem_append_left _ inSecond)
  parameters declaration member :=
    independent.parameters declaration (List.mem_append_left _ member)

theorem ne_last
    {last declaration : String × ClassSymbols}
    (independent : Independent symbols (classes ++ [last]))
    (member : declaration ∈ classes) :
    sourceName symbols declaration.2 ≠ sourceName symbols last.2 := by
  have different := independent.different
  rw [List.map_append, List.map_singleton, List.nodup_append] at different
  exact different.2.2 _ (List.mem_map_of_mem member) _ List.mem_cons_self

/-- Recording references keeps classes independent. -/
theorem symbolsFor
    (independent : Independent symbols classes)
    (settings : BuildSettings)
    (sources : List SymbolSource) :
    Independent (settings.symbolsFor symbols sources) classes := by
  have sameName :
      sourceName (settings.symbolsFor symbols sources) = sourceName symbols := by
    funext declared
    rw [sourceName, SymbolMap.resolveClass, renames_symbolsFor]
    rfl
  exact {
    valid := sameName ▸ independent.valid
    different := sameName ▸ independent.different
    apart := sameName ▸ independent.apart
    parameters := independent.parameters
  }

/-- Independent classes at one path are the same. -/
theorem eq_of_path?
    (independent : Independent symbols classes)
    {first second : String × ClassSymbols}
    (inFirst : first ∈ classes)
    (inSecond : second ∈ classes)
    {path : List String}
    (splitFirst : ClassName.path? (sourceName symbols first.2) = some path)
    (splitSecond : ClassName.path? (sourceName symbols second.2) = some path) :
    first = second :=
  List.inj_on_of_nodup_map independent.different inFirst inSecond
    (ClassName.eq_of_path? splitFirst splitSecond)

/-- No independent class is in the place of a package of another one. -/
theorem not_nested
    (independent : Independent symbols classes)
    {first second : String × ClassSymbols}
    (inFirst : first ∈ classes)
    (inSecond : second ∈ classes)
    {path classPath : List String}
    (splitFirst : ClassName.path? (sourceName symbols first.2) = some path)
    (splitSecond : ClassName.path? (sourceName symbols second.2) = some classPath) :
    ¬ Nested path classPath := by
  rintro (⟨leading, shorter⟩ | ⟨leading, shorter⟩)
  · exact shorter
      (independent.apart first inFirst second inSecond _ splitFirst _ splitSecond leading)
  · exact shorter
      (independent.apart second inSecond first inFirst _ splitSecond _ splitFirst leading)

/-- The label of each independent class is known. -/
theorem exists_declaredLabel
    (independent : Independent symbols classes)
    {fileName : String}
    {declared : ClassSymbols}
    (member : (fileName, declared) ∈ classes) :
    ∃ label, declaredLabel symbols fileName declared = .ok label :=
  exists_declaredLabel_of_parameters (independent.parameters _ member)

end Independent

section Runs

variable
  {symbols : SymbolMap}
  {policy : DuplicatePolicy}
  {entries : List Entry}
  {progress : Progress}

/-- The place of a class that is independent of those before it is free. -/
theorem Run.free
    (run : Run symbols policy entries progress)
    {fileName : String}
    {declared : ClassSymbols}
    (independent :
      Independent symbols (entries.map Entry.declaration ++ [(fileName, declared)])) :
    ∃ path,
      ClassName.path? (sourceName symbols declared) = some path ∧
        ¬ Conflict progress.root path ∧
        progress.root.labelAt? path = none := by
  have isLast :
      (fileName, declared) ∈ entries.map Entry.declaration ++ [(fileName, declared)] :=
    List.mem_append_right _ List.mem_cons_self
  have isEarlier {entry : Entry} (member : entry ∈ entries) :
      entry.declaration ∈ entries.map Entry.declaration ++ [(fileName, declared)] :=
    List.mem_append_left _ (List.mem_map_of_mem member)
  obtain ⟨path, split⟩ := Option.isSome_iff_exists.mp (independent.valid _ isLast)
  have noConflict : ¬ Conflict progress.root path := by
    intro conflict
    obtain ⟨entry, member, _, other, splitOther, nested⟩ :=
      run.contents.exists_nested (ClassName.path?_ne_nil split) conflict
    exact independent.not_nested (isEarlier member) isLast splitOther split nested
  refine ⟨path, split, noConflict, ?_⟩
  cases atPath : progress.root.labelAt? path with
  | none =>
      rfl
  | some label =>
      by_cases isClass : label.isClass
      · obtain ⟨entry, member, _, splitEntry⟩ :=
          run.contents.exists_accepted atPath isClass
        have sameName : entry.sourceName symbols = sourceName symbols declared :=
          ClassName.eq_of_path? splitEntry split
        have isEarlier : entry.declaration ∈ entries.map Entry.declaration :=
          List.mem_map_of_mem member
        have differentName := independent.ne_last isEarlier
        exact absurd sameName differentName
      · exact absurd (.packageInPlace atPath isClass) noConflict

/-- Of independent classes each is added. -/
theorem Run.added
    (run : Run symbols policy entries progress)
    (independent : Independent symbols (entries.map Entry.declaration)) :
    ∀ entry ∈ entries, entry.decision = .added := by
  induction run with
  | start =>
      intro entry member
      cases member
  | step run inserted inductionHypothesis =>
      rw [List.map_append, List.map_singleton, Entry.declaration] at independent
      intro entry member
      rcases List.mem_append.mp member with earlier | last
      · exact inductionHypothesis independent.of_append entry earlier
      · rw [List.mem_singleton.mp last]
        obtain ⟨path, split, noConflict, free⟩ := run.free independent
        cases insert_cases inserted with
        | rejected conflict =>
            exact absurd (conflict path split) noConflict
        | added =>
            rfl
        | kept _ splitAgain atPath =>
            cases split.symm.trans splitAgain
            cases free.symm.trans atPath
        | replaced _ splitAgain _ atPath =>
            cases split.symm.trans splitAgain
            cases free.symm.trans atPath

end Runs

/-! ## Packages -/

/-- The label of the package at a path. -/
def packageLabel (path : List String) : NodeLabel :=
  path.getLast?.elim emptyRoot.label fun name => (ofPackage name).label

/-- The packages of a tree have nothing but their names. -/
def HasPlainPackages (root : PackageNode) : Prop :=
  ∀ path label, root.labelAt? path = some label → ¬ label.isClass → label = packageLabel path

theorem hasPlainPackages_emptyRoot : HasPlainPackages emptyRoot := by
  intro path label atPath _
  cases path with
  | nil =>
      cases atPath
      rfl
  | cons _ _ =>
      rw [labelAt?_cons_of_children_nil rfl] at atPath
      cases atPath

/-- Writing a class keeps all packages plain. -/
theorem HasPlainPackages.place
    {root next : PackageNode}
    {path : List String}
    {written : NodeLabel}
    (plain : HasPlainPackages root)
    (isClass : written.isClass)
    (placed : Placed root path written next) :
    HasPlainPackages next := by
  intro other label atOther isPackage
  rcases placed.labels_cases atOther with ⟨_, rfl⟩ | ⟨_, old⟩ | ⟨_, made⟩
  · exact absurd isClass isPackage
  · exact plain other label old isPackage
  · rw [freshPackage?, if_pos (not_isClass_freshPackage? made).2,
      Option.map_eq_some_iff] at made
    obtain ⟨name, isLast, rfl⟩ := made
    rw [packageLabel, isLast]
    rfl

/-- In the tree of a run all packages are plain. -/
theorem Run.hasPlainPackages
    {symbols : SymbolMap}
    {policy : DuplicatePolicy}
    {entries : List Entry}
    {progress : Progress}
    (run : Run symbols policy entries progress) :
    HasPlainPackages progress.root := by
  induction run with
  | start =>
      exact hasPlainPackages_emptyRoot
  | step _ inserted inductionHypothesis =>
      cases insert_cases inserted with
      | rejected =>
          exact inductionHypothesis
      | added _ labelled _ placed =>
          exact inductionHypothesis.place (declaredLabel_eq_ok labelled).2.1 placed
      | kept =>
          exact inductionHypothesis
      | replaced _ _ labelled _ _ placed =>
          exact inductionHypothesis.place (declaredLabel_eq_ok labelled).2.1 placed

/-! ## Two runs over the same independent classes -/

section Same

variable
  {symbols : SymbolMap}
  {policy : DuplicatePolicy}
  {entries others : List Entry}
  {progress other : Progress}

/-- Each class of a tree has the label of a declaration. -/
theorem Run.exists_declaration
    (run : Run symbols policy entries progress)
    {path : List String}
    {label : NodeLabel}
    (atPath : progress.root.labelAt? path = some label)
    (isClass : label.isClass) :
    ∃ entry ∈ entries,
      ClassName.path? (entry.sourceName symbols) = some path ∧
        declaredLabel symbols entry.fileName entry.declared = .ok label := by
  obtain ⟨name, entry, split, kept, labelled⟩ := run.contents.classes path label atPath isClass
  obtain ⟨member, _, rfl⟩ := mem_of_keptDeclaration? kept
  exact ⟨entry, member, split, labelled⟩

/-- An independent class stands at its path with its label. -/
theorem Run.exists_label
    (run : Run symbols policy entries progress)
    (independent : Independent symbols (entries.map Entry.declaration))
    {entry : Entry}
    (member : entry ∈ entries)
    {path : List String}
    (split : ClassName.path? (entry.sourceName symbols) = some path) :
    ∃ label,
      progress.root.labelAt? path = some label ∧
        label.isClass ∧
        declaredLabel symbols entry.fileName entry.declared = .ok label := by
  have accepted : entry.accepted := by
    rw [Entry.accepted, run.added independent entry member]
    rfl
  obtain ⟨_, label, splitAgain, atPath, isClass⟩ :=
    run.contents.accepted entry member accepted
  cases split.symm.trans splitAgain
  obtain ⟨found, foundMember, splitFound, labelled⟩ := run.exists_declaration atPath isClass
  have same : found.declaration = entry.declaration :=
    independent.eq_of_path? (List.mem_map_of_mem foundMember) (List.mem_map_of_mem member)
      splitFound split
  obtain ⟨sameFile, sameClass⟩ := Prod.mk.inj same
  rw [sameFile, sameClass] at labelled
  exact ⟨label, atPath, isClass, labelled⟩

/-- What stands in a tree stands in the tree of a run over the same classes too. -/
theorem Run.labelAt?_of_perm
    (run : Run symbols policy entries progress)
    (otherRun : Run symbols policy others other)
    (independent : Independent symbols (entries.map Entry.declaration))
    (perm : (entries.map Entry.declaration).Perm (others.map Entry.declaration))
    {path : List String}
    {label : NodeLabel}
    (atPath : progress.root.labelAt? path = some label) :
    other.root.labelAt? path = some label := by
  have otherIndependent := independent.perm perm
  have present
      {entry : Entry}
      (member : entry ∈ entries)
      {classPath : List String}
      (split : ClassName.path? (entry.sourceName symbols) = some classPath) :
      ∃ twin ∈ others, twin.declaration = entry.declaration ∧
        ∃ found,
          other.root.labelAt? classPath = some found ∧
            found.isClass ∧
            declaredLabel symbols entry.fileName entry.declared = .ok found := by
    obtain ⟨twin, twinMember, same⟩ :=
      List.mem_map.mp (perm.mem_iff.mp (List.mem_map_of_mem member))
    obtain ⟨sameFile, sameClass⟩ := Prod.mk.inj same
    rw [Entry.sourceName, ← sameClass] at split
    have standing := otherRun.exists_label otherIndependent twinMember split
    rw [sameFile, sameClass] at standing
    exact ⟨twin, twinMember, same, standing⟩
  by_cases isClass : label.isClass
  · obtain ⟨entry, member, split, labelled⟩ := run.exists_declaration atPath isClass
    obtain ⟨_, _, _, found, atOther, _, labelledAgain⟩ := present member split
    cases labelled.symm.trans labelledAgain
    exact atOther
  · have isPackage :
        ∃ found, other.root.labelAt? path = some found ∧ ¬ found.isClass := by
      by_cases atTop : path = []
      · subst atTop
        refine ⟨other.root.label, rfl, ?_⟩
        intro rootIsClass
        obtain ⟨_, _, split, _⟩ :=
          otherRun.exists_declaration (labelAt?_nil other.root) rootIsClass
        exact ClassName.path?_ne_nil split rfl
      · obtain ⟨entry, member, _, classPath, split, leading, shorter⟩ :=
          run.contents.packages path label atPath isClass atTop
        obtain ⟨twin, twinMember, same, _, atClass, _⟩ := present member split
        have reached : (other.root.labelAt? path).isSome := by
          apply labelAt?_isSome_of_prefix leading
          rw [atClass]
          rfl
        obtain ⟨found, atOther⟩ := Option.isSome_iff_exists.mp reached
        refine ⟨found, atOther, ?_⟩
        have accepted : twin.accepted := by
          rw [Entry.accepted, otherRun.added otherIndependent twin twinMember]
          rfl
        rw [Entry.sourceName, ← (Prod.mk.inj same).2] at split
        exact otherRun.contents.clear twin twinMember accepted classPath split path atTop
          leading shorter found atOther
    obtain ⟨found, atOther, foundIsPackage⟩ := isPackage
    rw [atOther, otherRun.hasPlainPackages path found atOther foundIsPackage,
      run.hasPlainPackages path label atPath isClass]

/-- Runs over the same independent classes lead to trees that agree. -/
theorem Run.agrees
    (run : Run symbols policy entries progress)
    (otherRun : Run symbols policy others other)
    (independent : Independent symbols (entries.map Entry.declaration))
    (perm : (entries.map Entry.declaration).Perm (others.map Entry.declaration)) :
    progress.root.Agrees other.root := by
  intro path
  apply Option.ext
  intro label
  constructor
  · exact run.labelAt?_of_perm otherRun independent perm
  · exact otherRun.labelAt?_of_perm run (independent.perm perm) perm.symm

end Same

/-! ## Builds -/

/-- A build over independent classes is not stopped. -/
theorem Independent.stop_eq_none
    {settings : BuildSettings}
    {symbols : SymbolMap}
    {sources : List SymbolSource}
    (independent :
      Independent (settings.symbolsFor symbols sources) (declarations sources)) :
    (build settings symbols sources).stop = none := by
  cases stop : (build settings symbols sources).stop with
  | none =>
      rfl
  | some error =>
      obtain ⟨before, fileName, declared, after, entries, progress, position, run, same,
        failed⟩ := stop_eq_some_iff.mp stop
      rw [position, List.append_cons, ← same] at independent
      obtain ⟨path, split, _, free⟩ := run.free independent.of_append
      cases refusal_of_insert failed with
      | declaredAgain _ splitAgain atPath =>
          cases split.symm.trans splitAgain
          cases free.symm.trans atPath
      | unlabelled _ unlabelled =>
          obtain ⟨label, labelled⟩ :=
            independent.of_append.exists_declaredLabel
              (List.mem_append_right _ List.mem_cons_self)
          cases labelled.symm.trans unlabelled

/-- A build over independent classes returns, without warnings and rejections, the tree at
the end of a run. -/
theorem Independent.exists_result
    {settings : BuildSettings}
    {symbols : SymbolMap}
    {sources : List SymbolSource}
    (independent :
      Independent (settings.symbolsFor symbols sources) (declarations sources)) :
    ∃ entries progress,
      Run (settings.symbolsFor symbols sources) settings.policy entries progress ∧
        entries.map Entry.declaration = declarations sources ∧
        (build settings symbols sources).result = .ok ⟨progress.root.rollUp, [], []⟩ := by
  have through := independent.stop_eq_none
  obtain ⟨run, same⟩ := run_build through
  have added := run.added (same ▸ independent)
  refine ⟨_, _, run, same, ?_⟩
  have kept (decision : Decision)
      (member : decision ∈ (build settings symbols sources).files.flatMap Prod.snd) :
      decision = .added := by
    rw [build, ← map_decision_entries through] at member
    obtain ⟨entry, inEntries, rfl⟩ := List.mem_map.mp member
    exact added entry inEntries
  have warnings : (build settings symbols sources).progress.warnings = [] := by
    rw [warnings_build through, List.filterMap_eq_nil_iff]
    intro decision member
    rw [kept decision member]
    rfl
  have rejections : (build settings symbols sources).rejections = [] := by
    apply Build.rejections_eq_nil
    intro decision member
    rw [kept decision member]
    rfl
  rw [Build.result, through, warnings, rejections]

/--
Independent classes can be declared in any order. Two builds over the same files, classes
and references in different orders look names up in the same symbol map and leave it behind;
both return, without warnings and rejections, and their trees have the same nodes with the
same labels, totals included, and the same rankings of children.
-/
theorem build_rearranged
    (settings : BuildSettings)
    {symbols : SymbolMap}
    {sources others : List SymbolSource}
    (rearranged : Rearranged sources others)
    (independent : Independent symbols (declarations sources)) :
    settings.symbolsFor symbols sources = settings.symbolsFor symbols others ∧
      ∃ first second,
        (build settings symbols sources).result = .ok first ∧
          (build settings symbols others).result = .ok second ∧
          first.warnings = [] ∧ first.rejections = [] ∧
          second.warnings = [] ∧ second.rejections = [] ∧
          first.root.walk.Perm second.root.walk ∧
          first.root.Agrees second.root ∧
          ∀ path metric limit,
            (first.root.find? path).map (fun node => node.largestLabels metric limit) =
              (second.root.find? path).map fun node => node.largestLabels metric limit := by
  have sameSymbols := rearranged.symbolsFor_eq settings symbols
  have perm := rearranged.declarations_perm
  obtain ⟨entries, progress, run, declared, returned⟩ :=
    (independent.symbolsFor settings sources).exists_result
  obtain ⟨otherEntries, other, otherRun, otherDeclared, otherReturned⟩ :=
    ((independent.perm perm).symbolsFor settings others).exists_result
  rw [← sameSymbols] at otherRun
  have agrees : progress.root.Agrees other.root := by
    apply run.agrees otherRun
    · rw [declared]
      exact independent.symbolsFor settings sources
    · rw [declared, otherDeclared]
      exact perm
  have distinct := run.contents.distinct
  have otherDistinct := otherRun.contents.distinct
  have rolled := agrees.rollUp distinct otherDistinct
  exact ⟨sameSymbols, _, _, returned, otherReturned, rfl, rfl, rfl, rfl,
    rolled.walk_perm distinct.rollUp otherDistinct.rollUp, rolled,
    rolled.map_largestLabels distinct.rollUp otherDistinct.rollUp⟩

/-- Two files whose classes share packages. -/
def sharedPackages : List SymbolSource :=
  [ { name := "classes.dex"
      classes :=
        [ { name := "Lp/q/A;", methods := ["<init>()V", "m()V"] },
          { name := "Lp/B;", fields := ["x:I"] } ]
      references :=
        [ { className := "Lp/q/A;", signature := "m()V" },
          { className := "Lp/B;", signature := "x:I", kind := .field } ] },
    { name := "classes2.dex"
      classes := [{ name := "p.q.C", methods := ["m()V"] }]
      references := [{ className := "Lp/q/A;", signature := "m()V" }] } ]

/-- The same files from the last to the first, with their classes and references reversed. -/
def reversedPackages : List SymbolSource :=
  sharedPackages.reverse.map fun source =>
    { source with
      classes := source.classes.reverse
      references := source.references.reverse }

/-- Files that share packages can be read backwards. -/
theorem build_reversedPackages :
    Rearranged sharedPackages reversedPackages ∧
      Independent {} (declarations sharedPackages) ∧
      ∃ first second,
        (build { policy := .refuse } {} sharedPackages).result = .ok first ∧
          (build { policy := .refuse } {} reversedPackages).result = .ok second ∧
          first.root.Agrees second.root := by
  have rearranged : Rearranged sharedPackages reversedPackages := by
    refine ⟨sharedPackages.reverse, (List.reverse_perm _).symm, ?_⟩
    rw [reversedPackages, List.forall₂_map_right_iff, List.forall₂_same]
    intro source _
    exact ⟨rfl, (List.reverse_perm _).symm, (List.reverse_perm _).symm⟩
  have independent : Independent {} (declarations sharedPackages) := {
    valid := by decide +kernel
    different := by decide +kernel
    apart := by decide +kernel
    parameters := by decide +kernel
  }
  obtain ⟨_, first, second, returned, otherReturned, _, _, _, _, _, agrees, _⟩ :=
    build_rearranged { policy := .refuse } rearranged independent
  exact ⟨rearranged, independent, first, second, returned, otherReturned, agrees⟩

end Package

end ApkAtlas
