import ApkAtlas.Proofs.Package.Contents
import ApkAtlas.Proofs.Package.Notes
import ApkAtlas.Proofs.Table

namespace ApkAtlas

/-!
# Files that come again

A tree only grows: what stands at a path stays there, as a class or as a package. So a class
that is declared again, in a file of the same name and content, meets the same decision on
whether it is rejected and why, and the table of rejections lists the classes of each file
once: `rejections_of_consistent`.
-/

namespace PackageNode

/-- What stands in the first tree stands in the second one, of the same kind. -/
def Grows (first second : PackageNode) : Prop :=
  ∀ path label, first.labelAt? path = some label →
    ∃ later, second.labelAt? path = some later ∧ later.isClass = label.isClass

namespace Grows

variable {first second third : PackageNode}

theorem refl (node : PackageNode) : node.Grows node :=
  fun _ label atPath => ⟨label, atPath, rfl⟩

theorem trans (grows : first.Grows second) (more : second.Grows third) :
    first.Grows third := by
  intro path label atPath
  obtain ⟨later, atLater, sameKind⟩ := grows path label atPath
  obtain ⟨latest, atLatest, sameKind'⟩ := more path later atLater
  exact ⟨latest, atLatest, sameKind'.trans sameKind⟩

/-- A child stays under its name and grows. -/
theorem exists_child?
    (grows : first.Grows second)
    {name : String}
    {child : PackageNode}
    (found : first.child? name = some child) :
    ∃ later, second.child? name = some later ∧ child.Grows later := by
  have below (rest : List String) (label : NodeLabel)
      (atRest : child.labelAt? rest = some label) :
      ∃ later, second.child? name = some later ∧
        ∃ found, later.labelAt? rest = some found ∧ found.isClass = label.isClass := by
    have atPath : first.labelAt? (name :: rest) = some label := by
      rw [labelAt?_cons, found]
      exact atRest
    obtain ⟨foundLabel, atLater, sameKind⟩ := grows _ label atPath
    rw [labelAt?_cons, Option.bind_eq_some_iff] at atLater
    obtain ⟨later, isLater, atLater⟩ := atLater
    exact ⟨later, isLater, foundLabel, atLater, sameKind⟩
  obtain ⟨later, isLater, _⟩ := below [] child.label rfl
  refine ⟨later, isLater, ?_⟩
  intro rest label atRest
  obtain ⟨_, isLater', foundHere⟩ := below rest label atRest
  cases isLater.symm.trans isLater'
  exact foundHere

/-- A walk that a class stops is stopped by it in any later tree. -/
theorem openPackages_of_defect
    (grows : first.Grows second)
    {path : List String}
    {defect : ClassName.Defect}
    (stopped : (openPackages path first).2 = some defect) :
    (openPackages path second).2 = some defect := by
  induction path generalizing first second with
  | nil =>
      cases stopped
  | cons name rest inductionHypothesis =>
      rw [openPackages] at stopped ⊢
      cases found : first.child? name with
      | none =>
          rw [found] at stopped
          have free : (openPackages rest (ofPackage name)).2 = none :=
            openPackages_of_children_nil rest rfl
          cases free.symm.trans stopped
      | some child =>
          obtain ⟨later, isLater, growsBelow⟩ := grows.exists_child? found
          obtain ⟨_, atTop, sameKind⟩ := growsBelow [] child.label rfl
          cases atTop
          rw [found] at stopped
          rw [isLater]
          by_cases isClass : child.label.isClass
          · simp only [isClass, ↓reduceIte] at stopped
            simp only [sameKind, isClass, ↓reduceIte]
            exact stopped
          · simp only [isClass, Bool.false_eq_true, ↓reduceIte] at stopped
            simp only [sameKind, isClass, Bool.false_eq_true, ↓reduceIte]
            exact inductionHypothesis growsBelow stopped

/-- A walk along packages that are all there goes through in any later tree. -/
theorem openPackages_through
    (grows : first.Grows second)
    {path : List String}
    (present : (first.labelAt? path).isSome)
    (through : (openPackages path first).2 = none) :
    (openPackages path second).2 = none := by
  cases stopped : (openPackages path second).2 with
  | none =>
      rfl
  | some defect =>
      obtain ⟨_, met, some_met, leading, label, atMet, isClass⟩ :=
        PackageNode.openPackages_of_defect stopped
      have reached := labelAt?_isSome_of_prefix leading present
      obtain ⟨before, atBefore⟩ := Option.isSome_iff_exists.mp reached
      obtain ⟨later, atLater, sameKind⟩ := grows met before atBefore
      cases atMet.symm.trans atLater
      rw [sameKind] at isClass
      exact absurd isClass (not_isClass_of_openPackages through some_met leading atBefore)

end Grows

/-- Why a class cannot stand at a path of a tree. -/
def defectAt? (root : PackageNode) (path : List String) : Option ClassName.Defect :=
  match (openPackages path.dropLast root).2, root.labelAt? path with
  | some defect, _ => some defect
  | none, none => none
  | none, some known => if known.isClass then none else some .packageAtClass

/-- A class stands at a path of a tree, with nothing but packages on the way. -/
structure Stands (root : PackageNode) (path : List String) : Prop where
  isClass : ∃ label, root.labelAt? path = some label ∧ label.isClass
  through : (openPackages path.dropLast root).2 = none

section Defects

variable {first second : PackageNode} {path : List String}

/-- A defect at a path stays when the tree grows. -/
theorem Grows.defectAt?_eq_some
    (grows : first.Grows second)
    {defect : ClassName.Defect}
    (defective : first.defectAt? path = some defect) :
    second.defectAt? path = some defect := by
  rw [defectAt?] at defective ⊢
  cases stopped : (openPackages path.dropLast first).2 with
  | some met =>
      rw [stopped] at defective
      rw [grows.openPackages_of_defect stopped]
      exact defective
  | none =>
      rw [stopped] at defective
      cases atPath : first.labelAt? path with
      | none =>
          rw [atPath] at defective
          cases defective
      | some known =>
          rw [atPath] at defective
          obtain ⟨later, atLater, sameKind⟩ := grows path known atPath
          have present : (first.labelAt? path.dropLast).isSome := by
            apply labelAt?_isSome_of_prefix path.dropLast_prefix
            rw [atPath]
            rfl
          rw [grows.openPackages_through present stopped, atLater]
          simp only [sameKind]
          exact defective

/-- A class that stands has no defect later. -/
theorem Stands.defectAt?_eq_none
    (stands : first.Stands path)
    (grows : first.Grows second) :
    second.defectAt? path = none := by
  obtain ⟨label, atPath, isClass⟩ := stands.isClass
  obtain ⟨later, atLater, sameKind⟩ := grows path label atPath
  have present : (first.labelAt? path.dropLast).isSome := by
    apply labelAt?_isSome_of_prefix path.dropLast_prefix
    rw [atPath]
    rfl
  rw [defectAt?, grows.openPackages_through present stands.through, atLater]
  simp only [sameKind, isClass, ↓reduceIte]

end Defects

end PackageNode

namespace Package

open PackageNode

section Insertions

variable
  {symbols : SymbolMap}
  {policy : DuplicatePolicy}
  {fileName : String}
  {progress next : Progress}
  {declared : ClassSymbols}
  {decision : Decision}

/-- A tree grows when a class is placed where no package is. -/
theorem Placed.grows
    {root after : PackageNode}
    {path : List String}
    {label : NodeLabel}
    (placed : Placed root path label after)
    (isClass : label.isClass)
    (free : ∀ known, root.labelAt? path = some known → known.isClass) :
    root.Grows after := by
  intro other found atOther
  rw [placed.labels]
  by_cases same : other = path
  · subst same
    rw [if_pos rfl]
    exact ⟨label, rfl, by rw [isClass, free found atOther]⟩
  · rw [if_neg same, atOther]
    exact ⟨found, rfl, rfl⟩

/-- An insertion lets the tree grow. -/
theorem grows_of_insert
    (inserted : insert symbols policy fileName progress declared = .ok (next, decision)) :
    progress.root.Grows next.root := by
  cases insert_cases inserted with
  | rejected =>
      exact .refl _
  | added _ labelled free placed =>
      apply placed.grows (declaredLabel_eq_ok labelled).2.1
      intro known atPath
      cases free.symm.trans atPath
  | kept =>
      exact .refl _
  | replaced _ _ labelled atPath isClass placed =>
      apply placed.grows (declaredLabel_eq_ok labelled).2.1
      intro known atKnown
      cases atPath.symm.trans atKnown
      exact isClass

/-- A class is rejected exactly for what is wrong with its name or its place. -/
theorem rejection_of_insert
    (inserted : insert symbols policy fileName progress declared = .ok (next, decision)) :
    decision.rejection? =
      match ClassName.path? (sourceName symbols declared) with
      | none => some ⟨sourceName symbols declared, fileName, .emptySegment⟩
      | some path =>
          (progress.root.defectAt? path).map fun defect =>
            ⟨sourceName symbols declared, fileName, defect⟩ := by
  simp only [insert, ClassName.path_eq] at inserted
  cases split : ClassName.path? (sourceName symbols declared) with
  | none =>
      rw [sourceName] at split
      simp only [split] at inserted
      cases inserted
      rfl
  | some path =>
      have longer := ClassName.path?_ne_nil split
      rw [sourceName] at split
      simp only [split] at inserted
      cases walked : openPackages path.dropLast progress.root with
      | mk opened defect? =>
      have through : (openPackages path.dropLast progress.root).2 = defect? := by
        rw [walked]
      simp only [defectAt?, through]
      cases defect? with
      | some _ =>
          simp only [walked] at inserted
          cases inserted
          rfl
      | none =>
          have atPath := labelAt?_path_openPackages through longer
          rw [walked, labelAt?] at atPath
          rw [← atPath]
          simp only [walked] at inserted
          cases found : opened.find? path with
          | none =>
              simp only [found] at inserted
              obtain ⟨_, _, written⟩ := exists_of_bind_eq_ok inserted
              cases written
              rfl
          | some known =>
              simp only [found] at inserted
              by_cases isClass : known.label.isClass
              · simp only [isClass, Bool.not_true, Bool.false_eq_true, ↓reduceIte] at inserted
                simp only [Option.map_some, isClass, ↓reduceIte, Option.map_none]
                cases policy with
                | refuse =>
                    cases inserted
                | firstWins =>
                    cases inserted
                    rfl
                | lastWins =>
                    obtain ⟨_, _, written⟩ := exists_of_bind_eq_ok inserted
                    cases written
                    rfl
              · simp only [isClass, Bool.not_false, ↓reduceIte] at inserted
                cases inserted
                simp only [Option.map_some, isClass, Bool.false_eq_true, ↓reduceIte]
                rfl

/-- A class that was placed stands. -/
theorem Placed.stands
    {root after : PackageNode}
    {path : List String}
    {label : NodeLabel}
    (placed : Placed root path label after)
    (isClass : label.isClass)
    (longer : path ≠ []) :
    after.Stands path where
  isClass := by
    refine ⟨label, ?_, isClass⟩
    rw [placed.labels, if_pos rfl]
  through := by
    cases stopped : (openPackages path.dropLast after).2 with
    | none =>
        rfl
    | some defect =>
        obtain ⟨unchanged, conflict⟩ := conflict_of_defect stopped longer
        cases conflict with
        | classOnTheWay some_met leading shorter atMet metIsClass =>
            rcases placed.labels_cases atMet with ⟨same, _⟩ | ⟨_, old⟩ | ⟨_, made⟩
            · exact absurd same shorter
            · exact absurd metIsClass (placed.clear _ some_met leading shorter _ old)
            · exact absurd metIsClass (not_isClass_freshPackage? made).1
        | packageInPlace atPath isPackage =>
            rw [placed.labels, if_pos rfl] at atPath
            cases atPath
            exact absurd isClass isPackage

/-- A class that was not rejected stands at its path. -/
theorem stands_of_insert
    (inserted : insert symbols policy fileName progress declared = .ok (next, decision))
    (accepted : decision.rejection? = none)
    {path : List String}
    (split : ClassName.path? (sourceName symbols declared) = some path) :
    next.root.Stands path := by
  have longer := ClassName.path?_ne_nil split
  have decided := rejection_of_insert inserted
  rw [accepted, split] at decided
  cases insert_cases inserted with
  | rejected =>
      cases accepted
  | added splitAgain labelled _ placed =>
      cases split.symm.trans splitAgain
      exact placed.stands (declaredLabel_eq_ok labelled).2.1 longer
  | @kept _ known _ _ splitAgain atPath isClass =>
      cases split.symm.trans splitAgain
      refine ⟨⟨known, atPath, isClass⟩, ?_⟩
      cases stopped : (openPackages path.dropLast progress.root).2 with
      | none =>
          exact stopped
      | some _ =>
          simp only [defectAt?, stopped] at decided
          cases decided
  | replaced _ splitAgain labelled _ _ placed =>
      cases split.symm.trans splitAgain
      exact placed.stands (declaredLabel_eq_ok labelled).2.1 longer

/-- A class that comes again is rejected again, for the same reason, or not again. -/
theorem rejection_of_insert_again
    {later final : Progress}
    {again : Decision}
    (inserted : insert symbols policy fileName progress declared = .ok (next, decision))
    (grows : next.root.Grows later.root)
    (insertedAgain : insert symbols policy fileName later declared = .ok (final, again)) :
    again.rejection? = decision.rejection? := by
  have decided := rejection_of_insert inserted
  rw [rejection_of_insert insertedAgain]
  cases split : ClassName.path? (sourceName symbols declared) with
  | none =>
      rw [split] at decided
      exact decided.symm
  | some path =>
      simp only [split] at decided
      rw [decided]
      simp only
      cases defective : progress.root.defectAt? path with
      | some defect =>
          rw [((grows_of_insert inserted).trans grows).defectAt?_eq_some defective]
      | none =>
          rw [defective] at decided
          rw [(stands_of_insert inserted decided split).defectAt?_eq_none grows]

end Insertions

/-! ## Whole files -/

section Files

variable
  {symbols : SymbolMap}
  {policy : DuplicatePolicy}
  {fileName : String}
  {classes : List ClassSymbols}
  {progress next later final : Progress}
  {decisions again : List Decision}

/-- A tree grows when the classes of a file are put into it. -/
theorem grows_of_insertAll
    (through :
      insertAll symbols policy fileName progress classes = (final, decisions, none)) :
    progress.root.Grows final.root := by
  induction classes generalizing progress decisions with
  | nil =>
      cases through
      exact .refl _
  | cons declared rest inductionHypothesis =>
      obtain ⟨_, _, _, inserted, remaining, _⟩ := exists_of_insertAll_cons through
      exact (grows_of_insert inserted).trans (inductionHypothesis remaining)

/-- The classes of a file that comes again are rejected as the first time. -/
theorem rejections_of_insertAll_again
    (through : insertAll symbols policy fileName progress classes = (next, decisions, none))
    (grows : next.root.Grows later.root)
    (throughAgain :
      insertAll symbols policy fileName later classes = (final, again, none)) :
    again.filterMap Decision.rejection? = decisions.filterMap Decision.rejection? := by
  induction classes generalizing progress later decisions again with
  | nil =>
      cases through
      cases throughAgain
      rfl
  | cons declared rest inductionHypothesis =>
      obtain ⟨_, _, _, inserted, remaining, rfl⟩ := exists_of_insertAll_cons through
      obtain ⟨_, _, _, insertedAgain, remainingAgain, rfl⟩ :=
        exists_of_insertAll_cons throughAgain
      have ofFirst :=
        rejection_of_insert_again inserted ((grows_of_insertAll remaining).trans grows)
          insertedAgain
      have ofRest :=
        inductionHypothesis remaining (grows.trans (grows_of_insert insertedAgain))
          remainingAgain
      rw [List.filterMap_cons, List.filterMap_cons, ofFirst, ofRest]

/-- Where each file of a build was read. -/
theorem exists_of_mem_files
    {sources : List SymbolSource}
    (through : (insertSources symbols policy progress sources).stop = none)
    {file : String × List Decision}
    (member : file ∈ (insertSources symbols policy progress sources).files) :
    ∃ source ∈ sources, source.name = file.1 ∧
      ∃ before after,
        progress.root.Grows before.root ∧
          insertAll symbols policy source.name before source.classes =
            (after, file.2, none) := by
  induction sources generalizing progress with
  | nil =>
      cases member
  | cons source rest inductionHypothesis =>
      obtain ⟨next, decisions, inserted, remaining, built⟩ :=
        exists_of_insertSources_cons through
      rw [built] at member
      rcases List.mem_cons.mp member with rfl | inRest
      · exact ⟨source, List.mem_cons_self, rfl, progress, next, .refl _, inserted⟩
      · obtain ⟨found, inSources, named, before, after, grows, insertedThere⟩ :=
          inductionHypothesis remaining inRest
        exact ⟨found, List.mem_cons_of_mem source inSources, named, before, after,
          (grows_of_insertAll inserted).trans grows, insertedThere⟩

/-- Files of one name have the same content. -/
def Consistent (sources : List SymbolSource) : Prop :=
  ∀ first ∈ sources, ∀ second ∈ sources,
    first.name = second.name → first.classes = second.classes

/-- Files of one name and content have the same rejected classes. -/
theorem pairwise_rejectedOf
    {sources : List SymbolSource}
    (through : (insertSources symbols policy progress sources).stop = none)
    (consistent : Consistent sources) :
    (insertSources symbols policy progress sources).files.Pairwise fun first second =>
      first.1 = second.1 → rejectedOf first = rejectedOf second := by
  induction sources generalizing progress with
  | nil =>
      exact .nil
  | cons source rest inductionHypothesis =>
      obtain ⟨next, decisions, inserted, remaining, built⟩ :=
        exists_of_insertSources_cons through
      have ofRest : Consistent rest := fun first inFirst second inSecond =>
        consistent first (List.mem_cons_of_mem source inFirst) second
          (List.mem_cons_of_mem source inSecond)
      rw [built]
      refine .cons ?_ (inductionHypothesis remaining ofRest)
      intro file member sameName
      obtain ⟨again, inRest, named, before, after, grows, insertedAgain⟩ :=
        exists_of_mem_files remaining member
      have sameClasses : source.classes = again.classes :=
        consistent source List.mem_cons_self again (List.mem_cons_of_mem source inRest)
          (sameName.trans named.symm)
      rw [← sameClasses, named, ← sameName] at insertedAgain
      rw [rejectedOf, rejectedOf, ← sameName,
        rejections_of_insertAll_again inserted grows insertedAgain]

/-- A build of files of which those of one name have the same content lists the rejected
classes of each of its files that has some, and those of a file that comes again once. -/
theorem rejections_of_consistent
    {sources : List SymbolSource}
    (through : (insertSources symbols policy progress sources).stop = none)
    (consistent : Consistent sources) :
    (insertSources symbols policy progress sources).rejections =
      (((insertSources symbols policy progress sources).files.map rejectedOf).filter
        fun file => !file.2.isEmpty).eraseDups := by
  rw [Build.rejections_eq_foldl]
  apply Table.foldl_put_eq_eraseDups
  apply List.Pairwise.filter
  rw [List.pairwise_map]
  exact pairwise_rejectedOf through consistent

end Files

end Package

end ApkAtlas
