import ApkAtlas.Proofs.Package.Collisions
import ApkAtlas.Proofs.Package.Outline

namespace ApkAtlas.Package

open PackageNode

/-!
# How a class fits into a tree

Before an insertion changes anything it is known how the class fits: it cannot stand in the
tree, its place is free, or a class of its name stands there. `insert_eq` says what an
insertion does in each case, without the packages that are opened on the way. How a class
fits shows in the outline of the tree, and so does what its insertion leaves behind.
-/

/-- How a class fits into a tree. -/
inductive Fit where
  | defective (defect : ClassName.Defect)
  | free (path : List String)
  | taken (path : List String) (known : NodeLabel)

namespace Fit

/-- How a class fits, with nothing but the name and kind of what stands in its place. -/
def outline : Fit → Fit
  | .defective defect => .defective defect
  | .free path => .free path
  | .taken path known => .taken path known.outline

end Fit

/-- How a class of the given name fits into a tree. -/
def fitOf (root : PackageNode) (name : String) : Fit :=
  match ClassName.path? name with
  | none => .defective .emptySegment
  | some path =>
      match root.defectAt? path, root.labelAt? path with
      | some defect, _ => .defective defect
      | none, none => .free path
      | none, some known => .taken path known

section Fits

variable
  {root : PackageNode}
  {name : String}
  {path : List String}
  {known : NodeLabel}

theorem fitOf_of_path?
    (split : ClassName.path? name = some path) :
    fitOf root name =
      match root.defectAt? path, root.labelAt? path with
      | some defect, _ => .defective defect
      | none, none => .free path
      | none, some known => .taken path known := by
  rw [fitOf, split]

theorem fitOf_outline (root : PackageNode) (name : String) :
    fitOf root.outline name = (fitOf root name).outline := by
  rw [fitOf, fitOf]
  cases ClassName.path? name with
  | none =>
      rfl
  | some path =>
      simp only [defectAt?_outline, labelAt?_outline]
      cases root.defectAt? path with
      | some _ =>
          rfl
      | none =>
          cases root.labelAt? path <;> rfl

/-- What stands in the place of a class is a class of its name. -/
theorem known_of_fitOf_taken
    (taken : fitOf root name = .taken path known) :
    ClassName.path? name = some path ∧
      root.labelAt? path = some known ∧
      known.outline = .ofClass (simpleName name) := by
  rw [fitOf] at taken
  cases split : ClassName.path? name with
  | none =>
      rw [split] at taken
      cases taken
  | some classPath =>
      rw [split] at taken
      cases defective : root.defectAt? classPath with
      | some _ =>
          simp only [defective] at taken
          cases taken
      | none =>
          cases atPath : root.labelAt? classPath with
          | none =>
              simp only [defective, atPath] at taken
              cases taken
          | some found =>
              simp only [defective, atPath] at taken
              cases taken
              have isClass : known.isClass := by
                rw [defectAt?, atPath] at defective
                cases stopped : (openPackages path.dropLast root).2 with
                | some _ =>
                    rw [stopped] at defective
                    cases defective
                | none =>
                    rw [stopped] at defective
                    by_contra isPackage
                    simp only [isPackage, ↓reduceIte] at defective
                    cases defective
              have named := getLast?_of_labelAt? (ClassName.path?_ne_nil split) atPath
              rw [ClassName.getLast?_path split] at named
              refine ⟨rfl, atPath, ?_⟩
              rw [NodeLabel.outline_of_isClass isClass, ← Option.some.inj named]

end Fits

/-- Places a class from a file at a path, with the packages on the way there. -/
def Progress.place
    (progress : Progress)
    (name fileName : String)
    (path : List String)
    (label : NodeLabel) :
    Progress :=
  { progress with
    root := progress.root.withClass path label
    origins := progress.origins.insert name fileName }

section Insertions

variable
  {symbols : SymbolMap}
  {policy : DuplicatePolicy}
  {fileName : String}
  {progress next : Progress}
  {declared : ClassSymbols}
  {decision : Decision}

/-- The file that the class of a name was taken from, which its label knows as well. -/
def Progress.fileOf (progress : Progress) (name : String) (known : NodeLabel) : String :=
  progress.origins[name]?.getD (known.dexFile.getD "")

/-- An insertion goes by how the class fits. -/
theorem insert_eq :
    insert symbols policy fileName progress declared =
      let name := sourceName symbols declared
      match fitOf progress.root name with
      | .defective defect => .ok (progress, .rejected ⟨name, fileName, defect⟩)
      | .free path =>
          (declaredLabel symbols fileName declared).map fun label =>
            (progress.place name fileName path label, .added)
      | .taken path known =>
          let warning := collision policy name (progress.fileOf name known) fileName
          match policy with
          | .refuse => .error (.duplicateClass name (progress.fileOf name known) fileName)
          | .firstWins => .ok (progress.warn warning, .duplicate warning)
          | .lastWins =>
              (declaredLabel symbols fileName declared).map fun label =>
                ((progress.warn warning).place name fileName path label, .duplicate warning) := by
  have asLabelled {Outcome : Type} (written : NodeLabel → Outcome) :
      (do
        let label ← classLabel symbols fileName (Descriptor.className declared.name)
          (symbols.resolveClass (Descriptor.className declared.name)) declared
        return written label) =
        (declaredLabel symbols fileName declared).map written := by
    rw [declaredLabel, sourceName]
    cases classLabel symbols fileName (Descriptor.className declared.name) _ declared <;> rfl
  cases split : ClassName.path? (sourceName symbols declared) with
  | none =>
      have fit : fitOf progress.root (sourceName symbols declared) = .defective .emptySegment := by
        rw [fitOf, split]
      rw [sourceName] at split
      simp only [insert, ClassName.path_eq, split, fit]
      rfl
  | some path =>
      have fit := @fitOf_of_path? progress.root _ _ split
      have longer := ClassName.path?_ne_nil split
      rw [sourceName] at split
      cases walked : openPackages path.dropLast progress.root with
      | mk opened defect? =>
      have opened_eq : (openPackages path.dropLast progress.root).1 = opened := by
        rw [walked]
      have defect_eq : (openPackages path.dropLast progress.root).2 = defect? := by
        rw [walked]
      rw [defectAt?, defect_eq] at fit
      cases defect? with
      | some defect =>
          have unchanged := (openPackages_of_defect defect_eq).1
          rw [opened_eq] at unchanged
          simp only [insert, ClassName.path_eq, split, walked, unchanged, fit]
          rfl
      | none =>
          have atPath := labelAt?_path_openPackages defect_eq longer
          rw [opened_eq] at atPath
          cases found : opened.find? path with
          | none =>
              rw [← atPath, labelAt?, found, Option.map_none] at fit
              simp only [insert, ClassName.path_eq, split, walked, found, fit, Progress.place,
                withClass]
              exact asLabelled _
          | some known =>
              rw [labelAt?_of_find? found] at atPath
              have unchanged := openPackages_of_known atPath.symm
              rw [opened_eq] at unchanged
              rw [unchanged] at found walked
              rw [← atPath] at fit
              by_cases isClass : known.label.isClass
              · simp only [isClass, ↓reduceIte] at fit
                simp only [insert, ClassName.path_eq, split, walked, found, isClass, fit]
                cases policy with
                | refuse =>
                    rfl
                | firstWins =>
                    rfl
                | lastWins =>
                    simp only [Progress.place, withClass, Progress.warn, walked]
                    exact asLabelled _
              · simp only [isClass] at fit
                simp only [insert, ClassName.path_eq, split, walked, found, isClass, fit]
                rfl

/-- What every policy that allows it says of a declared class: why it is rejected, and the
name under which it is declared again. -/
def Decision.gist (decision : Decision) : Option ClassName.Rejection × Option String :=
  (decision.rejection?, decision.warning?.map DuplicateWarning.className)

/-- The outline of a tree after a class was inserted, and the gist of the decision. -/
def effectOn
    (root : PackageNode)
    (name fileName : String) :
    PackageNode × Option ClassName.Rejection × Option String :=
  match fitOf root name with
  | .defective defect => (root, some ⟨name, fileName, defect⟩, none)
  | .free path => (root.withClass path (.ofClass (simpleName name)), none, none)
  | .taken _ _ => (root, none, some name)

theorem outline_declaredLabel
    {label : NodeLabel}
    (labelled : declaredLabel symbols fileName declared = .ok label) :
    label.outline = .ofClass (simpleName (sourceName symbols declared)) := by
  obtain ⟨named, isClass, _⟩ := declaredLabel_eq_ok labelled
  rw [NodeLabel.outline_of_isClass isClass, named]

/-- What an insertion does to the outline of the tree does not depend on the policy. -/
theorem effect_of_insert
    (inserted : insert symbols policy fileName progress declared = .ok (next, decision)) :
    (next.root.outline, decision.gist) =
      effectOn progress.root.outline (sourceName symbols declared) fileName := by
  rw [insert_eq] at inserted
  rw [effectOn, fitOf_outline]
  cases fit : fitOf progress.root (sourceName symbols declared) with
  | defective defect =>
      simp only [fit] at inserted
      cases inserted
      rfl
  | free path =>
      simp only [fit] at inserted
      obtain ⟨label, labelled, placed⟩ := exists_of_map_eq_ok inserted
      cases placed
      rw [Progress.place, withClass_outline, outline_declaredLabel labelled]
      rfl
  | taken path known =>
      obtain ⟨_, atPath, sameName⟩ := known_of_fitOf_taken fit
      simp only [fit] at inserted
      cases policy with
      | refuse =>
          cases inserted
      | firstWins =>
          cases inserted
          rfl
      | lastWins =>
          obtain ⟨label, labelled, placed⟩ := exists_of_map_eq_ok inserted
          cases placed
          have unchanged :
              (progress.root.withClass path label).outline = progress.root.outline :=
            outline_withClass_of_known atPath
              ((outline_declaredLabel labelled).trans sameName.symm)
          rw [Progress.place]
          exact Prod.ext unchanged rfl

end Insertions

end ApkAtlas.Package
