import ApkAtlas.Package.Build
import ApkAtlas.Proofs.Except
import ApkAtlas.Proofs.Package.Placement
import ApkAtlas.Proofs.Text.Segment

namespace ApkAtlas

/-!
# What inserting a class can do

`Package.insert` has four ways to succeed: it rejects the class and leaves everything as
it was, it adds a class, or it meets the class again and keeps or replaces it.
`insert_cases` says for each of them what it needs and what becomes of the labels of the
tree; later proofs go by these cases and do not open `insert` again.
-/

namespace ClassName

/-- The segments of a name, when none of them is empty. -/
theorem path?_eq_some
    {name : String}
    {path : List String}
    (split : path? name = some path) :
    path = Text.split '.' name ∧ ∀ segment ∈ path, segment ≠ "" := by
  simp only [path?] at split
  split at split
  · cases split
  · cases split
    refine ⟨rfl, ?_⟩
    rename_i noneEmpty
    intro segment member empty
    apply noneEmpty
    exact List.any_eq_true.mpr ⟨segment, member, by simp [empty]⟩

theorem path?_ne_nil
    {name : String}
    {path : List String}
    (split : path? name = some path) :
    path ≠ [] := by
  rw [(path?_eq_some split).1, Text.split]
  simpa using Text.segments_ne_nil '.' name.toList

/-- The path of a class spells its name. -/
theorem qualifiedName_path
    {name : String}
    {path : List String}
    (split : path? name = some path) :
    PackageNode.qualifiedName path = name := by
  rw [(path?_eq_some split).1]
  exact Text.join_split '.' name

/-- The last segment of a class is its simple name. -/
theorem getLast?_path
    {name : String}
    {path : List String}
    (split : path? name = some path) :
    path.getLast? = some (Package.simpleName name) := by
  rw [(path?_eq_some split).1, Text.split, List.getLast?_map, Text.getLast?_segments]
  rfl

theorem path_eq (name fileName : String) :
    path name fileName =
      match path? name with
      | some segments => .ok segments
      | none => .error ⟨name, fileName, .emptySegment⟩ :=
  rfl

end ClassName

namespace Package

open PackageNode

/-- The source name under which a declared class goes into the tree. -/
def sourceName (symbols : SymbolMap) (declared : ClassSymbols) : String :=
  symbols.resolveClass (Descriptor.className declared.name)

/-- The label that a declared class gets. -/
def declaredLabel
    (symbols : SymbolMap)
    (fileName : String)
    (declared : ClassSymbols) :
    Except BuildError NodeLabel :=
  classLabel symbols fileName (Descriptor.className declared.name)
    (sourceName symbols declared) declared

theorem mem_distinct {signatures : List String} {signature : String} :
    signature ∈ distinct signatures ↔ signature ∈ signatures := by
  rw [distinct, Std.ExtTreeSet.mem_toList, Std.ExtTreeSet.mem_ofList, List.contains_iff_mem]

/-- The label of a class has the counts of its declaration. -/
theorem exists_counts_of_declaredLabel
    {symbols : SymbolMap}
    {fileName : String}
    {declared : ClassSymbols}
    {label : NodeLabel}
    (labelled : declaredLabel symbols fileName declared = .ok label) :
    ∃ methods fields,
      countReferenced symbols .method (Descriptor.className declared.name)
          (sourceName symbols declared) (distinct declared.methods) = .ok methods ∧
        countReferenced symbols .field (Descriptor.className declared.name)
          (sourceName symbols declared) (distinct declared.fields) = .ok fields ∧
        label = {
          name := simpleName (sourceName symbols declared)
          kind := .classNode
          own := ⟨declared.methods.length, declared.fields.length, methods, fields⟩
          dexFile := some fileName
          sourceFile := declared.sourceFile } := by
  obtain ⟨methods, countedMethods, rest⟩ := exists_of_bind_eq_ok labelled
  obtain ⟨fields, countedFields, label_eq⟩ := exists_of_bind_eq_ok rest
  cases label_eq
  exact ⟨methods, fields, countedMethods, countedFields, rfl⟩

/-- What the label of a declared class says about its place and its origin. -/
theorem declaredLabel_eq_ok
    {symbols : SymbolMap}
    {fileName : String}
    {declared : ClassSymbols}
    {label : NodeLabel}
    (labelled : declaredLabel symbols fileName declared = .ok label) :
    label.name = simpleName (sourceName symbols declared) ∧
      label.isClass ∧
      label.own.methods = declared.methods.length ∧
      label.own.fields = declared.fields.length ∧
      label.dexFile = some fileName ∧
      label.sourceFile = declared.sourceFile := by
  obtain ⟨_, _, _, _, rfl⟩ := exists_counts_of_declaredLabel labelled
  exact ⟨rfl, rfl, rfl, rfl, rfl, rfl⟩

/-- A class cannot stand at a path: a class stands on the way there, or a package in its
place. -/
inductive Conflict (root : PackageNode) (path : List String) : Prop where
  | classOnTheWay
      {met : List String}
      {label : NodeLabel} :
      met ≠ [] →
      met <+: path →
      met ≠ path →
      root.labelAt? met = some label →
      label.isClass →
      Conflict root path
  | packageInPlace
      {label : NodeLabel} :
      root.labelAt? path = some label →
      ¬ label.isClass →
      Conflict root path

/-- A tree after a class was written at the end of a path on which no class stands. -/
structure Placed
    (root : PackageNode)
    (path : List String)
    (label : NodeLabel)
    (next : PackageNode) : Prop where
  labels :
    ∀ other,
      next.labelAt? other =
        if other = path then some label
        else (root.labelAt? other).or (freshPackage? path other)
  distinct : root.Distinct → next.Distinct
  clear :
    ∀ met, met ≠ [] → met <+: path → met ≠ path →
      ∀ known, root.labelAt? met = some known → ¬ known.isClass

/-- What inserting a class can lead to. -/
inductive Insertion
    (symbols : SymbolMap)
    (policy : DuplicatePolicy)
    (fileName : String)
    (declared : ClassSymbols)
    (progress : Progress) :
    Progress → Decision → Prop where
  | rejected
      {rejection : ClassName.Rejection} :
      (∀ path, ClassName.path? (sourceName symbols declared) = some path →
        Conflict progress.root path) →
      Insertion symbols policy fileName declared progress progress (.rejected rejection)
  | added
      {path : List String}
      {label : NodeLabel}
      {next : Progress} :
      ClassName.path? (sourceName symbols declared) = some path →
      declaredLabel symbols fileName declared = .ok label →
      progress.root.labelAt? path = none →
      Placed progress.root path label next.root →
      Insertion symbols policy fileName declared progress next .added
  | kept
      {path : List String}
      {known : NodeLabel}
      {warning : DuplicateWarning} :
      policy = .firstWins →
      ClassName.path? (sourceName symbols declared) = some path →
      progress.root.labelAt? path = some known →
      known.isClass →
      Insertion symbols policy fileName declared progress (progress.warn warning)
        (.duplicate warning)
  | replaced
      {path : List String}
      {known label : NodeLabel}
      {warning : DuplicateWarning}
      {next : Progress} :
      policy = .lastWins →
      ClassName.path? (sourceName symbols declared) = some path →
      declaredLabel symbols fileName declared = .ok label →
      progress.root.labelAt? path = some known →
      known.isClass →
      Placed progress.root path label next.root →
      Insertion symbols policy fileName declared progress next (.duplicate warning)

theorem prefix_dropLast
    {met path : List String}
    (leading : met <+: path)
    (shorter : met ≠ path) :
    met <+: path.dropLast := by
  obtain ⟨rest, rfl⟩ := leading
  have more : rest ≠ [] := by
    rintro rfl
    exact shorter (List.append_nil met).symm
  rw [List.dropLast_append_of_ne_nil more]
  exact List.prefix_append met rest.dropLast

/-- What is made on the way to a package is made on the way to a class in it too. -/
theorem freshPackage?_dropLast_or (path other : List String) :
    (freshPackage? path.dropLast other).or (freshPackage? path other) =
      freshPackage? path other := by
  by_cases leading : other <+: path.dropLast
  · have longer := leading.trans path.dropLast_prefix
    simp [freshPackage?, leading, longer]
  · simp [freshPackage?, leading]

theorem placed_putClass
    {root : PackageNode}
    {path : List String}
    {label : NodeLabel}
    (through : (openPackages path.dropLast root).2 = none)
    (named : path.getLast? = some label.name) :
    Placed root path label ((openPackages path.dropLast root).1.putClass label path) where
  labels other := by
    rw [labelAt?_putClass named, labelAt?_openPackages through, Option.or_assoc,
      freshPackage?_dropLast_or]
  distinct distinct :=
    (distinct.openPackages path.dropLast).putClass named
  clear met longer leading shorter known atMet :=
    not_isClass_of_openPackages through longer (prefix_dropLast leading shorter) atMet

/-- A walk to a package makes nothing at the path of a class in it. -/
theorem labelAt?_path_openPackages
    {root : PackageNode}
    {path : List String}
    (through : (openPackages path.dropLast root).2 = none)
    (longer : path ≠ []) :
    (openPackages path.dropLast root).1.labelAt? path = root.labelAt? path := by
  have notOnTheWay : ¬ path <+: path.dropLast := by
    intro leading
    have shorter := leading.length_le
    have positive := List.length_pos_iff.mpr longer
    rw [List.length_dropLast] at shorter
    omega
  rw [labelAt?_openPackages through, freshPackage?, if_neg notOnTheWay, Option.or_none]

/-- Where something stands at the path of a class already, a walk to its package makes
nothing. -/
theorem openPackages_of_known
    {root : PackageNode}
    {path : List String}
    {known : NodeLabel}
    (atPath : root.labelAt? path = some known) :
    (openPackages path.dropLast root).1 = root := by
  apply openPackages_of_present
  apply labelAt?_isSome_of_prefix path.dropLast_prefix
  rw [atPath]
  rfl

/-- A class on the way to the package of a class is in conflict with the class. -/
theorem conflict_of_defect
    {root : PackageNode}
    {path : List String}
    {defect : ClassName.Defect}
    (stopped : (openPackages path.dropLast root).2 = some defect)
    (longer : path ≠ []) :
    (openPackages path.dropLast root).1 = root ∧ Conflict root path := by
  obtain ⟨unchanged, met, some_met, leading, label, atMet, isClass⟩ :=
    openPackages_of_defect stopped
  refine ⟨unchanged, .classOnTheWay some_met (leading.trans path.dropLast_prefix) ?_ atMet isClass⟩
  rintro rfl
  have shorter := leading.length_le
  have positive := List.length_pos_iff.mpr longer
  rw [List.length_dropLast] at shorter
  omega

/-- A class with a label is placed by a walk that goes through. -/
theorem placed_of_declaredLabel
    {symbols : SymbolMap}
    {fileName : String}
    {declared : ClassSymbols}
    {root : PackageNode}
    {path : List String}
    {label : NodeLabel}
    (split : ClassName.path? (sourceName symbols declared) = some path)
    (labelled : declaredLabel symbols fileName declared = .ok label)
    (through : (openPackages path.dropLast root).2 = none) :
    Placed root path label ((openPackages path.dropLast root).1.putClass label path) := by
  apply placed_putClass through
  rw [ClassName.getLast?_path split, (declaredLabel_eq_ok labelled).1]

/-- Every insertion that succeeds is one of the four kinds. -/
theorem insert_cases
    {symbols : SymbolMap}
    {policy : DuplicatePolicy}
    {fileName : String}
    {progress next : Progress}
    {declared : ClassSymbols}
    {decision : Decision}
    (inserted :
      insert symbols policy fileName progress declared = .ok (next, decision)) :
    Insertion symbols policy fileName declared progress next decision := by
  simp only [insert, ClassName.path_eq] at inserted
  cases split : ClassName.path? (sourceName symbols declared) with
  | none =>
      rw [sourceName] at split
      simp only [split] at inserted
      cases inserted
      exact .rejected fun path impossible => nomatch split.symm.trans impossible
  | some path =>
      have longer := ClassName.path?_ne_nil split
      have rejected
          {rejection : ClassName.Rejection}
          (conflict : Conflict progress.root path) :
          Insertion symbols policy fileName declared progress progress
            (.rejected rejection) := by
        apply Insertion.rejected
        intro other splitOther
        cases split.symm.trans splitOther
        exact conflict
      have nameSplit := split
      rw [sourceName] at nameSplit
      simp only [nameSplit] at inserted
      cases walked : openPackages path.dropLast progress.root with
      | mk opened defect? =>
      have opened_eq : (openPackages path.dropLast progress.root).1 = opened := by
        rw [walked]
      have defect_eq : (openPackages path.dropLast progress.root).2 = defect? := by
        rw [walked]
      cases defect? with
      | some defect =>
          obtain ⟨unchanged, conflict⟩ := conflict_of_defect defect_eq longer
          rw [opened_eq] at unchanged
          simp only [walked, unchanged] at inserted
          cases inserted
          exact rejected conflict
      | none =>
          have atPath := labelAt?_path_openPackages defect_eq longer
          rw [opened_eq, labelAt?] at atPath
          simp only [walked] at inserted
          cases found : opened.find? path with
          | none =>
              simp only [found] at inserted atPath
              obtain ⟨label, labelled, written⟩ := exists_of_bind_eq_ok inserted
              have placed := placed_of_declaredLabel split labelled defect_eq
              rw [opened_eq] at placed
              cases written
              exact .added split labelled atPath.symm placed
          | some known =>
              simp only [found, Option.map_some] at inserted atPath
              have unchanged := openPackages_of_known atPath.symm
              rw [opened_eq] at unchanged
              by_cases isClass : known.label.isClass
              · simp only [isClass, Bool.not_true, Bool.false_eq_true, ↓reduceIte]
                  at inserted
                cases policy with
                | refuse =>
                    cases inserted
                | firstWins =>
                    rw [unchanged] at inserted
                    cases inserted
                    exact .kept rfl split atPath.symm isClass
                | lastWins =>
                    obtain ⟨label, labelled, written⟩ := exists_of_bind_eq_ok inserted
                    have placed := placed_of_declaredLabel split labelled defect_eq
                    rw [opened_eq] at placed
                    cases written
                    exact .replaced rfl split labelled atPath.symm isClass placed
              · simp only [isClass, Bool.not_false, ↓reduceIte] at inserted
                rw [unchanged] at inserted
                cases inserted
                exact rejected (.packageInPlace atPath.symm isClass)

end Package

end ApkAtlas
