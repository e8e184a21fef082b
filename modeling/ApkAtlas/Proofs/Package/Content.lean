import ApkAtlas.Proofs.Package.Contents
import ApkAtlas.Proofs.Package.Totals

namespace ApkAtlas

/-!
# The classes of a built tree

The class nodes of a built tree are the declared classes that were not rejected, once
each and with the data of the declaration that the policy keeps. References alone make no
node.
-/

namespace PackageNode

/-- The qualified names of the class nodes of a tree, in preorder. -/
def classNames (node : PackageNode) : List String :=
  node.classes.map fun entry => qualifiedName entry.1

theorem Distinct.nodup_class_paths
    {node : PackageNode}
    (distinct : node.Distinct) :
    (node.classes.map Prod.fst).Nodup := by
  have walkPaths : (node.walk.map Prod.fst).Nodup := by
    rw [walk_eq_map, List.map_map]
    exact distinct.nodup_paths
  exact (List.filter_sublist.map Prod.fst).nodup walkPaths

end PackageNode

namespace Package

open PackageNode

/-- What the tree of a build that returns contains. -/
theorem contents_of_result
    {settings : BuildSettings}
    {symbols : SymbolMap}
    {sources : List SymbolSource}
    {result : BuildResult}
    (returned : (build settings symbols sources).result = .ok result) :
    ∃ root,
      result.root = root.rollUp ∧
        Contents (settings.symbolsFor symbols sources) settings.policy
          ((build settings symbols sources).entries sources) root := by
  obtain ⟨through, rolled⟩ := result_eq_ok returned
  exact ⟨_, rolled, (run_build through).1.contents⟩

namespace Contents

variable
  {symbols : SymbolMap}
  {policy : DuplicatePolicy}
  {entries : List Entry}
  {root : PackageNode}

theorem mem_classes_rollUp
    (contents : Contents symbols policy entries root)
    {path : List String}
    {label : NodeLabel}
    (member : (path, label) ∈ root.rollUp.classes) :
    ∃ before, root.labelAt? path = some before ∧ before.isClass ∧
      label = { before with totals := label.totals } := by
  obtain ⟨visited, isClass⟩ := List.mem_filter.mp member
  obtain ⟨before, atPath, same⟩ :=
    labelAt?_rollUp (contents.distinct.rollUp.mem_walk_iff.mp visited)
  refine ⟨before, atPath, ?_, same⟩
  rw [same] at isClass
  exact isClass

/-- The path of a class node spells the name of a class that was not rejected. -/
theorem exists_accepted_of_class
    (contents : Contents symbols policy entries root)
    {path : List String}
    {label : NodeLabel}
    (member : (path, label) ∈ root.rollUp.classes) :
    ∃ entry ∈ entries, entry.accepted ∧
      ClassName.path? (entry.sourceName symbols) = some path ∧
        entry.sourceName symbols = qualifiedName path := by
  obtain ⟨before, atPath, isClass, _⟩ := contents.mem_classes_rollUp member
  obtain ⟨entry, inEntries, accepted, split⟩ := contents.exists_accepted atPath isClass
  exact ⟨entry, inEntries, accepted, split, (ClassName.qualifiedName_path split).symm⟩

/-- The class nodes are named as the classes that were not rejected. -/
theorem mem_classNames_iff
    (contents : Contents symbols policy entries root)
    {name : String} :
    name ∈ root.rollUp.classNames ↔
      ∃ entry ∈ entries, entry.accepted ∧ entry.sourceName symbols = name := by
  constructor
  · intro member
    obtain ⟨⟨path, label⟩, inClasses, rfl⟩ := List.mem_map.mp member
    obtain ⟨entry, inEntries, accepted, _, spelled⟩ :=
      contents.exists_accepted_of_class inClasses
    exact ⟨entry, inEntries, accepted, spelled⟩
  · rintro ⟨entry, inEntries, accepted, rfl⟩
    obtain ⟨path, label, split, atPath, isClass⟩ :=
      contents.accepted entry inEntries accepted
    obtain ⟨totals, atRolled⟩ := exists_labelAt?_rollUp atPath
    refine List.mem_map.mpr ⟨(path, { label with totals }), ?_, ?_⟩
    · exact List.mem_filter.mpr
        ⟨contents.distinct.rollUp.mem_walk_iff.mpr atRolled, isClass⟩
    · exact ClassName.qualifiedName_path split

theorem nodup_classNames (contents : Contents symbols policy entries root) :
    root.rollUp.classNames.Nodup := by
  have paths := contents.distinct.rollUp.nodup_class_paths
  have named :
      root.rollUp.classNames = (root.rollUp.classes.map Prod.fst).map qualifiedName := by
    rw [classNames, List.map_map]
    rfl
  rw [named]
  apply paths.map_on
  intro first firstMember second secondMember sameName
  obtain ⟨⟨_, _⟩, firstClass, rfl⟩ := List.mem_map.mp firstMember
  obtain ⟨⟨_, _⟩, secondClass, rfl⟩ := List.mem_map.mp secondMember
  obtain ⟨firstEntry, _, _, firstSplit, firstName⟩ :=
    contents.exists_accepted_of_class firstClass
  obtain ⟨secondEntry, _, _, secondSplit, secondName⟩ :=
    contents.exists_accepted_of_class secondClass
  have sameEntry : firstEntry.sourceName symbols = secondEntry.sourceName symbols :=
    firstName.trans (sameName.trans secondName.symm)
  rw [sameEntry] at firstSplit
  exact Option.some.inj (firstSplit.symm.trans secondSplit)

/-- Every node stands at or on the way to a class that was not rejected. -/
theorem exists_accepted_below
    (contents : Contents symbols policy entries root)
    {path : List String}
    {label : NodeLabel}
    (visited : (path, label) ∈ root.rollUp.walk)
    (longer : path ≠ []) :
    ∃ entry ∈ entries, entry.accepted ∧
      ∃ classPath,
        ClassName.path? (entry.sourceName symbols) = some classPath ∧
          path <+: classPath := by
  obtain ⟨before, atPath, _⟩ :=
    labelAt?_rollUp (contents.distinct.rollUp.mem_walk_iff.mp visited)
  by_cases isClass : before.isClass
  · obtain ⟨entry, member, accepted, split⟩ := contents.exists_accepted atPath isClass
    exact ⟨entry, member, accepted, path, split, List.prefix_refl path⟩
  · obtain ⟨entry, member, accepted, classPath, split, leading, _⟩ :=
      contents.packages path before atPath isClass longer
    exact ⟨entry, member, accepted, classPath, split, leading⟩

/-- A class node has the label of the kept declaration of its name. -/
theorem exists_kept_of_class
    (contents : Contents symbols policy entries root)
    {path : List String}
    {label : NodeLabel}
    (member : (path, label) ∈ root.rollUp.classes) :
    ∃ entry before,
      keptDeclaration? symbols policy (qualifiedName path) entries = some entry ∧
        declaredLabel symbols entry.fileName entry.declared = .ok before ∧
        label = { before with totals := label.totals } := by
  obtain ⟨before, atPath, isClass, same⟩ := contents.mem_classes_rollUp member
  obtain ⟨name, entry, split, kept, labelled⟩ :=
    contents.classes path before atPath isClass
  refine ⟨entry, before, ?_, labelled, same⟩
  rw [ClassName.qualifiedName_path split]
  exact kept

end Contents

theorem keptDeclaration?_symbolsFor
    (settings : BuildSettings)
    (symbols : SymbolMap)
    (sources : List SymbolSource) :
    keptDeclaration? (settings.symbolsFor symbols sources) = keptDeclaration? symbols := by
  funext policy name entries
  simp only [keptDeclaration?, entriesNamed, Entry.sourceName_symbolsFor]

/--
The content of a built tree, with the decisions on all declared classes: its class nodes
are named as the classes that were not rejected, each once; every node stands at or on
the way to such a class; and a class node has the counts and files of the declaration
that the policy keeps.
-/
theorem content_of_build
    {settings : BuildSettings}
    {symbols : SymbolMap}
    {sources : List SymbolSource}
    {result : BuildResult}
    (returned : (build settings symbols sources).result = .ok result) :
    let entries := (build settings symbols sources).entries sources
    entries.map Entry.declaration = declarations sources ∧
      (∀ name,
        name ∈ result.root.classNames ↔
          ∃ entry ∈ entries, entry.accepted ∧ entry.sourceName symbols = name) ∧
      result.root.classNames.Nodup ∧
      (∀ path label, (path, label) ∈ result.root.walk → path ≠ [] →
        ∃ entry ∈ entries, entry.accepted ∧
          ∃ classPath,
            ClassName.path? (entry.sourceName symbols) = some classPath ∧
              path <+: classPath) ∧
      ∀ path label, (path, label) ∈ result.root.classes →
        ∃ entry,
          keptDeclaration? symbols settings.policy (qualifiedName path) entries = some entry ∧
            label.own.methods = entry.declared.methods.length ∧
            label.own.fields = entry.declared.fields.length ∧
            label.dexFile = some entry.fileName ∧
            label.sourceFile = entry.declared.sourceFile := by
  intro entries
  obtain ⟨root, rolled, contents⟩ := contents_of_result returned
  rw [rolled]
  refine ⟨(run_build (result_eq_ok returned).1).2, ?_, contents.nodup_classNames, ?_, ?_⟩
  · intro name
    simpa only [Entry.sourceName_symbolsFor] using contents.mem_classNames_iff
  · intro path label visited longer
    simpa only [Entry.sourceName_symbolsFor] using
      contents.exists_accepted_below visited longer
  · intro path label member
    obtain ⟨entry, before, kept, labelled, same⟩ := contents.exists_kept_of_class member
    rw [keptDeclaration?_symbolsFor] at kept
    obtain ⟨_, _, methods, fields, dexFile, sourceFile⟩ := declaredLabel_eq_ok labelled
    rw [same]
    exact ⟨entry, kept, methods, fields, dexFile, sourceFile⟩

/-- Two files that declare one class, and a class below it that is rejected. -/
def overlappingFiles : List SymbolSource :=
  [ { name := "classes.dex"
      classes :=
        [ { name := "Lp/A;", methods := ["m()V", "n()V"], fields := ["x:I"] },
          { name := "p.A.Inner" } ]
      references := [{ className := "Lq/B;", signature := "m()V" }] },
    { name := "classes2.dex"
      classes := [{ name := "p.A", methods := ["m()V"] }] } ]

/-- Of overlapping files the shared class is built, once, and nothing else. -/
theorem content_of_overlappingFiles :
    ∃ result,
      (build { policy := .lastWins } {} overlappingFiles).result = .ok result ∧
        "p.A" ∈ result.root.classNames ∧
        "q.B" ∉ result.root.classNames ∧
        result.root.classNames.Nodup := by
  obtain ⟨result, returned⟩ :
      ∃ result, (build { policy := .lastWins } {} overlappingFiles).result = .ok result :=
    ⟨_, rfl⟩
  obtain ⟨_, named, once, _⟩ := content_of_build returned
  refine ⟨result, returned, ?_, ?_, once⟩
  · rw [named]
    exact ⟨_, List.mem_cons_self, rfl, rfl⟩
  · rw [named]
    decide +kernel

end Package

end ApkAtlas
