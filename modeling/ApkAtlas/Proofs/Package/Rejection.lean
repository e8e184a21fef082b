import ApkAtlas.Proofs.Package.Content

namespace ApkAtlas

/-!
# Rejected classes

A class is rejected while packages are being made for it, yet nothing of it stays behind:
the walk meets the conflict before anything is missing. So every package of a built tree
has a class in it, no class has anything below it, and a class that is rejected for its
place is in conflict with a class that came before it.
-/

namespace Package

open PackageNode

/-- A rejected class leaves tree, origins and warnings as they were. -/
theorem eq_of_insert_rejected
    {symbols : SymbolMap}
    {policy : DuplicatePolicy}
    {fileName : String}
    {progress next : Progress}
    {declared : ClassSymbols}
    {rejection : ClassName.Rejection}
    (inserted :
      insert symbols policy fileName progress declared =
        .ok (next, .rejected rejection)) :
    next = progress := by
  cases insert_cases inserted
  rfl

/-- One path is a proper beginning of the other. -/
def Nested (first second : List String) : Prop :=
  (first <+: second ∧ first ≠ second) ∨ (second <+: first ∧ second ≠ first)

namespace Contents

variable
  {symbols : SymbolMap}
  {policy : DuplicatePolicy}
  {entries : List Entry}
  {root : PackageNode}

/-- A class in conflict with the tree is in conflict with a class inserted before. -/
theorem exists_nested
    (contents : Contents symbols policy entries root)
    {path : List String}
    (longer : path ≠ [])
    (conflict : Conflict root path) :
    ∃ entry ∈ entries, entry.accepted ∧
      ∃ other,
        ClassName.path? (entry.sourceName symbols) = some other ∧ Nested other path := by
  cases conflict with
  | @classOnTheWay met label _ leading shorter atMet isClass =>
      obtain ⟨entry, member, accepted, split⟩ := contents.exists_accepted atMet isClass
      exact ⟨entry, member, accepted, met, split, .inl ⟨leading, shorter⟩⟩
  | @packageInPlace label atPath isPackage =>
      obtain ⟨entry, member, accepted, other, split, leading, shorter⟩ :=
        contents.packages path label atPath isPackage longer
      exact ⟨entry, member, accepted, other, split, .inr ⟨leading, shorter⟩⟩

/-- Nothing stands below a class. -/
theorem children_eq_nil
    (contents : Contents symbols policy entries root)
    {path : List String}
    {node : PackageNode}
    (found : root.find? path = some node)
    (isClass : node.label.isClass) :
    node.children = [] := by
  rw [List.eq_nil_iff_forall_not_mem]
  intro child member
  have atPath := labelAt?_of_find? found
  have nodeDistinct := contents.distinct.of_find? found
  have atChild : root.labelAt? (path ++ [child.name]) = some child.label := by
    rw [labelAt?, find?_append, found, Option.bind_some, find?_cons,
      nodeDistinct.child?_name member]
    rfl
  obtain ⟨first, firstMember, firstAccepted, firstSplit⟩ :=
    contents.exists_accepted atPath isClass
  have longer := ClassName.path?_ne_nil firstSplit
  have properly : path ≠ path ++ [child.name] := by
    simp
  by_cases childIsClass : child.label.isClass
  · obtain ⟨entry, inEntries, accepted, split⟩ :=
      contents.exists_accepted atChild childIsClass
    exact contents.clear entry inEntries accepted _ split path longer
      (List.prefix_append path _) properly node.label atPath isClass
  · obtain ⟨entry, inEntries, accepted, classPath, split, leading, _⟩ :=
      contents.packages _ child.label atChild childIsClass (by simp)
    refine contents.clear entry inEntries accepted classPath split path longer
      ((List.prefix_append path _).trans leading) ?_ node.label atPath isClass
    rintro rfl
    have tooLong := leading.length_le
    rw [List.length_append, List.length_singleton] at tooLong
    omega

/-- A class stands at or below every node but the root. -/
theorem exists_class_below
    (contents : Contents symbols policy entries root)
    {path : List String}
    {node : PackageNode}
    (found : root.find? path = some node)
    (longer : path ≠ []) :
    ∃ rest label, node.labelAt? rest = some label ∧ label.isClass := by
  by_cases isClass : node.label.isClass
  · exact ⟨[], node.label, rfl, isClass⟩
  · have atPath := labelAt?_of_find? found
    obtain ⟨entry, member, accepted, classPath, split, ⟨rest, rfl⟩, _⟩ :=
      contents.packages path node.label atPath isClass longer
    obtain ⟨classPath, label, split', atClass, labelIsClass⟩ :=
      contents.accepted entry member accepted
    cases split.symm.trans split'
    refine ⟨rest, label, ?_, labelIsClass⟩
    rw [labelAt?, find?_append, found] at atClass
    exact atClass

/-- Every node but the root counts at least one class. -/
theorem one_le_classSum
    (contents : Contents symbols policy entries root)
    {path : List String}
    {node : PackageNode}
    (found : root.find? path = some node)
    (longer : path ≠ []) :
    1 ≤ Metric.classSum .classes node := by
  obtain ⟨rest, label, atRest, isClass⟩ := contents.exists_class_below found longer
  have nodeDistinct := contents.distinct.of_find? found
  have member : (rest, label) ∈ node.classes :=
    List.mem_filter.mpr ⟨nodeDistinct.mem_walk_iff.mpr atRest, isClass⟩
  have positive := List.length_pos_of_mem member
  rw [Metric.classSum_classes]
  omega

end Contents

/-- A rejected class whose name has no empty segment is in conflict with a class that
came before it. -/
theorem Run.exists_nested
    {symbols : SymbolMap}
    {policy : DuplicatePolicy}
    {entries : List Entry}
    {progress : Progress}
    (run : Run symbols policy entries progress)
    {before after : List Entry}
    {entry : Entry}
    (position : entries = before ++ entry :: after)
    (rejected : ¬ entry.accepted)
    {path : List String}
    (split : ClassName.path? (entry.sourceName symbols) = some path) :
    ∃ earlier ∈ before, earlier.accepted ∧
      ∃ other,
        ClassName.path? (earlier.sourceName symbols) = some other ∧
          Nested other path := by
  induction run generalizing after with
  | start =>
      simp at position
  | @step known progress next fileName declared decision run inserted inductionHypothesis =>
      rcases List.eq_nil_or_concat after with rfl | ⟨more, last, rfl⟩
      · obtain ⟨rfl, same⟩ := List.append_inj' position rfl
        cases same
        cases insert_cases inserted with
        | rejected conflict =>
            exact run.contents.exists_nested (ClassName.path?_ne_nil split)
              (conflict path split)
        | added =>
            exact absurd rfl rejected
        | kept =>
            exact absurd rfl rejected
        | replaced =>
            exact absurd rfl rejected
      · rw [List.concat_eq_append, ← List.cons_append, ← List.append_assoc] at position
        exact inductionHypothesis (List.append_inj' position rfl).1

/--
A rejected class leaves no trace and is really in conflict. Its insertion changes nothing,
whatever was inserted before. So every node of a built tree but the root counts a class,
nothing stands below a class, and a class that is rejected although its name has no empty
segment shares the beginning of its path with a class that came before it.
-/
theorem rejection_leaves_no_trace
    (symbols : SymbolMap) :
    (∀ policy fileName progress declared next rejection,
      insert symbols policy fileName progress declared =
          .ok (next, .rejected rejection) →
        next = progress) ∧
      ∀ settings sources result,
        (build settings symbols sources).result = .ok result →
          (∀ path node, (path, node) ∈ result.root.nodes →
            (path ≠ [] → 1 ≤ node.label.totals.classes) ∧
              (node.label.isClass → node.children = [])) ∧
          ∀ before entry after,
            (build settings symbols sources).entries sources =
                before ++ entry :: after →
              ¬ entry.accepted →
              ∀ path, ClassName.path? (entry.sourceName symbols) = some path →
                ∃ earlier ∈ before, earlier.accepted ∧
                  ∃ other,
                    ClassName.path? (earlier.sourceName symbols) = some other ∧
                      Nested other path := by
  refine ⟨fun _ _ _ _ _ _ inserted => eq_of_insert_rejected inserted, ?_⟩
  intro settings sources result returned
  constructor
  · intro path node member
    obtain ⟨root, rolled, contents⟩ := contents_of_result returned
    rw [rolled] at member
    have counted := value_of_mem_nodes_rollUp member .classes
    rw [nodes_rollUp] at member
    obtain ⟨⟨_, before⟩, inTree, same⟩ := List.mem_map.mp member
    cases same
    have found := contents.distinct.mem_nodes_iff.mp inTree
    constructor
    · intro longer
      have positive := contents.one_le_classSum found longer
      rw [← classSum_rollUp, ← counted] at positive
      exact positive
    · intro isClass
      rw [label_rollUp] at isClass
      have childless := contents.children_eq_nil found isClass
      cases before with
      | mk label children =>
          cases childless
          rfl
  · intro before entry after position rejected path split
    obtain ⟨run, _⟩ := run_build (result_eq_ok returned).1
    rw [← Entry.sourceName_symbolsFor settings symbols sources] at split
    simpa only [Entry.sourceName_symbolsFor] using run.exists_nested position rejected split

/-- A class below a class of the overlapping files is rejected wherever it comes, and in
them it is rejected for the class above it. -/
theorem overlappingFiles_leave_no_trace :
    (∃ next rejection,
      insert {} .lastWins "classes3.dex" (build {} {} overlappingFiles).progress
          { name := "p.A.Other" } =
        .ok (next, .rejected rejection) ∧
      next = (build {} {} overlappingFiles).progress) ∧
      ∃ result,
        (build {} {} overlappingFiles).result = .ok result ∧
          (∀ path node, (path, node) ∈ result.root.nodes →
            path ≠ [] → 1 ≤ node.label.totals.classes) ∧
          ∃ earlier : Entry, ∃ other,
            ClassName.path? (earlier.sourceName {}) = some other ∧
              Nested other ["p", "A", "Inner"] := by
  obtain ⟨unchanged, built⟩ := rejection_leaves_no_trace {}
  constructor
  · obtain ⟨next, rejection, inserted⟩ :
        ∃ next rejection,
          insert {} .lastWins "classes3.dex" (build {} {} overlappingFiles).progress
              { name := "p.A.Other" } =
            .ok (next, .rejected rejection) :=
      ⟨_, _, rfl⟩
    exact ⟨next, rejection, inserted, unchanged _ _ _ _ _ _ inserted⟩
  · obtain ⟨result, returned⟩ :
        ∃ result, (build {} {} overlappingFiles).result = .ok result :=
      ⟨_, rfl⟩
    obtain ⟨counted, conflicts⟩ := built {} overlappingFiles result returned
    obtain ⟨earlier, _, _, other, split, nested⟩ :=
      conflicts [_] _ [_] rfl (by decide) ["p", "A", "Inner"] rfl
    exact ⟨result, returned, fun path node member => (counted path node member).1,
      earlier, other, split, nested⟩

end Package

end ApkAtlas
