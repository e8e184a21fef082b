import ApkAtlas.Package.Summary
import ApkAtlas.Proofs.Package.Content

namespace ApkAtlas

/-!
# Summaries show the tree down to their depth

A summary without a depth has an entry for each node, in the order and at the path of the node.
A depth cuts off what lies deeper and changes nothing else, so the totals of an entry stay those
of the whole tree below its node, and where children are shown they add up to their package.
-/

namespace PackageSummary

/-- An entry without the entries below it. -/
def alone (summary : PackageSummary) : PackageSummary :=
  { summary with children := [] }

mutual

/-- A summary and all summaries inside it with their paths, in preorder. -/
def parts : PackageSummary → List (List String × PackageSummary)
  | ⟨name, kind, totals, dexFile, children⟩ =>
      ([], ⟨name, kind, totals, dexFile, children⟩) :: partsBelow children

/-- The parts of summaries that share a parent, with their paths from the parent. -/
def partsBelow : List PackageSummary → List (List String × PackageSummary)
  | [] => []
  | child :: rest =>
      child.parts.map (fun part => (child.name :: part.1, part.2)) ++ partsBelow rest

end

/-- The entries of a summary with their paths, in preorder. -/
def entries (summary : PackageSummary) : List (List String × PackageSummary) :=
  summary.parts.map fun part => (part.1, part.2.alone)

/-- A summary without what lies more than so many levels below its top. -/
def truncated : Nat → PackageSummary → PackageSummary
  | 0, summary => summary.alone
  | levels + 1, summary => { summary with children := summary.children.map (truncated levels) }

/-- The parts below some children are those of each child, under its name. -/
theorem partsBelow_eq_flatMap (children : List PackageSummary) :
    partsBelow children =
      children.flatMap fun child =>
        child.parts.map fun part => (child.name :: part.1, part.2) := by
  induction children with
  | nil =>
      rfl
  | cons child rest inductionHypothesis =>
      rw [partsBelow, inductionHypothesis, List.flatMap_cons]

/-- The parts of a summary are itself and those below it. -/
theorem parts_eq (summary : PackageSummary) :
    summary.parts = ([], summary) :: partsBelow summary.children := by
  cases summary
  rw [parts]

/-- Below its top a summary has the entries of its children, each under the child's name. -/
theorem entries_eq (summary : PackageSummary) :
    summary.entries =
      ([], summary.alone) ::
        summary.children.flatMap fun child =>
          child.entries.map fun entry => (child.name :: entry.1, entry.2) := by
  rw [entries, parts_eq, List.map_cons, partsBelow_eq_flatMap, List.map_flatMap]
  simp only [entries, List.map_map, Function.comp_def]

@[simp] theorem name_truncated (levels : Nat) (summary : PackageSummary) :
    (truncated levels summary).name = summary.name := by
  cases levels <;> rfl

/-- What is left of a summary are its entries that lie high enough, as they were. -/
theorem entries_truncated (levels : Nat) (summary : PackageSummary) :
    (truncated levels summary).entries =
      summary.entries.filter fun entry => entry.1.length ≤ levels := by
  induction levels generalizing summary with
  | zero =>
      have deeper :
          (summary.children.flatMap fun child =>
              child.entries.map fun entry => (child.name :: entry.1, entry.2)).filter
            (fun entry => decide (entry.1.length ≤ 0)) = [] := by
        rw [List.filter_eq_nil_iff]
        intro entry member
        obtain ⟨child, _, inChild⟩ := List.mem_flatMap.mp member
        obtain ⟨below, _, rfl⟩ := List.mem_map.mp inChild
        simp
      rw [truncated, entries_eq, entries_eq summary, List.filter_cons_of_pos (by simp), deeper]
      rfl
  | succ levels inductionHypothesis =>
      rw [truncated, entries_eq, entries_eq summary, List.filter_cons_of_pos (by simp)]
      congr 1
      rw [List.filter_flatMap, List.flatMap_map]
      apply List.flatMap_congr
      intro child _
      rw [name_truncated, inductionHypothesis, List.filter_map]
      congr 2
      funext entry
      simp

end PackageSummary

namespace PackageNode

section Shape

theorem summaries_eq_map (depth : Option Int) (nodes : List PackageNode) :
    summaries depth nodes = nodes.map (summary depth) := by
  induction nodes with
  | nil =>
      rfl
  | cons node rest inductionHypothesis =>
      rw [summaries, inductionHypothesis, List.map_cons]

/-- A summary goes on to the children as long as the depth allows. -/
theorem summary_eq (depth : Option Int) (node : PackageNode) :
    node.summary depth =
      node.label.summary
        (if Package.goesOn depth then node.children.map (summary (Package.nextDepth depth))
        else []) := by
  cases node with
  | mk label children =>
      rw [summary, summaries_eq_map]

/-- Without a limit a summary goes down to the leaves. -/
theorem summary_unlimited (node : PackageNode) :
    node.summary none = node.label.summary (node.children.map (summary none)) :=
  summary_eq none node

/-- At depth zero a summary has no children. -/
theorem summary_zero (node : PackageNode) : node.summary (some 0) = node.label.summary [] :=
  summary_eq (some 0) node

/-- At a greater depth the children are summarised with one level less. -/
theorem summary_succ (levels : Nat) (node : PackageNode) :
    node.summary (some (levels + 1 : Nat)) =
      node.label.summary (node.children.map (summary (some levels))) := by
  have goesOn : Package.goesOn (some (levels + 1 : Nat)) := by
    simp [Package.goesOn]
  have next : Package.nextDepth (some (levels + 1 : Nat)) = some (levels : Int) := by
    simp [Package.nextDepth]
  rw [summary_eq, if_pos goesOn, next]

@[simp] theorem name_summary (depth : Option Int) (node : PackageNode) :
    (node.summary depth).name = node.name := by
  rw [summary_eq]
  rfl

/-- A summary shows all children of a node or none. -/
theorem children_summary (depth : Option Int) (node : PackageNode) :
    (node.summary depth).children =
      if Package.goesOn depth then node.children.map (summary (Package.nextDepth depth))
      else [] := by
  rw [summary_eq]
  rfl

/-- Each child of a summary is the summary of a child. -/
theorem exists_child_of_mem_summary
    {depth : Option Int}
    {node : PackageNode}
    {shown : PackageSummary}
    (member : shown ∈ (node.summary depth).children) :
    ∃ child ∈ node.children, child.summary (Package.nextDepth depth) = shown := by
  rw [children_summary] at member
  split at member
  · exact List.mem_map.mp member
  · cases member

@[simp] theorem totals_summary (depth : Option Int) (node : PackageNode) :
    (node.summary depth).totals = node.label.totals := by
  rw [summary_eq]
  rfl

end Shape

/-- A depth cuts the summary off and changes nothing above the cut. -/
theorem summary_eq_truncated (levels : Nat) (node : PackageNode) :
    node.summary (some levels) = (node.summary none).truncated levels := by
  induction levels generalizing node with
  | zero =>
      rw [summary_unlimited]
      exact node.summary_zero
  | succ levels inductionHypothesis =>
      have below :
          node.children.map (summary (some levels)) =
            (node.children.map (summary none)).map (PackageSummary.truncated levels) := by
        rw [List.map_map]
        apply List.map_congr_left
        intro child _
        exact inductionHypothesis child
      rw [summary_succ, summary_unlimited, PackageSummary.truncated, below]
      rfl

/-- A summary without a depth has an entry for each node that a walk visits. -/
theorem entries_summary_unlimited (node : PackageNode) :
    (node.summary none).entries = node.walk.map fun entry => (entry.1, entry.2.summary []) := by
  rw [walk_eq_map, List.map_map]
  induction node using childInduction with
  | node label children inductionHypothesis =>
      rw [PackageSummary.entries_eq, nodes_eq, List.map_cons, summary_unlimited,
        nodesBelow_eq_flatMap, List.map_flatMap]
      congr 1
      change (children.map (summary none)).flatMap _ = _
      rw [List.flatMap_map]
      apply List.flatMap_congr
      intro child member
      rw [inductionHypothesis child member, List.map_map, List.map_map, name_summary]
      rfl

/-- Each part of a summary is the summary of a node below, to some depth. -/
theorem exists_node_of_mem_parts
    {depth : Option Int}
    {node : PackageNode}
    {path : List String}
    {part : PackageSummary}
    (member : (path, part) ∈ (node.summary depth).parts) :
    ∃ below left, (path, below) ∈ node.nodes ∧ part = below.summary left := by
  induction node using childInduction generalizing depth path with
  | node label children inductionHypothesis =>
      rw [PackageSummary.parts_eq, PackageSummary.partsBelow_eq_flatMap, List.mem_cons] at member
      rw [nodes_eq]
      rcases member with atTop | inChildren
      · cases atTop
        exact ⟨_, depth, List.mem_cons_self, rfl⟩
      · obtain ⟨shown, isShown, inShown⟩ := List.mem_flatMap.mp inChildren
        obtain ⟨⟨rest, found⟩, inPart, same⟩ := List.mem_map.mp inShown
        cases same
        obtain ⟨child, isChild, rfl⟩ := exists_child_of_mem_summary isShown
        obtain ⟨below, left, inChild, isSummary⟩ := inductionHypothesis child isChild inPart
        refine ⟨below, left, List.mem_cons_of_mem _ (mem_nodesBelow.mpr ?_), isSummary⟩
        exact ⟨child, isChild, rest, by rw [name_summary], inChild⟩

/-- A rolled-up package has the sums of its children's totals. -/
theorem value_rollUp_of_package
    {node : PackageNode}
    (isPackage : node.label.kind = .packageNode)
    (metric : Metric) :
    metric.value node.rollUp.label.totals =
      (node.rollUp.children.map fun child => metric.value child.label.totals).sum := by
  cases node with
  | mk label children =>
      have ofPackage : label.kind = .packageNode := isPackage
      have noClass : ¬ label.isClass := by
        rw [NodeLabel.isClass, ofPackage]
        decide
      have noShare : metric.share label = 0 := by
        rw [Metric.share, if_neg noClass]
      rw [rollUp_eq, Metric.value_totalsOver, noShare, Int.zero_add, List.map_map, List.map_map]
      rfl

/-- In a summary of a rolled-up tree, children that are shown add up to their package. -/
theorem value_of_mem_parts
    {depth : Option Int}
    {node : PackageNode}
    {path : List String}
    {part : PackageSummary}
    (member : (path, part) ∈ (node.rollUp.summary depth).parts)
    (isPackage : part.kind = .packageNode)
    (shown : part.children ≠ [])
    (metric : Metric) :
    metric.value part.totals =
      (part.children.map fun child => metric.value child.totals).sum := by
  obtain ⟨below, left, inTree, rfl⟩ := exists_node_of_mem_parts member
  rw [nodes_rollUp] at inTree
  obtain ⟨⟨_, before⟩, _, same⟩ := List.mem_map.mp inTree
  cases same
  rw [children_summary] at shown ⊢
  split at shown
  · rename_i goesOn
    have ofPackage : before.label.kind = .packageNode := by
      rw [summary_eq, label_rollUp] at isPackage
      exact isPackage
    rw [if_pos goesOn, totals_summary, value_rollUp_of_package ofPackage, List.map_map]
    congr 1
    apply List.map_congr_left
    intro child _
    rw [Function.comp_apply, totals_summary]
  · exact absurd rfl shown

end PackageNode

namespace Package

open PackageNode

/-- Summaries of a built tree show its nodes down to their depth, unchanged, and add up. -/
theorem summaries_show_tree
    {settings : BuildSettings}
    {symbols : SymbolMap}
    {sources : List SymbolSource}
    {result : BuildResult}
    (returned : (build settings symbols sources).result = .ok result)
    {path : List String}
    {node : PackageNode}
    (member : (path, node) ∈ result.root.nodes) :
    (∀ levels : Nat,
      node.summary (some levels) = (node.summary none).truncated levels ∧
        (node.summary (some levels)).entries =
          (node.summary none).entries.filter fun entry => entry.1.length ≤ levels) ∧
    (node.summary none).entries =
      (node.walk.map fun entry => (entry.1, entry.2.summary [])) ∧
    (node.walk.map Prod.fst).Nodup ∧
    ∀ (depth : Option Int) (place : List String) (part : PackageSummary),
      (place, part) ∈ (node.summary depth).parts →
      part.kind = .packageNode →
      part.children ≠ [] →
      ∀ metric : Metric,
        metric.value part.totals =
          (part.children.map fun child => metric.value child.totals).sum := by
  obtain ⟨root, rolled, contents⟩ := contents_of_result returned
  rw [rolled] at member
  have distinct : node.Distinct :=
    contents.distinct.rollUp.of_find? (contents.distinct.rollUp.mem_nodes_iff.mp member)
  rw [nodes_rollUp] at member
  obtain ⟨⟨_, before⟩, _, same⟩ := List.mem_map.mp member
  cases same
  refine ⟨?_, entries_summary_unlimited _, ?_, ?_⟩
  · intro levels
    rw [summary_eq_truncated]
    exact ⟨rfl, PackageSummary.entries_truncated levels _⟩
  · rw [walk_eq_map, List.map_map]
    exact distinct.nodup_paths
  · intro depth place part inSummary isPackage shown metric
    exact value_of_mem_parts inSummary isPackage shown metric

/-- One level below the root of overlapping files the class is cut off, but it still counts. -/
theorem summaries_of_overlappingFiles :
    ∃ result,
      (build {} {} overlappingFiles).result = .ok result ∧
        ([], result.root) ∈ result.root.nodes ∧
        (result.root.summary none).entries.map Prod.fst = [[], ["p"], ["p", "A"]] ∧
        (result.root.summary (some 1)).entries =
          (result.root.summary none).entries.filter (fun entry => entry.1.length ≤ 1) ∧
        ([], result.root.summary (some 1)) ∈ (result.root.summary (some 1)).parts ∧
        (result.root.summary (some 1)).kind = .packageNode ∧
        (result.root.summary (some 1)).children ≠ [] ∧
        (result.root.summary (some 1)).totals.methods = 2 ∧
        ((result.root.summary (some 1)).children.map fun child => child.totals.methods).sum =
          2 := by
  obtain ⟨result, returned, paths, isPackage, shown, methods⟩ :
      ∃ result,
        (build {} {} overlappingFiles).result = .ok result ∧
          (result.root.summary none).entries.map Prod.fst = [[], ["p"], ["p", "A"]] ∧
          (result.root.summary (some 1)).kind = .packageNode ∧
          (result.root.summary (some 1)).children ≠ [] ∧
          (result.root.summary (some 1)).totals.methods = 2 :=
    ⟨_, rfl, by decide +kernel, by decide +kernel, by decide +kernel, by decide +kernel⟩
  have isRoot : ([], result.root) ∈ result.root.nodes := by
    rw [nodes_eq]
    exact List.mem_cons_self
  have isPart : ([], result.root.summary (some 1)) ∈ (result.root.summary (some 1)).parts := by
    rw [PackageSummary.parts_eq]
    exact List.mem_cons_self
  obtain ⟨cut, _, _, sums⟩ := summaries_show_tree returned isRoot
  have sum := sums (some 1) [] _ isPart isPackage shown .methods
  exact ⟨result, returned, isRoot, paths, (cut 1).2, isPart, isPackage, shown, methods,
    sum.symm.trans methods⟩

end Package

end ApkAtlas
