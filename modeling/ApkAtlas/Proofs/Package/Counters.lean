import ApkAtlas.Proofs.Package.Content
import ApkAtlas.Proofs.Package.GraphTotals
import Mathlib.Algebra.Order.BigOperators.Group.List

namespace ApkAtlas

/-!
# What the counters of a tree say

The totals of a rolled-up tree are sums over its classes, whether the tree was built or
put together by hand. In a built tree a class counts a referenced member only if it
declares it, and once, so no node has more referenced members than declared ones.
-/

/-- A counter that is at most another at every class is so in the sums. -/
theorem Metric.classSum_le_classSum
    {first second : Metric}
    {node : PackageNode}
    (atMost :
      ∀ path label, (path, label) ∈ node.classes →
        first.ownValue label ≤ second.ownValue label) :
    first.classSum node ≤ second.classSum node := by
  apply List.sum_le_sum
  intro entry member
  exact atMost entry.1 entry.2 member

namespace Package

open PackageNode

theorem countReferenced_le_length
    {symbols : SymbolMap}
    {kind : MemberKind}
    {bytecodeName sourceName : String}
    {signatures : List String}
    {count : Nat}
    (counted :
      countReferenced symbols kind bytecodeName sourceName signatures = .ok count) :
    count ≤ signatures.length := by
  induction signatures generalizing count with
  | nil =>
      cases counted
      exact Nat.le_refl _
  | cons signature rest inductionHypothesis =>
      rw [countReferenced] at counted
      cases hit : isReferenced symbols kind bytecodeName sourceName signature with
      | error _ =>
          rw [hit] at counted
          cases counted
      | ok isHit =>
          rw [hit] at counted
          cases restCounted :
              countReferenced symbols kind bytecodeName sourceName rest with
          | error _ =>
              simp only [restCounted, bind, Except.bind] at counted
              cases counted
          | ok ofRest =>
              simp only [restCounted, bind, Except.bind] at counted
              cases counted
              have atMost := inductionHypothesis restCounted
              rw [List.length_cons]
              split <;> omega

theorem length_distinct_le (signatures : List String) :
    (distinct signatures).length ≤ signatures.length := by
  rw [distinct, Std.ExtTreeSet.length_toList]
  exact Std.ExtTreeSet.size_ofList_le

theorem referenced_le_declared
    {symbols : SymbolMap}
    {fileName : String}
    {declared : ClassSymbols}
    {label : NodeLabel}
    (labelled : declaredLabel symbols fileName declared = .ok label) :
    label.own.referencedMethods ≤ label.own.methods ∧
      label.own.referencedFields ≤ label.own.fields := by
  obtain ⟨methods, fields, methodsCounted, fieldsCounted, rfl⟩ :=
    exists_counts_of_declaredLabel labelled
  have methodsAtMost :=
    (countReferenced_le_length methodsCounted).trans (length_distinct_le declared.methods)
  have fieldsAtMost :=
    (countReferenced_le_length fieldsCounted).trans (length_distinct_le declared.fields)
  exact ⟨Int.ofNat_le.mpr methodsAtMost, Int.ofNat_le.mpr fieldsAtMost⟩

/-- A class at or below a node is labelled from a declaration. -/
theorem Contents.exists_declared_below
    {symbols : SymbolMap}
    {policy : DuplicatePolicy}
    {entries : List Entry}
    {root node : PackageNode}
    (contents : Contents symbols policy entries root)
    {path rest : List String}
    {label : NodeLabel}
    (found : root.find? path = some node)
    (member : (rest, label) ∈ node.classes) :
    ∃ entry : Entry, declaredLabel symbols entry.fileName entry.declared = .ok label := by
  obtain ⟨visited, isClass⟩ := List.mem_filter.mp member
  have nodeDistinct := contents.distinct.of_find? found
  have atClass : root.labelAt? (path ++ rest) = some label := by
    rw [labelAt?, find?_append, found]
    exact nodeDistinct.mem_walk_iff.mp visited
  obtain ⟨_, entry, _, _, labelled⟩ := contents.classes (path ++ rest) label atClass isClass
  exact ⟨entry, labelled⟩

/-- No node of a built tree has more referenced members than declared ones. -/
theorem referenced_le_declared_of_build
    {settings : BuildSettings}
    {symbols : SymbolMap}
    {sources : List SymbolSource}
    {result : BuildResult}
    (returned : (build settings symbols sources).result = .ok result)
    {path : List String}
    {node : PackageNode}
    (member : (path, node) ∈ result.root.nodes) :
    node.label.totals.referencedMethods ≤ node.label.totals.methods ∧
      node.label.totals.referencedFields ≤ node.label.totals.fields := by
  obtain ⟨root, rolled, contents⟩ := contents_of_result returned
  rw [rolled, nodes_rollUp] at member
  obtain ⟨⟨_, before⟩, inTree, same⟩ := List.mem_map.mp member
  cases same
  have found := contents.distinct.mem_nodes_iff.mp inTree
  have bounds (rest : List String) (label : NodeLabel)
      (isBelow : (rest, label) ∈ before.classes) :
      label.own.referencedMethods ≤ label.own.methods ∧
        label.own.referencedFields ≤ label.own.fields := by
    obtain ⟨entry, labelled⟩ := contents.exists_declared_below found isBelow
    exact referenced_le_declared labelled
  constructor
  · have atMost :
        Metric.classSum .referencedMethods before ≤ Metric.classSum .methods before :=
      Metric.classSum_le_classSum fun rest label isBelow => (bounds rest label isBelow).1
    rw [← value_rollUp, ← value_rollUp] at atMost
    exact atMost
  · have atMost :
        Metric.classSum .referencedFields before ≤ Metric.classSum .fields before :=
      Metric.classSum_le_classSum fun rest label isBelow => (bounds rest label isBelow).2
    rw [← value_rollUp, ← value_rollUp] at atMost
    exact atMost

/--
Totals are exact, and references never exceed declarations. After the roll-up of a graph
grown from new nodes that are attached once each, and of any tree, every counter of every
node is the sum over the classes at or below the node, and rolling up again changes
nothing. Every node of a built tree has at most as many referenced methods and fields as
declared ones.
-/
theorem totals_exact_and_references_bounded :
    (∀ graph : Graph, graph.Grown →
      ∃ rolled,
        graph.rollUp = (rolled, true) ∧
          rolled.rollUp = (rolled, true) ∧
          (∀ id, ∃ totals, rolled.node id = Graph.retotal (graph.node id) totals) ∧
          ∀ id, graph.Below graph.root id →
            ∃ below : List Nat,
              below.Nodup ∧ (∀ other, other ∈ below ↔ graph.Below id other) ∧
                ∀ metric : Metric,
                  metric.value (rolled.node id).label.totals =
                    graph.classSum metric below) ∧
      (∀ node : PackageNode,
        node.rollUp.rollUp = node.rollUp ∧
          ∀ path below, (path, below) ∈ node.rollUp.nodes →
            ∀ metric : Metric, metric.value below.label.totals = metric.classSum below) ∧
      ∀ settings symbols sources result,
        (build settings symbols sources).result = .ok result →
          ∀ path node, (path, node) ∈ result.root.nodes →
            node.label.totals.referencedMethods ≤ node.label.totals.methods ∧
              node.label.totals.referencedFields ≤ node.label.totals.fields := by
  refine ⟨?_, ?_, ?_⟩
  · intro graph grown
    obtain ⟨forest, inside⟩ := grown.forest
    obtain ⟨rolled, once, again, derived⟩ := forest.rollUp inside
    refine ⟨rolled, once, again, derived.node_eq, ?_⟩
    intro id isBelow
    obtain ⟨totals, ⟨fuel, ends, value⟩, same⟩ :=
      derived.written id ((Graph.mem_visited (forest.ends inside)).mpr isBelow)
    refine ⟨graph.visited fuel id, forest.nodup_visited ends,
      fun _ => Graph.mem_visited ends, ?_⟩
    rw [same]
    exact value
  · intro node
    exact ⟨rollUp_rollUp node, fun _ _ member => value_of_mem_nodes_rollUp member⟩
  · intro settings symbols sources result returned path node member
    exact referenced_le_declared_of_build returned member

/-- A class under the root, and a class under it. -/
def nestedClasses : Graph where
  nodes :=
    #[ { label := { name := PackageNode.rootName }, children := [("Outer", 1)] },
       { label := { name := "Outer", kind := .classNode, own := { methods := 2 } }
         parent := some 0
         children := [("Inner", 2)] },
       { label := { name := "Inner", kind := .classNode, own := { methods := 3 } }
         parent := some 1 } ]

theorem grown_nestedClasses : nestedClasses.Grown := by
  have two :=
    (Graph.Grown.start.add { name := "Outer", kind := .classNode, own := { methods := 2 } }).add
      { name := "Inner", kind := .classNode, own := { methods := 3 } }
  have outer := @Graph.Grown.attach _ _ 0 1 two (by decide) (by decide) rfl ?_ rfl
  have inner := @Graph.Grown.attach _ _ 1 2 outer (by decide) (by decide) rfl ?_ rfl
  · exact inner
  · intro below
    rcases Relation.ReflTransGen.cases_head below with same | ⟨child, isChild, _⟩
    · cases same
    · cases isChild
  · intro below
    rcases Relation.ReflTransGen.cases_head below with same | ⟨child, isChild, _⟩
    · cases same
    · cases isChild

/-- The class on top counts the methods of both nested classes, and in the tree of the
overlapping files no node has more referenced members than declared ones. -/
theorem totals_of_nestedClasses_and_overlappingFiles :
    nestedClasses.Grown ∧
      (∃ below : List Nat,
        below.Nodup ∧ (∀ other, other ∈ below ↔ nestedClasses.Below 1 other) ∧
          nestedClasses.classSum .methods below = 5) ∧
      ∃ result,
        (build {} {} overlappingFiles).result = .ok result ∧
          ∀ path node, (path, node) ∈ result.root.nodes →
            node.label.totals.referencedMethods ≤ node.label.totals.methods := by
  obtain ⟨ofGrown, _, ofBuild⟩ := totals_exact_and_references_bounded
  refine ⟨grown_nestedClasses, ?_, ?_⟩
  · obtain ⟨rolled, once, _, _, exactAt⟩ := ofGrown nestedClasses grown_nestedClasses
    have outerBelow : nestedClasses.Below nestedClasses.root 1 :=
      .single (by decide : (1 : Nat) ∈ nestedClasses.childIds 0)
    obtain ⟨below, nodup, members, value⟩ := exactAt 1 outerBelow
    refine ⟨below, nodup, members, ?_⟩
    have rolledIs : rolled = nestedClasses.rollUp.1 := (congrArg Prod.fst once).symm
    rw [← value .methods, rolledIs]
    decide
  · obtain ⟨result, returned⟩ :
        ∃ result, (build {} {} overlappingFiles).result = .ok result :=
      ⟨_, rfl⟩
    refine ⟨result, returned, ?_⟩
    intro path node member
    exact (ofBuild {} {} overlappingFiles result returned path node member).1

end Package

end ApkAtlas
