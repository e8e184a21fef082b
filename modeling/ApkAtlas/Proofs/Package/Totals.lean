import ApkAtlas.Proofs.Package.Tree
import Mathlib

namespace ApkAtlas

/-!
# Totals of a rolled-up tree

Each counter of a rolled-up node is the sum of what the classes at or below the node
declare for that counter. The sum runs over the class nodes that a walk visits, so it
does not depend on how the totals are handed upward.
-/

namespace Metric

/-- What one class adds to a counter: its own count, or one for the count of classes. -/
def ownValue (label : NodeLabel) : Metric → Int
  | .methods => label.own.methods
  | .fields => label.own.fields
  | .referencedMethods => label.own.referencedMethods
  | .referencedFields => label.own.referencedFields
  | .classes => 1

/-- The sum of a counter over the class nodes of a tree. -/
def classSum (metric : Metric) (node : PackageNode) : Int :=
  (node.classes.map fun entry => metric.ownValue entry.2).sum

/-- What a node itself adds to a counter. -/
def share (label : NodeLabel) (metric : Metric) : Int :=
  if label.isClass then metric.ownValue label else 0

/-- The value of a sum is the sum of the values. -/
theorem value_add (left right : NodeTotals) (metric : Metric) :
    metric.value (left.add right) = metric.value left + metric.value right := by
  cases metric <;> rfl

/-- A label contributes its share to each value. -/
theorem value_contribution (label : NodeLabel) (metric : Metric) :
    metric.value label.contribution = metric.share label := by
  cases kind : label.kind <;> cases metric <;>
    simp [NodeLabel.contribution, share, NodeLabel.isClass, kind, value, ownValue]

/-- Totals with the same values are the same. -/
theorem totals_ext
    {left right : NodeTotals}
    (same : ∀ metric : Metric, metric.value left = metric.value right) :
    left = right := by
  obtain ⟨_, _, _, _, _⟩ := left
  obtain ⟨_, _, _, _, _⟩ := right
  have methods := same .methods
  have fields := same .fields
  have referencedMethods := same .referencedMethods
  have referencedFields := same .referencedFields
  have classes := same .classes
  simp only [value] at methods fields referencedMethods referencedFields classes
  subst methods fields referencedMethods referencedFields classes
  rfl

/-- The value of many totals is the sum of their values. -/
theorem value_foldl_add (metric : Metric) (start : NodeTotals) (totals : List NodeTotals) :
    metric.value (totals.foldl NodeTotals.add start) =
      metric.value start + (totals.map fun one => metric.value one).sum := by
  induction totals generalizing start with
  | nil =>
      simp
  | cons one rest inductionHypothesis =>
      rw [List.foldl_cons, inductionHypothesis, value_add, List.map_cons, List.sum_cons]
      omega

/-- The totals of a node are its own share and the totals of its children. -/
theorem value_totalsOver (metric : Metric) (label : NodeLabel) (children : List NodeTotals) :
    metric.value (label.totalsOver children) =
      metric.share label + (children.map fun one => metric.value one).sum := by
  rw [NodeLabel.totalsOver, value_foldl_add, value_contribution]

/-- The sum over the classes among some nodes is the sum of the shares of all. -/
theorem sum_filter_isClass
    {Item : Type}
    (metric : Metric)
    (label : Item → NodeLabel)
    (items : List Item) :
    ((items.filter fun item => (label item).isClass).map
        fun item => metric.ownValue (label item)).sum =
      (items.map fun item => metric.share (label item)).sum := by
  induction items with
  | nil =>
      rfl
  | cons item rest inductionHypothesis =>
      by_cases isClass : (label item).isClass
      · rw [List.filter_cons_of_pos (by simpa using isClass), List.map_cons, List.map_cons,
          List.sum_cons, List.sum_cons, inductionHypothesis, share, if_pos isClass]
      · rw [List.filter_cons_of_neg (by simpa using isClass), List.map_cons,
          List.sum_cons, inductionHypothesis, share, if_neg isClass, zero_add]

/-- The sum over the classes of a tree is the sum of the shares of its nodes. -/
theorem classSum_eq_sum_share (metric : Metric) (node : PackageNode) :
    metric.classSum node =
      (node.nodes.map fun entry => metric.share entry.2.label).sum := by
  rw [classSum, PackageNode.classes, sum_filter_isClass metric Prod.snd,
    PackageNode.walk_eq_map, List.map_map]
  rfl

/-- The sum over the classes of a tree splits into the root and its children. -/
theorem classSum_eq
    (metric : Metric)
    (label : NodeLabel)
    (children : List PackageNode) :
    metric.classSum ⟨label, children⟩ =
      metric.share label + (children.map fun child => metric.classSum child).sum := by
  have below :
      ((PackageNode.nodesBelow children).map
          fun entry => metric.share entry.2.label).sum =
        (children.map fun child => metric.classSum child).sum := by
    induction children with
    | nil =>
        rfl
    | cons child rest inductionHypothesis =>
        rw [PackageNode.nodesBelow, List.map_append, List.sum_append, List.map_map,
          inductionHypothesis, List.map_cons, List.sum_cons, classSum_eq_sum_share]
        rfl
  rw [classSum_eq_sum_share, PackageNode.nodes_eq, List.map_cons, List.sum_cons, below]

/-- The sum over classes of one each is their number. -/
theorem classSum_classes (node : PackageNode) :
    Metric.classSum .classes node = node.classes.length := by
  rw [classSum]
  induction node.classes with
  | nil =>
      rfl
  | cons entry rest inductionHypothesis =>
      rw [List.map_cons, List.sum_cons, inductionHypothesis, List.length_cons, ownValue]
      omega

end Metric

namespace PackageNode

/-- Rolling up a list is rolling up each of its nodes. -/
theorem rollUpAll_eq_map (nodes : List PackageNode) :
    rollUpAll nodes = nodes.map rollUp := by
  induction nodes with
  | nil =>
      rfl
  | cons node rest inductionHypothesis =>
      rw [rollUpAll, inductionHypothesis, List.map_cons]

/-- A rolled-up node has rolled-up children and the totals over theirs. -/
theorem rollUp_eq (label : NodeLabel) (children : List PackageNode) :
    rollUp ⟨label, children⟩ =
      ⟨{ label with
          totals := label.totalsOver (children.map fun child => child.rollUp.label.totals) },
        children.map rollUp⟩ := by
  rw [rollUp, rollUpAll_eq_map, List.map_map]
  rfl

/-- Rolling up changes the totals of a label and nothing else. -/
theorem label_rollUp (node : PackageNode) :
    node.rollUp.label = { node.label with totals := node.rollUp.label.totals } := by
  cases node with
  | mk label children =>
      rw [rollUp_eq]

@[simp] theorem name_rollUp (node : PackageNode) : node.rollUp.name = node.name := by
  rw [name, label_rollUp]
  rfl

/-- Rolling up a tree rolls up the tree below each of its nodes, and changes no path. -/
theorem nodes_rollUp (node : PackageNode) :
    node.rollUp.nodes = node.nodes.map fun entry => (entry.1, entry.2.rollUp) := by
  induction node using childInduction with
  | node label children inductionHypothesis =>
      have below :
          nodesBelow (children.map rollUp) =
            (nodesBelow children).map fun entry => (entry.1, entry.2.rollUp) := by
        rw [nodesBelow_eq_flatMap, nodesBelow_eq_flatMap, List.flatMap_map, List.map_flatMap]
        apply List.flatMap_congr
        intro child member
        rw [inductionHypothesis child member, List.map_map, List.map_map, name_rollUp]
        rfl
      rw [nodes_eq, nodes_eq, List.map_cons, rollUp_eq, below]

/-- Rolling up leaves the shares of labels. -/
theorem share_rollUp (metric : Metric) (node : PackageNode) :
    metric.share node.rollUp.label = metric.share node.label := by
  rw [label_rollUp]
  cases metric <;> rfl

/-- Rolling up changes no sum over classes. -/
theorem classSum_rollUp (metric : Metric) (node : PackageNode) :
    metric.classSum node.rollUp = metric.classSum node := by
  rw [Metric.classSum_eq_sum_share, Metric.classSum_eq_sum_share, nodes_rollUp, List.map_map]
  congr 1
  apply List.map_congr_left
  intro entry _
  exact share_rollUp metric entry.2

/-- The totals at the top of a rolled-up tree are the sums over its classes. -/
theorem value_rollUp (metric : Metric) (node : PackageNode) :
    metric.value node.rollUp.label.totals = metric.classSum node := by
  induction node using childInduction with
  | node label children inductionHypothesis =>
      rw [rollUp_eq, Metric.value_totalsOver, Metric.classSum_eq, List.map_map]
      congr 2
      apply List.map_congr_left
      intro child member
      exact inductionHypothesis child member

/-- Every node of a rolled-up tree has the sums over the classes at or below it. -/
theorem value_of_mem_nodes_rollUp
    {node below : PackageNode}
    {path : List String}
    (member : (path, below) ∈ node.rollUp.nodes)
    (metric : Metric) :
    metric.value below.label.totals = metric.classSum below := by
  rw [nodes_rollUp] at member
  obtain ⟨⟨_, before⟩, _, same⟩ := List.mem_map.mp member
  cases same
  rw [value_rollUp, classSum_rollUp]

/-- A tree that is rolled up already stays as it is. -/
theorem rollUp_rollUp (node : PackageNode) : node.rollUp.rollUp = node.rollUp := by
  induction node using childInduction with
  | node label children inductionHypothesis =>
      have again :
          (children.map rollUp).map rollUp = children.map rollUp := by
        rw [List.map_map]
        apply List.map_congr_left
        intro child member
        exact inductionHypothesis child member
      have sameTotals :
          (children.map rollUp).map (fun child => child.rollUp.label.totals) =
            children.map fun child => child.rollUp.label.totals := by
        rw [List.map_map]
        apply List.map_congr_left
        intro child member
        exact congrArg (fun rolled => rolled.label.totals)
          (inductionHypothesis child member)
      rw [rollUp_eq, rollUp_eq, again, sameTotals]
      rfl

/-- A path leads to the node that was rolled up. -/
theorem find?_rollUp (node : PackageNode) (path : List String) :
    node.rollUp.find? path = (node.find? path).map rollUp := by
  induction path generalizing node with
  | nil =>
      rfl
  | cons name rest inductionHypothesis =>
      have childRolled :
          node.rollUp.child? name = (node.child? name).map rollUp := by
        cases node with
        | mk label children =>
            rw [rollUp_eq, child?, child?, List.find?_map]
            congr 2
            funext child
            simp
      rw [find?_cons, find?_cons, childRolled, Option.bind_map, Option.map_bind]
      congr 1
      funext child
      exact inductionHypothesis child

/-- Rolling up changes nothing but totals in the labels of a tree. -/
theorem labelAt?_rollUp
    {node : PackageNode}
    {path : List String}
    {label : NodeLabel}
    (atPath : node.rollUp.labelAt? path = some label) :
    ∃ before, node.labelAt? path = some before ∧
      label = { before with totals := label.totals } := by
  rw [labelAt?, find?_rollUp, Option.map_map, Option.map_eq_some_iff] at atPath
  obtain ⟨below, found, rfl⟩ := atPath
  exact ⟨below.label, labelAt?_of_find? found, label_rollUp below⟩

/-- A label is found at its path with new totals. -/
theorem exists_labelAt?_rollUp
    {node : PackageNode}
    {path : List String}
    {before : NodeLabel}
    (atPath : node.labelAt? path = some before) :
    ∃ totals, node.rollUp.labelAt? path = some { before with totals } := by
  rw [labelAt?, Option.map_eq_some_iff] at atPath
  obtain ⟨below, found, rfl⟩ := atPath
  refine ⟨below.rollUp.label.totals, ?_⟩
  rw [labelAt?, find?_rollUp, found, ← label_rollUp]
  rfl

/-- Rolling up keeps the nodes told apart by their names. -/
theorem Distinct.rollUp
    {node : PackageNode}
    (distinct : node.Distinct) :
    node.rollUp.Distinct := by
  induction node using childInduction with
  | node label children inductionHypothesis =>
      have sameNames :
          (children.map PackageNode.rollUp).map name = children.map name := by
        rw [List.map_map]
        apply List.map_congr_left
        intro child _
        exact name_rollUp child
      rw [rollUp_eq]
      refine .node ?_ ?_
      · rw [sameNames]
        exact distinct.names
      · intro rolled member
        obtain ⟨child, inChildren, rfl⟩ := List.mem_map.mp member
        exact inductionHypothesis child inChildren (distinct.child inChildren)

end PackageNode

end ApkAtlas
