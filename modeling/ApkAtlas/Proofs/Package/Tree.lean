import ApkAtlas.Package.Node
import Mathlib.Data.List.Nodup

namespace ApkAtlas.PackageNode

/-!
# Nodes and paths

A tree can be looked at in two ways: as the list of its nodes with their paths, which a
walk visits, and as a partial function from paths to nodes. The two agree in a tree whose
siblings have different names: then a path identifies a node.
-/

/-- A property holds of every node if it passes from the children to their parent. -/
@[elab_as_elim]
theorem childInduction
    {motive : PackageNode → Prop}
    (node :
      ∀ label children,
        (∀ child ∈ children, motive child) →
        motive ⟨label, children⟩) :
    ∀ tree, motive tree
  | ⟨label, children⟩ =>
      node label children fun child _ => childInduction node child

/-! ## Finding a node by its path -/

@[simp] theorem find?_nil (node : PackageNode) : node.find? [] = some node :=
  rfl

/-- A path is followed from child to child. -/
theorem find?_cons (node : PackageNode) (name : String) (rest : List String) :
    node.find? (name :: rest) =
      (node.child? name).bind fun child => child.find? rest := by
  simp only [find?]
  cases node.child? name <;> rfl

/-- A path can be followed in two parts. -/
theorem find?_append (node : PackageNode) (first second : List String) :
    node.find? (first ++ second) =
      (node.find? first).bind fun below => below.find? second := by
  induction first generalizing node with
  | nil =>
      rfl
  | cons name rest inductionHypothesis =>
      rw [List.cons_append, find?_cons, find?_cons]
      cases node.child? name with
      | none =>
          rfl
      | some child =>
          exact inductionHypothesis child

/-- The child of a name has this name. -/
theorem name_of_child?
    {node child : PackageNode}
    {name : String}
    (found : node.child? name = some child) :
    child.name = name := by
  simpa using List.find?_some found

theorem mem_of_child?
    {node child : PackageNode}
    {name : String}
    (found : node.child? name = some child) :
    child ∈ node.children :=
  List.mem_of_find?_eq_some found

/-- The label of the node at a path. -/
def labelAt? (node : PackageNode) (path : List String) : Option NodeLabel :=
  (node.find? path).map PackageNode.label

/-- The label at a path is that of the node there. -/
theorem labelAt?_of_find?
    {node below : PackageNode}
    {path : List String}
    (found : node.find? path = some below) :
    node.labelAt? path = some below.label := by
  rw [labelAt?, found]
  rfl

@[simp] theorem labelAt?_nil (node : PackageNode) : node.labelAt? [] = some node.label :=
  rfl

/-- A label is looked up below the child of the first name. -/
theorem labelAt?_cons (node : PackageNode) (name : String) (rest : List String) :
    node.labelAt? (name :: rest) =
      (node.child? name).bind fun child => child.labelAt? rest := by
  rw [labelAt?, find?_cons, Option.map_bind]
  rfl

/-- Below a node without children there are no labels. -/
theorem labelAt?_cons_of_children_nil
    {node : PackageNode}
    (childless : node.children = [])
    (name : String)
    (rest : List String) :
    node.labelAt? (name :: rest) = none := by
  simp [labelAt?_cons, child?, childless]

/-- Where a path leads somewhere, so does every shorter one. -/
theorem labelAt?_isSome_of_prefix
    {node : PackageNode}
    {shorter longer : List String}
    (leading : shorter <+: longer)
    (present : (node.labelAt? longer).isSome) :
    (node.labelAt? shorter).isSome := by
  obtain ⟨rest, rfl⟩ := leading
  rw [labelAt?, find?_append] at present
  rw [labelAt?]
  cases found : node.find? shorter with
  | none =>
      simp [found] at present
  | some below =>
      rfl

/-! ## Listing nodes with their paths -/

mutual

/-- A node and all below it with their paths, in preorder. -/
def nodes : PackageNode → List (List String × PackageNode)
  | ⟨label, children⟩ => ([], ⟨label, children⟩) :: nodesBelow children

/-- Nodes that share a parent and all below them, with their paths from the parent. -/
def nodesBelow : List PackageNode → List (List String × PackageNode)
  | [] => []
  | node :: rest =>
      node.nodes.map (fun entry => (node.label.name :: entry.1, entry.2)) ++ nodesBelow rest

end

/-- Below a parent stand the nodes of its children, each under the name of the child. -/
theorem nodesBelow_eq_flatMap (children : List PackageNode) :
    nodesBelow children =
      children.flatMap fun child =>
        child.nodes.map fun entry => (child.name :: entry.1, entry.2) := by
  induction children with
  | nil =>
      rfl
  | cons child rest inductionHypothesis =>
      rw [nodesBelow, inductionHypothesis, List.flatMap_cons]
      rfl

/-- The nodes of a tree are its root and those below it. -/
theorem nodes_eq (node : PackageNode) :
    node.nodes = ([], node) :: nodesBelow node.children := by
  cases node with
  | mk label children =>
      rw [nodes]

/-- A node is below some children if it is a node of one of them. -/
theorem mem_nodesBelow
    {children : List PackageNode}
    {path : List String}
    {below : PackageNode} :
    (path, below) ∈ nodesBelow children ↔
      ∃ child ∈ children,
        ∃ rest, path = child.name :: rest ∧ (rest, below) ∈ child.nodes := by
  rw [nodesBelow_eq_flatMap, List.mem_flatMap]
  constructor
  · rintro ⟨child, member, mapped⟩
    obtain ⟨⟨rest, found⟩, inChild, same⟩ := List.mem_map.mp mapped
    cases same
    exact ⟨child, member, rest, rfl, inChild⟩
  · rintro ⟨child, member, rest, rfl, inChild⟩
    exact ⟨child, member, List.mem_map.mpr ⟨(rest, below), inChild, rfl⟩⟩

mutual

/-- A walk visits the nodes in the order of `nodes`. -/
theorem walkFrom_eq_map (path : List String) :
    ∀ node : PackageNode,
      node.walkFrom path = node.nodes.map fun entry => (path ++ entry.1, entry.2.label)
  | ⟨label, children⟩ => by
      rw [walkFrom, nodes, List.map_cons, walkChildren_eq_map path children]
      simp

theorem walkChildren_eq_map (path : List String) :
    ∀ children : List PackageNode,
      walkChildren path children =
        (nodesBelow children).map fun entry => (path ++ entry.1, entry.2.label)
  | [] => rfl
  | node :: rest => by
      rw [walkChildren, nodesBelow, walkFrom_eq_map _ node, walkChildren_eq_map path rest,
        List.map_append, List.map_map]
      congr 1
      apply List.map_congr_left
      intro entry _
      simp

end

/-- A walk lists the labels of the nodes in their order. -/
theorem walk_eq_map (node : PackageNode) :
    node.walk = node.nodes.map fun entry => (entry.1, entry.2.label) := by
  rw [walk, walkFrom_eq_map]
  simp

/-! ## Trees in which siblings have different names -/

/-- Siblings have different names, here and everywhere below. -/
inductive Distinct : PackageNode → Prop where
  | node
      {label : NodeLabel}
      {children : List PackageNode} :
      (children.map PackageNode.name).Nodup →
      (∀ child ∈ children, Distinct child) →
      Distinct ⟨label, children⟩

namespace Distinct

/-- The children of a node have different names. -/
theorem names
    {node : PackageNode}
    (distinct : node.Distinct) :
    (node.children.map PackageNode.name).Nodup := by
  cases distinct with
  | node different _ =>
      exact different

/-- In a child names tell nodes apart as well. -/
theorem child
    {node child : PackageNode}
    (distinct : node.Distinct)
    (member : child ∈ node.children) :
    child.Distinct := by
  cases distinct with
  | node _ below =>
      exact below child member

/-- Each child is found by its name. -/
theorem child?_name
    {node child : PackageNode}
    (distinct : node.Distinct)
    (member : child ∈ node.children) :
    node.child? child.name = some child := by
  have different := distinct.names
  rw [child?]
  generalize node.children = children at member different
  induction children with
  | nil =>
      simp at member
  | cons first rest inductionHypothesis =>
      rw [List.map_cons, List.nodup_cons] at different
      rcases List.mem_cons.mp member with isFirst | inRest
      · subst isFirst
        simp
      · have firstDiffers : first.name ≠ child.name := by
          intro same
          apply different.1
          rw [same]
          exact List.mem_map_of_mem inRest
        rw [List.find?_cons_of_neg (by simpa using firstDiffers)]
        exact inductionHypothesis inRest different.2

/-- Names tell nodes apart below each path. -/
theorem of_find?
    {node below : PackageNode}
    {path : List String}
    (distinct : node.Distinct)
    (found : node.find? path = some below) :
    below.Distinct := by
  induction path generalizing node with
  | nil =>
      cases found
      exact distinct
  | cons name rest inductionHypothesis =>
      rw [find?_cons, Option.bind_eq_some_iff] at found
      obtain ⟨child, isChild, found⟩ := found
      exact inductionHypothesis (distinct.child (mem_of_child? isChild)) found

/-- The nodes of a tree are those that its paths lead to. -/
theorem mem_nodes_iff
    {node : PackageNode}
    (distinct : node.Distinct)
    {path : List String}
    {below : PackageNode} :
    (path, below) ∈ node.nodes ↔ node.find? path = some below := by
  induction path generalizing node with
  | nil =>
      rw [nodes_eq, List.mem_cons, mem_nodesBelow, find?_nil, Option.some.injEq]
      constructor
      · rintro (atTop | ⟨_, _, _, impossible, _⟩)
        · cases atTop
          rfl
        · cases impossible
      · rintro rfl
        exact .inl rfl
  | cons name rest inductionHypothesis =>
      rw [nodes_eq, find?_cons, List.mem_cons, mem_nodesBelow, Option.bind_eq_some_iff]
      constructor
      · rintro (atTop | ⟨child, member, rest', samePath, inChild⟩)
        · cases atTop
        · cases samePath
          refine ⟨child, distinct.child?_name member, ?_⟩
          exact (inductionHypothesis (distinct.child member)).mp inChild
      · rintro ⟨child, found, below⟩
        have member := mem_of_child? found
        refine .inr ⟨child, member, rest, ?_, ?_⟩
        · rw [name_of_child? found]
        · exact (inductionHypothesis (distinct.child member)).mpr below

/-- Where names tell nodes apart, paths do. -/
theorem nodup_paths
    {node : PackageNode}
    (distinct : node.Distinct) :
    (node.nodes.map Prod.fst).Nodup := by
  induction node using childInduction with
  | node label children inductionHypothesis =>
      rw [nodes_eq, List.map_cons, List.nodup_cons]
      constructor
      · intro member
        obtain ⟨⟨path, below⟩, inChildren, atTop⟩ := List.mem_map.mp member
        obtain ⟨_, _, _, longer, _⟩ := mem_nodesBelow.mp inChildren
        rw [longer] at atTop
        cases atTop
      · rw [nodesBelow_eq_flatMap, List.map_flatMap, List.nodup_flatMap]
        constructor
        · intro child member
          have below := inductionHypothesis child member (distinct.child member)
          have longer := below.map (List.cons_injective (a := child.name))
          rw [List.map_map] at longer ⊢
          exact longer
        · apply (List.pairwise_map.mp distinct.names).imp
          intro first second different path inFirst inSecond
          obtain ⟨_, mapped, rfl⟩ := List.mem_map.mp inFirst
          obtain ⟨_, _, rfl⟩ := List.mem_map.mp mapped
          obtain ⟨_, mapped', samePath⟩ := List.mem_map.mp inSecond
          obtain ⟨_, _, rfl⟩ := List.mem_map.mp mapped'
          exact different (List.cons.inj samePath).1.symm

/-- A walk visits exactly the labels that paths lead to. -/
theorem mem_walk_iff
    {node : PackageNode}
    (distinct : node.Distinct)
    {path : List String}
    {label : NodeLabel} :
    (path, label) ∈ node.walk ↔ node.labelAt? path = some label := by
  rw [walk_eq_map, List.mem_map, labelAt?, Option.map_eq_some_iff]
  constructor
  · rintro ⟨⟨path', below⟩, member, same⟩
    cases same
    exact ⟨below, distinct.mem_nodes_iff.mp member, rfl⟩
  · rintro ⟨below, found, rfl⟩
    exact ⟨(path, below), distinct.mem_nodes_iff.mpr found, rfl⟩

end Distinct

end ApkAtlas.PackageNode
