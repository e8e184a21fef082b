import ApkAtlas.Package.Graph
import Mathlib.Data.List.Nodup
import Mathlib.Logic.Relation

namespace ApkAtlas.Package.Graph

/-!
# Graphs that are forests

Where every node is attached at most once, and never below itself, a graph is a forest:
`Forest` says so by the children of nodes, and each step of growing a graph that way
preserves it. In a forest the walk below a node never runs out of fuel and visits each
node below it once.
-/

variable {graph next : Graph}

/-- The numbers of the children of a node. -/
def childIds (graph : Graph) (id : Nat) : List Nat :=
  (graph.node id).children.map Prod.snd

/-- A node is among the children of another. -/
def Child (graph : Graph) (parent child : Nat) : Prop :=
  child ∈ graph.childIds parent

/-- A node is at or below another. -/
def Below (graph : Graph) (top id : Nat) : Prop :=
  Relation.ReflTransGen graph.Child top id

/-- Every node hangs in at most one place, and not below itself. -/
structure Forest (graph : Graph) : Prop where
  inside : ∀ parent child, graph.Child parent child → child < graph.nodes.size
  parent :
    ∀ parent child, graph.Child parent child → (graph.node child).parent = some parent
  nodup : ∀ id, (graph.childIds id).Nodup
  acyclic : ∀ id, ¬ Relation.TransGen graph.Child id id

/-- Graphs grown from new nodes, each of which is attached at most once. -/
inductive Grown : Graph → Prop where
  | start :
      Grown {}
  | add
      {graph : Graph}
      (label : NodeLabel) :
      Grown graph →
      Grown (graph.add label).1
  | attach
      {graph next : Graph}
      {id child : Nat} :
      Grown graph →
      id < graph.nodes.size →
      child < graph.nodes.size →
      (graph.node child).parent = none →
      ¬ graph.Below child id →
      graph.attach id child = .ok next →
      Grown next
  | useRoot
      {graph : Graph}
      {id : Nat} :
      Grown graph →
      id < graph.nodes.size →
      Grown { graph with root := id }

theorem node_of_size_le {id : Nat} (outside : graph.nodes.size ≤ id) :
    graph.node id = default := by
  rw [node, Array.getD_eq_getD_getElem?, Array.getElem?_eq_none outside]
  rfl

/-- What is found among some nodes after one of them was changed. -/
theorem getD_modify
    (nodes : Array GraphNode)
    (id : Nat)
    (change : GraphNode → GraphNode)
    (other : Nat) :
    (nodes.modify id change).getD other default =
      if id = other ∧ id < nodes.size then change (nodes.getD other default)
      else nodes.getD other default := by
  simp only [Array.getD_eq_getD_getElem?, Array.getElem?_modify]
  by_cases same : id = other
  · subst same
    by_cases inside : id < nodes.size
    · simp [inside]
    · simp [inside]
  · simp [same]

/-- Only nodes of the graph have children. -/
theorem Child.lt {parent child : Nat} (isChild : graph.Child parent child) :
    parent < graph.nodes.size := by
  by_contra outside
  rw [Child, childIds, node_of_size_le (Nat.le_of_not_lt outside)] at isChild
  cases isChild

/-- Of two nodes above one node, one is above the other. -/
theorem Forest.below_total
    (forest : graph.Forest)
    {first second id : Nat}
    (firstAbove : graph.Below first id)
    (secondAbove : graph.Below second id) :
    graph.Below first second ∨ graph.Below second first := by
  have oneParent : Relator.RightUnique (Function.swap graph.Child) := by
    intro child parent other isChild isChildOfOther
    have same :=
      (forest.parent parent child isChild).symm.trans
        (forest.parent other child isChildOfOther)
    exact Option.some.inj same
  have upward :=
    Relation.ReflTransGen.total_of_right_unique oneParent
      (Relation.reflTransGen_swap.mpr firstAbove)
      (Relation.reflTransGen_swap.mpr secondAbove)
  rcases upward with upward | upward
  · exact .inr (Relation.reflTransGen_swap.mp upward)
  · exact .inl (Relation.reflTransGen_swap.mp upward)

/-- Nothing is below two children of one node. -/
theorem Forest.eq_of_below_children
    (forest : graph.Forest)
    {top first second id : Nat}
    (firstChild : graph.Child top first)
    (secondChild : graph.Child top second)
    (belowFirst : graph.Below first id)
    (belowSecond : graph.Below second id) :
    first = second := by
  -- The lower of the two children would hang below `top` twice, so `top` below itself.
  have equal_of_below
      {upper lower : Nat}
      (upperChild : graph.Child top upper)
      (lowerChild : graph.Child top lower)
      (below : graph.Below upper lower) :
      lower = upper := by
    rcases Relation.ReflTransGen.cases_tail below with same | ⟨parent, above, isChild⟩
    · exact same
    · have same :=
        (forest.parent parent lower isChild).symm.trans (forest.parent top lower lowerChild)
      cases same
      exact absurd (Relation.TransGen.head' upperChild above) (forest.acyclic top)
  rcases forest.below_total belowFirst belowSecond with below | below
  · exact (equal_of_below firstChild secondChild below).symm
  · exact equal_of_below secondChild firstChild below

section Growing

theorem Forest.start : Forest {} := by
  have childless (parent child : Nat) : ¬ Child {} parent child := by
    intro isChild
    have inside : parent = 0 := Nat.lt_one_iff.mp isChild.lt
    subst inside
    cases isChild
  refine ⟨?_, ?_, ?_, ?_⟩
  · exact fun parent child isChild => absurd isChild (childless parent child)
  · exact fun parent child isChild => absurd isChild (childless parent child)
  · intro id
    rw [List.eq_nil_iff_forall_not_mem.mpr (childless id)]
    exact List.nodup_nil
  · intro id cycle
    obtain ⟨child, isChild, _⟩ := Relation.TransGen.head'_iff.mp cycle
    exact childless id child isChild

/-- A new node comes behind the others and changes none of them. -/
theorem node_add (label : NodeLabel) (id : Nat) :
    (graph.add label).1.node id =
      if id = graph.nodes.size then { label } else graph.node id := by
  simp only [node, add, Array.getD_eq_getD_getElem?, Array.getElem?_push]
  split <;> rfl

/-- A new node has no links. -/
theorem child_add {label : NodeLabel} {parent child : Nat} :
    (graph.add label).1.Child parent child ↔ graph.Child parent child := by
  by_cases isNew : parent = graph.nodes.size
  · subst isNew
    rw [Child, Child, childIds, childIds, node_add, if_pos rfl,
      node_of_size_le (Nat.le_refl _)]
    rfl
  · simp [Child, childIds, node_add, isNew]

/-- A new node keeps a graph a forest. -/
theorem Forest.add (forest : graph.Forest) (label : NodeLabel) :
    (graph.add label).1.Forest := by
  have sameChild : (graph.add label).1.Child = graph.Child := by
    funext parent child
    exact propext child_add
  refine ⟨?_, ?_, ?_, ?_⟩
  · intro parent child isChild
    have inside := forest.inside parent child (child_add.mp isChild)
    simp only [Graph.add, Array.size_push]
    omega
  · intro parent child isChild
    have inside := forest.inside parent child (child_add.mp isChild)
    rw [node_add, if_neg (by omega)]
    exact forest.parent parent child (child_add.mp isChild)
  · intro id
    rw [childIds, node_add]
    split
    · exact List.nodup_nil
    · exact forest.nodup id
  · rw [sameChild]
    exact forest.acyclic

/-- A child can be attached where its name is free. -/
theorem attach_of_child?_eq_none
    {id child : Nat}
    (free : graph.child? id (graph.node child).label.name = none) :
    ∃ next, graph.attach id child = .ok next := by
  rw [attach, free]
  exact ⟨_, rfl⟩

/-- The nodes of a graph after one was attached. -/
theorem node_attach
    {id child : Nat}
    (different : child ≠ id)
    (inside : id < graph.nodes.size)
    (childInside : child < graph.nodes.size)
    (attached : graph.attach id child = .ok next)
    (other : Nat) :
    next.node other =
      if other = id then
        { graph.node id with
          children := (graph.node id).children ++ [((graph.node child).label.name, child)] }
      else if other = child then { graph.node child with parent := some id }
      else graph.node other := by
  rw [attach] at attached
  split at attached
  · cases attached
  · rename_i free
    have appended :
        Table.put (graph.node child).label.name child (graph.node id).children =
          (graph.node id).children ++ [((graph.node child).label.name, child)] := by
      apply Table.put_of_get?_eq_none
      simpa [child?] using free
    rw [← appended]
    cases attached
    simp only [node, getD_modify, Array.size_modify]
    by_cases isParent : id = other
    · subst isParent
      simp [different, inside]
    · by_cases isChild : child = other
      · subst isChild
        simp [different, isParent, childInside]
      · simp [isParent, isChild, Ne.symm isParent, Ne.symm isChild]

theorem size_attach
    {id child : Nat}
    (attached : graph.attach id child = .ok next) :
    next.nodes.size = graph.nodes.size ∧ next.root = graph.root := by
  rw [attach] at attached
  split at attached
  · cases attached
  · cases attached
    simp

/-- Attaching a node tells it its parent and the parent its child. -/
theorem attach_eq_ok
    {id child : Nat}
    (different : child ≠ id)
    (inside : id < graph.nodes.size)
    (childInside : child < graph.nodes.size)
    (attached : graph.attach id child = .ok next) :
    next.nodes.size = graph.nodes.size ∧ next.root = graph.root ∧
      (∀ other, (next.node other).label = (graph.node other).label) ∧
      (∀ other,
        (next.node other).parent =
          if other = child then some id else (graph.node other).parent) ∧
      ∀ other,
        next.childIds other =
          if other = id then graph.childIds id ++ [child] else graph.childIds other := by
  have nodes := node_attach different inside childInside attached
  obtain ⟨sameSize, sameRoot⟩ := size_attach attached
  refine ⟨sameSize, sameRoot, ?_, ?_, ?_⟩
  · intro other
    rw [nodes]
    split
    · rename_i same
      rw [same]
    · split
      · rename_i same
        rw [same]
      · rfl
  · intro other
    rw [nodes]
    split
    · rename_i same
      rw [same, if_neg (Ne.symm different)]
    · split
      · rfl
      · rfl
  · intro other
    rw [childIds, nodes]
    split
    · rw [List.map_append]
      rfl
    · split
      · rename_i same
        rw [same, childIds]
      · rfl

/-- Attaching a node adds one child. -/
theorem child_attach
    {id child : Nat}
    (ids :
      ∀ other,
        next.childIds other =
          if other = id then graph.childIds id ++ [child] else graph.childIds other)
    (upper lower : Nat) :
    next.Child upper lower ↔
      graph.Child upper lower ∨ (upper = id ∧ lower = child) := by
  rw [Child, ids, Child]
  by_cases same : upper = id
  · subst same
    simp
  · simp [same]

/-- A way down in a graph to which a child was added goes through the new child at most
once. -/
theorem below_attach
    {id child : Nat}
    (children :
      ∀ upper lower,
        next.Child upper lower ↔
          graph.Child upper lower ∨ (upper = id ∧ lower = child))
    {top bottom : Nat}
    (below : next.Below top bottom) :
    graph.Below top bottom ∨ (graph.Below top id ∧ graph.Below child bottom) := by
  induction below with
  | refl =>
      exact .inl .refl
  | @tail upper lower _ isChild inductionHypothesis =>
      rcases (children upper lower).mp isChild with old | ⟨rfl, rfl⟩
      · rcases inductionHypothesis with direct | ⟨above, below⟩
        · exact .inl (direct.tail old)
        · exact .inr ⟨above, below.tail old⟩
      · rcases inductionHypothesis with direct | ⟨above, _⟩
        · exact .inr ⟨direct, .refl⟩
        · exact .inr ⟨above, .refl⟩

/-- Attaching a node that hangs nowhere, and not below itself, leaves a forest. -/
theorem Forest.attach
    (forest : graph.Forest)
    {id child : Nat}
    (inside : id < graph.nodes.size)
    (childInside : child < graph.nodes.size)
    (isFree : (graph.node child).parent = none)
    (notBelow : ¬ graph.Below child id)
    (attached : graph.attach id child = .ok next) :
    next.Forest := by
  have different : child ≠ id := by
    rintro rfl
    exact notBelow .refl
  obtain ⟨sameSize, _, _, parents, ids⟩ :=
    attach_eq_ok different inside childInside attached
  have children := child_attach ids
  have noParent (upper : Nat) : ¬ graph.Child upper child := by
    intro isChild
    rw [forest.parent upper child isChild] at isFree
    cases isFree
  refine ⟨?_, ?_, ?_, ?_⟩
  · intro upper lower isChild
    rw [sameSize]
    rcases (children upper lower).mp isChild with old | ⟨_, rfl⟩
    · exact forest.inside upper lower old
    · exact childInside
  · intro upper lower isChild
    rw [parents]
    rcases (children upper lower).mp isChild with old | ⟨rfl, rfl⟩
    · have other : lower ≠ child := by
        rintro rfl
        exact noParent upper old
      rw [if_neg other]
      exact forest.parent upper lower old
    · rw [if_pos rfl]
  · intro other
    rw [ids]
    split
    · rw [← List.concat_eq_append]
      exact (forest.nodup id).concat (noParent id)
    · exact forest.nodup other
  · intro other cycle
    obtain ⟨lower, isChild, back⟩ := Relation.TransGen.head'_iff.mp cycle
    rcases (children other lower).mp isChild with old | ⟨rfl, rfl⟩
    · rcases below_attach children back with direct | ⟨above, below⟩
      · exact forest.acyclic other (.head' old direct)
      · exact notBelow (below.trans (Relation.ReflTransGen.head old above))
    · rcases below_attach children back with direct | ⟨_, below⟩
      · exact notBelow direct
      · exact notBelow below

end Growing

/-- A grown graph is a forest, and its root is one of its nodes. -/
theorem Grown.forest (grown : graph.Grown) :
    graph.Forest ∧ graph.root < graph.nodes.size := by
  induction grown with
  | start =>
      exact ⟨.start, Nat.one_pos⟩
  | add label _ inductionHypothesis =>
      obtain ⟨forest, inside⟩ := inductionHypothesis
      refine ⟨forest.add label, ?_⟩
      simp only [Graph.add, Array.size_push]
      omega
  | @attach graph next id child _ inside childInside isFree notBelow attached
      inductionHypothesis =>
      obtain ⟨forest, rootInside⟩ := inductionHypothesis
      refine ⟨forest.attach inside childInside isFree notBelow attached, ?_⟩
      have different : child ≠ id := by
        rintro rfl
        exact notBelow .refl
      obtain ⟨sameSize, sameRoot, _⟩ := attach_eq_ok different inside childInside attached
      rw [sameSize, sameRoot]
      exact rootInside
  | useRoot _ inside inductionHypothesis =>
      exact ⟨⟨inductionHypothesis.1.inside, inductionHypothesis.1.parent,
        inductionHypothesis.1.nodup, inductionHypothesis.1.acyclic⟩, inside⟩

end ApkAtlas.Package.Graph
