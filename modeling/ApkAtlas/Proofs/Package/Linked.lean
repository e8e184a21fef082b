import ApkAtlas.Proofs.Package.GraphTotals
import ApkAtlas.Proofs.Table

namespace ApkAtlas.Package.Graph

/-!
# Nodes that know their places

A node is reached from above through the tables of children, and tells its path upward through
its parents. In a graph that grows by hanging new nodes below old ones the two agree: a path
leads to the node that tells it, so no two nodes tell the same one.
-/

variable {graph next : Graph}

/-- Every node but the root hangs, under its own name, below a node that is older. -/
structure Linked (graph : Graph) : Prop where
  root : graph.root = 0
  top : (graph.node 0).parent = none
  inside : 0 < graph.nodes.size
  names : ∀ id, ((graph.node id).children.map Prod.fst).Nodup
  child : ∀ id name child, (name, child) ∈ (graph.node id).children →
    (graph.node child).label.name = name ∧ (graph.node child).parent = some id ∧
      id < child ∧ child < graph.nodes.size
  held : ∀ id, 0 < id → id < graph.nodes.size →
    ∃ holder, ((graph.node id).label.name, id) ∈ (graph.node holder).children

section Places

variable {id : Nat} {path : List String}

/-- A name finds exactly the child that is listed under it. -/
theorem Linked.child?_eq_some_iff
    (linked : graph.Linked)
    {name : String}
    {child : Nat} :
    graph.child? id name = some child ↔ (name, child) ∈ (graph.node id).children :=
  Table.get?_eq_some_iff (linked.names id)

/-- Only nodes of the graph have children. -/
theorem lt_of_mem_children
    {name : String}
    {child : Nat}
    (member : (name, child) ∈ (graph.node id).children) :
    id < graph.nodes.size :=
  Child.lt (List.mem_map_of_mem member : child ∈ graph.childIds id)

/-- Nodes that know their places form a forest. -/
theorem Linked.forest (linked : graph.Linked) : graph.Forest := by
  have older (parent child : Nat) (isChild : graph.Child parent child) :
      (graph.node child).parent = some parent ∧ parent < child ∧ child < graph.nodes.size := by
    obtain ⟨⟨name, _⟩, member, rfl⟩ := List.mem_map.mp isChild
    exact (linked.child parent name _ member).2
  refine ⟨?_, ?_, ?_, ?_⟩
  · exact fun parent child isChild => (older parent child isChild).2.2
  · exact fun parent child isChild => (older parent child isChild).1
  · intro id
    have named :
        (graph.node id).children.map Prod.fst =
          (graph.childIds id).map fun child => (graph.node child).label.name := by
      rw [childIds, List.map_map]
      apply List.map_congr_left
      rintro ⟨name, child⟩ member
      exact (linked.child id name child member).1.symm
    have different := linked.names id
    rw [named] at different
    exact different.of_map
  · intro id cycle
    have rising : Relation.TransGen graph.Child ≤ fun first second => first < second :=
      Relation.transGen_minimal fun parent child isChild => (older parent child isChild).2.1
    exact Nat.lt_irrefl id (rising id id cycle)

theorem linked_start : Linked {} := by
  have childless (id : Nat) : (Graph.node {} id).children = [] := by
    rw [List.eq_nil_iff_forall_not_mem]
    rintro ⟨name, child⟩ member
    have first : id = 0 := Nat.lt_one_iff.mp (lt_of_mem_children member)
    subst first
    cases member
  refine ⟨rfl, rfl, Nat.one_pos, ?_, ?_, ?_⟩
  · intro id
    rw [childless]
    exact List.nodup_nil
  · intro id name child member
    rw [childless] at member
    cases member
  · intro id positive inside
    exact absurd inside (Nat.not_lt_of_le positive)

/-- A path can be followed in two parts. -/
theorem find?_append (front back : List String) :
    graph.find? (front ++ back) =
      (graph.find? front).bind fun id => back.foldlM graph.child? id := by
  rw [find?, List.foldlM_append]
  rfl

/-- The last name of a path is looked up in the node that the others lead to. -/
theorem find?_concat (path : List String) (name : String) :
    graph.find? (path ++ [name]) = (graph.find? path).bind fun id => graph.child? id name := by
  rw [find?_append]
  congr 1
  funext id
  simp

/-- The path that a node tells leads to it. -/
theorem Linked.exists_path
    (linked : graph.Linked)
    (inside : id < graph.nodes.size) :
    ∃ path, (∀ fuel, id < fuel → graph.pathWith fuel id = path) ∧ graph.find? path = some id := by
  -- A node hangs below an older one, so the way up goes through ever smaller numbers.
  induction id using Nat.strongRecOn with
  | ind id inductionHypothesis =>
      rcases Nat.eq_zero_or_pos id with rfl | positive
      · refine ⟨[], ?_, ?_⟩
        · rintro (_ | fuel) enough
          · cases enough
          · rw [pathWith, linked.top]
        · rw [find?, linked.root]
          rfl
      · obtain ⟨holder, held⟩ := linked.held id positive inside
        obtain ⟨_, parent, older, _⟩ := linked.child holder _ id held
        obtain ⟨path, told, leads⟩ :=
          inductionHypothesis holder older (older.trans inside)
        refine ⟨path ++ [(graph.node id).label.name], ?_, ?_⟩
        · rintro (_ | fuel) enough
          · cases enough
          · rw [pathWith, parent]
            dsimp only
            rw [told fuel (by omega)]
        · rw [find?_concat, leads]
          exact linked.child?_eq_some_iff.mpr held

/-- The path of a node leads to it. -/
theorem Linked.find?_path
    (linked : graph.Linked)
    (inside : id < graph.nodes.size) :
    graph.find? (graph.path id) = some id := by
  obtain ⟨path, told, leads⟩ := linked.exists_path inside
  rw [Graph.path, told graph.fuel (by rw [fuel]; omega)]
  exact leads

theorem Linked.path_root (linked : graph.Linked) : graph.path 0 = [] := by
  rw [Graph.path, fuel, pathWith, linked.top]

/-- The path of a child is that of its parent and its name. -/
theorem Linked.path_child
    (linked : graph.Linked)
    {name : String}
    {child : Nat}
    (member : (name, child) ∈ (graph.node id).children) :
    graph.path child = graph.path id ++ [name] := by
  obtain ⟨named, parent, older, inside⟩ := linked.child id name child member
  obtain ⟨path, told, _⟩ := linked.exists_path (lt_of_mem_children member)
  rw [Graph.path, Graph.path, told graph.fuel (by rw [fuel]; omega), fuel, pathWith, parent, named]
  dsimp only
  rw [told graph.nodes.size (by omega)]

/-- A node that a path leads to tells the path. -/
theorem Linked.path_of_find?
    (linked : graph.Linked)
    (found : graph.find? path = some id) :
    id < graph.nodes.size ∧ graph.path id = path := by
  induction path using List.reverseRecOn generalizing id with
  | nil =>
      rw [find?, linked.root] at found
      cases found
      exact ⟨linked.inside, linked.path_root⟩
  | append_singleton path name inductionHypothesis =>
      rw [find?_concat, Option.bind_eq_some_iff] at found
      obtain ⟨holder, leads, isChild⟩ := found
      rw [linked.child?_eq_some_iff] at isChild
      refine ⟨(linked.child holder name id isChild).2.2.2, ?_⟩
      rw [linked.path_child isChild, (inductionHypothesis leads).2]

/-- A node goes by the last name on its path. -/
theorem Linked.name_of_find?
    (linked : graph.Linked)
    {name : String}
    (found : graph.find? (path ++ [name]) = some id) :
    (graph.node id).label.name = name := by
  rw [find?_concat, Option.bind_eq_some_iff] at found
  obtain ⟨holder, _, isChild⟩ := found
  exact (linked.child holder name id (linked.child?_eq_some_iff.mp isChild)).1

/-- A path leads to a node exactly if it is the path of the node. -/
theorem Linked.find?_eq_some_iff
    (linked : graph.Linked) :
    graph.find? path = some id ↔ id < graph.nodes.size ∧ graph.path id = path := by
  constructor
  · exact linked.path_of_find?
  · rintro ⟨inside, rfl⟩
    exact linked.find?_path inside

/-- No two nodes tell the same path. -/
theorem Linked.path_injective
    (linked : graph.Linked)
    {other : Nat}
    (inside : id < graph.nodes.size)
    (otherInside : other < graph.nodes.size)
    (same : graph.path id = graph.path other) :
    id = other := by
  have leads := linked.find?_path inside
  rw [same, linked.find?_path otherInside] at leads
  exact (Option.some.inj leads).symm

/-- A node is below another exactly if its path goes on from that of the other. -/
theorem Linked.below_iff
    (linked : graph.Linked)
    {top : Nat}
    (topInside : top < graph.nodes.size)
    (inside : id < graph.nodes.size) :
    graph.Below top id ↔ graph.path top <+: graph.path id := by
  constructor
  · intro below
    clear inside
    induction below with
    | refl =>
        exact List.prefix_refl _
    | tail _ isChild inductionHypothesis =>
        obtain ⟨⟨name, _⟩, member, rfl⟩ := List.mem_map.mp isChild
        rw [linked.path_child member]
        exact inductionHypothesis.trans (List.prefix_append _ _)
  · rintro ⟨rest, goesOn⟩
    induction rest using List.reverseRecOn generalizing id with
    | nil =>
        rw [List.append_nil] at goesOn
        rw [linked.path_injective topInside inside goesOn]
        exact .refl
    | append_singleton rest name inductionHypothesis =>
        have leads := linked.find?_path inside
        rw [← goesOn, ← List.append_assoc, find?_concat, Option.bind_eq_some_iff] at leads
        obtain ⟨holder, holderLeads, isChild⟩ := leads
        obtain ⟨holderInside, holderPath⟩ := linked.path_of_find? holderLeads
        have member := linked.child?_eq_some_iff.mp isChild
        exact (inductionHypothesis holderInside holderPath.symm).tail
          (List.mem_map_of_mem member)

end Places

section Hanging

/-- Hangs a new node below another one. -/
def hang (graph : Graph) (id : Nat) (label : NodeLabel) : Except ExternalError (Graph × Nat) := do
  let (grown, child) := graph.add label
  return (← grown.attach id child, child)

/-- A graph after a node was hung below another one. -/
structure Hung (graph : Graph) (id : Nat) (label : NodeLabel) (next : Graph) : Prop where
  size : next.nodes.size = graph.nodes.size + 1
  root : next.root = graph.root
  node : ∀ other,
    next.node other =
      if other = id then
        { graph.node id with
          children := (graph.node id).children ++ [(label.name, graph.nodes.size)] }
      else if other = graph.nodes.size then { label, parent := some id }
      else graph.node other

variable {id : Nat} {label : NodeLabel}

/-- A node can be hung below another one that has no child of its name. -/
theorem exists_hung
    (inside : id < graph.nodes.size)
    (free : graph.child? id label.name = none) :
    ∃ next, graph.hang id label = .ok (next, graph.nodes.size) ∧ Hung graph id label next := by
  have newSize : (graph.add label).1.nodes.size = graph.nodes.size + 1 :=
    Array.size_push _
  have isNew : (graph.add label).1.node graph.nodes.size = { label } := by
    rw [node_add, if_pos rfl]
  have isOld : (graph.add label).1.node id = graph.node id := by
    rw [node_add, if_neg (by omega)]
  have stillFree :
      (graph.add label).1.child? id ((graph.add label).1.node graph.nodes.size).label.name =
        none := by
    rw [child?, isNew, isOld]
    exact free
  obtain ⟨next, attached⟩ := attach_of_child?_eq_none stillFree
  refine ⟨next, ?_, ?_⟩
  · change (graph.add label).1.attach id graph.nodes.size >>= _ = _
    rw [attached]
    rfl
  · obtain ⟨sameSize, sameRoot⟩ := size_attach attached
    refine ⟨sameSize.trans newSize, sameRoot, ?_⟩
    intro other
    rw [node_attach (by omega) (by omega) (by omega) attached, isNew, isOld, node_add]
    split
    · rfl
    · split
      · rfl
      · rfl

namespace Hung

/-- The label and the parent of an old node stay. -/
theorem old
    (hung : Hung graph id label next)
    {other : Nat}
    (inside : other < graph.nodes.size) :
    (next.node other).label = (graph.node other).label ∧
      (next.node other).parent = (graph.node other).parent := by
  rw [hung.node]
  split
  · rename_i same
    rw [same]
    exact ⟨rfl, rfl⟩
  · rw [if_neg (by omega)]
    exact ⟨rfl, rfl⟩

theorem mem_children
    (hung : Hung graph id label next)
    {holder child : Nat}
    {name : String} :
    (name, child) ∈ (next.node holder).children ↔
      (name, child) ∈ (graph.node holder).children ∨
        holder = id ∧ name = label.name ∧ child = graph.nodes.size := by
  rw [hung.node]
  split
  · rename_i same
    simp [same]
  · rename_i different
    split
    · rename_i isNew
      rw [isNew, node_of_size_le (Nat.le_refl _)]
      simp only [← isNew, different, false_and, or_false]
      exact ⟨fun member => (List.not_mem_nil member).elim,
        fun member => (List.not_mem_nil member).elim⟩
    · simp [different]

/-- Hanging a node under a free name keeps the graph linked. -/
theorem linked
    (hung : Hung graph id label next)
    (linked : graph.Linked)
    (inside : id < graph.nodes.size)
    (free : graph.child? id label.name = none) :
    next.Linked where
  root := hung.root.trans linked.root
  top := by
    rw [(hung.old linked.inside).2, linked.top]
  inside := by
    rw [hung.size]
    omega
  names := by
    intro other
    rw [hung.node]
    split
    · have absent : label.name ∉ (graph.node id).children.map Prod.fst := by
        rw [Table.mem_keys_iff, not_not]
        exact free
      rw [List.map_append, List.map_singleton, ← List.concat_eq_append]
      exact (linked.names id).concat absent
    · split
      · exact List.nodup_nil
      · exact linked.names other
  child := by
    intro holder name child member
    rcases hung.mem_children.mp member with old | ⟨rfl, rfl, rfl⟩
    · obtain ⟨named, parent, older, childInside⟩ := linked.child holder name child old
      obtain ⟨sameLabel, sameParent⟩ := hung.old childInside
      rw [sameLabel, sameParent, hung.size]
      exact ⟨named, parent, older, by omega⟩
    · rw [hung.node, if_neg (by omega), if_pos rfl, hung.size]
      exact ⟨rfl, rfl, inside, by omega⟩
  held := by
    intro other positive otherInside
    rw [hung.size] at otherInside
    by_cases isNew : other = graph.nodes.size
    · refine ⟨id, hung.mem_children.mpr (.inr ⟨rfl, ?_, isNew⟩)⟩
      rw [hung.node, if_neg (by omega), if_pos isNew]
    · have isOld : other < graph.nodes.size := by
        omega
      obtain ⟨holder, held⟩ := linked.held other positive isOld
      refine ⟨holder, hung.mem_children.mpr (.inl ?_)⟩
      rw [(hung.old isOld).1]
      exact held

/-- The children of a name are the same as before, but for the new one. -/
theorem child?_eq
    (hung : Hung graph id label next)
    (linked : graph.Linked)
    (inside : id < graph.nodes.size)
    (free : graph.child? id label.name = none)
    (holder : Nat)
    (name : String) :
    next.child? holder name =
      if holder = id ∧ name = label.name then some graph.nodes.size
      else graph.child? holder name := by
  apply Option.ext
  intro child
  rw [(hung.linked linked inside free).child?_eq_some_iff, hung.mem_children,
    ← linked.child?_eq_some_iff]
  split
  · rename_i here
    obtain ⟨rfl, rfl⟩ := here
    simp [free, eq_comm]
  · rename_i elsewhere
    simp only [or_iff_left_iff_imp]
    rintro ⟨sameHolder, sameName, _⟩
    exact absurd ⟨sameHolder, sameName⟩ elsewhere

/-- Paths lead to the same nodes as before, but for the one to the new node. -/
theorem find?_eq
    (hung : Hung graph id label next)
    (linked : graph.Linked)
    (inside : id < graph.nodes.size)
    (free : graph.child? id label.name = none)
    (path : List String) :
    next.find? path =
      if path = graph.path id ++ [label.name] then some graph.nodes.size
      else graph.find? path := by
  have child := hung.child?_eq linked inside free
  -- Paths are taken from their ends, where a lookup makes its last step.
  induction path using List.reverseRecOn with
  | nil =>
      rw [if_neg (by simp), find?, find?, hung.root]
      rfl
  | append_singleton path name inductionHypothesis =>
      have childless : graph.child? graph.nodes.size name = none := by
        rw [child?, node_of_size_le (Nat.le_refl _)]
        rfl
      rw [find?_concat, find?_concat, inductionHypothesis]
      split
      · rename_i isNew
        have missing : graph.find? path = none := by
          rw [isNew, find?_concat, linked.find?_path inside]
          exact free
        have longer : path ++ [name] ≠ graph.path id ++ [label.name] := by
          intro same
          rw [isNew] at same
          simpa using congrArg List.length same
        rw [if_neg longer, missing, Option.bind_some, child, childless, if_neg]
        · rfl
        · rintro ⟨same, _⟩
          omega
      · cases found : graph.find? path with
        | none =>
            rw [if_neg]
            · rfl
            · intro same
              obtain ⟨rfl, _⟩ := List.append_inj' same rfl
              rw [linked.find?_path inside] at found
              cases found
        | some holder =>
            obtain ⟨holderInside, rfl⟩ := linked.path_of_find? found
            rw [Option.bind_some, child, Option.bind_some]
            have here :
                holder = id ∧ name = label.name ↔
                  graph.path holder ++ [name] = graph.path id ++ [label.name] := by
              constructor
              · rintro ⟨rfl, rfl⟩
                rfl
              · intro same
                obtain ⟨samePath, sameName⟩ := List.append_inj' same rfl
                exact ⟨linked.path_injective holderInside inside samePath,
                  List.singleton_inj.mp sameName⟩
            simp only [here]

end Hung

end Hanging

section Labels

/-- The label of the node at a path. -/
def labelAt? (graph : Graph) (path : List String) : Option NodeLabel :=
  (graph.find? path).map fun id => (graph.node id).label

/-- The labels of a graph after a node was hung below another one. -/
theorem Hung.labelAt?
    {id : Nat}
    {label : NodeLabel}
    (hung : Hung graph id label next)
    (linked : graph.Linked)
    (inside : id < graph.nodes.size)
    (free : graph.child? id label.name = none)
    (path : List String) :
    next.labelAt? path =
      if path = graph.path id ++ [label.name] then some label else graph.labelAt? path := by
  rw [Graph.labelAt?, hung.find?_eq linked inside free, Graph.labelAt?]
  split
  · rw [Option.map_some, hung.node, if_neg (by omega), if_pos rfl]
  · cases found : graph.find? path with
    | none =>
        rfl
    | some other =>
        rw [Option.map_some, Option.map_some,
          (hung.old (linked.path_of_find? found).1).1]

/-- A new node can be hung below one that has no child of its name, and nothing else moves. -/
theorem Linked.exists_hang
    (linked : graph.Linked)
    {path : List String}
    {id : Nat}
    (leads : graph.find? path = some id)
    {label : NodeLabel}
    (free : graph.child? id label.name = none) :
    ∃ next child,
      graph.hang id label = .ok (next, child) ∧
        next.Linked ∧
        next.find? (path ++ [label.name]) = some child ∧
        ∀ other,
          next.labelAt? other =
            if other = path ++ [label.name] then some label else graph.labelAt? other := by
  obtain ⟨inside, rfl⟩ := linked.path_of_find? leads
  obtain ⟨next, made, hung⟩ := exists_hung inside free
  refine ⟨next, graph.nodes.size, made, hung.linked linked inside free, ?_, ?_⟩
  · rw [hung.find?_eq linked inside free, if_pos rfl]
  · exact hung.labelAt? linked inside free

/-- Two graphs with the same nodes but for what their labels say beyond the name. -/
structure SameLinks (graph next : Graph) : Prop where
  size : next.nodes.size = graph.nodes.size
  root : next.root = graph.root
  name : ∀ id, (next.node id).label.name = (graph.node id).label.name
  parent : ∀ id, (next.node id).parent = (graph.node id).parent
  children : ∀ id, (next.node id).children = (graph.node id).children

namespace SameLinks

/-- The same links are linked alike. -/
theorem linked
    (same : SameLinks graph next)
    (linked : graph.Linked) :
    next.Linked where
  root := same.root.trans linked.root
  top := (same.parent 0).trans linked.top
  inside := same.size ▸ linked.inside
  names id := by
    rw [same.children]
    exact linked.names id
  child id name child member := by
    rw [same.children] at member
    rw [same.name, same.parent, same.size]
    exact linked.child id name child member
  held id positive inside := by
    rw [same.size] at inside
    simp only [same.name, same.children]
    exact linked.held id positive inside

/-- The same links lead to the same nodes. -/
theorem find?_eq (same : SameLinks graph next) : next.find? = graph.find? := by
  have child : next.child? = graph.child? := by
    funext id name
    rw [child?, child?, same.children]
  funext path
  rw [find?, find?, child, same.root]

end SameLinks

/-- Writes another label to a node. -/
def relabel (graph : Graph) (id : Nat) (label : NodeLabel) : Graph :=
  { graph with nodes := graph.nodes.modify id fun node => { node with label } }

variable {id : Nat} {label : NodeLabel}

/-- Only the node that is written to changes. -/
theorem node_relabel
    (inside : id < graph.nodes.size)
    (label : NodeLabel)
    (other : Nat) :
    (graph.relabel id label).node other =
      if other = id then { graph.node id with label } else graph.node other := by
  simp only [node, relabel, getD_modify, inside, and_true]
  by_cases same : id = other
  · rw [if_pos same, if_pos same.symm, same]
  · rw [if_neg same, if_neg (Ne.symm same)]

/-- A label with the same name leaves the links as they are. -/
theorem sameLinks_relabel
    (inside : id < graph.nodes.size)
    (named : label.name = (graph.node id).label.name) :
    SameLinks graph (graph.relabel id label) := by
  refine ⟨Array.size_modify, rfl, ?_, ?_, ?_⟩ <;>
    intro other <;>
    rw [node_relabel inside] <;>
    split <;>
    rename_i same
  · rw [same]
    exact named
  · rfl
  · rw [same]
  · rfl
  · rw [same]
  · rfl

/-- The new label is found at the path of its node, and no other one changes. -/
theorem Linked.labelAt?_relabel
    (linked : graph.Linked)
    (inside : id < graph.nodes.size)
    (named : label.name = (graph.node id).label.name)
    (path : List String) :
    (graph.relabel id label).labelAt? path =
      if path = graph.path id then some label else graph.labelAt? path := by
  rw [labelAt?, (sameLinks_relabel inside named).find?_eq, labelAt?]
  split
  · rename_i here
    rw [here, linked.find?_path inside, Option.map_some, node_relabel inside, if_pos rfl]
  · rename_i elsewhere
    cases found : graph.find? path with
    | none =>
        rfl
    | some other =>
        have different : other ≠ id := by
          rintro rfl
          exact elsewhere (linked.path_of_find? found).2.symm
        rw [Option.map_some, Option.map_some, node_relabel inside, if_neg different]

end Labels

end ApkAtlas.Package.Graph
