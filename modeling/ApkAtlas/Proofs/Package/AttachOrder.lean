import ApkAtlas.Proofs.Package.GraphTotals
import ApkAtlas.Proofs.Table

namespace ApkAtlas.Package.Graph

/-!
# Children attached in another order

Attaching succeeds as long as names are new, so it does not depend on the order. Graphs
that were made in different orders differ by the order of children only, and a roll-up
derives the same totals in both of them.
-/

variable {graph next : Graph}

/-- The name of a node. -/
def nameOf (graph : Graph) (id : Nat) : String :=
  (graph.node id).label.name

/-- Attaches nodes under one node, one after another. -/
def attachAll (graph : Graph) (id : Nat) (order : List Nat) : Except ExternalError Graph :=
  order.foldlM (fun graph child => graph.attach id child) graph

/-- A graph with more children under one node, and no other difference but parents. -/
structure Extended (before after : Graph) (id : Nat) (order : List Nat) : Prop where
  size : after.nodes.size = before.nodes.size
  root : after.root = before.root
  label : ∀ other, (after.node other).label = (before.node other).label
  children :
    (after.node id).children =
      (before.node id).children ++ order.map fun child => (before.nameOf child, child)
  others : ∀ other, other ≠ id → (after.node other).children = (before.node other).children

/-- No two of the nodes have one name, and none is named like a child that is there. -/
structure Fits (graph : Graph) (id : Nat) (order : List Nat) : Prop where
  nodup : (order.map graph.nameOf).Nodup
  free : ∀ child ∈ order, graph.nameOf child ∉ (graph.node id).children.map Prod.fst

/-- Attaching a child extends a node by it. -/
theorem extended_attach
    {id child : Nat}
    (inside : id < graph.nodes.size)
    (attached : graph.attach id child = .ok next) :
    Extended graph next id [child] := by
  obtain ⟨sameSize, sameRoot⟩ := size_attach attached
  rw [attach] at attached
  split at attached
  · cases attached
  · rename_i free
    rw [Bool.not_eq_true, Option.isSome_eq_false_iff, Option.isNone_iff_eq_none] at free
    have put := Table.put_of_get?_eq_none free child
    cases attached
    refine ⟨sameSize, sameRoot, ?_, ?_, ?_⟩
    · intro other
      simp only [node, getD_modify]
      split <;> split <;> rfl
    · have adopted (parent : Option Nat) (node : GraphNode) :
          GraphNode.children (if child = id ∧ child < graph.nodes.size then { node with parent }
            else node) = node.children := by
        split <;> rfl
      simp only [node, getD_modify, Array.size_modify, inside, and_self, if_true, adopted]
      exact put
    · intro other different
      simp only [node, getD_modify, different.symm, false_and, if_false]
      split <;> rfl

theorem Extended.start (graph : Graph) (id : Nat) : Extended graph graph id [] where
  size := rfl
  root := rfl
  label _ := rfl
  children := (List.append_nil _).symm
  others _ _ := rfl

/-- Extending a node leaves all names. -/
theorem Extended.nameOf
    {id : Nat}
    {order : List Nat}
    (extended : Extended graph next id order) :
    next.nameOf = graph.nameOf := by
  funext other
  rw [Graph.nameOf, Graph.nameOf, extended.label]

/-- An extended node has the names of the new children behind the others. -/
theorem Extended.keys
    {id : Nat}
    {order : List Nat}
    (extended : Extended graph next id order) :
    (next.node id).children.map Prod.fst =
      (graph.node id).children.map Prod.fst ++ order.map graph.nameOf := by
  rw [extended.children, List.map_append, List.map_map]
  rfl

/-- Only the node that is extended has new children. -/
theorem Extended.childIds
    {id : Nat}
    {order : List Nat}
    (extended : Extended graph next id order)
    (other : Nat) :
    next.childIds other =
      if other = id then graph.childIds id ++ order else graph.childIds other := by
  rw [Graph.childIds]
  split
  · rename_i same
    rw [same, extended.children, List.map_append, List.map_map]
    exact congrArg _ (List.map_id order)
  · rename_i different
    rw [extended.others other different]
    rfl

/-- What is attached after other nodes comes behind them. -/
theorem Extended.trans
    {after : Graph}
    {id : Nat}
    {order more : List Nat}
    (first : Extended graph next id order)
    (second : Extended next after id more) :
    Extended graph after id (order ++ more) where
  size := second.size.trans first.size
  root := second.root.trans first.root
  label other := (second.label other).trans (first.label other)
  children := by
    rw [second.children, first.children, first.nameOf, List.map_append, List.append_assoc]
  others other different := (second.others other different).trans (first.others other different)

/-- After one node is attached, others fit as they did before together with it. -/
theorem Extended.fits_iff
    {id child : Nat}
    {rest : List Nat}
    (extended : Extended graph next id [child])
    (free : graph.nameOf child ∉ (graph.node id).children.map Prod.fst) :
    next.Fits id rest ↔ graph.Fits id (child :: rest) := by
  have keys := extended.keys
  rw [List.map_singleton] at keys
  constructor
  · rintro ⟨nodup, restFree⟩
    rw [extended.nameOf] at nodup restFree
    rw [keys] at restFree
    refine ⟨?_, ?_⟩
    · rw [List.map_cons, List.nodup_cons]
      refine ⟨fun again => ?_, nodup⟩
      obtain ⟨other, inRest, same⟩ := List.mem_map.mp again
      exact restFree other inRest (by simp [same])
    · rw [List.forall_mem_cons]
      exact ⟨free, fun other inRest isKey =>
        restFree other inRest (List.mem_append_left _ isKey)⟩
  · rintro ⟨nodup, allFree⟩
    rw [List.map_cons, List.nodup_cons] at nodup
    refine ⟨?_, ?_⟩
    · rw [extended.nameOf]
      exact nodup.2
    · intro other inRest
      rw [extended.nameOf, keys, List.mem_append, List.mem_singleton, not_or]
      refine ⟨allFree other (List.mem_cons_of_mem _ inRest), fun same => nodup.1 ?_⟩
      rw [← same]
      exact List.mem_map_of_mem inRest

/-- A node is attached exactly if its name is new. -/
theorem attach_iff_free {id child : Nat} :
    (∃ next, graph.attach id child = .ok next) ↔
      graph.nameOf child ∉ (graph.node id).children.map Prod.fst := by
  rw [Table.mem_keys_iff, not_not]
  constructor
  · rintro ⟨next, attached⟩
    rw [attach] at attached
    split at attached
    · cases attached
    · rename_i free
      simpa [child?, nameOf] using free
  · exact attach_of_child?_eq_none

/-- Nodes that were attached one after another fit, and are now children. -/
theorem extended_attachAll
    {id : Nat}
    {order : List Nat}
    (inside : id < graph.nodes.size)
    (attached : graph.attachAll id order = .ok next) :
    Extended graph next id order ∧ graph.Fits id order := by
  induction order generalizing graph with
  | nil =>
      cases attached
      exact ⟨.start _ id, List.nodup_nil, fun _ member => nomatch member⟩
  | cons child rest inductionHypothesis =>
      rw [attachAll, List.foldlM_cons] at attached
      cases first : graph.attach id child with
      | error error =>
          rw [first] at attached
          cases attached
      | ok middle =>
          rw [first] at attached
          have step := extended_attach inside first
          obtain ⟨extended, fits⟩ := inductionHypothesis (step.size.symm ▸ inside) attached
          exact ⟨step.trans extended, (step.fits_iff (attach_iff_free.mp ⟨middle, first⟩)).mp fits⟩

/-- Nodes that fit can be attached one after another. -/
theorem exists_attachAll
    {id : Nat}
    {order : List Nat}
    (inside : id < graph.nodes.size)
    (fits : graph.Fits id order) :
    ∃ next, graph.attachAll id order = .ok next := by
  induction order generalizing graph with
  | nil =>
      exact ⟨graph, rfl⟩
  | cons child rest inductionHypothesis =>
      have free := fits.free child List.mem_cons_self
      obtain ⟨middle, first⟩ := attach_iff_free.mpr free
      have step := extended_attach inside first
      rw [attachAll, List.foldlM_cons, first]
      exact inductionHypothesis (step.size.symm ▸ inside) ((step.fits_iff free).mpr fits)

/-- Graphs made of new nodes that are attached in any way. -/
inductive Made : Graph → Prop where
  | start :
      Made {}
  | add
      {graph : Graph}
      (label : NodeLabel) :
      Made graph →
      Made (graph.add label).1
  | attach
      {graph next : Graph}
      {id child : Nat} :
      Made graph →
      id < graph.nodes.size →
      child < graph.nodes.size →
      graph.attach id child = .ok next →
      Made next
  | useRoot
      {graph : Graph}
      {id : Nat} :
      Made graph →
      id < graph.nodes.size →
      Made { graph with root := id }

/-- The children of each node are nodes and stand under their names, which are different. -/
structure Named (graph : Graph) : Prop where
  rootInside : graph.root < graph.nodes.size
  inside : ∀ parent child, graph.Child parent child → child < graph.nodes.size
  keys : ∀ id, (graph.node id).children.map Prod.fst = (graph.childIds id).map graph.nameOf
  nodup : ∀ id, ((graph.node id).children.map Prod.fst).Nodup

theorem named_start : Named {} := by
  have childless (id : Nat) : (Graph.node {} id).children = [] := by
    cases id <;> rfl
  refine ⟨Nat.one_pos, ?_, ?_, ?_⟩
  · intro parent child isChild
    rw [Child, childIds, childless] at isChild
    cases isChild
  · intro id
    rw [childIds, childless]
    rfl
  · intro id
    rw [childless]
    exact List.nodup_nil

/-- A new node keeps a graph named. -/
theorem Named.add (named : graph.Named) (label : NodeLabel) : (graph.add label).1.Named := by
  have size : (graph.add label).1.nodes.size = graph.nodes.size + 1 :=
    Array.size_push _
  have sameChildren (id : Nat) :
      ((graph.add label).1.node id).children = (graph.node id).children := by
    rw [node_add]
    split
    · rename_i isNew
      rw [node_of_size_le (Nat.le_of_eq isNew.symm)]
      rfl
    · rfl
  refine ⟨size ▸ Nat.lt_succ_of_lt named.rootInside, ?_, ?_, ?_⟩
  · intro parent child isChild
    rw [size]
    exact Nat.lt_succ_of_lt (named.inside parent child (child_add.mp isChild))
  · intro id
    rw [childIds, sameChildren, named.keys, ← childIds]
    apply List.map_congr_left
    intro child isChild
    have old : child ≠ graph.nodes.size := Nat.ne_of_lt (named.inside id child isChild)
    rw [nameOf, nameOf, node_add, if_neg old]
  · intro id
    rw [sameChildren]
    exact named.nodup id

/-- Attaching a child keeps a graph named. -/
theorem Named.attach
    (named : graph.Named)
    {id child : Nat}
    (inside : id < graph.nodes.size)
    (childInside : child < graph.nodes.size)
    (attached : graph.attach id child = .ok next) :
    next.Named := by
  have extended := extended_attach inside attached
  have free := attach_iff_free.mp ⟨next, attached⟩
  refine ⟨?_, ?_, ?_, ?_⟩
  · rw [extended.size, extended.root]
    exact named.rootInside
  · intro parent other isChild
    rw [extended.size]
    rw [Child, extended.childIds] at isChild
    split at isChild
    · rcases List.mem_append.mp isChild with old | isNew
      · exact named.inside id other old
      · rw [List.mem_singleton.mp isNew]
        exact childInside
    · exact named.inside parent other isChild
  · intro other
    rw [extended.nameOf, extended.childIds]
    by_cases same : other = id
    · rw [same, if_pos rfl, extended.keys, named.keys, List.map_append]
    · rw [if_neg same, extended.others other same, named.keys]
  · intro other
    by_cases same : other = id
    · rw [same, extended.keys, List.map_singleton, ← List.concat_eq_append, List.nodup_concat]
      exact ⟨free, named.nodup id⟩
    · rw [extended.others other same]
      exact named.nodup other

/-- Every graph that is made is named. -/
theorem Made.named (made : graph.Made) : graph.Named := by
  induction made with
  | start =>
      exact named_start
  | add label _ inductionHypothesis =>
      exact inductionHypothesis.add label
  | attach _ inside childInside attached inductionHypothesis =>
      exact inductionHypothesis.attach inside childInside attached
  | useRoot _ inside inductionHypothesis =>
      exact ⟨inside, inductionHypothesis.inside, inductionHypothesis.keys,
        inductionHypothesis.nodup⟩

/-- In a graph made by attaching, the children of each node have different names. -/
theorem Made.nodup_names (made : graph.Made) (id : Nat) :
    ((graph.childIds id).map graph.nameOf).Nodup :=
  made.named.keys id ▸ made.named.nodup id

/-- Children that fit do so in any order. -/
theorem Fits.perm
    {id : Nat}
    {order other : List Nat}
    (fits : graph.Fits id order)
    (perm : order.Perm other) :
    graph.Fits id other where
  nodup := (perm.map graph.nameOf).nodup_iff.mp fits.nodup
  free child member := fits.free child (perm.mem_iff.mpr member)

/-- Two graphs that differ by the order of children, and by parents. -/
structure Reordered (first second : Graph) : Prop where
  size : first.nodes.size = second.nodes.size
  root : first.root = second.root
  label : ∀ id, (first.node id).label = (second.node id).label
  children : ∀ id, (first.childIds id).Perm (second.childIds id)

/-- Nodes can be attached in any order if they can in one, and only the order of children
differs then. -/
theorem attachAll_perm
    {id : Nat}
    {order other : List Nat}
    (inside : id < graph.nodes.size)
    (perm : order.Perm other)
    (attached : graph.attachAll id order = .ok next) :
    ∃ second, graph.attachAll id other = .ok second ∧ Reordered next second := by
  obtain ⟨extended, fits⟩ := extended_attachAll inside attached
  obtain ⟨second, otherAttached⟩ := exists_attachAll inside (fits.perm perm)
  have otherExtended := (extended_attachAll inside otherAttached).1
  refine ⟨second, otherAttached, extended.size.trans otherExtended.size.symm,
    extended.root.trans otherExtended.root.symm,
    fun node => (extended.label node).trans (otherExtended.label node).symm, ?_⟩
  intro node
  rw [extended.childIds, otherExtended.childIds]
  split
  · exact perm.append_left _
  · exact List.Perm.refl _

namespace Reordered

variable {first second : Graph}

/-- A walk visits the same nodes in both graphs. -/
theorem visited_perm
    (reordered : Reordered first second)
    {fuel id : Nat}
    (ends : first.Ends fuel id) :
    second.Ends fuel id ∧ (first.visited fuel id).Perm (second.visited fuel id) := by
  induction fuel generalizing id with
  | zero =>
      cases ends
  | succ fuel inductionHypothesis =>
      have below (child : Nat) (isChild : child ∈ first.childIds id) :=
        inductionHypothesis (ends_succ.mp ends child isChild)
      have secondEnds : second.Ends (fuel + 1) id :=
        ends_succ.mpr fun child isChild =>
          (below child ((reordered.children id).mem_iff.mpr isChild)).1
      refine ⟨secondEnds, ?_⟩
      rw [visited_succ ends, visited_succ secondEnds]
      exact ((List.Perm.flatMap_left _ fun child isChild => (below child isChild).2).trans
        ((reordered.children id).flatMap_right _)).cons id

/-- Graphs that differ in the order of children have the same sums. -/
theorem classSum_eq
    (reordered : Reordered first second)
    {ids otherIds : List Nat}
    (perm : ids.Perm otherIds)
    (metric : Metric) :
    first.classSum metric ids = second.classSum metric otherIds := by
  simp only [classSum, reordered.label]
  exact ((perm.filter _).map _).sum_eq

/-- Totals that are sums in one order are so in the other. -/
theorem sums
    (reordered : Reordered first second)
    {id : Nat}
    {totals : NodeTotals}
    (sums : first.Sums id totals) :
    second.Sums id totals := by
  obtain ⟨fuel, ends, value⟩ := sums
  obtain ⟨secondEnds, perm⟩ := reordered.visited_perm ends
  refine ⟨fuel, secondEnds, fun metric => ?_⟩
  rw [value, reordered.classSum_eq perm]

/-- Totals that are derived at the same nodes leave graphs that still differ by order only. -/
theorem of_derived
    (reordered : Reordered first second)
    {rolled otherRolled : Graph}
    {done otherDone : List Nat}
    (sameDone : ∀ id, id ∈ done ↔ id ∈ otherDone)
    (derived : Derived first rolled done)
    (otherDerived : Derived second otherRolled otherDone) :
    Reordered rolled otherRolled where
  size := derived.size.trans (reordered.size.trans otherDerived.size.symm)
  root := derived.root.trans (reordered.root.trans otherDerived.root.symm)
  label id := by
    by_cases isDone : id ∈ done
    · obtain ⟨totals, sums, same⟩ := derived.written id isDone
      obtain ⟨otherTotals, otherSums, otherSame⟩ :=
        otherDerived.written id ((sameDone id).mp isDone)
      rw [same, otherSame, (reordered.sums sums).unique otherSums, retotal, retotal,
        reordered.label]
    · rw [derived.others id isDone,
        otherDerived.others id fun isOther => isDone ((sameDone id).mpr isOther),
        reordered.label]
  children id := by
    obtain ⟨totals, same⟩ := derived.node_eq id
    obtain ⟨otherTotals, otherSame⟩ := otherDerived.node_eq id
    rw [childIds, childIds, same, otherSame]
    exact reordered.children id

/-- Where the roll-up of the one graph comes to its end, so does that of the other, with
the same totals. -/
theorem rollUp
    (reordered : Reordered first second)
    (inside : ∀ parent child, first.Child parent child → child < first.nodes.size)
    (rootInside : first.root < first.nodes.size)
    (ends : first.Ends first.fuel first.root) :
    ∃ rolled otherRolled,
      first.rollUp = (rolled, true) ∧ second.rollUp = (otherRolled, true) ∧
        Derived first rolled (first.visited first.fuel first.root) ∧
        Reordered rolled otherRolled := by
  obtain ⟨secondEnds, perm⟩ := reordered.visited_perm ends
  have sameFuel : first.fuel = second.fuel := by
    rw [fuel, fuel, reordered.size]
  have secondInside (parent child : Nat) (isChild : second.Child parent child) :
      child < second.nodes.size :=
    reordered.size ▸ inside parent child ((reordered.children parent).mem_iff.mpr isChild)
  rw [sameFuel, reordered.root] at secondEnds
  obtain ⟨rolled, totals, rolledUp, _, derived⟩ :=
    (Derived.start first).rollUpWith inside rootInside ends
  obtain ⟨otherRolled, otherTotals, otherRolledUp, _, otherDerived⟩ :=
    (Derived.start second).rollUpWith secondInside
      (reordered.size ▸ reordered.root ▸ rootInside) secondEnds
  rw [List.nil_append] at derived otherDerived
  rw [sameFuel, reordered.root] at perm
  refine ⟨rolled, otherRolled, ?_, ?_, derived, ?_⟩
  · rw [Graph.rollUp, rolledUp]
    rfl
  · rw [Graph.rollUp, otherRolledUp]
    rfl
  · rw [sameFuel, reordered.root] at derived
    exact reordered.of_derived (fun id => perm.mem_iff) derived otherDerived

end Reordered

/-- Deriving totals renames no child. -/
theorem Derived.names
    {before after : Graph}
    {done : List Nat}
    (derived : Derived before after done)
    (id : Nat) :
    (after.childIds id).map after.nameOf = (before.childIds id).map before.nameOf := by
  have sameName : after.nameOf = before.nameOf := by
    funext other
    obtain ⟨totals, same⟩ := derived.node_eq other
    rw [nameOf, same]
    rfl
  obtain ⟨totals, same⟩ := derived.node_eq id
  rw [sameName, childIds, same]
  rfl

end ApkAtlas.Package.Graph
