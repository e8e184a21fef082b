import ApkAtlas.Proofs.Package.Forest
import ApkAtlas.Proofs.Package.Totals

namespace ApkAtlas.Package.Graph

/-!
# Totals of nodes attached by hand

A walk below a node of a forest visits what is below the node, each node once, and comes
to an end. Deriving totals takes the same way as the walk, so it ends too, and it leaves
at each visited node the sums over the classes that a walk from there visits. It reads
none of the totals that it writes, so deriving them again changes nothing.
-/

variable {graph : Graph}

section Walk

/-- A walk comes to an end before its fuel runs out. -/
def Ends (graph : Graph) (fuel id : Nat) : Prop :=
  (graph.preorderWith fuel id).isSome

/-- The nodes that a walk visits. -/
def visited (graph : Graph) (fuel id : Nat) : List Nat :=
  (graph.preorderWith fuel id).getD []

theorem isSome_mapM
    {Item Result : Type}
    {result? : Item → Option Result}
    {items : List Item} :
    (items.mapM result?).isSome ↔ ∀ item ∈ items, (result? item).isSome := by
  induction items with
  | nil =>
      simp
  | cons item rest inductionHypothesis =>
      rw [List.mapM_cons, List.forall_mem_cons, ← inductionHypothesis]
      cases result? item with
      | none =>
          simp
      | some _ =>
          cases rest.mapM result? <;> simp

/-- Where every item has a result, the results of all are those of each. -/
theorem mapM_eq_some_map
    {Item Result : Type}
    {result? : Item → Option (List Result)}
    {items : List Item}
    (all : ∀ item ∈ items, (result? item).isSome) :
    items.mapM result? = some (items.map fun item => (result? item).getD []) := by
  induction items with
  | nil =>
      rfl
  | cons item rest inductionHypothesis =>
      obtain ⟨ofItem, ofRest⟩ := List.forall_mem_cons.mp all
      obtain ⟨result, found⟩ := Option.isSome_iff_exists.mp ofItem
      rw [List.mapM_cons, inductionHypothesis ofRest, List.map_cons, found]
      rfl

/-- A walk ends if those from the children end one level earlier. -/
theorem ends_succ {fuel id : Nat} :
    graph.Ends (fuel + 1) id ↔ ∀ child ∈ graph.childIds id, graph.Ends fuel child := by
  have children :
      graph.Ends (fuel + 1) id ↔
        ((graph.node id).children.mapM
          fun child => graph.preorderWith fuel child.2).isSome := by
    rw [Ends, preorderWith]
    cases (graph.node id).children.mapM fun child => graph.preorderWith fuel child.2 <;> rfl
  rw [children, isSome_mapM, childIds, List.forall_mem_map]
  rfl

/-- A walk that ends visits a node and then what its children lead to. -/
theorem visited_succ {fuel id : Nat} (ends : graph.Ends (fuel + 1) id) :
    graph.visited (fuel + 1) id =
      id :: (graph.childIds id).flatMap (graph.visited fuel) := by
  rw [ends_succ, childIds, List.forall_mem_map] at ends
  rw [visited, preorderWith, mapM_eq_some_map ends, childIds, List.flatMap_map,
    List.flatMap_def]
  rfl

/-- More fuel changes no walk that comes to its end. -/
theorem visited_of_le
    {fuel more id : Nat}
    (enough : fuel ≤ more)
    (ends : graph.Ends fuel id) :
    graph.Ends more id ∧ graph.visited more id = graph.visited fuel id := by
  induction fuel generalizing more id with
  | zero =>
      cases ends
  | succ fuel inductionHypothesis =>
      cases more with
      | zero =>
          cases enough
      | succ more =>
          have below (child : Nat) (isChild : child ∈ graph.childIds id) :=
            inductionHypothesis (Nat.le_of_succ_le_succ enough)
              (ends_succ.mp ends child isChild)
          have moreEnds : graph.Ends (more + 1) id :=
            ends_succ.mpr fun child isChild => (below child isChild).1
          refine ⟨moreEnds, ?_⟩
          rw [visited_succ moreEnds, visited_succ ends]
          congr 1
          apply List.flatMap_congr
          intro child isChild
          exact (below child isChild).2

/-- A walk visits what is at or below its start. -/
theorem mem_visited
    {fuel top id : Nat}
    (ends : graph.Ends fuel top) :
    id ∈ graph.visited fuel top ↔ graph.Below top id := by
  induction fuel generalizing top with
  | zero =>
      cases ends
  | succ fuel inductionHypothesis =>
      rw [visited_succ ends, List.mem_cons, Below, Relation.ReflTransGen.cases_head_iff,
        eq_comm, List.mem_flatMap]
      apply or_congr_right
      constructor
      · rintro ⟨child, isChild, member⟩
        have childEnds := ends_succ.mp ends child isChild
        exact ⟨child, isChild, (inductionHypothesis childEnds).mp member⟩
      · rintro ⟨child, isChild, below⟩
        have childEnds := ends_succ.mp ends child isChild
        exact ⟨child, isChild, (inductionHypothesis childEnds).mpr below⟩

/-- A walk in a forest visits no node twice. -/
theorem Forest.nodup_visited
    (forest : graph.Forest)
    {fuel top : Nat}
    (ends : graph.Ends fuel top) :
    (graph.visited fuel top).Nodup := by
  induction fuel generalizing top with
  | zero =>
      cases ends
  | succ fuel inductionHypothesis =>
      rw [visited_succ ends, List.nodup_cons, List.nodup_flatMap]
      have childEnds := ends_succ.mp ends
      refine ⟨?_, ?_, ?_⟩
      · intro again
        obtain ⟨child, isChild, member⟩ := List.mem_flatMap.mp again
        have below := (mem_visited (childEnds child isChild)).mp member
        exact forest.acyclic top (.head' isChild below)
      · intro child isChild
        exact inductionHypothesis (childEnds child isChild)
      · apply (forest.nodup top).imp_of_mem
        intro first second firstChild secondChild different
        rw [Function.onFun, List.disjoint_left]
        intro id belowFirst belowSecond
        apply different
        exact forest.eq_of_below_children firstChild secondChild
          ((mem_visited (childEnds first firstChild)).mp belowFirst)
          ((mem_visited (childEnds second secondChild)).mp belowSecond)

/-- A walk in a forest ends if its fuel and the way from above to its start are longer
together than there are nodes. -/
theorem Forest.ends_of_trail
    (forest : graph.Forest)
    {fuel id : Nat}
    {trail : List Nat}
    (inside : id < graph.nodes.size)
    (once : trail.Nodup)
    (above : ∀ node ∈ trail, Relation.TransGen graph.Child node id)
    (enough : graph.nodes.size < fuel + trail.length) :
    graph.Ends fuel id := by
  induction fuel generalizing id trail with
  | zero =>
      have nodes : trail ⊆ List.range graph.nodes.size := by
        intro node member
        obtain ⟨_, isChild, _⟩ := Relation.TransGen.head'_iff.mp (above node member)
        exact List.mem_range.mpr isChild.lt
      have short := (List.subperm_of_subset once nodes).length_le
      rw [List.length_range] at short
      omega
  | succ fuel inductionHypothesis =>
      rw [ends_succ]
      intro child isChild
      have longer : (id :: trail).Nodup :=
        List.nodup_cons.mpr ⟨fun member => forest.acyclic id (above id member), once⟩
      apply inductionHypothesis (forest.inside id child isChild) longer
      · intro node member
        rcases List.mem_cons.mp member with rfl | member
        · exact .single isChild
        · exact (above node member).tail isChild
      · rw [List.length_cons]
        omega

/-- A walk in a forest comes to its end. -/
theorem Forest.ends
    (forest : graph.Forest)
    {id : Nat}
    (inside : id < graph.nodes.size) :
    graph.Ends graph.fuel id := by
  apply forest.ends_of_trail inside List.nodup_nil
  · intro node member
    cases member
  · rw [fuel, List.length_nil]
    omega

end Walk

section Sums

/-- The sum of a counter over the classes among some nodes. -/
def classSum (graph : Graph) (metric : Metric) (ids : List Nat) : Int :=
  ((ids.filter fun id => (graph.node id).label.isClass).map
    fun id => metric.ownValue (graph.node id).label).sum

/-- One more node adds its share. -/
theorem classSum_cons (metric : Metric) (id : Nat) (ids : List Nat) :
    graph.classSum metric (id :: ids) =
      metric.share (graph.node id).label + graph.classSum metric ids := by
  have shares (ids : List Nat) :=
    Metric.sum_filter_isClass metric (fun id => (graph.node id).label) ids
  rw [classSum, classSum, shares, shares, List.map_cons, List.sum_cons]

/-- The sum over collected nodes is that of the sums over each collection. -/
theorem classSum_flatMap {Item : Type} (metric : Metric) (ids : Item → List Nat) (items : List Item) :
    graph.classSum metric (items.flatMap ids) =
      (items.map fun item => graph.classSum metric (ids item)).sum := by
  induction items with
  | nil =>
      rfl
  | cons item rest inductionHypothesis =>
      rw [List.map_cons, List.sum_cons, ← inductionHypothesis]
      simp only [classSum, List.flatMap_cons, List.filter_append, List.map_append,
        List.sum_append]

/-- Totals are the sums over the classes at or below a node. -/
def Sums (graph : Graph) (id : Nat) (totals : NodeTotals) : Prop :=
  ∃ fuel,
    graph.Ends fuel id ∧
      ∀ metric : Metric,
        metric.value totals = graph.classSum metric (graph.visited fuel id)

/-- A node has one sum of each counter. -/
theorem Sums.unique
    {id : Nat}
    {first second : NodeTotals}
    (firstSums : graph.Sums id first)
    (secondSums : graph.Sums id second) :
    first = second := by
  obtain ⟨fuel, ends, firstValue⟩ := firstSums
  obtain ⟨other, otherEnds, secondValue⟩ := secondSums
  have sameVisit : graph.visited fuel id = graph.visited other id :=
    (visited_of_le (Nat.le_max_left fuel other) ends).2.symm.trans
      (visited_of_le (Nat.le_max_right fuel other) otherEnds).2
  apply Metric.totals_ext
  intro metric
  rw [firstValue, secondValue, sameVisit]

end Sums

section RollUp

/-- A node with other totals. -/
def retotal (node : GraphNode) (totals : NodeTotals) : GraphNode :=
  { node with label := { node.label with totals } }

/-- A graph in which the totals of some nodes were derived, and nothing else was done. -/
structure Derived (before after : Graph) (done : List Nat) : Prop where
  size : after.nodes.size = before.nodes.size
  root : after.root = before.root
  written :
    ∀ id ∈ done, ∃ totals,
      before.Sums id totals ∧ after.node id = retotal (before.node id) totals
  others : ∀ id, id ∉ done → after.node id = before.node id

namespace Derived

variable {before after : Graph} {done : List Nat}

theorem start (graph : Graph) : Derived graph graph [] :=
  ⟨rfl, rfl, fun _ member => (nomatch member), fun _ _ => rfl⟩

/-- What was derived depends on which nodes are done, and not on their order. -/
theorem of_mem_iff
    (derived : Derived before after done)
    {other : List Nat}
    (same : ∀ id, id ∈ other ↔ id ∈ done) :
    Derived before after other where
  size := derived.size
  root := derived.root
  written id member := derived.written id ((same id).mp member)
  others id notMember := derived.others id fun member => notMember ((same id).mpr member)

/-- Deriving totals changes nothing else of a node. -/
theorem node_eq (derived : Derived before after done) (id : Nat) :
    ∃ totals, after.node id = retotal (before.node id) totals := by
  by_cases isDone : id ∈ done
  · obtain ⟨totals, _, same⟩ := derived.written id isDone
    exact ⟨totals, same⟩
  · exact ⟨(before.node id).label.totals, derived.others id isDone⟩

/-- There is one way to derive the totals of some nodes. -/
theorem unique
    (derived : Derived before after done)
    {other : Graph}
    (otherDerived : Derived before other done) :
    after = other := by
  have sameNode (id : Nat) : after.node id = other.node id := by
    by_cases isDone : id ∈ done
    · obtain ⟨totals, sums, same⟩ := derived.written id isDone
      obtain ⟨otherTotals, otherSums, otherSame⟩ := otherDerived.written id isDone
      rw [same, otherSame, sums.unique otherSums]
    · rw [derived.others id isDone, otherDerived.others id isDone]
  have sameSize := derived.size.trans otherDerived.size.symm
  have sameNodes : after.nodes = other.nodes := by
    apply Array.ext sameSize
    intro id inside otherInside
    have same := sameNode id
    simpa [node, inside, otherInside] using same
  have sameRoot := derived.root.trans otherDerived.root.symm
  cases after
  cases other
  cases sameNodes
  cases sameRoot
  rfl

/-- Writing the right totals to one more node derives them for it as well. -/
theorem modify
    (derived : Derived before after done)
    {id : Nat}
    {totals : NodeTotals}
    (inside : id < before.nodes.size)
    (sums : before.Sums id totals) :
    Derived before
      { after with nodes := after.nodes.modify id fun node => retotal node totals }
      (id :: done) := by
  have nodes (other : Nat) :
      Graph.node
          { after with nodes := after.nodes.modify id fun node => retotal node totals } other =
        if id = other then retotal (after.node other) totals else after.node other := by
    simp only [node, getD_modify, derived.size, inside, and_true]
  refine ⟨?_, derived.root, ?_, ?_⟩
  · rw [Array.size_modify, derived.size]
  · intro other member
    by_cases same : id = other
    · subst same
      obtain ⟨old, isOld⟩ := derived.node_eq id
      refine ⟨totals, sums, ?_⟩
      rw [nodes, if_pos rfl, isOld]
      rfl
    · rw [nodes, if_neg same]
      exact derived.written other (List.mem_of_ne_of_mem (Ne.symm same) member)
  · intro other notMember
    rw [List.mem_cons, not_or] at notMember
    rw [nodes, if_neg (Ne.symm notMember.1)]
    exact derived.others other notMember.2

end Derived

/-- What a derivation does with each child of a node. -/
def rollUpStep
    (fuel : Nat)
    (state : Graph × Option NodeTotals)
    (child : String × Nat) :
    Graph × Option NodeTotals :=
  match state with
  | (graph, none) => (graph, none)
  | (graph, some totals) =>
      let (graph, more) := rollUpWith fuel graph child.2
      (graph, more.map totals.add)

/-- A derivation goes through the children and then writes the totals of the node. -/
theorem rollUpWith_succ (fuel : Nat) (graph : Graph) (id : Nat) :
    rollUpWith (fuel + 1) graph id =
      match (graph.node id).children.foldl (rollUpStep fuel)
          (graph, some (graph.node id).label.contribution) with
      | (graph, none) => (graph, none)
      | (graph, some totals) =>
          ({ graph with nodes := graph.nodes.modify id fun node => retotal node totals },
            some totals) :=
  rfl

variable {before after : Graph} {done : List Nat}

/-- Where deriving the totals of each of some children succeeds, deriving those of all
succeeds and adds up their sums. -/
theorem Derived.foldl_rollUpStep
    {fuel : Nat}
    {children : List (String × Nat)}
    (each :
      ∀ child ∈ children, ∀ after done,
        Derived before after done →
          ∃ next totals,
            Graph.rollUpWith fuel after child.2 = (next, some totals) ∧
              (∀ metric : Metric,
                metric.value totals =
                  before.classSum metric (before.visited fuel child.2)) ∧
              Derived before next (done ++ before.visited fuel child.2))
    (derived : Derived before after done)
    (start : NodeTotals) :
    ∃ next totals,
      children.foldl (rollUpStep fuel) (after, some start) = (next, some totals) ∧
        (∀ metric : Metric,
          metric.value totals =
            metric.value start +
              before.classSum metric
                (children.flatMap fun child => before.visited fuel child.2)) ∧
        Derived before next
          (done ++ children.flatMap fun child => before.visited fuel child.2) := by
  induction children generalizing after done start with
  | nil =>
      refine ⟨after, start, rfl, ?_, ?_⟩
      · intro metric
        exact (Int.add_zero _).symm
      · rw [List.flatMap_nil, List.append_nil]
        exact derived
  | cons child rest inductionHypothesis =>
      obtain ⟨ofChild, ofRest⟩ := List.forall_mem_cons.mp each
      obtain ⟨middle, more, childRolled, childValue, childDerived⟩ :=
        ofChild after done derived
      obtain ⟨next, totals, restRolled, restValue, restDerived⟩ :=
        inductionHypothesis ofRest childDerived (start.add more)
      refine ⟨next, totals, ?_, ?_, ?_⟩
      · rw [List.foldl_cons, rollUpStep, childRolled]
        exact restRolled
      · intro metric
        rw [restValue, Metric.value_add, childValue, classSum_flatMap, classSum_flatMap,
          List.map_cons, List.sum_cons, Int.add_assoc]
      · rw [List.flatMap_cons, ← List.append_assoc]
        exact restDerived

/-- Deriving totals from a node downward succeeds where a walk does, and writes the sums
of the visited nodes. -/
theorem Derived.rollUpWith
    (inside : ∀ parent child, before.Child parent child → child < before.nodes.size)
    {fuel id : Nat}
    (idInside : id < before.nodes.size)
    (ends : before.Ends fuel id)
    (derived : Derived before after done) :
    ∃ next totals,
      Graph.rollUpWith fuel after id = (next, some totals) ∧
        (∀ metric : Metric,
          metric.value totals = before.classSum metric (before.visited fuel id)) ∧
        Derived before next (done ++ before.visited fuel id) := by
  induction fuel generalizing after done id with
  | zero =>
      cases ends
  | succ fuel inductionHypothesis =>
      have children : (after.node id).children = (before.node id).children := by
        obtain ⟨totals, same⟩ := derived.node_eq id
        rw [same]
        rfl
      have contribution :
          (after.node id).label.contribution = (before.node id).label.contribution := by
        obtain ⟨totals, same⟩ := derived.node_eq id
        rw [same]
        rfl
      have each (child : String × Nat) (member : child ∈ (before.node id).children)
          (after : Graph) (done : List Nat) (derived : Derived before after done) :=
        have isChild : child.2 ∈ before.childIds id := List.mem_map_of_mem member
        inductionHypothesis (inside id child.2 isChild) (ends_succ.mp ends child.2 isChild)
          derived
      obtain ⟨middle, totals, childrenRolled, childrenValue, childrenDerived⟩ :=
        derived.foldl_rollUpStep each (before.node id).label.contribution
      have value (metric : Metric) :
          metric.value totals =
            before.classSum metric (before.visited (fuel + 1) id) := by
        rw [childrenValue, Metric.value_contribution, visited_succ ends, classSum_cons,
          childIds, List.flatMap_map]
      refine ⟨{ middle with nodes := middle.nodes.modify id fun node => retotal node totals },
        totals, ?_, value, ?_⟩
      · rw [rollUpWith_succ, children, contribution, childrenRolled]
      · apply (childrenDerived.modify idInside ⟨fuel + 1, ends, value⟩).of_mem_iff
        intro other
        rw [visited_succ ends, childIds, List.flatMap_map]
        simp only [List.mem_append, List.mem_cons]
        exact or_left_comm

/-- The roll-up of a forest comes to its end, writes at each node below the root the sums
over what is below it, and changes nothing when it is done again. -/
theorem Forest.rollUp
    (forest : graph.Forest)
    (inside : graph.root < graph.nodes.size) :
    ∃ rolled,
      graph.rollUp = (rolled, true) ∧
        rolled.rollUp = (rolled, true) ∧
        Derived graph rolled (graph.visited graph.fuel graph.root) := by
  have ends := forest.ends inside
  obtain ⟨rolled, totals, rolledUp, _, derived⟩ :=
    (Derived.start graph).rollUpWith forest.inside inside ends
  rw [List.nil_append] at derived
  refine ⟨rolled, ?_, ?_, derived⟩
  · rw [Graph.rollUp, rolledUp]
    rfl
  · obtain ⟨again, totals, rolledAgain, _, derivedAgain⟩ :=
      derived.rollUpWith forest.inside inside ends
    have same : again = rolled := by
      apply (derivedAgain.of_mem_iff ?_).unique derived
      intro id
      rw [List.mem_append, or_self]
    have sameFuel : rolled.fuel = graph.fuel := by
      rw [fuel, derived.size, fuel]
    rw [Graph.rollUp, sameFuel, derived.root, rolledAgain, same]
    rfl

end RollUp

end ApkAtlas.Package.Graph
