import ApkAtlas.Proofs.Package.Agreement
import ApkAtlas.Proofs.Package.Content
import ApkAtlas.Proofs.Package.LinkedBuild

namespace ApkAtlas.Package

/-!
# Paths identify nodes

The nodes of a built tree know their places: the path that a node tells through its parents
leads down to it, so different nodes have different paths. The path of a class node is that
into which the name of the class splits. Both hold with the derived totals in place, which are
those of the tree that `build` returns.
-/

open PackageNode

namespace Graph

variable {graph rolled : Graph} {root below : PackageNode}

section Walks

theorem Linked.inside_of_below
    (linked : graph.Linked)
    {top id : Nat}
    (inside : top < graph.nodes.size)
    (isBelow : graph.Below top id) :
    id < graph.nodes.size := by
  rcases Relation.ReflTransGen.cases_tail isBelow with rfl | ⟨holder, _, isChild⟩
  · exact inside
  · exact linked.forest.inside holder id isChild

/-- A walk below a node visits the nodes whose paths go on from that of the node. -/
theorem Linked.mem_visited_iff
    (linked : graph.Linked)
    {path : List String}
    {top id : Nat}
    (leads : graph.find? path = some top) :
    id ∈ graph.visited graph.fuel top ↔ ∃ rest, graph.find? (path ++ rest) = some id := by
  obtain ⟨topInside, rfl⟩ := linked.path_of_find? leads
  rw [mem_visited (linked.forest.ends topInside)]
  constructor
  · intro isBelow
    have inside := linked.inside_of_below topInside isBelow
    obtain ⟨rest, goesOn⟩ := (linked.below_iff topInside inside).mp isBelow
    exact ⟨rest, linked.find?_eq_some_iff.mpr ⟨inside, goesOn.symm⟩⟩
  · rintro ⟨rest, leadsOn⟩
    obtain ⟨inside, goesOn⟩ := linked.path_of_find? leadsOn
    exact (linked.below_iff topInside inside).mpr ⟨rest, goesOn.symm⟩

theorem Linked.nodup_paths
    (linked : graph.Linked)
    {top : Nat}
    (inside : top < graph.nodes.size) :
    ((graph.visited graph.fuel top).map graph.path).Nodup := by
  have ends := linked.forest.ends inside
  apply (linked.forest.nodup_visited ends).map_on
  intro first firstVisited second secondVisited samePath
  exact linked.path_injective
    (linked.inside_of_below inside ((mem_visited ends).mp firstVisited))
    (linked.inside_of_below inside ((mem_visited ends).mp secondVisited)) samePath

/-- A walk over linked nodes visits the paths and labels of the tree below its start. -/
theorem Mirrors.perm_walk
    (mirrors : graph.Mirrors root)
    (distinct : root.Distinct)
    {path : List String}
    {top : Nat}
    (leads : graph.find? path = some top)
    (found : root.find? path = some below) :
    ((graph.visited graph.fuel top).map fun id => (graph.path id, (graph.node id).label)).Perm
      (below.walk.map fun entry => (path ++ entry.1, entry.2)) := by
  have linked := mirrors.linked
  have belowDistinct := distinct.of_find? found
  have once :
      ((graph.visited graph.fuel top).map
        fun id => (graph.path id, (graph.node id).label)).Nodup := by
    apply List.Nodup.of_map Prod.fst
    rw [List.map_map]
    exact linked.nodup_paths (linked.path_of_find? leads).1
  have onceInTree : (below.walk.map fun entry => (path ++ entry.1, entry.2)).Nodup := by
    apply belowDistinct.nodup_walk.map
    rintro ⟨first, _⟩ ⟨second, _⟩ same
    simpa using same
  -- The two walks may go in different orders, so they are compared as sets without repetition.
  rw [List.perm_ext_iff_of_nodup once onceInTree]
  rintro ⟨other, label⟩
  have inTree (rest : List String) : root.labelAt? (path ++ rest) = below.labelAt? rest := by
    rw [labelAt?_append, found]
    rfl
  rw [List.mem_map, List.mem_map]
  constructor
  · rintro ⟨id, visited, same⟩
    cases same
    obtain ⟨rest, leadsOn⟩ := (linked.mem_visited_iff leads).mp visited
    refine ⟨(rest, (graph.node id).label), ?_, ?_⟩
    · rw [belowDistinct.mem_walk_iff, ← inTree, ← mirrors.labels, Graph.labelAt?, leadsOn]
      rfl
    · rw [(linked.path_of_find? leadsOn).2]
  · rintro ⟨⟨rest, label⟩, visited, same⟩
    cases same
    rw [belowDistinct.mem_walk_iff, ← inTree, ← mirrors.labels, Graph.labelAt?,
      Option.map_eq_some_iff] at visited
    obtain ⟨id, leadsOn, rfl⟩ := visited
    refine ⟨id, (linked.mem_visited_iff leads).mpr ⟨rest, leadsOn⟩, ?_⟩
    rw [(linked.path_of_find? leadsOn).2]

end Walks

section RollUp

theorem Derived.sameLinks
    {done : List Nat}
    (derived : Derived graph rolled done) :
    SameLinks graph rolled := by
  refine ⟨derived.size, derived.root, ?_, ?_, ?_⟩
  all_goals
    intro id
    obtain ⟨totals, same⟩ := derived.node_eq id
    rw [same]
    rfl

/-- The classes below a node add up to the totals of the tree below its path. -/
theorem Mirrors.sums
    (mirrors : graph.Mirrors root)
    (distinct : root.Distinct)
    {path : List String}
    {top : Nat}
    (leads : graph.find? path = some top)
    (found : root.find? path = some below) :
    graph.Sums top below.rollUp.label.totals := by
  obtain ⟨inside, _⟩ := mirrors.linked.path_of_find? leads
  refine ⟨graph.fuel, mirrors.linked.forest.ends inside, fun metric => ?_⟩
  have sameShares :=
    ((mirrors.perm_walk distinct leads found).map fun entry => metric.share entry.2).sum_eq
  rw [List.map_map, List.map_map] at sameShares
  rw [value_rollUp, Metric.classSum, PackageNode.classes, classSum,
    Metric.sum_filter_isClass metric Prod.snd,
    Metric.sum_filter_isClass metric fun id => (graph.node id).label]
  exact sameShares.symm

/-- Deriving the totals of linked nodes mirrors deriving those of the tree. -/
theorem Mirrors.rollUp
    (mirrors : graph.Mirrors root)
    (distinct : root.Distinct) :
    ∃ rolled, graph.rollUp = (rolled, true) ∧ rolled.Mirrors root.rollUp := by
  have linked := mirrors.linked
  have atRoot : graph.find? [] = some graph.root := rfl
  obtain ⟨rootInside, _⟩ := linked.path_of_find? atRoot
  obtain ⟨rolled, rolledUp, _, derived⟩ := linked.forest.rollUp rootInside
  have same := derived.sameLinks
  refine ⟨rolled, rolledUp, same.linked linked, fun path => ?_⟩
  have atPath := mirrors.labels path
  rw [Graph.labelAt?, PackageNode.labelAt?] at atPath ⊢
  rw [same.find?_eq, find?_rollUp]
  cases leads : graph.find? path with
  | none =>
      rw [leads, Option.map_none, eq_comm, Option.map_eq_none_iff] at atPath
      rw [atPath]
      rfl
  | some id =>
      rw [leads, Option.map_some, eq_comm, Option.map_eq_some_iff] at atPath
      obtain ⟨below, found, sameLabel⟩ := atPath
      obtain ⟨totals, sums, written⟩ :=
        derived.written id ((linked.mem_visited_iff atRoot).mpr ⟨path, leads⟩)
      rw [found, Option.map_some, Option.map_some, Option.map_some, label_rollUp, sameLabel,
        written, sums.unique (mirrors.sums distinct leads found)]
      rfl

end RollUp

end Graph

/-- No segment of the path of a class has a dot in it. -/
theorem not_mem_of_mem_path
    {name : String}
    {path : List String}
    (split : ClassName.path? name = some path)
    {segment : String}
    (member : segment ∈ path) :
    '.' ∉ segment.toList := by
  rw [(ClassName.path?_eq_some split).1, Text.split, List.mem_map] at member
  obtain ⟨piece, isPiece, rfl⟩ := member
  rw [String.toList_ofList]
  exact Text.not_mem_of_mem_segments isPiece

/-- The dotted name of a node splits into its path, but for the top of the tree. -/
theorem Contents.split_qualifiedName
    {symbols : SymbolMap}
    {policy : DuplicatePolicy}
    {entries : List Entry}
    {root : PackageNode}
    (contents : Contents symbols policy entries root)
    {path : List String}
    {label : NodeLabel}
    (visited : (path, label) ∈ root.rollUp.walk)
    (longer : path ≠ []) :
    Text.split '.' (qualifiedName path) = path := by
  obtain ⟨entry, _, _, classPath, split, leading⟩ := contents.exists_accepted_below visited longer
  apply Text.split_join longer
  intro segment member
  exact not_mem_of_mem_path split (leading.subset member)

section Places

variable
  {symbols : SymbolMap}
  {policy : DuplicatePolicy}
  {entries : List Entry}
  {graph : Graph}
  {root : PackageNode}

/-- A walk over all nodes visits what a walk over the tree visits. -/
theorem Graph.Mirrors.perm_walk_root
    (mirrors : graph.Mirrors root)
    (distinct : root.Distinct) :
    ((graph.visited graph.fuel graph.root).map
        fun id => (graph.path id, (graph.node id).label)).Perm root.walk := by
  have atRoot : graph.find? [] = some graph.root := rfl
  simpa using mirrors.perm_walk distinct atRoot (PackageNode.find?_nil root)

/-- The dotted name of a node leads to it, unless it is the root. -/
theorem Contents.find?_split_qualifiedName
    (contents : Contents symbols policy entries root)
    (mirrors : graph.Mirrors root.rollUp)
    {id : Nat}
    (inside : id < graph.nodes.size)
    (notRoot : id ≠ graph.root) :
    graph.find? (Text.split '.' (graph.qualifiedName id)) = some id := by
  have leads := mirrors.linked.find?_path inside
  have longer : graph.path id ≠ [] := by
    intro isRoot
    rw [isRoot] at leads
    exact notRoot (Option.some.inj leads).symm
  have atPath : root.rollUp.labelAt? (graph.path id) = some (graph.node id).label := by
    rw [← mirrors.labels, Graph.labelAt?, leads]
    rfl
  have inWalk := contents.distinct.rollUp.mem_walk_iff.mpr atPath
  rw [Graph.qualifiedName, contents.split_qualifiedName inWalk longer]
  exact leads

/-- The node of a class that was not rejected is at the path into which its name splits. -/
theorem Contents.exists_node
    (contents : Contents symbols policy entries root)
    (mirrors : graph.Mirrors root.rollUp)
    {entry : Entry}
    (inEntries : entry ∈ entries)
    (accepted : entry.accepted) :
    ∃ id path,
      graph.find? path = some id ∧
        (graph.node id).label.isClass ∧
        ClassName.path? (entry.sourceName symbols) = some path := by
  obtain ⟨path, label, split, atPath, isClass⟩ := contents.accepted entry inEntries accepted
  obtain ⟨totals, atRolled⟩ := exists_labelAt?_rollUp atPath
  rw [← mirrors.labels, Graph.labelAt?, Option.map_eq_some_iff] at atRolled
  obtain ⟨id, leads, sameLabel⟩ := atRolled
  refine ⟨id, path, leads, ?_, split⟩
  rw [sameLabel]
  exact isClass

/--
A build that returns can be done with linked nodes. A walk over these visits the paths and
labels of the returned tree, and the same paths are found in both. The nodes it visits tell
different paths. The path of a node leads to it, and so does its dotted name unless it is the
root; its children are stored under their own names and have it as their parent. The path of a
class node is what the source name of a declaration splits into, and there is such a node for
every declaration that was not rejected, with a dotted name that is the source name.
-/
theorem paths_identify_nodes
    {settings : BuildSettings}
    {sources : List SymbolSource}
    {result : BuildResult}
    (returned : (build settings symbols sources).result = .ok result) :
    let entries := (build settings symbols sources).entries sources
    ∃ (graph : Graph) (ids : List Nat),
      buildNodes settings symbols sources = .ok (graph, true) ∧
        graph.preorder graph.root = some ids ∧
        (ids.map fun id => (graph.path id, (graph.node id).label)).Perm result.root.walk ∧
        (∀ path, graph.labelAt? path = result.root.labelAt? path) ∧
        (ids.map graph.path).Nodup ∧
        (∀ id ∈ ids,
          graph.find? (graph.path id) = some id ∧
            (id ≠ graph.root →
              graph.find? (Text.split '.' (graph.qualifiedName id)) = some id) ∧
            (∀ name child, (name, child) ∈ (graph.node id).children →
              child ∈ ids ∧
                (graph.node child).label.name = name ∧
                (graph.node child).parent = some id) ∧
            ((graph.node id).label.isClass →
              ∃ entry ∈ entries, entry.accepted ∧
                ClassName.path (entry.sourceName symbols) entry.fileName =
                  .ok (graph.path id))) ∧
        ∀ entry ∈ entries, entry.accepted →
          ∃ id ∈ ids,
            (graph.node id).label.isClass ∧
              ClassName.path (entry.sourceName symbols) entry.fileName = .ok (graph.path id) ∧
              graph.qualifiedName id = entry.sourceName symbols := by
  intro entries
  obtain ⟨through, isRolled⟩ := result_eq_ok returned
  have contents := (run_build through).1.contents
  obtain ⟨grown, built, grownMirrors⟩ := buildNodes_eq_ok through
  obtain ⟨graph, rolledUp, mirrors⟩ := grownMirrors.rollUp contents.distinct
  rw [rolledUp] at built
  have linked := mirrors.linked
  have atRoot : graph.find? [] = some graph.root := rfl
  have rootInside := (linked.path_of_find? atRoot).1
  have ends := linked.forest.ends rootInside
  have perm := mirrors.perm_walk_root contents.distinct.rollUp
  refine ⟨graph, graph.visited graph.fuel graph.root, built, ?_, isRolled ▸ perm,
    isRolled ▸ mirrors.labels, linked.nodup_paths rootInside, ?_, ?_⟩
  · obtain ⟨ids, walked⟩ := Option.isSome_iff_exists.mp ends
    rw [Graph.preorder, Graph.visited, walked]
    rfl
  · intro id visited
    have below := (Graph.mem_visited ends).mp visited
    have inside := linked.inside_of_below rootInside below
    refine ⟨linked.find?_path inside, contents.find?_split_qualifiedName mirrors inside, ?_, ?_⟩
    · intro name child member
      obtain ⟨named, parent, _⟩ := linked.child id name child member
      have childBelow := below.tail (List.mem_map_of_mem member)
      exact ⟨(Graph.mem_visited ends).mpr childBelow, named, parent⟩
    · intro isClass
      have inWalk := perm.subset (List.mem_map_of_mem visited)
      obtain ⟨entry, inEntries, accepted, split, _⟩ :=
        contents.exists_accepted_of_class (List.mem_filter.mpr ⟨inWalk, isClass⟩)
      rw [Entry.sourceName_symbolsFor] at split
      refine ⟨entry, inEntries, accepted, ?_⟩
      rw [ClassName.path_eq, split]
  · intro entry inEntries accepted
    obtain ⟨id, path, leads, isClass, split⟩ := contents.exists_node mirrors inEntries accepted
    rw [Entry.sourceName_symbolsFor] at split
    obtain ⟨_, rfl⟩ := linked.path_of_find? leads
    refine ⟨id, (linked.mem_visited_iff atRoot).mpr ⟨_, leads⟩, isClass, ?_, ?_⟩
    · rw [ClassName.path_eq, split]
    · exact ClassName.qualifiedName_path split

/-- Of overlapping files the shared class has a node, which its path and its name lead to. -/
theorem paths_of_overlappingFiles :
    ∃ result graph id,
      (build { policy := .lastWins } {} overlappingFiles).result = .ok result ∧
        buildNodes { policy := .lastWins } {} overlappingFiles = .ok (graph, true) ∧
        (graph.node id).label.isClass ∧
        graph.path id = ["p", "A"] ∧
        graph.qualifiedName id = "p.A" ∧
        graph.find? ["p", "A"] = some id := by
  obtain ⟨result, returned⟩ :
      ∃ result, (build { policy := .lastWins } {} overlappingFiles).result = .ok result :=
    ⟨_, rfl⟩
  obtain ⟨graph, ids, built, _, _, _, _, places, ofClasses⟩ := paths_identify_nodes returned
  obtain ⟨id, visited, isClass, split, named⟩ := ofClasses _ List.mem_cons_self rfl
  have isPath : graph.path id = ["p", "A"] := (Except.ok.inj split).symm
  refine ⟨result, graph, id, returned, built, isClass, isPath, named, ?_⟩
  rw [← isPath]
  exact (places id visited).1

end Places

end ApkAtlas.Package
