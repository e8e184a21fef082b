import ApkAtlas.Package.Ranking
import ApkAtlas.Package.Summary
import ApkAtlas.Table

namespace ApkAtlas.Package

/-!
# Nodes attached by hand

Nodes can be made one by one and attached to each other in any way, so they form a graph:
a node may hang under several others, or even under itself. Traversals carry fuel, one
more than there are nodes, which no path without a repeated node uses up; `none` tells
that a traversal ran into a cycle.
-/

/-- A node of a graph. -/
structure GraphNode where
  label : NodeLabel
  /-- The node it was attached to last. -/
  parent : Option Nat := none
  /-- Child nodes under their names. -/
  children : List (String × Nat) := []
deriving Repr, DecidableEq, Inhabited

/-- Nodes by number, and the node that serves as root. -/
structure Graph where
  nodes : Array GraphNode := #[{ label := { name := PackageNode.rootName } }]
  root : Nat := 0
deriving Repr, DecidableEq, Inhabited

namespace Graph

/-- The node of a number. -/
def node (graph : Graph) (id : Nat) : GraphNode :=
  graph.nodes.getD id default

/-- How deep a traversal goes. -/
def fuel (graph : Graph) : Nat :=
  graph.nodes.size + 1

/-- Adds a node that hangs nowhere, and gives its number. -/
def add (graph : Graph) (label : NodeLabel) : Graph × Nat :=
  ({ graph with nodes := graph.nodes.push { label } }, graph.nodes.size)

/-- The names from the topmost ancestor, left out, down to a node. -/
def pathWith (graph : Graph) : Nat → Nat → List String
  | 0, _ => []
  | fuel + 1, id =>
      match (graph.node id).parent with
      | none => []
      | some parent => pathWith graph fuel parent ++ [(graph.node id).label.name]

/-- The path of a node. -/
def path (graph : Graph) (id : Nat) : List String :=
  graph.pathWith graph.fuel id

/-- The dotted path of a node. -/
def qualifiedName (graph : Graph) (id : Nat) : String :=
  PackageNode.qualifiedName (graph.path id)

/-- The child of a name. -/
def child? (graph : Graph) (id : Nat) (name : String) : Option Nat :=
  Table.get? name (graph.node id).children

/-- Attaches a node under another one, unless that has a child of the name already. -/
def attach (graph : Graph) (id child : Nat) : Except ExternalError Graph :=
  let name := (graph.node child).label.name
  if (graph.child? id name).isSome then
    let qualified := graph.qualifiedName id
    let place := if qualified.isEmpty then PackageNode.rootName else qualified
    .error ⟨.unknownKey, place ++ " already has a child named " ++ Text.quoted name⟩
  else
    let nodes := graph.nodes.modify child fun node => { node with parent := some id }
    let nodes := nodes.modify id fun node =>
      { node with children := Table.put name child node.children }
    .ok { graph with nodes }

/-- The node reached from the root by a path of names. -/
def find? (graph : Graph) (names : List String) : Option Nat :=
  names.foldlM graph.child? graph.root

/-- Derives totals from a node downward; the totals of nodes that were finished stay even
if a cycle stops the derivation. -/
def rollUpWith : Nat → Graph → Nat → Graph × Option NodeTotals
  | 0, graph, _ => (graph, none)
  | fuel + 1, graph, id =>
      let node := graph.node id
      let step (state : Graph × Option NodeTotals) (child : String × Nat) :
          Graph × Option NodeTotals :=
        match state with
        | (graph, none) => (graph, none)
        | (graph, some totals) =>
            let (graph, more) := rollUpWith fuel graph child.2
            (graph, more.map totals.add)
      match node.children.foldl step (graph, some node.label.contribution) with
      | (graph, none) => (graph, none)
      | (graph, some totals) =>
          let relabel (node : GraphNode) : GraphNode :=
            { node with label := { node.label with totals } }
          ({ graph with nodes := graph.nodes.modify id relabel }, some totals)

/-- Derives all totals below the root; false tells that a cycle stopped it. -/
def rollUp (graph : Graph) : Graph × Bool :=
  let (graph, totals) := rollUpWith graph.fuel graph graph.root
  (graph, totals.isSome)

/-- A node and all below it in preorder, or nothing if there is a cycle. -/
def preorderWith (graph : Graph) : Nat → Nat → Option (List Nat)
  | 0, _ => none
  | fuel + 1, id => do
      let below ← (graph.node id).children.mapM fun child => preorderWith graph fuel child.2
      return id :: below.flatten

/-- A node and all below it in preorder, or nothing if there is a cycle. -/
def preorder (graph : Graph) (id : Nat) : Option (List Nat) :=
  graph.preorderWith graph.fuel id

/-- The first children of a node by a metric. -/
def largestChildren
    (graph : Graph)
    (id : Nat)
    (metric : Metric)
    (limit : Option Int) :
    Except ExternalError (List Nat) :=
  largest (fun child => (graph.node child).label) metric limit
    ((graph.node id).children.map Prod.snd)

/-- The answer to a request about a node of a graph. -/
def rank (graph : Graph) (request : RankingRequest Nat) : Except ExternalError (List Nat) :=
  graph.largestChildren request.node request.metric request.limit

/-- The summary of a node; it fails only where a cycle is followed without end. -/
def summaryWith (graph : Graph) : Nat → Option Int → Nat → Option PackageSummary
  | 0, _, _ => none
  | fuel + 1, depth, id => do
      let node := graph.node id
      if goesOn depth then
        let children ←
          node.children.mapM fun child => summaryWith graph fuel (nextDepth depth) child.2
        return node.label.summary children
      else
        return node.label.summary []

/-- The summary of a node, as many levels deep as the depth says. -/
def summary (graph : Graph) (depth : Option Int) (id : Nat) : Option PackageSummary :=
  match depth with
  | none => graph.summaryWith graph.fuel none id
  | some levels => graph.summaryWith (levels.toNat + 1) depth id

end Graph

end ApkAtlas.Package
