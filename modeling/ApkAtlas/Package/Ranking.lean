import ApkAtlas.Package.Node

namespace ApkAtlas

namespace Package

/-!
# Ranking children

The children of a node are ranked by a metric, the greatest first, and by name where the
metric is equal. A limit cuts the ranking off. A ranking is handed out item by item, and
nothing is computed before the first item is asked for.
-/

/-- Whether one node ranks before another or beside it. -/
def ranksBefore (metric : Metric) (left right : NodeLabel) : Bool :=
  let leftValue := metric.value left.totals
  let rightValue := metric.value right.totals
  rightValue < leftValue || (leftValue == rightValue && left.name ≤ right.name)

/-- Items in the order of their labels. -/
def ranked
    {Item : Type}
    (label : Item → NodeLabel)
    (metric : Metric)
    (items : List Item) :
    List Item :=
  items.mergeSort fun left right => ranksBefore metric (label left) (label right)

/-- One more than the largest count. -/
def countBound : Int := 9223372036854775808

/-- The error of a limit that is no count. -/
def limitError (limit : Int) : ExternalError :=
  let subject :=
    if limit = -1 ∨ limit < -countBound ∨ countBound ≤ limit then "Stop argument"
    else "Indices"
  ⟨.badValue, subject ++ " for islice() must be None or an integer: 0 <= x <= sys.maxsize."⟩

/-- The first items of a list, all of them without a limit. -/
def limited
    {Item : Type}
    (limit : Option Int)
    (items : List Item) :
    Except ExternalError (List Item) :=
  match limit with
  | none => .ok items
  | some limit =>
      if 0 ≤ limit ∧ limit < countBound then .ok (items.take limit.toNat)
      else .error (limitError limit)

/-- The first items by a metric. -/
def largest
    {Item : Type}
    (label : Item → NodeLabel)
    (metric : Metric)
    (limit : Option Int)
    (items : List Item) :
    Except ExternalError (List Item) :=
  limited limit (ranked label metric items)

/-- What is asked for when the children of a node are to be ranked. -/
structure RankingRequest (Node : Type) where
  node : Node
  metric : Metric := .methods
  limit : Option Int := none
deriving Repr, DecidableEq

/-- A ranking that is read item by item. -/
inductive RankingReader (Node : Type) where
  /-- Nothing is computed yet. -/
  | asked (request : RankingRequest Node)
  /-- The items that are left. -/
  | reading (rest : List Node)
deriving Repr, DecidableEq

/-- The next item of a ranking, none at its end. A request that is refused ends it too. -/
def RankingReader.next
    {Node : Type}
    (rank : RankingRequest Node → Except ExternalError (List Node)) :
    RankingReader Node → Except ExternalError (Option Node) × RankingReader Node
  | .asked request =>
      match rank request with
      | .ok ranking => (.ok ranking.head?, .reading ranking.tail)
      | .error error => (.error error, .reading [])
  | .reading rest => (.ok rest.head?, .reading rest.tail)

end Package

namespace PackageNode

/-- The first children of a node by a metric. -/
def largestChildren
    (node : PackageNode)
    (metric : Metric)
    (limit : Option Int) :
    Except ExternalError (List PackageNode) :=
  Package.largest PackageNode.label metric limit node.children

/-- The answer to a request about a node of a tree. -/
def rank (request : Package.RankingRequest PackageNode) :
    Except ExternalError (List PackageNode) :=
  request.node.largestChildren request.metric request.limit

end PackageNode

end ApkAtlas
