import ApkAtlas.Failure

namespace ApkAtlas

/-!
# Package trees

A tree of packages with classes at its leaves. Class nodes carry the counts of their own
declaration; the totals of every node are derived from them by `PackageNode.rollUp`.
-/

/-- The kinds of node. -/
inductive NodeKind where
  | packageNode
  | classNode
deriving Repr, DecidableEq, Inhabited

namespace NodeKind

/-- The name of a kind. -/
def name : NodeKind → String
  | .packageNode => "package"
  | .classNode => "class"

/-- The kind with the given name. -/
def ofName? : String → Option NodeKind
  | "package" => some .packageNode
  | "class" => some .classNode
  | _ => none

/-- The kind with the given name, or the error of a name that no kind has. -/
def ofName (name : String) : Except ExternalError NodeKind :=
  match ofName? name with
  | some kind => .ok kind
  | none => .error ⟨.badValue, Text.quoted name ++ " is not a valid NodeKind"⟩

end NodeKind

/-- The counts of one class declaration. -/
structure OwnCounts where
  methods : Int := 0
  fields : Int := 0
  referencedMethods : Int := 0
  referencedFields : Int := 0
deriving Repr, DecidableEq, Inhabited

/-- The counts of a node with everything below it. -/
structure NodeTotals where
  methods : Int := 0
  fields : Int := 0
  referencedMethods : Int := 0
  referencedFields : Int := 0
  classes : Int := 0
deriving Repr, DecidableEq, Inhabited

namespace NodeTotals

/-- Totals counter by counter. -/
def add (left right : NodeTotals) : NodeTotals :=
  ⟨left.methods + right.methods, left.fields + right.fields,
    left.referencedMethods + right.referencedMethods,
    left.referencedFields + right.referencedFields, left.classes + right.classes⟩

/-- The counters in their order. -/
def toList (totals : NodeTotals) : List Int :=
  [totals.methods, totals.fields, totals.referencedMethods, totals.referencedFields,
    totals.classes]

end NodeTotals

/-- The counters by which nodes are ranked. -/
inductive Metric where
  | methods
  | fields
  | referencedMethods
  | referencedFields
  | classes
deriving Repr, DecidableEq

namespace Metric

/-- The metric with the given name. -/
def ofName? : String → Option Metric
  | "method_count" => some .methods
  | "field_count" => some .fields
  | "referenced_method_count" => some .referencedMethods
  | "referenced_field_count" => some .referencedFields
  | "class_count" => some .classes
  | _ => none

/-- The metric with the given name, or the error of a name that no metric has. -/
def ofName (name : String) : Except ExternalError Metric :=
  match ofName? name with
  | some metric => .ok metric
  | none => .error ⟨.badValue, Text.quoted name ++ " is not a valid Metric"⟩

/-- The counter of a metric. -/
def value (totals : NodeTotals) : Metric → Int
  | .methods => totals.methods
  | .fields => totals.fields
  | .referencedMethods => totals.referencedMethods
  | .referencedFields => totals.referencedFields
  | .classes => totals.classes

end Metric

/-- Everything about a node but its children. -/
structure NodeLabel where
  name : String
  kind : NodeKind := .packageNode
  own : OwnCounts := {}
  dexFile : Option String := none
  sourceFile : Option String := none
  totals : NodeTotals := {}
deriving Repr, DecidableEq, Inhabited

namespace NodeLabel

/-- Whether the node is a class. -/
def isClass (label : NodeLabel) : Bool :=
  label.kind == .classNode

/-- What the node itself adds to its totals: a class its own counts, a package nothing. -/
def contribution (label : NodeLabel) : NodeTotals :=
  match label.kind with
  | .packageNode => {}
  | .classNode =>
      ⟨label.own.methods, label.own.fields, label.own.referencedMethods,
        label.own.referencedFields, 1⟩

/-- The totals of a node over the totals of its children. -/
def totalsOver (label : NodeLabel) (children : List NodeTotals) : NodeTotals :=
  children.foldl NodeTotals.add label.contribution

end NodeLabel

/-- A node with everything below it. -/
structure PackageNode where
  label : NodeLabel
  children : List PackageNode := []
deriving Repr, BEq, Inhabited

namespace PackageNode

/-- The name of the node at the top of a tree. -/
def rootName : String := "root"

/-- A tree without classes. -/
def emptyRoot : PackageNode :=
  ⟨{ name := rootName }, []⟩

/-- The name of a node. -/
def name (node : PackageNode) : String :=
  node.label.name

/-- The child of a name. -/
def child? (node : PackageNode) (name : String) : Option PackageNode :=
  node.children.find? (·.name == name)

/-- The node reached by a path of names. -/
def find? (node : PackageNode) : List String → Option PackageNode
  | [] => some node
  | name :: rest =>
      match node.child? name with
      | none => none
      | some child => find? child rest

mutual

/-- The node with all totals derived anew, from the bottom up. -/
def rollUp (node : PackageNode) : PackageNode :=
  match node with
  | ⟨label, children⟩ =>
      let rolled := rollUpAll children
      ⟨{ label with totals := label.totalsOver (rolled.map (·.label.totals)) }, rolled⟩

/-- Nodes with all totals derived anew. -/
def rollUpAll : List PackageNode → List PackageNode
  | [] => []
  | node :: rest => rollUp node :: rollUpAll rest

end

mutual

/-- The labels of a node and all below it with their paths, in preorder. -/
def walkFrom (path : List String) (node : PackageNode) : List (List String × NodeLabel) :=
  match node with
  | ⟨label, children⟩ => (path, label) :: walkChildren path children

/-- The labels of nodes that share a parent and of all below them. -/
def walkChildren (path : List String) : List PackageNode → List (List String × NodeLabel)
  | [] => []
  | node :: rest => walkFrom (path ++ [node.label.name]) node ++ walkChildren path rest

end

/-- The labels of a tree with their paths from its root, in preorder. -/
def walk (node : PackageNode) : List (List String × NodeLabel) :=
  node.walkFrom []

/-- A path as a dotted name. -/
def qualifiedName (path : List String) : String :=
  ".".intercalate path

/-- The class nodes of a tree with their paths, in preorder. -/
def classes (node : PackageNode) : List (List String × NodeLabel) :=
  node.walk.filter (·.2.isClass)

end PackageNode

end ApkAtlas
