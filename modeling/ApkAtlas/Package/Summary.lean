import ApkAtlas.Package.Node

namespace ApkAtlas

/-!
# Summaries of package trees

What a report keeps of a node: its kind, its totals and its children down to some depth.
-/

/-- The summary of a node. -/
structure PackageSummary where
  name : String
  kind : NodeKind
  totals : NodeTotals := {}
  dexFile : Option String := none
  children : List PackageSummary := []
deriving Repr, BEq, Inhabited

namespace NodeLabel

/-- The summary of a node over the summaries of its children. -/
def summary (label : NodeLabel) (children : List PackageSummary) : PackageSummary :=
  ⟨label.name, label.kind, label.totals, label.dexFile, children⟩

end NodeLabel

namespace Package

/-- Whether a summary of the given depth goes on to children; it is unlimited without a
depth. -/
def goesOn : Option Int → Bool
  | none => true
  | some depth => 0 < depth

/-- The depth that is left for children. -/
def nextDepth (depth : Option Int) : Option Int :=
  depth.map (· - 1)

end Package

namespace PackageNode

mutual

/-- The summary of a node, as many levels deep as the depth says. -/
def summary (depth : Option Int) (node : PackageNode) : PackageSummary :=
  match node with
  | ⟨label, children⟩ =>
      label.summary
        (if Package.goesOn depth then summaries (Package.nextDepth depth) children else [])

/-- The summaries of nodes that share a parent. -/
def summaries (depth : Option Int) : List PackageNode → List PackageSummary
  | [] => []
  | node :: rest => summary depth node :: summaries depth rest

end

end PackageNode

end ApkAtlas
