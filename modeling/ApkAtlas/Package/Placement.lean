import ApkAtlas.Package.Node
import ApkAtlas.Symbols.ClassName

namespace ApkAtlas.PackageNode

/-!
# Placing classes in a tree

A class goes to the end of its path. `openPackages` walks down to the package it belongs
to and makes what is missing on the way, so a walk that fails leaves behind what it made;
`putClass` writes the class.
-/

/-- Changes the child of a name in its place, or appends a new child. -/
def upsert
    (name : String)
    (change : Option PackageNode → PackageNode) :
    List PackageNode → List PackageNode
  | [] => [change none]
  | child :: rest =>
      if child.name = name then
        change (some child) :: rest
      else
        child :: upsert name change rest

/-- The node of a package without children. -/
def ofPackage (name : String) : PackageNode :=
  ⟨{ name := name }, []⟩

/-- Walks down the packages of a path and makes those that are missing. A class on the way
stops the walk; what was made up to there stays. -/
def openPackages : List String → PackageNode → PackageNode × Option ClassName.Defect
  | [], node => (node, none)
  | name :: rest, node =>
      match node.child? name with
      | some child =>
          if child.label.isClass then
            (node, some (.classAtPackage name))
          else
            let (opened, defect) := openPackages rest child
            ({ node with children := upsert name (fun _ => opened) node.children }, defect)
      | none =>
          let (opened, defect) := openPackages rest (ofPackage name)
          ({ node with children := upsert name (fun _ => opened) node.children }, defect)

/-- Writes a class at a path. A class that is there already keeps its place. -/
def putClass (label : NodeLabel) : List String → PackageNode → PackageNode
  | [], node => node
  | [name], node =>
      { node with
        children := upsert name (fun old => ⟨label, (old.map children).getD []⟩) node.children }
  | name :: next :: rest, node =>
      { node with
        children :=
          upsert name (fun old => putClass label (next :: rest) (old.getD (ofPackage name)))
            node.children }

end ApkAtlas.PackageNode
