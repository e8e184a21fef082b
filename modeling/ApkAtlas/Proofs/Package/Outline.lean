import ApkAtlas.Proofs.Package.Repeated
import ApkAtlas.Proofs.Package.Totals

namespace ApkAtlas

/-!
# Outlines of trees

The outline of a tree has its nodes in their order, with nothing but their names and kinds.
Whether a class can stand at a path, and which nodes are made for it, depends on the outline
alone, so placing a class commutes with taking the outline.
-/

/-- A label without counts and files. -/
def NodeLabel.outline (label : NodeLabel) : NodeLabel :=
  { name := label.name, kind := label.kind }

/-- The label of a class of which nothing but its name is known. -/
def NodeLabel.ofClass (name : String) : NodeLabel :=
  { name, kind := .classNode }

theorem NodeLabel.outline_of_isClass
    {label : NodeLabel}
    (isClass : label.isClass) :
    label.outline = .ofClass label.name := by
  rw [outline, ofClass, beq_iff_eq.mp isClass]

namespace PackageNode

mutual

/-- A tree with nothing but the names and kinds of its nodes. -/
def outline : PackageNode → PackageNode
  | ⟨label, children⟩ => ⟨label.outline, outlineAll children⟩

/-- Trees with nothing but the names and kinds of their nodes. -/
def outlineAll : List PackageNode → List PackageNode
  | [] => []
  | node :: rest => outline node :: outlineAll rest

end

/-- The qualified names and kinds of all nodes, in preorder. -/
def inventory (node : PackageNode) : List (String × NodeKind) :=
  node.walk.map fun entry => (qualifiedName entry.1, entry.2.kind)

/-- The outlines of a list are those of its nodes. -/
theorem outlineAll_eq_map (nodes : List PackageNode) : outlineAll nodes = nodes.map outline := by
  induction nodes with
  | nil =>
      rfl
  | cons node rest inductionHypothesis =>
      rw [outlineAll, inductionHypothesis, List.map_cons]

/-- An outline has the outlines of the children. -/
theorem outline_eq (node : PackageNode) :
    node.outline = ⟨node.label.outline, node.children.map outline⟩ := by
  cases node with
  | mk label children =>
      rw [outline, outlineAll_eq_map]

@[simp] theorem label_outline (node : PackageNode) : node.outline.label = node.label.outline := by
  rw [outline_eq]

@[simp] theorem children_outline (node : PackageNode) :
    node.outline.children = node.children.map outline := by
  rw [outline_eq]

@[simp] theorem name_outline (node : PackageNode) : node.outline.name = node.name := by
  rw [name, label_outline]
  rfl

@[simp] theorem outline_ofPackage (name : String) : (ofPackage name).outline = ofPackage name :=
  outline_eq _

/-- A walk over an outline visits the same paths, with outlines of labels. -/
theorem nodes_outline (node : PackageNode) :
    node.outline.nodes = node.nodes.map fun entry => (entry.1, entry.2.outline) := by
  induction node using childInduction with
  | node label children inductionHypothesis =>
      have below :
          nodesBelow (children.map outline) =
            (nodesBelow children).map fun entry => (entry.1, entry.2.outline) := by
        rw [nodesBelow_eq_flatMap, nodesBelow_eq_flatMap, List.flatMap_map, List.map_flatMap]
        apply List.flatMap_congr
        intro child member
        rw [inductionHypothesis child member, List.map_map, List.map_map, name_outline]
        rfl
      rw [nodes_eq, nodes_eq, List.map_cons, children_outline, below]

theorem inventory_outline (node : PackageNode) : node.outline.inventory = node.inventory := by
  rw [inventory, inventory, walk_eq_map, walk_eq_map, nodes_outline, List.map_map, List.map_map,
    List.map_map]
  apply List.map_congr_left
  intro entry _
  simp only [Function.comp, label_outline]
  rfl

/-- Totals do not show in an outline. -/
theorem outline_rollUp (node : PackageNode) : node.rollUp.outline = node.outline := by
  induction node using childInduction with
  | node label children inductionHypothesis =>
      rw [rollUp_eq, outline_eq, outline_eq, List.map_map]
      congr 1
      apply List.map_congr_left
      intro child member
      exact inductionHypothesis child member

/-! ## Looking up -/

/-- The child of a name is found in the outline as its outline. -/
theorem child?_outline (node : PackageNode) (name : String) :
    node.outline.child? name = (node.child? name).map outline := by
  rw [child?, child?, children_outline, List.find?_map]
  congr 2
  funext child
  simp

/-- A path leads in the outline to the outline of the node. -/
theorem find?_outline (node : PackageNode) (path : List String) :
    node.outline.find? path = (node.find? path).map outline := by
  induction path generalizing node with
  | nil =>
      rfl
  | cons name rest inductionHypothesis =>
      rw [find?_cons, find?_cons, child?_outline, Option.bind_map, Option.map_bind]
      congr 1
      funext child
      exact inductionHypothesis child

/-- A label is found in the outline as its outline. -/
theorem labelAt?_outline (node : PackageNode) (path : List String) :
    node.outline.labelAt? path = (node.labelAt? path).map NodeLabel.outline := by
  rw [labelAt?, labelAt?, find?_outline, Option.map_map, Option.map_map]
  congr 1
  funext below
  exact label_outline below

/-- The node at a path goes by the last name of the path. -/
theorem getLast?_of_labelAt?
    {node : PackageNode}
    {path : List String}
    (longer : path ≠ [])
    {label : NodeLabel}
    (atPath : node.labelAt? path = some label) :
    path.getLast? = some label.name := by
  induction path generalizing node with
  | nil =>
      exact absurd rfl longer
  | cons name rest inductionHypothesis =>
      rw [labelAt?_cons, Option.bind_eq_some_iff] at atPath
      obtain ⟨child, found, atRest⟩ := atPath
      cases rest with
      | nil =>
          cases atRest
          exact congrArg some (name_of_child? found).symm
      | cons next more =>
          rw [List.getLast?_cons_cons]
          exact inductionHypothesis (List.cons_ne_nil _ _) atRest

/-! ## Placing a class -/

/-- Changing a child changes its outline alike. -/
theorem map_outline_upsert
    {name : String}
    {change changeOutline : Option PackageNode → PackageNode}
    (same : ∀ old, (change old).outline = changeOutline (old.map outline))
    (children : List PackageNode) :
    (upsert name change children).map outline =
      upsert name changeOutline (children.map outline) := by
  induction children with
  | nil =>
      rw [upsert, List.map_singleton, same]
      rfl
  | cons first rest inductionHypothesis =>
      rw [upsert, List.map_cons, upsert, name_outline]
      split
      · rw [List.map_cons, same]
        rfl
      · rw [List.map_cons, inductionHypothesis]

/-- Packages are opened in an outline as in the tree. -/
theorem openPackages_outline (path : List String) (node : PackageNode) :
    openPackages path node.outline =
      ((openPackages path node).1.outline, (openPackages path node).2) := by
  induction path generalizing node with
  | nil =>
      rfl
  | cons name rest inductionHypothesis =>
      have opened (child : PackageNode) :
          PackageNode.mk node.outline.label
              (upsert name (fun _ => (openPackages rest child.outline).1)
                node.outline.children) =
            (PackageNode.mk node.label
              (upsert name (fun _ => (openPackages rest child).1) node.children)).outline := by
        rw [inductionHypothesis, outline_eq ⟨node.label, _⟩, label_outline, children_outline]
        exact congrArg _ (map_outline_upsert (fun _ => rfl) node.children).symm
      rw [openPackages, openPackages, child?_outline]
      cases node.child? name with
      | none =>
          have made := opened (ofPackage name)
          rw [outline_ofPackage] at made
          exact Prod.ext made rfl
      | some child =>
          have sameKind : child.outline.label.isClass = child.label.isClass := by
            rw [label_outline]
            rfl
          simp only [Option.map_some, sameKind]
          split
          · rfl
          · have sameEnd := congrArg Prod.snd (inductionHypothesis child)
            exact Prod.ext (opened child) sameEnd

theorem putClass_outline (label : NodeLabel) (path : List String) (node : PackageNode) :
    (putClass label path node).outline = putClass label.outline path node.outline := by
  induction path generalizing node with
  | nil =>
      rfl
  | cons name rest inductionHypothesis =>
      cases rest with
      | nil =>
          rw [putClass, putClass, outline_eq, label_outline, children_outline]
          congr 1
          apply map_outline_upsert
          intro old
          rw [outline_eq]
          cases old with
          | none =>
              rfl
          | some child =>
              simp
      | cons next more =>
          rw [putClass, putClass, outline_eq, label_outline, children_outline]
          congr 1
          apply map_outline_upsert
          intro old
          rw [inductionHypothesis]
          cases old <;> simp

/-- A child is changed by what it is before. -/
theorem upsert_eq_const
    (name : String)
    (change : Option PackageNode → PackageNode)
    (children : List PackageNode) :
    upsert name change children =
      upsert name (fun _ => change (children.find? (·.name == name))) children := by
  induction children with
  | nil =>
      rfl
  | cons first rest inductionHypothesis =>
      rw [upsert, upsert]
      by_cases isFirst : first.name = name
      · simp [isFirst]
      · rw [if_neg isFirst, if_neg isFirst, List.find?_cons_of_neg (by simpa using isFirst),
          inductionHypothesis]

/-- A child that is changed into itself leaves its siblings as they are. -/
theorem upsert_of_unchanged
    {node child : PackageNode}
    {name : String}
    {change : Option PackageNode → PackageNode}
    (found : node.child? name = some child)
    (unchanged : change (some child) = child) :
    upsert name change node.children = node.children := by
  have atName : node.children.find? (·.name == name) = some child := found
  rw [upsert_eq_const, atName, unchanged, upsert_child? found]

/-- Writing the label that stands at a path already changes nothing. -/
theorem putClass_of_labelAt?
    {label : NodeLabel}
    {path : List String}
    {node : PackageNode}
    (atPath : node.labelAt? path = some label) :
    putClass label path node = node := by
  induction path generalizing node with
  | nil =>
      rfl
  | cons name rest inductionHypothesis =>
      rw [labelAt?_cons, Option.bind_eq_some_iff] at atPath
      obtain ⟨child, found, atRest⟩ := atPath
      cases rest with
      | nil =>
          cases atRest
          rw [putClass, upsert_of_unchanged found (eta child)]
          exact eta node
      | cons next more =>
          have unchanged :
              putClass label (next :: more) ((some child).getD (ofPackage name)) = child :=
            inductionHypothesis atRest
          rw [putClass, upsert_of_unchanged found unchanged]
          exact eta node

/-- What is wrong with the place of a class shows in the outline. -/
theorem defectAt?_outline (node : PackageNode) (path : List String) :
    node.outline.defectAt? path = node.defectAt? path := by
  rw [defectAt?, defectAt?, openPackages_outline, labelAt?_outline]
  cases (openPackages path.dropLast node).2 with
  | some _ =>
      rfl
  | none =>
      cases node.labelAt? path <;> rfl

/-- A tree with a class at a path, and the packages on the way there. -/
def withClass (path : List String) (label : NodeLabel) (node : PackageNode) : PackageNode :=
  putClass label path (openPackages path.dropLast node).1

/-- Writing a class does to the outline what it does to the tree. -/
theorem withClass_outline (path : List String) (label : NodeLabel) (node : PackageNode) :
    (node.withClass path label).outline = node.outline.withClass path label.outline := by
  rw [withClass, withClass, putClass_outline, openPackages_outline]

/-- A class that stands at a path already is not seen to be placed there again. -/
theorem outline_withClass_of_known
    {node : PackageNode}
    {path : List String}
    {known label : NodeLabel}
    (atPath : node.labelAt? path = some known)
    (same : label.outline = known.outline) :
    (node.withClass path label).outline = node.outline := by
  have atOutline : node.outline.labelAt? path = some label.outline := by
    rw [labelAt?_outline, atPath, same]
    rfl
  have present : (node.outline.labelAt? path.dropLast).isSome := by
    apply labelAt?_isSome_of_prefix path.dropLast_prefix
    rw [atOutline]
    rfl
  rw [withClass_outline, withClass, openPackages_of_present present,
    putClass_of_labelAt? atOutline]

end PackageNode

end ApkAtlas
