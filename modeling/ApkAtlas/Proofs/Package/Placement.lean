import ApkAtlas.Package.Placement
import ApkAtlas.Proofs.Package.Tree

namespace ApkAtlas.PackageNode

/-!
# What placing a class changes

Seen as a function from paths to labels, a tree changes in two ways when a class is
placed: the class stands at its path, and packages stand on the way where nothing stood.
A walk that fails meets a class before anything is missing, so it makes nothing.
-/

/-! ## Changing one child -/

theorem eta (node : PackageNode) : ⟨node.label, node.children⟩ = node := by
  cases node with
  | mk label children =>
      rfl

/-- The child of a name after one child was changed or appended. -/
theorem child?_upsert
    {node : PackageNode}
    {name : String}
    (change : Option PackageNode → PackageNode)
    (keepsName : (change (node.child? name)).name = name)
    (other : String) :
    child? { node with children := upsert name change node.children } other =
      if other = name then some (change (node.child? name)) else node.child? other := by
  obtain ⟨label, children⟩ := node
  simp only [child?] at keepsName ⊢
  induction children with
  | nil =>
      by_cases same : other = name
      · subst same
        simpa [upsert] using keepsName
      · have differs : (change none).name ≠ other := by
          intro changed
          exact same (changed.symm.trans keepsName)
        simp [upsert, same, differs]
  | cons first rest inductionHypothesis =>
      by_cases isFirst : first.name = name
      · have found : (first :: rest).find? (·.name == name) = some first := by
          simp [isFirst]
        rw [found] at keepsName ⊢
        rw [upsert, if_pos isFirst]
        by_cases same : other = name
        · subst same
          simp [keepsName]
        · have firstDiffers : first.name ≠ other := by
            intro changed
            exact same (changed.symm.trans isFirst)
          have differs : (change (some first)).name ≠ other := by
            intro changed
            exact same (changed.symm.trans keepsName)
          simp [same, firstDiffers, differs]
      · have later : (first :: rest).find? (·.name == name) = rest.find? (·.name == name) := by
          simp [isFirst]
        rw [later] at keepsName ⊢
        rw [upsert, if_neg isFirst]
        by_cases atFirst : first.name = other
        · have differs : other ≠ name := by
            intro changed
            exact isFirst (atFirst.trans changed)
          simp [atFirst, differs]
        · rw [List.find?_cons_of_neg (by simpa using atFirst),
            List.find?_cons_of_neg (by simpa using atFirst)]
          exact inductionHypothesis keepsName

/-- Putting a child back where it was found changes nothing. -/
theorem upsert_child?
    {node child : PackageNode}
    {name : String}
    (found : node.child? name = some child) :
    upsert name (fun _ => child) node.children = node.children := by
  rw [child?] at found
  generalize node.children = children at found ⊢
  induction children with
  | nil =>
      simp at found
  | cons first rest inductionHypothesis =>
      by_cases isFirst : first.name = name
      · have same : first = child := by
          simpa [isFirst] using found
        rw [upsert, if_pos isFirst, same]
      · rw [List.find?_cons_of_neg (by simpa using isFirst)] at found
        rw [upsert, if_neg isFirst, inductionHypothesis found]

/-- The labels of a tree after one child was changed or appended. -/
theorem labelAt?_upsert
    {node : PackageNode}
    {name : String}
    (change : Option PackageNode → PackageNode)
    (keepsName : (change (node.child? name)).name = name)
    (other : String)
    (rest : List String) :
    labelAt? { node with children := upsert name change node.children } (other :: rest) =
      if other = name then (change (node.child? name)).labelAt? rest
      else node.labelAt? (other :: rest) := by
  rw [labelAt?_cons, child?_upsert change keepsName]
  by_cases same : other = name
  · rw [if_pos same, if_pos same]
    rfl
  · rw [if_neg same, if_neg same, labelAt?_cons]

theorem mem_upsert
    {name : String}
    {change : Option PackageNode → PackageNode}
    {children : List PackageNode}
    {child : PackageNode}
    (member : child ∈ upsert name change children) :
    child ∈ children ∨ child = change (children.find? (·.name == name)) := by
  induction children with
  | nil =>
      rw [upsert, List.mem_singleton] at member
      exact .inr member
  | cons first rest inductionHypothesis =>
      by_cases isFirst : first.name = name
      · rw [upsert, if_pos isFirst] at member
        rcases List.mem_cons.mp member with changed | inRest
        · refine .inr (changed.trans ?_)
          simp [isFirst]
        · exact .inl (List.mem_cons_of_mem first inRest)
      · rw [upsert, if_neg isFirst] at member
        rw [List.find?_cons_of_neg (by simpa using isFirst)]
        rcases List.mem_cons.mp member with atFirst | inRest
        · exact .inl (atFirst ▸ List.mem_cons_self)
        · exact (inductionHypothesis inRest).imp_left (List.mem_cons_of_mem first)

theorem nodup_names_upsert
    {name : String}
    {change : Option PackageNode → PackageNode}
    {children : List PackageNode}
    (keepsName : (change (children.find? (·.name == name))).name = name)
    (different : (children.map PackageNode.name).Nodup) :
    ((upsert name change children).map PackageNode.name).Nodup := by
  induction children with
  | nil =>
      simp [upsert]
  | cons first rest inductionHypothesis =>
      rw [List.map_cons, List.nodup_cons] at different
      by_cases isFirst : first.name = name
      · have found : (first :: rest).find? (·.name == name) = some first := by
          simp [isFirst]
        rw [found] at keepsName
        rw [upsert, if_pos isFirst, List.map_cons, List.nodup_cons, keepsName, ← isFirst]
        exact different
      · rw [List.find?_cons_of_neg (by simpa using isFirst)] at keepsName
        rw [upsert, if_neg isFirst, List.map_cons, List.nodup_cons]
        refine ⟨?_, inductionHypothesis keepsName different.2⟩
        intro member
        obtain ⟨child, inChanged, sameName⟩ := List.mem_map.mp member
        rcases mem_upsert inChanged with inRest | changed
        · apply different.1
          rw [← sameName]
          exact List.mem_map_of_mem inRest
        · rw [changed, keepsName] at sameName
          exact isFirst sameName.symm

/-- Changing a child to one whose nodes are told apart keeps them told apart. -/
theorem Distinct.upsert
    {node : PackageNode}
    {name : String}
    {change : Option PackageNode → PackageNode}
    (distinct : node.Distinct)
    (keepsName : (change (node.child? name)).name = name)
    (changed : (change (node.child? name)).Distinct) :
    Distinct { node with children := upsert name change node.children } := by
  refine .node (nodup_names_upsert keepsName distinct.names) ?_
  intro child member
  rcases mem_upsert member with old | new
  · exact distinct.child old
  · rw [new]
    exact changed

/-! ## Opening packages -/

theorem distinct_ofPackage (name : String) : (ofPackage name).Distinct :=
  .node List.nodup_nil fun _ member => nomatch member

/-- Below a package that is made on the way to a longer path stands nothing but packages
on that way. -/
def freshPackage? (path other : List String) : Option NodeLabel :=
  if other <+: path then other.getLast?.map fun name => (ofPackage name).label else none

/-- A first package in common is not fresh. -/
theorem freshPackage?_cons (name : String) (path : List String) {other : List String}
    (longer : other ≠ []) :
    freshPackage? (name :: path) (name :: other) = freshPackage? path other := by
  obtain ⟨next, rest, rfl⟩ := List.exists_cons_of_ne_nil longer
  simp [freshPackage?, List.cons_prefix_cons]

/-- A path that leads elsewhere has no fresh package there. -/
theorem freshPackage?_cons_of_ne
    {name other : String}
    (different : other ≠ name)
    (path rest : List String) :
    freshPackage? (name :: path) (other :: rest) = none := by
  simp [freshPackage?, List.cons_prefix_cons, different]

/-- Opening packages leaves the label of the root. -/
theorem label_openPackages (path : List String) (node : PackageNode) :
    (openPackages path node).1.label = node.label := by
  cases path with
  | nil =>
      rfl
  | cons name rest =>
      rw [openPackages]
      cases node.child? name with
      | none =>
          rfl
      | some child =>
          by_cases isClass : child.label.isClass
          · simp only [isClass, ↓reduceIte]
          · simp only [isClass, Bool.false_eq_true, ↓reduceIte]

/-- A walk that starts below a new package meets no class. -/
theorem openPackages_of_children_nil
    (path : List String)
    {node : PackageNode}
    (childless : node.children = []) :
    (openPackages path node).2 = none := by
  induction path generalizing node with
  | nil =>
      rfl
  | cons name rest inductionHypothesis =>
      have missing : node.child? name = none := by
        simp [child?, childless]
      rw [openPackages, missing]
      exact inductionHypothesis rfl

/-- A walk that a class stops has met the class at the end of some part of the path, and
has made nothing. -/
theorem openPackages_of_defect
    {path : List String}
    {node : PackageNode}
    {defect : ClassName.Defect}
    (stopped : (openPackages path node).2 = some defect) :
    (openPackages path node).1 = node ∧
      ∃ met, met ≠ [] ∧ met <+: path ∧
        ∃ label, node.labelAt? met = some label ∧ label.isClass := by
  induction path generalizing node with
  | nil =>
      cases stopped
  | cons name rest inductionHypothesis =>
      rw [openPackages] at stopped ⊢
      cases found : node.child? name with
      | none =>
          rw [found] at stopped
          have free : (openPackages rest (ofPackage name)).2 = none :=
            openPackages_of_children_nil rest rfl
          exact nomatch free.symm.trans stopped
      | some child =>
          rw [found] at stopped
          by_cases isClass : child.label.isClass
          · simp only [isClass, ↓reduceIte]
            refine ⟨trivial, [name], List.cons_ne_nil _ _, ?_, child.label, ?_, isClass⟩
            · exact List.cons_prefix_cons.mpr ⟨rfl, List.nil_prefix⟩
            · simp [labelAt?_cons, found]
          · simp only [isClass, Bool.false_eq_true, ↓reduceIte] at stopped ⊢
            obtain ⟨unchanged, met, _, leading, label, atMet, classAtMet⟩ :=
              inductionHypothesis stopped
            rw [unchanged, upsert_child? found]
            refine ⟨eta node, name :: met, List.cons_ne_nil _ _, ?_, label, ?_, classAtMet⟩
            · exact List.cons_prefix_cons.mpr ⟨rfl, leading⟩
            · rw [labelAt?_cons, found]
              exact atMet

/-- A walk along packages that are all there changes nothing. -/
theorem openPackages_of_present
    {path : List String}
    {node : PackageNode}
    (present : (node.labelAt? path).isSome) :
    (openPackages path node).1 = node := by
  induction path generalizing node with
  | nil =>
      rfl
  | cons name rest inductionHypothesis =>
      rw [openPackages]
      cases found : node.child? name with
      | none =>
          simp [labelAt?_cons, found] at present
      | some child =>
          have below : (child.labelAt? rest).isSome := by
            simpa [labelAt?_cons, found] using present
          by_cases isClass : child.label.isClass
          · simp only [isClass, ↓reduceIte]
          · simp only [isClass, Bool.false_eq_true, ↓reduceIte]
            rw [inductionHypothesis below, upsert_child? found]
            exact eta node

/-- A walk that goes through has met no class. -/
theorem not_isClass_of_openPackages
    {path : List String}
    {node : PackageNode}
    (through : (openPackages path node).2 = none)
    {met : List String}
    (longer : met ≠ [])
    (leading : met <+: path)
    {label : NodeLabel}
    (atMet : node.labelAt? met = some label) :
    ¬ label.isClass := by
  induction path generalizing node met with
  | nil =>
      exact absurd (List.prefix_nil.mp leading) longer
  | cons name rest inductionHypothesis =>
      obtain ⟨next, more, rfl⟩ := List.exists_cons_of_ne_nil longer
      obtain ⟨rfl, leadingRest⟩ := List.cons_prefix_cons.mp leading
      rw [labelAt?_cons] at atMet
      rw [openPackages] at through
      cases found : node.child? next with
      | none =>
          rw [found] at atMet
          cases atMet
      | some child =>
          rw [found] at atMet through
          by_cases isClass : child.label.isClass
          · simp only [isClass, ↓reduceIte] at through
            cases through
          · simp only [isClass, Bool.false_eq_true, ↓reduceIte] at through
            cases more with
            | nil =>
                cases atMet
                exact isClass
            | cons _ _ =>
                exact inductionHypothesis through (List.cons_ne_nil _ _) leadingRest atMet

/-- The labels of a tree after a walk that went through. -/
theorem labelAt?_openPackages
    {path : List String}
    {node : PackageNode}
    (through : (openPackages path node).2 = none)
    (other : List String) :
    (openPackages path node).1.labelAt? other =
      (node.labelAt? other).or (freshPackage? path other) := by
  induction path generalizing node other with
  | nil =>
      cases other with
      | nil =>
          rfl
      | cons _ _ =>
          simp [openPackages, freshPackage?]
  | cons name rest inductionHypothesis =>
      cases other with
      | nil =>
          simp [label_openPackages]
      | cons next more =>
          rw [openPackages] at through ⊢
          cases found : node.child? name with
          | none =>
              rw [found] at through
              have keepsName : (openPackages rest (ofPackage name)).1.name = name :=
                congrArg NodeLabel.name (label_openPackages rest (ofPackage name))
              rw [labelAt?_upsert (fun _ => (openPackages rest (ofPackage name)).1) keepsName]
              by_cases same : next = name
              · subst same
                rw [if_pos rfl, inductionHypothesis through, labelAt?_cons, found]
                cases more with
                | nil =>
                    simp [freshPackage?, List.cons_prefix_cons]
                | cons _ _ =>
                    rw [labelAt?_cons_of_children_nil rfl,
                      freshPackage?_cons _ _ (List.cons_ne_nil _ _)]
                    rfl
              · rw [if_neg same, freshPackage?_cons_of_ne same, Option.or_none]
          | some child =>
              rw [found] at through
              by_cases isClass : child.label.isClass
              · simp only [isClass, ↓reduceIte] at through
                cases through
              · simp only [isClass, Bool.false_eq_true, ↓reduceIte] at through ⊢
                have keepsName : (openPackages rest child).1.name = name :=
                  (congrArg NodeLabel.name (label_openPackages rest child)).trans
                    (name_of_child? found)
                rw [labelAt?_upsert (fun _ => (openPackages rest child).1) keepsName]
                by_cases same : next = name
                · subst same
                  rw [if_pos rfl, inductionHypothesis through, labelAt?_cons, found]
                  cases more with
                  | nil =>
                      rfl
                  | cons _ _ =>
                      rw [freshPackage?_cons _ _ (List.cons_ne_nil _ _)]
                      rfl
                · rw [if_neg same, freshPackage?_cons_of_ne same, Option.or_none]

/-- Opening packages keeps the nodes told apart by their names. -/
theorem Distinct.openPackages
    {node : PackageNode}
    (distinct : node.Distinct)
    (path : List String) :
    (openPackages path node).1.Distinct := by
  induction path generalizing node with
  | nil =>
      exact distinct
  | cons name rest inductionHypothesis =>
      rw [PackageNode.openPackages]
      cases found : node.child? name with
      | none =>
          exact distinct.upsert
            (congrArg NodeLabel.name (label_openPackages rest (ofPackage name)))
            (inductionHypothesis (distinct_ofPackage name))
      | some child =>
          by_cases isClass : child.label.isClass
          · simp only [isClass, ↓reduceIte]
            exact distinct
          · simp only [isClass, Bool.false_eq_true, ↓reduceIte]
            exact distinct.upsert
              ((congrArg NodeLabel.name (label_openPackages rest child)).trans
                (name_of_child? found))
              (inductionHypothesis (distinct.child (mem_of_child? found)))

/-! ## Writing a class -/

/-- Putting a class below a node leaves its label. -/
theorem label_putClass (label : NodeLabel) (path : List String) (node : PackageNode) :
    (putClass label path node).label = node.label := by
  match path with
  | [] =>
      rfl
  | [_] =>
      rfl
  | _ :: _ :: _ =>
      rfl

/-- What is below a missing child is what is below a new package, but for the package. -/
theorem labelAt?_getD_ofPackage
    (node : PackageNode)
    (name : String)
    {rest : List String}
    (longer : rest ≠ []) :
    ((node.child? name).getD (ofPackage name)).labelAt? rest =
      node.labelAt? (name :: rest) := by
  rw [labelAt?_cons]
  cases node.child? name with
  | none =>
      obtain ⟨next, more, rfl⟩ := List.exists_cons_of_ne_nil longer
      exact labelAt?_cons_of_children_nil rfl next more
  | some child =>
      rfl

theorem name_getD_ofPackage (node : PackageNode) (name : String) :
    ((node.child? name).getD (ofPackage name)).name = name := by
  cases found : node.child? name with
  | none =>
      rfl
  | some child =>
      exact name_of_child? found

/-- The labels of a tree after a class was written at the end of a path. -/
theorem labelAt?_putClass
    {label : NodeLabel}
    {path : List String}
    (named : path.getLast? = some label.name)
    (node : PackageNode)
    (other : List String) :
    (putClass label path node).labelAt? other =
      if other = path then some label
      else (node.labelAt? other).or (freshPackage? path other) := by
  induction path generalizing node other with
  | nil =>
      cases named
  | cons name rest inductionHypothesis =>
      cases other with
      | nil =>
          rw [labelAt?_nil, label_putClass]
          rfl
      | cons next more =>
          cases rest with
          | nil =>
              have labelName : label.name = name := by
                simpa using named.symm
              rw [putClass, labelAt?_upsert
                (fun old => ⟨label, (old.map children).getD []⟩) labelName]
              by_cases same : next = name
              · subst same
                rw [if_pos rfl]
                cases more with
                | nil =>
                    simp
                | cons _ _ =>
                    rw [if_neg (by simp), labelAt?_cons node]
                    cases node.child? next <;>
                      simp [labelAt?_cons, child?, freshPackage?, List.cons_prefix_cons]
              · rw [if_neg same, if_neg (by simp [same]), freshPackage?_cons_of_ne same,
                  Option.or_none]
          | cons second tail =>
              have keepsName :
                  (putClass label (second :: tail)
                    ((node.child? name).getD (ofPackage name))).name = name :=
                (congrArg NodeLabel.name (label_putClass _ _ _)).trans
                  (name_getD_ofPackage node name)
              rw [putClass, labelAt?_upsert
                (fun old => putClass label (second :: tail) (old.getD (ofPackage name)))
                keepsName]
              by_cases same : next = name
              · subst same
                rw [if_pos rfl, inductionHypothesis (by simpa using named)]
                by_cases atEnd : more = second :: tail
                · simp [atEnd]
                · rw [if_neg atEnd, if_neg (by simpa using atEnd)]
                  cases more with
                  | nil =>
                      rw [labelAt?_nil, labelAt?_cons]
                      cases node.child? next <;>
                        simp [freshPackage?, List.cons_prefix_cons]
                  | cons _ _ =>
                      rw [labelAt?_getD_ofPackage node next (List.cons_ne_nil _ _),
                        freshPackage?_cons _ _ (List.cons_ne_nil _ _)]
              · rw [if_neg same, if_neg (by simp [same]), freshPackage?_cons_of_ne same,
                  Option.or_none]

/-- Putting a class keeps the nodes told apart by their names. -/
theorem Distinct.putClass
    {label : NodeLabel}
    {path : List String}
    (named : path.getLast? = some label.name)
    {node : PackageNode}
    (distinct : node.Distinct) :
    (putClass label path node).Distinct := by
  induction path generalizing node with
  | nil =>
      exact distinct
  | cons name rest inductionHypothesis =>
      have childDistinct : ((node.child? name).getD (ofPackage name)).Distinct := by
        cases found : node.child? name with
        | none =>
            exact distinct_ofPackage name
        | some child =>
            exact distinct.child (mem_of_child? found)
      cases rest with
      | nil =>
          have labelName : label.name = name := by
            simpa using named.symm
          refine distinct.upsert labelName ?_
          cases found : node.child? name with
          | none =>
              exact .node List.nodup_nil fun _ member => nomatch member
          | some child =>
              have below := distinct.child (mem_of_child? found)
              exact .node below.names fun _ member => below.child member
      | cons second tail =>
          have keepsName :
              (PackageNode.putClass label (second :: tail)
                ((node.child? name).getD (ofPackage name))).name = name :=
            (congrArg NodeLabel.name (label_putClass _ _ _)).trans
              (name_getD_ofPackage node name)
          exact distinct.upsert keepsName
            (inductionHypothesis (by simpa using named) childDistinct)

end ApkAtlas.PackageNode
