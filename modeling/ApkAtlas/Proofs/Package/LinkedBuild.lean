import ApkAtlas.Proofs.Package.Fitting
import ApkAtlas.Proofs.Package.Linked
import ApkAtlas.Proofs.Package.Stopping

namespace ApkAtlas.Package

/-!
# Building trees node by node

A build can hang each new node below an old one, with a link in either direction, where
`build` writes a tree of values. Both make the same trees: after each class the same paths
lead to the same labels. The nodes are linked at every step, since each is hung below a node
that had no child of its name.
-/

open PackageNode

section Building

/-- Walks down the packages of a path and makes those that are missing. A class on the way
stops the walk. -/
def Graph.packageFor
    (graph : Graph)
    (id : Nat) :
    List String → Except ExternalError (Graph × Except ClassName.Defect Nat)
  | [] => .ok (graph, .ok id)
  | name :: rest =>
      match graph.child? id name with
      | some child =>
          if (graph.node child).label.isClass then
            .ok (graph, .error (.classAtPackage name))
          else
            packageFor graph child rest
      | none => do
          let (grown, child) ← graph.hang id (ofPackage name).label
          packageFor grown child rest

/-- What a build with linked nodes has so far. -/
structure LinkedProgress where
  graph : Graph := {}
  /-- The file that the class of each name was taken from. -/
  origins : Std.ExtTreeMap String String := ∅
  warnings : List DuplicateWarning := []

/-- Adds a warning behind the others. -/
def LinkedProgress.warn
    (progress : LinkedProgress)
    (warning : DuplicateWarning) :
    LinkedProgress :=
  { progress with warnings := progress.warnings ++ [warning] }

variable
  (symbols : SymbolMap)
  (policy : DuplicatePolicy)
  (fileName : String)
  (declared : ClassSymbols)

/-- Writes what a class declares to its node. -/
def fillNode (progress : LinkedProgress) (id : Nat) : Except Fault LinkedProgress := do
  let label ← (declaredLabel symbols fileName declared).mapError BuildError.toFault
  return { progress with
    graph := progress.graph.relabel id label
    origins := progress.origins.insert (sourceName symbols declared) fileName }

/-- Decides on a class whose place is taken. -/
def meetNode (progress : LinkedProgress) (id : Nat) : Except Fault (LinkedProgress × Decision) :=
  let name := sourceName symbols declared
  let known := (progress.graph.node id).label
  let keptFile := progress.origins[name]?.getD (known.dexFile.getD "")
  if !known.isClass then
    .ok (progress, .rejected ⟨name, fileName, .packageAtClass⟩)
  else
    match policy with
    | .refuse => .error (BuildError.duplicateClass name keptFile fileName).toFault
    | .firstWins =>
        let warning := ⟨name, keptFile, fileName, policy⟩
        .ok (progress.warn warning, .duplicate warning)
    | .lastWins => do
        let warning := ⟨name, fileName, keptFile, policy⟩
        let filled ← fillNode symbols fileName declared (progress.warn warning) id
        return (filled, .duplicate warning)

/-- Hangs the node of a declared class below its package, or decides why not. -/
def placeNode
    (progress : LinkedProgress)
    (package : Nat)
    (name : String) :
    Except Fault (LinkedProgress × Decision) :=
  match progress.graph.child? package name with
  | some id => meetNode symbols policy fileName declared progress id
  | none => do
      let (graph, id) ←
        (progress.graph.hang package (NodeLabel.ofClass name)).mapError Fault.external
      let filled ← fillNode symbols fileName declared { progress with graph } id
      return (filled, .added)

/-- Hangs the node of a declared class into the tree, or decides why not. -/
def insertNode (progress : LinkedProgress) : Except Fault (LinkedProgress × Decision) :=
  match ClassName.path (sourceName symbols declared) fileName with
  | .error rejection => .ok (progress, .rejected rejection)
  | .ok path => do
      let (graph, outcome) ←
        (progress.graph.packageFor progress.graph.root path.dropLast).mapError Fault.external
      let progress := { progress with graph }
      match outcome with
      | .error defect =>
          return (progress, .rejected ⟨sourceName symbols declared, fileName, defect⟩)
      | .ok package =>
          placeNode symbols policy fileName declared progress package (path.getLastD "")

/-- The progress of a build with linked nodes after one more class of a file. -/
def advanceNodes
    (progress : LinkedProgress)
    (declaration : String × ClassSymbols) :
    Except Fault LinkedProgress :=
  (insertNode symbols policy declaration.1 declaration.2 progress).map Prod.fst

/-- Builds the tree of some files node by node, and derives its totals. -/
def buildNodes
    (settings : BuildSettings)
    (symbols : SymbolMap)
    (sources : List SymbolSource) :
    Except Fault (Graph × Bool) := do
  let known := settings.symbolsFor symbols sources
  let progress ← (declarations sources).foldlM (advanceNodes known settings.policy) {}
  return progress.graph.rollUp

end Building

namespace Graph

/-- A graph of linked nodes has the labels of a tree at their paths. -/
structure Mirrors (graph : Graph) (root : PackageNode) : Prop where
  linked : graph.Linked
  labels : ∀ path, graph.labelAt? path = root.labelAt? path

section Opening

variable {graph : Graph}

theorem labelAt?_concat
    {path : List String}
    {id : Nat}
    (leads : graph.find? path = some id)
    (name : String) :
    graph.labelAt? (path ++ [name]) =
      (graph.child? id name).map fun child => (graph.node child).label := by
  rw [labelAt?, find?_concat, leads]
  rfl

/-- On the way to a node there are nodes already, so none has to be made. -/
theorem labelAt?_or_freshPackage?
    {path : List String}
    (present : (graph.find? path).isSome)
    (other : List String) :
    (graph.labelAt? other).or (freshPackage? path other) = graph.labelAt? other := by
  rw [freshPackage?]
  split
  · rename_i leading
    obtain ⟨rest, rfl⟩ := leading
    rw [find?_append] at present
    rw [labelAt?]
    cases found : graph.find? other with
    | none =>
        simp [found] at present
    | some id =>
        rfl
  · exact Option.or_none

/-- A graph after the packages of a path were opened. -/
structure Opened (graph : Graph) (path : List String) (next : Graph) (package : Nat) :
    Prop where
  linked : next.Linked
  leads : next.find? path = some package
  labels : ∀ other, next.labelAt? other = (graph.labelAt? other).or (freshPackage? path other)

/-- A package can be made where nothing stands, and the packages below it are opened as if it
had been missing with them. -/
theorem Linked.exists_package
    (linked : graph.Linked)
    {start : List String}
    {id : Nat}
    (leads : graph.find? start = some id)
    {name : String}
    (missing : ∀ path, graph.labelAt? (start ++ name :: path) = none) :
    ∃ grown child,
      graph.hang id (ofPackage name).label = .ok (grown, child) ∧
        grown.Linked ∧
        grown.find? (start ++ [name]) = some child ∧
        (∀ path, path ≠ [] → grown.labelAt? ((start ++ [name]) ++ path) = none) ∧
        ∀ rest next package,
          Opened grown ((start ++ [name]) ++ rest) next package →
            Opened graph (start ++ name :: rest) next package := by
  have free : graph.child? id (ofPackage name).label.name = none := by
    have noChild := missing []
    rw [labelAt?_concat leads, Option.map_eq_none_iff] at noChild
    exact noChild
  obtain ⟨grown, child, made, grownLinked, grownLeads, grownLabels⟩ :=
    linked.exists_hang leads free
  have further (path : List String) : (start ++ [name]) ++ path = start ++ name :: path :=
    (List.append_cons start name path).symm
  refine ⟨grown, child, made, grownLinked, grownLeads, ?_, ?_⟩
  · intro path longer
    obtain ⟨next, more, rfl⟩ := List.exists_cons_of_ne_nil longer
    rw [grownLabels, if_neg (by simp), further]
    exact missing _
  · intro rest next package opened
    rw [further] at opened
    refine ⟨opened.linked, opened.leads, fun other => ?_⟩
    rw [opened.labels, grownLabels]
    split
    · rename_i isNew
      have noneThere : graph.labelAt? other = none := isNew ▸ missing []
      rw [noneThere, isNew]
      simp [freshPackage?, ofPackage]
    · rfl

/-- A walk over linked nodes goes as far as one through the tree below its start. -/
theorem Linked.packageFor
    (linked : graph.Linked)
    {start : List String}
    {id : Nat}
    (leads : graph.find? start = some id)
    {node : PackageNode}
    (labels : ∀ path, path ≠ [] → graph.labelAt? (start ++ path) = node.labelAt? path)
    (path : List String) :
    (∀ defect, (openPackages path node).2 = some defect →
      graph.packageFor id path = .ok (graph, .error defect)) ∧
    ((openPackages path node).2 = none →
      ∃ next package,
        graph.packageFor id path = .ok (next, .ok package) ∧
          Opened graph (start ++ path) next package) := by
  -- Below `start` the graph shows the labels of `node`, and so it does one name further down.
  induction path generalizing graph start id node with
  | nil =>
      constructor
      · intro defect impossible
        cases impossible
      · intro _
        refine ⟨graph, id, rfl, linked, ?_, ?_⟩
        · rw [List.append_nil]
          exact leads
        · intro other
          rw [List.append_nil, labelAt?_or_freshPackage?]
          rw [leads]
          rfl
  | cons name rest inductionHypothesis =>
      have belowName (path : List String) :
          graph.labelAt? (start ++ name :: path) =
            (node.child? name).bind fun child => child.labelAt? path := by
        rw [labels _ (List.cons_ne_nil _ _), labelAt?_cons]
      have atName := belowName []
      rw [labelAt?_concat leads] at atName
      rw [openPackages, Graph.packageFor]
      cases foundNode : node.child? name with
      | some below =>
          rw [foundNode, Option.bind_some, labelAt?_nil, Option.map_eq_some_iff] at atName
          obtain ⟨child, found, sameLabel⟩ := atName
          simp only [found, sameLabel]
          split
          · constructor
            · rintro _ ⟨⟩
              rfl
            · intro impossible
              cases impossible
          · have childLeads : graph.find? (start ++ [name]) = some child := by
              rw [find?_concat, leads]
              exact found
            rw [List.append_cons]
            apply inductionHypothesis linked childLeads
            intro path _
            rw [List.append_assoc, List.singleton_append, belowName, foundNode]
            rfl
      | none =>
          rw [foundNode, Option.bind_none, Option.map_eq_none_iff] at atName
          have missing (path : List String) : graph.labelAt? (start ++ name :: path) = none := by
            rw [belowName, foundNode]
            rfl
          obtain ⟨grown, child, made, grownLinked, grownLeads, clear, opens⟩ :=
            linked.exists_package leads missing
          have below (path : List String) (longer : path ≠ []) :
              grown.labelAt? ((start ++ [name]) ++ path) = (ofPackage name).labelAt? path := by
            obtain ⟨next, more, rfl⟩ := List.exists_cons_of_ne_nil longer
            rw [labelAt?_cons_of_children_nil rfl, clear _ longer]
          have through : (openPackages rest (ofPackage name)).2 = none :=
            openPackages_of_children_nil rest rfl
          constructor
          · intro defect stopped
            cases through.symm.trans stopped
          · intro _
            obtain ⟨next, package, walked, opened⟩ :=
              (inductionHypothesis grownLinked grownLeads below).2 through
            refine ⟨next, package, ?_, opens rest next package opened⟩
            rw [atName, made]
            exact walked

end Opening

section Mirroring

variable {graph : Graph} {root : PackageNode}

theorem mirrors_start : Mirrors {} emptyRoot where
  linked := linked_start
  labels path := by
    cases path with
    | nil =>
        rfl
    | cons _ _ =>
        rw [labelAt?_cons_of_children_nil rfl]
        rfl

/-- Opening packages over linked nodes mirrors opening them in the tree. -/
theorem Mirrors.packageFor
    (mirrors : graph.Mirrors root)
    (path : List String) :
    (∀ defect, (openPackages path root).2 = some defect →
      graph.packageFor graph.root path = .ok (graph, .error defect)) ∧
    ((openPackages path root).2 = none →
      ∃ next package,
        graph.packageFor graph.root path = .ok (next, .ok package) ∧
          next.Mirrors (openPackages path root).1 ∧
          next.find? path = some package) := by
  have leads : graph.find? [] = some graph.root := rfl
  obtain ⟨stops, goesOn⟩ :=
    mirrors.linked.packageFor leads (fun path _ => mirrors.labels path) path
  refine ⟨stops, fun through => ?_⟩
  obtain ⟨next, package, walked, opened⟩ := goesOn through
  refine ⟨next, package, walked, ⟨opened.linked, ?_⟩, opened.leads⟩
  intro other
  rw [opened.labels, mirrors.labels, labelAt?_openPackages through, List.nil_append]

/-- Writing the label of a node mirrors writing a class at its path. -/
theorem Linked.mirrors_relabel
    (linked : graph.Linked)
    {front : List String}
    {id : Nat}
    {label : NodeLabel}
    (leads : graph.find? (front ++ [label.name]) = some id)
    (others :
      ∀ other, other ≠ front ++ [label.name] → graph.labelAt? other = root.labelAt? other) :
    (graph.relabel id label).Mirrors (root.putClass label (front ++ [label.name])) := by
  obtain ⟨inside, isPath⟩ := linked.path_of_find? leads
  have named : label.name = (graph.node id).label.name := (linked.name_of_find? leads).symm
  refine ⟨(sameLinks_relabel inside named).linked linked, ?_⟩
  intro other
  rw [linked.labelAt?_relabel inside named, isPath,
    labelAt?_putClass (List.getLast?_concat (a := label.name))]
  split
  · rfl
  · rename_i different
    rw [← others other different, labelAt?_or_freshPackage?]
    rw [leads]
    rfl

end Mirroring

end Graph

/-- What a build has so far, with linked nodes in place of its tree. -/
def Progress.withNodes (progress : Progress) (graph : Graph) : LinkedProgress :=
  ⟨graph, progress.origins, progress.warnings⟩

@[simp] theorem Progress.graph_withNodes (progress : Progress) (graph : Graph) :
    (progress.withNodes graph).graph = graph :=
  rfl

section Inserting

variable
  {symbols : SymbolMap}
  {policy : DuplicatePolicy}
  {fileName : String}
  {declared : ClassSymbols}
  {graph : Graph}
  {progress next : Progress}

/-- A class goes by the last segment of its path. -/
theorem eq_name_of_declaredLabel
    {front : List String}
    {name : String}
    (split : ClassName.path? (sourceName symbols declared) = some (front ++ [name]))
    {label : NodeLabel}
    (labelled : declaredLabel symbols fileName declared = .ok label) :
    name = label.name := by
  have last := ClassName.getLast?_path split
  rw [List.getLast?_concat] at last
  exact (Option.some.inj last).trans (declaredLabel_eq_ok labelled).1.symm

/-- Filling the node of a class mirrors placing the class. -/
theorem fillNode_withNodes
    (linked : graph.Linked)
    {front : List String}
    {id : Nat}
    {label : NodeLabel}
    (leads : graph.find? (front ++ [label.name]) = some id)
    (others :
      ∀ other, other ≠ front ++ [label.name] →
        graph.labelAt? other = (openPackages front progress.root).1.labelAt? other)
    (labelled : declaredLabel symbols fileName declared = .ok label) :
    let name := sourceName symbols declared
    let filled := progress.place name fileName (front ++ [label.name]) label
    ∃ after,
      fillNode symbols fileName declared (progress.withNodes graph) id =
          .ok (filled.withNodes after) ∧
        after.Mirrors filled.root := by
  refine ⟨graph.relabel id label, ?_, ?_⟩
  · rw [fillNode, labelled]
    rfl
  · have mirrors := linked.mirrors_relabel leads others
    rw [Progress.place, withClass, List.dropLast_concat]
    exact mirrors

/-- A class whose place is free gets a new node. -/
theorem placeNode_of_free
    {front : List String}
    (mirrors : graph.Mirrors (openPackages front progress.root).1)
    {package : Nat}
    (leads : graph.find? front = some package)
    {label : NodeLabel}
    (free : graph.child? package label.name = none)
    (labelled : declaredLabel symbols fileName declared = .ok label) :
    let name := sourceName symbols declared
    let filled := progress.place name fileName (front ++ [label.name]) label
    ∃ after,
      placeNode symbols policy fileName declared (progress.withNodes graph) package label.name =
          .ok (filled.withNodes after, .added) ∧
        after.Mirrors filled.root := by
  -- Until it is filled the new node is a bare class, so the graph in between mirrors no tree.
  have freeForClass : graph.child? package (NodeLabel.ofClass label.name).name = none := free
  obtain ⟨grown, child, made, grownLinked, grownLeads, grownLabels⟩ :=
    mirrors.linked.exists_hang leads freeForClass
  have atPath : grown.find? (front ++ [label.name]) = some child := grownLeads
  have others (other : List String) (different : other ≠ front ++ [label.name]) :
      grown.labelAt? other = (openPackages front progress.root).1.labelAt? other :=
    (grownLabels other).trans ((if_neg different).trans (mirrors.labels other))
  obtain ⟨after, isFilled, afterMirrors⟩ :=
    fillNode_withNodes grownLinked atPath others labelled
  refine ⟨after, ?_, afterMirrors⟩
  rw [placeNode, Progress.graph_withNodes, free]
  dsimp only
  rw [made]
  change (fillNode symbols fileName declared (progress.withNodes grown) child >>= _) = _
  rw [isFilled]
  rfl

/-- The policy decides on a class whose place is taken, and may give it the node there. -/
theorem meetNode_of_taken
    {front : List String}
    {segment : String}
    {known : NodeLabel}
    (fit : fitOf progress.root (sourceName symbols declared) = .taken (front ++ [segment]) known)
    (mirrors : graph.Mirrors (openPackages front progress.root).1)
    {id : Nat}
    (leads : graph.find? (front ++ [segment]) = some id)
    {decision : Decision}
    (inserted : insert symbols policy fileName progress declared = .ok (next, decision)) :
    ∃ after,
      meetNode symbols policy fileName declared (progress.withNodes graph) id =
          .ok (next.withNodes after, decision) ∧
        after.Mirrors next.root := by
  obtain ⟨split, found, sameOutline⟩ := known_of_fitOf_taken fit
  have unchanged := openPackages_of_known found
  rw [List.dropLast_concat] at unchanged
  have sameLabel : (graph.node id).label = known := by
    have atPath := mirrors.labels (front ++ [segment])
    rw [unchanged, found, Graph.labelAt?, leads] at atPath
    exact Option.some.inj atPath
  have isClass : known.isClass = true := congrArg NodeLabel.isClass sameOutline
  rw [insert_eq] at inserted
  simp only [fit] at inserted
  simp only [meetNode, Progress.graph_withNodes, sameLabel, isClass]
  cases policy with
  | refuse =>
      cases inserted
  | firstWins =>
      cases inserted
      exact ⟨graph, rfl, unchanged ▸ mirrors⟩
  | lastWins =>
      obtain ⟨label, labelled, placed⟩ := exists_of_map_eq_ok inserted
      cases eq_name_of_declaredLabel split labelled
      cases placed
      let name := sourceName symbols declared
      let warning := collision .lastWins name (progress.fileOf name known) fileName
      have others (other : List String) (_ : other ≠ front ++ [label.name]) :
          graph.labelAt? other =
            (openPackages front (progress.warn warning).root).1.labelAt? other :=
        mirrors.labels other
      obtain ⟨after, filled, afterMirrors⟩ :=
        fillNode_withNodes mirrors.linked leads others labelled
      refine ⟨after, ?_, afterMirrors⟩
      change
        (fillNode symbols fileName declared ((progress.warn warning).withNodes graph) id >>=
          fun filled => .ok (filled, Decision.duplicate warning)) = _
      rw [filled]
      rfl

/-- What becomes of a class in its package is what becomes of it in the tree. -/
theorem placeNode_withNodes
    {front : List String}
    {segment : String}
    (split : ClassName.path? (sourceName symbols declared) = some (front ++ [segment]))
    (through : (openPackages front progress.root).2 = none)
    (mirrors : graph.Mirrors (openPackages front progress.root).1)
    {package : Nat}
    (leads : graph.find? front = some package)
    {decision : Decision}
    (inserted : insert symbols policy fileName progress declared = .ok (next, decision)) :
    ∃ after,
      placeNode symbols policy fileName declared (progress.withNodes graph) package segment =
          .ok (next.withNodes after, decision) ∧
        after.Mirrors next.root := by
  have fit := @fitOf_of_path? progress.root _ _ split
  rw [defectAt?, List.dropLast_concat, through] at fit
  have atPath :
      progress.root.labelAt? (front ++ [segment]) =
        (graph.child? package segment).map fun id => (graph.node id).label := by
    have wholeThrough : (openPackages (front ++ [segment]).dropLast progress.root).2 = none := by
      rw [List.dropLast_concat]
      exact through
    have unopened := labelAt?_path_openPackages wholeThrough (by simp)
    rw [List.dropLast_concat, ← mirrors.labels, Graph.labelAt?_concat leads] at unopened
    exact unopened.symm
  cases isChild : graph.child? package segment with
  | none =>
      rw [isChild, Option.map_none] at atPath
      simp only [atPath] at fit
      rw [insert_eq] at inserted
      simp only [fit] at inserted
      obtain ⟨label, labelled, placed⟩ := exists_of_map_eq_ok inserted
      cases eq_name_of_declaredLabel split labelled
      cases placed
      exact placeNode_of_free mirrors leads isChild labelled
  | some id =>
      rw [isChild, Option.map_some] at atPath
      simp only [atPath] at fit
      rw [placeNode, Progress.graph_withNodes, isChild]
      by_cases isClass : (graph.node id).label.isClass
      · simp only [isClass, ↓reduceIte] at fit
        have idLeads : graph.find? (front ++ [segment]) = some id := by
          rw [Graph.find?_concat, leads]
          exact isChild
        exact meetNode_of_taken fit mirrors idLeads inserted
      · simp only [isClass] at fit
        rw [insert_eq] at inserted
        simp only [fit] at inserted
        cases inserted
        have unchanged := openPackages_of_known atPath
        rw [List.dropLast_concat] at unchanged
        refine ⟨graph, ?_, unchanged ▸ mirrors⟩
        simp only [meetNode, Progress.graph_withNodes, isClass]
        rfl

/-- Inserting a class hangs its node where it writes the class. -/
theorem insertNode_withNodes
    (mirrors : graph.Mirrors progress.root)
    {decision : Decision}
    (inserted : insert symbols policy fileName progress declared = .ok (next, decision)) :
    ∃ after,
      insertNode symbols policy fileName declared (progress.withNodes graph) =
          .ok (next.withNodes after, decision) ∧
        after.Mirrors next.root := by
  have byFit := inserted
  rw [insert_eq] at byFit
  rw [insertNode, ClassName.path_eq]
  cases split : ClassName.path? (sourceName symbols declared) with
  | none =>
      simp only [fitOf, split] at byFit
      cases byFit
      exact ⟨graph, rfl, mirrors⟩
  | some path =>
      obtain ⟨front, segment, isPath⟩ :=
        (List.eq_nil_or_concat path).resolve_left (ClassName.path?_ne_nil split)
      rw [List.concat_eq_append] at isPath
      subst isPath
      simp only [List.dropLast_concat, List.getLastD_concat, Progress.graph_withNodes]
      obtain ⟨stops, goesOn⟩ := mirrors.packageFor front
      cases stopped : (openPackages front progress.root).2 with
      | some defect =>
          simp only [fitOf_of_path? split, defectAt?, List.dropLast_concat, stopped] at byFit
          cases byFit
          rw [stops defect stopped]
          exact ⟨graph, rfl, mirrors⟩
      | none =>
          obtain ⟨opened, package, walked, openedMirrors, leads⟩ := goesOn stopped
          rw [walked]
          exact placeNode_withNodes split stopped openedMirrors leads inserted

/-- Inserting classes one after another hangs their nodes where it writes them. -/
theorem foldlM_advanceNodes
    (mirrors : graph.Mirrors progress.root)
    {classes : List (String × ClassSymbols)}
    (through : classes.foldlM (advance symbols policy) progress = .ok next) :
    ∃ after,
      classes.foldlM (advanceNodes symbols policy) (progress.withNodes graph) =
          .ok (next.withNodes after) ∧
        after.Mirrors next.root := by
  induction classes generalizing progress graph with
  | nil =>
      cases through
      exact ⟨graph, rfl, mirrors⟩
  | cons declaration rest inductionHypothesis =>
      rw [List.foldlM_cons] at through ⊢
      obtain ⟨middle, advanced, goesOn⟩ := exists_of_bind_eq_ok through
      obtain ⟨⟨_, decision⟩, inserted, rfl⟩ := exists_of_map_eq_ok advanced
      obtain ⟨grown, insertedNode, grownMirrors⟩ := insertNode_withNodes mirrors inserted
      rw [advanceNodes, insertedNode]
      exact inductionHypothesis grownMirrors goesOn

/-- A build that goes through can be done node by node. -/
theorem buildNodes_eq_ok
    {settings : BuildSettings}
    {sources : List SymbolSource}
    (through : (build settings symbols sources).stop = none) :
    ∃ graph : Graph,
      buildNodes settings symbols sources = .ok graph.rollUp ∧
        graph.Mirrors (build settings symbols sources).progress.root := by
  have advanced :
      (declarations sources).foldlM
          (advance (settings.symbolsFor symbols sources) settings.policy) {} =
        .ok (build settings symbols sources).progress := by
    rw [foldlM_advance]
    change unlessStopped _ (build settings symbols sources).stop = _
    rw [through]
    rfl
  obtain ⟨graph, hung, mirrors⟩ := foldlM_advanceNodes Graph.mirrors_start advanced
  refine ⟨graph, ?_, mirrors⟩
  change ((declarations sources).foldlM _ (Progress.withNodes {} {}) >>= _) = _
  rw [hung]
  rfl

end Inserting

end ApkAtlas.Package
