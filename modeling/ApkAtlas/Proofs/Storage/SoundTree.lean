import ApkAtlas.Proofs.Except
import ApkAtlas.Proofs.Storage.FileTree
import ApkAtlas.Proofs.Table

namespace ApkAtlas.FileTree

/-!
# Trees as file systems keep them

Nothing stands twice at one place, and whatever stands, stands in directories. A path without
two dots then leads to what stands at its place, and a tree stays of this kind when
directories are made and files are written and removed.
-/

/-- Every place has one node, and what is there is reached through directories. -/
structure Sound (tree : FileTree) : Prop where
  distinct : (tree.nodes.map Prod.fst).Nodup
  grounded : ∀ place node, tree.node? place = some node →
    ∀ front, front <+: place → front ≠ place → tree.node? front = some .directory

/-- All that has to stand on the way to a place. -/
def Reachable (tree : FileTree) (place : List String) : Prop :=
  ∀ front, front <+: place → front ≠ place → tree.node? front = some .directory

variable {tree after : FileTree} {place other : List String} {node : FileNode}

/-- A node of a sound tree can be reached. -/
theorem Sound.reachable
    (sound : tree.Sound)
    (stands : tree.node? place = some node) :
    tree.Reachable place :=
  sound.grounded place node stands

/-- Below the root, what stands at a place is an entry of the tree. -/
theorem Sound.mem_nodes_iff
    (sound : tree.Sound)
    (belowRoot : place ≠ []) :
    (place, node) ∈ tree.nodes ↔ tree.node? place = some node := by
  cases place with
  | nil =>
      exact absurd rfl belowRoot
  | cons _ _ =>
      exact (Table.get?_eq_some_iff sound.distinct).symm

theorem node?_empty (place : List String) : place = [] ∨ node? {} place = none := by
  cases place with
  | nil =>
      exact .inl rfl
  | cons _ _ =>
      exact .inr rfl

/-- The empty tree is sound. -/
theorem sound_empty : Sound {} where
  distinct := List.nodup_nil
  grounded := by
    intro place node stands front isPrefix proper
    rcases node?_empty place with rfl | missing
    · exact absurd (List.prefix_nil.mp isPrefix) proper
    · rw [missing] at stands
      cases stands

/-! ## Following paths -/

/-- Names without two dots can be followed exactly through directories. -/
theorem walk_eq_ok_iff
    {names : List String}
    (noReturn : ".." ∉ names) :
    tree.walk place names = .ok (place ++ names) ↔
      ∀ front, front <+: names → front ≠ names →
        tree.node? (place ++ front) = some .directory := by
  induction names generalizing place with
  | nil =>
      simp [walk]
  | cons name rest inductionHypothesis =>
      rw [List.mem_cons, not_or] at noReturn
      obtain ⟨isName, noneInRest⟩ := noReturn
      have goesOn := @inductionHypothesis (place ++ [name]) noneInRest
      rw [List.append_assoc, List.singleton_append] at goesOn
      rw [walk, if_neg (Ne.symm isName)]
      constructor
      · intro walked front isPrefix proper
        cases stands : tree.node? place with
        | none =>
            simp [stands] at walked
        | some node =>
            cases node with
            | file _ =>
                simp [stands] at walked
            | directory =>
                rw [stands] at walked
                rcases List.prefix_cons_iff.mp isPrefix with rfl | ⟨more, rfl, isMore⟩
                · rw [List.append_nil, stands]
                · have later := goesOn.mp walked more isMore (by simpa using proper)
                  rwa [List.append_assoc, List.singleton_append] at later
      · intro directories
        have here := directories [] List.nil_prefix (List.cons_ne_nil _ _).symm
        rw [List.append_nil] at here
        rw [here]
        apply goesOn.mpr
        intro front isPrefix proper
        rw [List.append_assoc, List.singleton_append]
        exact directories (name :: front) (List.cons_prefix_cons.mpr ⟨rfl, isPrefix⟩)
          (by simpa using proper)

/-- The path of a place that can be reached leads there. -/
theorem locate_pathOf
    (noReturn : ".." ∉ place)
    (reachable : tree.Reachable place) :
    tree.locate (pathOf place) = .ok place :=
  (walk_eq_ok_iff noReturn).mpr reachable

/-- Where a plain path leads can be reached. -/
theorem reachable_of_locate
    (noReturn : ".." ∉ place)
    (located : tree.locate (pathOf place) = .ok other) :
    other = place ∧ tree.Reachable place := by
  have ends : other = place := by
    have followed := eq_follow_of_locate located
    simpa [pathOf, origin, FilePath.follow_of_not_mem noReturn] using followed
  refine ⟨ends, ?_⟩
  rw [ends] at located
  exact (walk_eq_ok_iff noReturn).mp located

/-- In a sound tree each node is found at its path. -/
theorem Sound.find_pathOf
    (sound : tree.Sound)
    (noReturn : ".." ∉ place)
    (stands : tree.node? place = some node) :
    tree.find (pathOf place) = .ok (place, node) := by
  rw [find, locate_pathOf noReturn (sound.reachable stands)]
  simp only [bind, Except.bind, stands]
  rfl

/-- What is found at the path of a place stands there. -/
theorem find_pathOf_eq_ok
    (noReturn : ".." ∉ place)
    (found : tree.find (pathOf place) = .ok (other, node)) :
    other = place ∧ tree.node? place = some node := by
  obtain ⟨reached, located, rest⟩ := exists_of_bind_eq_ok found
  obtain ⟨rfl, -⟩ := reachable_of_locate noReturn located
  cases stands : tree.node? reached with
  | none =>
      rw [stands] at rest
      cases rest
  | some _ =>
      rw [stands] at rest
      cases rest
      exact ⟨rfl, rfl⟩

/-- A path leads to something exactly if something stands at its place. -/
theorem Sound.holds_pathOf
    (sound : tree.Sound)
    (noReturn : ".." ∉ place) :
    tree.holds (pathOf place) = (tree.node? place).isSome := by
  rw [holds]
  cases stands : tree.node? place with
  | some node =>
      rw [sound.find_pathOf noReturn stands]
      rfl
  | none =>
      cases found : tree.find (pathOf place) with
      | error _ =>
          rfl
      | ok reached =>
          have standing := (find_pathOf_eq_ok noReturn found).2
          rw [stands] at standing
          cases standing

/-- In a sound tree each file is read at its path. -/
theorem Sound.read_pathOf
    (sound : tree.Sound)
    (noReturn : ".." ∉ place)
    {content : Bytes}
    (stands : tree.node? place = some (.file content)) :
    tree.read (pathOf place) = .ok content := by
  rw [read, sound.find_pathOf noReturn stands]
  rfl

/-! ## What stands below a place -/

/-- An entry is below a place if it has further names. -/
theorem eq_some_below_iff
    {entry : List String × FileNode}
    {names : List String} :
    (if place.isPrefixOf entry.1 && place.length < entry.1.length then
        some (entry.1.drop place.length, entry.2)
      else
        none) = some (names, node) ↔
      names ≠ [] ∧ entry = (place ++ names, node) := by
  simp only [Bool.and_eq_true, List.isPrefixOf_iff_prefix, decide_eq_true_eq]
  constructor
  · intro isBelow
    split at isBelow
    · rename_i lower
      obtain ⟨⟨rest, whole⟩, shorter⟩ := lower
      rw [← whole, List.drop_left] at isBelow
      cases isBelow
      rw [← whole, List.length_append] at shorter
      exact ⟨List.ne_nil_of_length_pos (by omega), Prod.ext whole.symm rfl⟩
    · cases isBelow
  · rintro ⟨named, rfl⟩
    have positive := List.length_pos_iff.mpr named
    rw [if_pos ⟨List.prefix_append _ _, by rw [List.length_append]; omega⟩, List.drop_left]

/-- What stands below a place, by the names from there on. -/
theorem Sound.mem_below_iff
    (sound : tree.Sound)
    {names : List String} :
    (names, node) ∈ tree.below place ↔
      names ≠ [] ∧ tree.node? (place ++ names) = some node := by
  rw [below, List.mem_filterMap]
  constructor
  · rintro ⟨entry, member, isBelow⟩
    obtain ⟨named, rfl⟩ := eq_some_below_iff.mp isBelow
    exact ⟨named,
      (sound.mem_nodes_iff (List.append_ne_nil_of_right_ne_nil _ named)).mp member⟩
  · rintro ⟨named, stands⟩
    exact ⟨(place ++ names, node),
      (sound.mem_nodes_iff (List.append_ne_nil_of_right_ne_nil _ named)).mpr stands,
      eq_some_below_iff.mpr ⟨named, rfl⟩⟩

/-- In a sound tree paths tell the entries below a place apart. -/
theorem Sound.nodup_below
    (sound : tree.Sound)
    (place : List String) :
    ((tree.below place).map Prod.fst).Nodup := by
  have distinct := sound.distinct
  rw [List.Nodup, List.pairwise_map] at distinct ⊢
  rw [below, List.pairwise_filterMap]
  refine distinct.imp ?_
  rintro first second different ⟨names, _⟩ isFirst ⟨_, _⟩ isSecond rfl
  apply different
  rw [(eq_some_below_iff.mp isFirst).2, (eq_some_below_iff.mp isSecond).2]

/-! ## Changes -/

/-- A new directory at a place that can be reached keeps a tree sound. -/
theorem Sound.put_directory
    (sound : tree.Sound)
    (missing : tree.node? place = none)
    (reachable : tree.Reachable place) :
    (tree.put place .directory).Sound where
  distinct := Table.nodup_put sound.distinct _ _
  grounded := by
    intro standing node stands front isPrefix proper
    have belowRoot : place ≠ [] := by
      rintro rfl
      cases missing
    by_cases isPlace : front = place
    · rw [isPlace]
      exact node?_put_self belowRoot _
    · rw [node?_put_of_ne isPlace]
      by_cases isNew : standing = place
      · exact reachable front (isNew ▸ isPrefix) isPlace
      · rw [node?_put_of_ne isNew] at stands
        exact sound.grounded standing node stands front isPrefix proper

/-- What is in a directory of a sound tree can be reached. -/
theorem Sound.reachable_append_singleton
    (sound : tree.Sound)
    (isDirectory : tree.node? place = some .directory)
    (name : String) :
    tree.Reachable (place ++ [name]) := by
  intro front isPrefix proper
  rw [List.prefix_concat_iff] at isPrefix
  have within := isPrefix.resolve_left (by simpa using proper)
  by_cases whole : front = place
  · rw [whole, isDirectory]
  · exact sound.grounded place _ isDirectory front within whole

/-- Making directories leaves all that was there. -/
theorem node?_makeDirectories_of_some
    {done names : List String}
    (made : tree.makeDirectories done names = .ok after)
    (stands : tree.node? place = some node) :
    after.node? place = some node := by
  rcases node?_of_makeDirectories made place with same | ⟨_, missing, _⟩
  · rw [same, stands]
  · rw [stands] at missing
    cases missing

/-- The directories that were asked for stand then. -/
theorem Sound.makeDirectories
    {done names : List String}
    (sound : tree.Sound)
    (start : tree.node? done = some .directory)
    (made : tree.makeDirectories done names = .ok after) :
    after.Sound ∧ ∀ front, front <+: names → after.node? (done ++ front) = some .directory := by
  induction names generalizing tree done with
  | nil =>
      cases made
      refine ⟨sound, ?_⟩
      intro front isPrefix
      rw [List.prefix_nil.mp isPrefix, List.append_nil]
      exact start
  | cons name rest inductionHypothesis =>
      have started := node?_makeDirectories_of_some made start
      have fromHere :
          (∀ front, front <+: rest → after.node? (done ++ [name] ++ front) = some .directory) →
            ∀ front, front <+: name :: rest → after.node? (done ++ front) = some .directory := by
        intro later front isPrefix
        rcases List.prefix_cons_iff.mp isPrefix with rfl | ⟨more, rfl, isMore⟩
        · rw [List.append_nil, started]
        · rw [← List.singleton_append, ← List.append_assoc]
          exact later more isMore
      rw [FileTree.makeDirectories] at made
      cases stands : tree.node? (done ++ [name]) with
      | none =>
          simp only [stands] at made
          have put := sound.put_directory stands (sound.reachable_append_singleton start name)
          have belowRoot : done ++ [name] ≠ [] :=
            List.append_ne_nil_of_right_ne_nil done (List.cons_ne_nil name [])
          have isMade :
              (tree.put (done ++ [name]) .directory).node? (done ++ [name]) = some .directory :=
            node?_put_self belowRoot .directory
          exact (inductionHypothesis put isMade made).imp_right fromHere
      | some node =>
          simp only [stands] at made
          cases node with
          | directory =>
              exact (inductionHypothesis sound stands made).imp_right fromHere
          | file _ =>
              simp only at made
              split at made <;> cases made

/-- Directories can be made where no file is in the way. -/
theorem exists_makeDirectories
    {done names : List String}
    (free : ∀ front, front <+: done ++ names →
      ∀ content, tree.node? front ≠ some (.file content)) :
    ∃ after, tree.makeDirectories done names = .ok after := by
  induction names generalizing tree done with
  | nil =>
      exact ⟨tree, rfl⟩
  | cons name rest inductionHypothesis =>
      have whole : done ++ name :: rest = (done ++ [name]) ++ rest := by
        simp
      rw [whole] at free
      rw [FileTree.makeDirectories]
      cases stands : tree.node? (done ++ [name]) with
      | none =>
          apply inductionHypothesis
          intro front isPrefix content
          by_cases isNew : front = done ++ [name]
          · rw [isNew, node?_put_self (List.append_ne_nil_of_right_ne_nil _ (List.cons_ne_nil _ _))]
            simp
          · rw [node?_put_of_ne isNew]
            exact free front isPrefix content
      | some node =>
          cases node with
          | directory =>
              exact inductionHypothesis free
          | file content =>
              exact absurd stands (free _ (List.prefix_append _ _) content)

/-- Writing a file keeps a tree sound, and the file is there. -/
theorem Sound.write
    {content : Bytes}
    (sound : tree.Sound)
    (reachable : tree.Reachable place)
    (written : tree.write place content = .ok after) :
    after.Sound ∧ after.node? place = some (.file content) := by
  rw [FileTree.write] at written
  split at written
  · cases written
  · rename_i noDirectory
    cases written
    have belowRoot : place ≠ [] := by
      rintro rfl
      exact noDirectory rfl
    refine ⟨⟨Table.nodup_put sound.distinct _ _, ?_⟩, node?_put_self belowRoot _⟩
    intro standing node stands front isPrefix proper
    by_cases isNew : standing = place
    · subst isNew
      rw [node?_put_of_ne proper]
      exact reachable front isPrefix proper
    · rw [node?_put_of_ne isNew] at stands
      have isDirectory := sound.grounded standing node stands front isPrefix proper
      have elsewhere : front ≠ place := by
        rintro rfl
        exact noDirectory isDirectory
      rw [node?_put_of_ne elsewhere, isDirectory]

/-- Removing a file keeps a tree sound, and the file is gone. -/
theorem Sound.remove
    (sound : tree.Sound)
    (removed : tree.remove place = .ok after) :
    after.Sound ∧ after.node? place = none := by
  have elsewhere := fun other different => @node?_of_remove tree after place other removed different
  rw [FileTree.remove] at removed
  split at removed
  · cases removed
  · cases removed
  · rename_i content wasFile
    cases removed
    have gone :
        FileTree.node? { tree with nodes := Table.erase place tree.nodes } place = none := by
      cases place with
      | nil =>
          cases wasFile
      | cons _ _ =>
          exact Table.get?_erase_self _ _
    refine ⟨⟨Table.nodup_erase sound.distinct _, ?_⟩, gone⟩
    intro standing node stands front isPrefix proper
    have isOther : standing ≠ place := by
      rintro rfl
      rw [gone] at stands
      cases stands
    rw [elsewhere standing isOther] at stands
    have isDirectory := sound.grounded standing node stands front isPrefix proper
    have stays : front ≠ place := by
      rintro rfl
      rw [wasFile] at isDirectory
      cases isDirectory
    rw [elsewhere front stays, isDirectory]

end ApkAtlas.FileTree
