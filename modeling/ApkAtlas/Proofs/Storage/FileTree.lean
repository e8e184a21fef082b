import ApkAtlas.Proofs.Text.Segment
import ApkAtlas.Storage.FileTree
import Mathlib.Data.List.Infix

namespace ApkAtlas

/-!
# Where paths lead

A path is followed name by name, and two dots lead back. A file tree only decides whether
a path can be followed, not where it leads. Making directories, writing and removing change
a tree at the places they are asked for and nowhere else.
-/

namespace FilePath

/-- Names without two dots lead on from a place. -/
theorem follow_of_not_mem
    {names : List String}
    (noReturn : ".." ∉ names)
    (place : List String) :
    follow place names = place ++ names := by
  induction names generalizing place with
  | nil =>
      simp [follow]
  | cons name rest inductionHypothesis =>
      rw [List.mem_cons, not_or] at noReturn
      obtain ⟨isName, noneInRest⟩ := noReturn
      simp [follow, Ne.symm isName, inductionHypothesis noneInRest]

/-- Two dots are used up on the way. -/
theorem not_mem_follow
    {place : List String}
    (noReturn : ".." ∉ place)
    (names : List String) :
    ".." ∉ follow place names := by
  induction names generalizing place with
  | nil =>
      exact noReturn
  | cons name rest inductionHypothesis =>
      apply inductionHypothesis
      by_cases returns : name = ".."
      · simpa [returns] using fun member => noReturn (List.mem_of_mem_dropLast member)
      · simpa [returns] using ⟨noReturn, Ne.symm returns⟩

/-- Names are followed in two parts. -/
theorem follow_append
    (place first second : List String) :
    follow place (first ++ second) = follow (follow place first) second := by
  induction first generalizing place with
  | nil =>
      rfl
  | cons name rest inductionHypothesis =>
      exact inductionHypothesis _

/-- A text without slashes is one name, or none if it says nothing. -/
theorem namesOf_of_not_mem
    {text : String}
    (noSlash : '/' ∉ text.toList) :
    namesOf text = if text = "" ∨ text = "." then [] else [text] := by
  have whole : Text.split '/' text = [text] := by
    simp [Text.split, Text.segments_of_not_mem noSlash]
  rw [namesOf, whole]
  by_cases idle : text = "" ∨ text = "."
  · rcases idle with rfl | rfl <;> rfl
  · obtain ⟨notEmpty, noDot⟩ := not_or.mp idle
    simp [notEmpty, noDot]

end FilePath

namespace FileTree

variable {tree after : FileTree} {place other : List String}

/-- A walk that succeeds ends where its names lead. -/
theorem eq_follow_of_walk
    {names : List String}
    (walked : tree.walk place names = .ok other) :
    other = FilePath.follow place names := by
  induction names generalizing place with
  | nil =>
      cases walked
      rfl
  | cons name rest inductionHypothesis =>
      rw [walk] at walked
      split at walked
      · cases walked
      · cases walked
      · exact inductionHypothesis walked

/-- What a path leads to is where its names are followed to. -/
theorem eq_follow_of_locate
    {path : FilePath}
    (located : tree.locate path = .ok place) :
    place = FilePath.follow (tree.origin path) path.names :=
  eq_follow_of_walk located

/-- What is found at a path is where its names are followed to. -/
theorem eq_follow_of_find
    {path : FilePath}
    {node : FileNode}
    (found : tree.find path = .ok (place, node)) :
    place = FilePath.follow (tree.origin path) path.names := by
  rw [find] at found
  cases located : tree.locate path with
  | error _ =>
      rw [located] at found
      cases found
  | ok reached =>
      rw [located] at found
      simp only [bind, Except.bind] at found
      cases stands : tree.node? reached with
      | none =>
          rw [stands] at found
          cases found
      | some _ =>
          rw [stands] at found
          cases found
          exact eq_follow_of_locate located

/-- What was put at a place is there. -/
theorem node?_put_self
    (belowRoot : place ≠ [])
    (node : FileNode) :
    (tree.put place node).node? place = some node := by
  cases place with
  | nil =>
      exact absurd rfl belowRoot
  | cons _ _ =>
      exact Table.get?_put_self _ _ _

/-- What is put at a place changes no other place. -/
theorem node?_put_of_ne
    (different : other ≠ place)
    (node : FileNode) :
    (tree.put place node).node? other = tree.node? other := by
  cases other with
  | nil =>
      rfl
  | cons _ _ =>
      exact Table.get?_put_of_ne different node tree.nodes

/-- Only directories that were missing on the way are made. -/
theorem node?_of_makeDirectories
    {done names : List String}
    (made : tree.makeDirectories done names = .ok after)
    (place : List String) :
    after.node? place = tree.node? place ∨
      (place <+: done ++ names ∧ tree.node? place = none ∧
        after.node? place = some .directory) := by
  induction names generalizing tree done with
  | nil =>
      cases made
      exact .inl rfl
  | cons name rest inductionHypothesis =>
      have whole : done ++ name :: rest = (done ++ [name]) ++ rest := by
        simp
      rw [makeDirectories] at made
      rw [whole]
      cases stands : tree.node? (done ++ [name]) with
      | some node =>
          simp only [stands] at made
          cases node with
          | directory =>
              exact inductionHypothesis made
          | file _ =>
              simp only at made
              split at made <;> cases made
      | none =>
          simp only [stands] at made
          by_cases isNew : place = done ++ [name]
          · subst isNew
            have put :
                (tree.put (done ++ [name]) .directory).node? (done ++ [name]) =
                  some .directory :=
              node?_put_self (List.append_ne_nil_of_right_ne_nil _ (List.cons_ne_nil _ _)) _
            rcases inductionHypothesis made with same | ⟨_, missing, _⟩
            · exact .inr ⟨List.prefix_append _ _, stands, same.trans put⟩
            · rw [put] at missing
              cases missing
          · have unchanged := @node?_put_of_ne tree _ _ isNew .directory
            rw [← unchanged]
            exact inductionHypothesis made

/-- Writing a file changes no other place. -/
theorem node?_of_write
    {content : Bytes}
    (written : tree.write place content = .ok after)
    (different : other ≠ place) :
    after.node? other = tree.node? other := by
  rw [write] at written
  split at written
  · cases written
  · cases written
    exact node?_put_of_ne different _

/-- Removing a file changes no other place. -/
theorem node?_of_remove
    (removed : tree.remove place = .ok after)
    (different : other ≠ place) :
    after.node? other = tree.node? other := by
  rw [remove] at removed
  split at removed
  · cases removed
  · cases removed
  · cases removed
    cases other with
    | nil =>
        rfl
    | cons _ _ =>
        exact Table.get?_erase_of_ne different tree.nodes

end FileTree

end ApkAtlas
