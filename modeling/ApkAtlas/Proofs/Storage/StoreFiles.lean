import ApkAtlas.Proofs.Storage.ReportPath
import ApkAtlas.Proofs.Storage.SoundTree
import ApkAtlas.Proofs.Text.Utf8

namespace ApkAtlas.ReportStore

/-!
# What a store does to its files

Writing a text and removing a file concern one place. Whatever comes of it, all else that
stood keeps standing as it is, and nothing new stands but directories on the way to that
place. So a text is read back until something is done at its own place, and the reports that
stand are those that are listed.
-/

open FileTree (pathOf Sound)

/-- How a tree may change when a file is written at a place or removed from there. -/
structure ChangesAt (place : List String) (before after : FileTree) : Prop where
  keeps : ∀ other node, before.node? other = some node →
    other ≠ place ∨ node = .directory → after.node? other = some node
  adds : ∀ other node, after.node? other = some node → other ≠ place →
    before.node? other = some node ∨ node = .directory ∧ other <+: place

variable {tree after : FileTree} {place : List String} {content : String}

theorem ChangesAt.refl (place : List String) (tree : FileTree) : ChangesAt place tree tree where
  keeps := fun _ _ stands _ => stands
  adds := fun _ _ stands _ => .inl stands

/-- Making the directories above a place changes nothing but these. -/
theorem ChangesAt.of_makeDirectories
    (made : tree.makeDirectories [] place.dropLast = .ok after) :
    ChangesAt place tree after where
  keeps := fun _ _ stands _ => FileTree.node?_makeDirectories_of_some made stands
  adds := by
    intro other node stands _
    rcases FileTree.node?_of_makeDirectories made other with same | ⟨onWay, _, isDirectory⟩
    · exact .inl (same.symm.trans stands)
    · rw [isDirectory] at stands
      exact .inr ⟨(Option.some.inj stands).symm, onWay.trans (List.dropLast_prefix _)⟩

/-- A step that leaves all other places alone, and a directory at its own. -/
theorem ChangesAt.step
    {before between after : FileTree}
    (early : ChangesAt place before between)
    (elsewhere : ∀ other, other ≠ place → after.node? other = between.node? other)
    (noDirectory : between.node? place ≠ some .directory) :
    ChangesAt place before after where
  keeps := by
    intro other node stands spared
    have stayed := early.keeps other node stands spared
    have isElsewhere : other ≠ place := by
      rintro rfl
      rcases spared with different | rfl
      · exact different rfl
      · exact noDirectory stayed
    rw [elsewhere other isElsewhere, stayed]
  adds := by
    intro other node stands isElsewhere
    rw [elsewhere other isElsewhere] at stands
    exact early.adds other node stands isElsewhere

/-- Only what is on the way to the place changes at all. -/
theorem ChangesAt.node?_eq
    {before after : FileTree}
    (changes : ChangesAt place before after)
    {other : List String}
    (aside : ¬ other <+: place) :
    after.node? other = before.node? other := by
  have isElsewhere : other ≠ place := by
    rintro rfl
    exact aside (List.prefix_refl other)
  cases stood : before.node? other with
  | some node =>
      exact changes.keeps other node stood (.inl isElsewhere)
  | none =>
      by_contra stands
      obtain ⟨node, stands⟩ := Option.ne_none_iff_exists'.mp stands
      rcases changes.adds other node stands isElsewhere with same | ⟨_, onWay⟩
      · rw [stood] at same
        cases same
      · exact aside onWay

/-- Of the files elsewhere, none is new. -/
theorem ChangesAt.file_before
    {before after : FileTree}
    (changes : ChangesAt place before after)
    {other : List String}
    {bytes : Bytes}
    (isElsewhere : other ≠ place)
    (stands : after.node? other = some (.file bytes)) :
    before.node? other = some (.file bytes) := by
  rcases changes.adds other _ stands isElsewhere with same | ⟨isDirectory, _⟩
  · exact same
  · cases isDirectory

/-! ## Writing -/

/-- What is properly in front of a place is in front of its last name. -/
theorem prefix_dropLast
    {front : List String}
    (isPrefix : front <+: place)
    (proper : front ≠ place) :
    front <+: place.dropLast := by
  rcases List.eq_nil_or_concat place with rfl | ⟨directory, name, rfl⟩
  · exact absurd (List.prefix_nil.mp isPrefix) proper
  · rw [List.concat_eq_append] at isPrefix proper ⊢
    rw [List.dropLast_concat]
    exact (List.prefix_concat_iff.mp isPrefix).resolve_left proper

/-- The directories of a place being made, writing there is all that is left. -/
theorem run_writeText_of_made
    {made : FileTree}
    (sound : tree.Sound)
    (noReturn : ".." ∉ place)
    (isMade : tree.makeDirectories [] place.dropLast = .ok made)
    (content : String) :
    made.Sound ∧ made.Reachable place ∧
      (writeText (pathOf place) content).run.run tree =
        match made.write place (Text.Utf8.encode content) with
        | .ok after => (.ok (), after)
        | .error problem => (.error (.file problem (pathOf place).toText), made) := by
  obtain ⟨madeSound, directories⟩ := sound.makeDirectories rfl isMade
  have reachable : made.Reachable place := fun front isPrefix proper =>
    directories front (prefix_dropLast isPrefix proper)
  refine ⟨madeSound, reachable, ?_⟩
  have writes : (writeText (pathOf place) content).run.run tree =
      (change (pathOf place) fun tree => do
        tree.write (← tree.locate (pathOf place)) (Text.Utf8.encode content)).run.run made := by
    rw [writeText, run_bind, run_change]
    simp only [pathOf, isMade]
  rw [writes, run_change, FileTree.locate_pathOf noReturn reachable]
  rfl

/-- What is certain when a text has been written to a place, whatever came of it. -/
theorem writeText_spec
    (sound : tree.Sound)
    (noReturn : ".." ∉ place)
    {result : Except StoreError Unit}
    (ran : (writeText (pathOf place) content).run.run tree = (result, after)) :
    after.Sound ∧ ChangesAt place tree after ∧
      (result = .ok () → after.node? place = some (.file (Text.Utf8.encode content))) := by
  cases isMade : tree.makeDirectories [] place.dropLast with
  | error problem =>
      have stops : (writeText (pathOf place) content).run.run tree =
          (.error (.file problem (pathOf place).toText), tree) := by
        rw [writeText, run_bind, run_change]
        simp only [pathOf, isMade]
      rw [stops] at ran
      cases ran
      refine ⟨sound, .refl place tree, fun works => ?_⟩
      cases works
  | ok made =>
      obtain ⟨madeSound, reachable, whole⟩ := run_writeText_of_made sound noReturn isMade content
      have early := ChangesAt.of_makeDirectories isMade
      rw [whole] at ran
      cases written : made.write place (Text.Utf8.encode content) with
      | error _ =>
          rw [written] at ran
          cases ran
          refine ⟨madeSound, early, fun works => ?_⟩
          cases works
      | ok final =>
          rw [written] at ran
          cases ran
          obtain ⟨afterSound, stands⟩ := madeSound.write reachable written
          refine ⟨afterSound, ?_, fun _ => stands⟩
          apply early.step
          · intro other different
            exact FileTree.node?_of_write written different
          · intro isDirectory
            rw [FileTree.write, isDirectory] at written
            cases written

/-- A text can be written where no file is on the way and no directory at the place. -/
theorem writeText_eq_ok
    (sound : tree.Sound)
    (noReturn : ".." ∉ place)
    (free : ∀ front, front <+: place → front ≠ place →
      ∀ content, tree.node? front ≠ some (.file content))
    (noDirectory : tree.node? place ≠ some .directory)
    (content : String) :
    ((writeText (pathOf place) content).run.run tree).1 = .ok () := by
  have belowRoot : place ≠ [] := by
    rintro rfl
    exact noDirectory rfl
  obtain ⟨made, isMade⟩ : ∃ made, tree.makeDirectories [] place.dropLast = .ok made := by
    apply FileTree.exists_makeDirectories
    intro front isPrefix
    apply free front (isPrefix.trans (List.dropLast_prefix _))
    rintro rfl
    have length := isPrefix.length_le
    have positive := List.length_pos_iff.mpr belowRoot
    rw [List.nil_append, List.length_dropLast] at length
    omega
  obtain ⟨-, -, whole⟩ := run_writeText_of_made sound noReturn isMade content
  have stillNone : made.node? place ≠ some .directory := by
    intro isDirectory
    rcases FileTree.node?_of_makeDirectories isMade place with same | ⟨onWay, -, -⟩
    · exact noDirectory (same.symm.trans isDirectory)
    · have length := onWay.length_le
      have positive := List.length_pos_iff.mpr belowRoot
      rw [List.nil_append, List.length_dropLast] at length
      omega
  rw [whole, FileTree.write]
  split
  · rfl
  · rename_i written
    split at written
    · rename_i isDirectory
      exact absurd isDirectory stillNone
    · cases written

/-- A file that stands can be written anew. -/
theorem writeText_of_file
    (sound : tree.Sound)
    (noReturn : ".." ∉ place)
    {bytes : Bytes}
    (stands : tree.node? place = some (.file bytes))
    (content : String) :
    ((writeText (FileTree.pathOf place) content).run.run tree).1 = .ok () := by
  apply writeText_eq_ok sound noReturn
  · intro front isPrefix proper _
    rw [sound.grounded place _ stands front isPrefix proper]
    nofun
  · rw [stands]
    nofun

/-! ## Removing -/

/-- Removing answers whether something was there. -/
theorem run_removeAt
    (sound : tree.Sound)
    (noReturn : ".." ∉ place) :
    (removeAt (pathOf place)).run.run tree =
      if (tree.node? place).isSome then
        match tree.remove place with
        | .ok after => (.ok true, after)
        | .error problem => (.error (.file problem (pathOf place).toText), tree)
      else
        (.ok false, tree) := by
  have opened : (removeAt (pathOf place)).run.run tree =
      (if !tree.holds (pathOf place) then
        pure false
      else do
        change (pathOf place) fun tree => do
          tree.remove (← tree.locate (pathOf place))
        return true : StoreAction Bool).run.run tree := by
    rw [removeAt, run_bind]
    rfl
  rw [opened, sound.holds_pathOf noReturn]
  cases stands : tree.node? place with
  | none =>
      rfl
  | some node =>
      simp only [Option.isSome_some, Bool.not_true, Bool.false_eq_true, if_false, if_true]
      rw [run_bind, run_change, FileTree.locate_pathOf noReturn (sound.reachable stands)]
      simp only [bind, Except.bind]
      cases tree.remove place <;> rfl

/-- What is certain when a file has been removed from a place, if there was one. -/
theorem removeAt_spec
    (sound : tree.Sound)
    (noReturn : ".." ∉ place)
    {result : Except StoreError Bool}
    (ran : (removeAt (pathOf place)).run.run tree = (result, after)) :
    after.Sound ∧ ChangesAt place tree after ∧
      (tree.node? place ≠ some .directory →
        result = .ok (tree.node? place).isSome ∧ after.node? place = none) := by
  rw [run_removeAt sound noReturn] at ran
  cases stands : tree.node? place with
  | none =>
      simp only [stands, Option.isSome_none, Bool.false_eq_true, if_false] at ran
      cases ran
      exact ⟨sound, .refl place tree, fun _ => ⟨rfl, stands⟩⟩
  | some node =>
      simp only [stands, Option.isSome_some, if_true] at ran
      cases removed : tree.remove place with
      | error _ =>
          rw [removed] at ran
          cases ran
          refine ⟨sound, .refl place tree, fun noDirectory => ?_⟩
          cases node with
          | directory =>
              exact absurd rfl noDirectory
          | file _ =>
              simp [FileTree.remove, stands] at removed
      | ok final =>
          rw [removed] at ran
          cases ran
          obtain ⟨afterSound, gone⟩ := sound.remove removed
          refine ⟨afterSound, ?_, fun _ => ⟨rfl, gone⟩⟩
          apply (ChangesAt.refl place tree).step
          · intro other different
            exact FileTree.node?_of_remove removed different
          · intro isDirectory
            simp [FileTree.remove, isDirectory] at removed

/-! ## Reading -/

/-- A text that was written is read back. -/
theorem readText_of_file
    (sound : tree.Sound)
    (noReturn : ".." ∉ place)
    (stands : tree.node? place = some (.file (Text.Utf8.encode content))) :
    readText tree (pathOf place) = .ok content := by
  rw [readText, sound.read_pathOf noReturn stands]
  exact congrArg (Except.mapError StoreError.undecodable) (Text.Utf8.decode_encode content)

/-- The document of a kind in a text. -/
def documentIn (kind : StoredDocument.Kind) (content : String) :
    Except StoreError StoredDocument :=
  match Datum.ofJson? content with
  | none => .error .notJson
  | some value => (StoredDocument.ofDatum kind value).toExcept.mapError .invalid

variable {store : ReportStore} {key : String}

/-- A report is loaded from the text of its file. -/
theorem load_of_file
    (sound : tree.Sound)
    (noReturn : ".." ∉ store.base ++ store.placeNames key)
    (stands : tree.node? (store.base ++ store.placeNames key) =
      some (.file (Text.Utf8.encode content)))
    (kind : StoredDocument.Kind) :
    store.load tree key kind = documentIn kind content := by
  have known : store.holds tree key = true := by
    rw [holds, path, sound.holds_pathOf noReturn, stands]
    rfl
  rw [load, known, path, readText_of_file sound noReturn stands]
  rfl

/-- A report without a file is not found. -/
theorem load_of_none
    (sound : tree.Sound)
    (noReturn : ".." ∉ store.base ++ store.placeNames key)
    (missing : tree.node? (store.base ++ store.placeNames key) = none)
    (kind : StoredDocument.Kind) :
    store.load tree key kind = .error (.notFound key) := by
  have unknown : store.holds tree key = false := by
    rw [holds, path, sound.holds_pathOf noReturn, missing]
    rfl
  rw [load, unknown]
  rfl

/-- The facts that a text tells. -/
def factsIn (content : String) : Except StoreError Datum :=
  match Datum.ofJson? content with
  | none => .error .notJson
  | some value => .ok value

/-- What is known about a report is read from the file about it. -/
theorem metadata_of_file
    (sound : tree.Sound)
    (noReturn : ".." ∉ store.base ++ store.placeNames (ReportKey.metadataKey key))
    (stands : tree.node? (store.base ++ store.placeNames (ReportKey.metadataKey key)) =
      some (.file (Text.Utf8.encode content))) :
    store.metadata tree key = factsIn content := by
  have known : tree.holds (store.metadataPath key) = true := by
    rw [metadataPath, path, sound.holds_pathOf noReturn, stands]
    rfl
  rw [metadata]
  simp only [known]
  rw [metadataPath, path, readText_of_file sound noReturn stands]
  rfl

/-- Nothing is known about a report without a file about it. -/
theorem metadata_of_none
    (sound : tree.Sound)
    (noReturn : ".." ∉ store.base ++ store.placeNames (ReportKey.metadataKey key))
    (missing : tree.node? (store.base ++ store.placeNames (ReportKey.metadataKey key)) = none) :
    store.metadata tree key = .ok (.record []) := by
  have unknown : tree.holds (store.metadataPath key) = false := by
    rw [metadataPath, path, sound.holds_pathOf noReturn, missing]
    rfl
  rw [metadata]
  simp only [unknown]
  rfl

/-! ## Listing -/

/-- The last name of a place is the last one of what leads there from a directory. -/
theorem last_eq_of_append
    {directory front names : List String}
    {name : String}
    (named : names ≠ [])
    (whole : directory ++ names = front ++ [name]) :
    names.getLast?.getD "" = name := by
  rw [← List.getLast?_append_of_ne_nil directory named, whole, List.getLast?_concat,
    Option.getD_some]

/-- Reports below a directory are files with the names of reports. -/
theorem mem_reports_iff
    (sound : tree.Sound)
    {names : List String}
    {node : FileNode} :
    (names, node) ∈ (tree.below place).filter isReport ↔
      names ≠ [] ∧ isReportName (names.getLast?.getD "") = true ∧
        ∃ bytes, tree.node? (place ++ names) = some (.file bytes) ∧ node = .file bytes := by
  rw [List.mem_filter, sound.mem_below_iff, isReport, Bool.and_eq_true]
  constructor
  · rintro ⟨⟨named, stands⟩, isFile, isName⟩
    cases node with
    | directory =>
        cases isFile
    | file bytes =>
        exact ⟨named, isName, bytes, stands, rfl⟩
  · rintro ⟨named, isName, bytes, stands, rfl⟩
    exact ⟨⟨named, stands⟩, rfl, isName⟩

/-- What is listed are the reports below a directory, also where there is no directory. -/
theorem keysUnder_eq
    (sound : tree.Sound)
    (noReturn : ".." ∉ store.base ++ store.placeNames key) :
    store.keysUnder tree key =
      (((tree.below (store.base ++ store.placeNames key)).filter isReport).map fun entry =>
        relativeText (store.placeNames key ++ entry.1)).mergeSort fun left right =>
          decide (left ≤ right) := by
  rw [keysUnder, path]
  cases found : tree.find (pathOf (store.base ++ store.placeNames key)) with
  | ok reached =>
      obtain ⟨here, node⟩ := reached
      rw [(FileTree.find_pathOf_eq_ok noReturn found).1]
  | error _ =>
      have none : tree.below (store.base ++ store.placeNames key) = [] := by
        rw [List.eq_nil_iff_forall_not_mem]
        rintro ⟨names, node⟩ member
        obtain ⟨named, stands⟩ := sound.mem_below_iff.mp member
        have isDirectory :=
          sound.grounded _ node stands (store.base ++ store.placeNames key)
            (List.prefix_append _ _) (by simpa using named)
        rw [sound.find_pathOf noReturn isDirectory] at found
        cases found
      simp [none]

/-! ## Saving and erasing -/

/-- The report is written first, and then what is told about it. -/
theorem run_save
    (key storedAt : String)
    (document : StoredDocument)
    (given : List (String × Datum))
    (tree : FileTree) :
    (store.save key storedAt document given).run.run tree =
      match (writeText (store.path key) document.toDatum.toJson).run.run tree with
      | (.ok _, between) =>
          (writeText (store.metadataPath key)
            (Datum.record (metadataOf key storedAt document.toDatum.toJson document
              given)).toAsciiJson).run.run between
      | (.error error, between) => (.error error, between) := by
  rw [save, run_bind]
  rcases (writeText (store.path key) document.toDatum.toJson).run.run tree with
    ⟨_ | _, between⟩ <;> rfl

/-- Storing changes the two files of a key. A report that stood is replaced even where what is
told about it is not. -/
theorem save_spec
    (sound : tree.Sound)
    (toReport : ".." ∉ store.base ++ store.placeNames key)
    (toFacts : ".." ∉ store.base ++ store.placeNames (ReportKey.metadataKey key))
    {storedAt : String}
    {document : StoredDocument}
    {given : List (String × Datum)}
    {outcome : Except StoreError Unit}
    (ran : (store.save key storedAt document given).run.run tree = (outcome, after)) :
    ∃ between,
      ChangesAt (store.base ++ store.placeNames key) tree between ∧
        ChangesAt (store.base ++ store.placeNames (ReportKey.metadataKey key)) between after ∧
          after.Sound ∧
            ((outcome = .ok () ∨
                ∃ bytes, tree.node? (store.base ++ store.placeNames key) = some (.file bytes)) →
              between.node? (store.base ++ store.placeNames key) =
                some (.file (Text.Utf8.encode document.toDatum.toJson))) := by
  rw [run_save] at ran
  cases wrote : (writeText (store.path key) document.toDatum.toJson).run.run tree with
  | mk result between =>
      obtain ⟨betweenSound, changes, stands⟩ := writeText_spec sound toReport wrote
      rw [wrote] at ran
      cases result with
      | error _ =>
          cases ran
          refine ⟨after, changes, .refl _ after, betweenSound, ?_⟩
          rintro (written | ⟨bytes, isFile⟩)
          · cases written
          · have written := writeText_of_file sound toReport isFile document.toDatum.toJson
            rw [← path, wrote] at written
            cases written
      | ok _ =>
          obtain ⟨afterSound, factsChange, -⟩ := writeText_spec betweenSound toFacts ran
          exact ⟨between, changes, factsChange, afterSound, fun _ => stands rfl⟩

/-- Erasing removes the report and then the file about it. -/
theorem run_erase (key : String) (tree : FileTree) :
    (store.erase key).run.run tree =
      match (removeAt (store.path key)).run.run tree with
      | (.ok known, between) =>
          match (removeAt (store.metadataPath key)).run.run between with
          | (.ok _, after) => (.ok known, after)
          | (.error error, after) => (.error error, after)
      | (.error error, between) => (.error error, between) := by
  rw [erase, run_bind]
  rcases (removeAt (store.path key)).run.run tree with ⟨_ | known, between⟩
  · rfl
  · simp only [run_bind]
    rcases (removeAt (store.metadataPath key)).run.run between with ⟨_ | _, after⟩ <;> rfl

end ApkAtlas.ReportStore
