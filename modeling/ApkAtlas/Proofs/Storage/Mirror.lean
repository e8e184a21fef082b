import ApkAtlas.Proofs.Report
import ApkAtlas.Proofs.Storage.RegularKey
import ApkAtlas.Proofs.Storage.Shelf
import ApkAtlas.Proofs.Storage.StoreFiles
import Mathlib.Data.List.Sort

namespace ApkAtlas

/-!
# A store answers as a shelf

Clients that use regular keys, none of which leads through another, cannot tell a store from a
shelf, whatever they ask for and in whatever order: for every key of the shelf the two files of
the store stand, and no other files do.
-/

namespace Kept

/-- The file of the report. -/
def reportFile (kept : Kept) : FileNode :=
  .file (Text.Utf8.encode kept.document.toDatum.toJson)

/-- The file of what is told about the report. -/
def factsFile (kept : Kept) : FileNode :=
  .file (Text.Utf8.encode (Datum.record kept.facts).toAsciiJson)

/-- What is kept can be told apart in its files. -/
structure Legible (kept : Kept) : Prop where
  countsOnce : kept.document.CountsOnce
  plain : Datum.Plain (.record kept.facts)

end Kept

namespace ReportStore

open FilePath (namesOf)
open ReportKey (Apart Regular files metadataKey metadataKey_ne self_mem_files
  metadataKey_mem_files)

/-- The files of a store are those of a shelf, and all else below its base directory are
directories. -/
structure Mirrors
    (store : ReportStore)
    (keys : List String)
    (tree : FileTree)
    (shelf : Shelf) : Prop where
  sound : tree.Sound
  free : ∀ front, front <+: store.base → ∀ content, tree.node? front ≠ some (.file content)
  once : (shelf.map Prod.fst).Nodup
  known : ∀ key ∈ shelf.map Prod.fst, key ∈ keys
  report : ∀ key ∈ keys,
    tree.node? (store.base ++ namesOf key) = (Table.get? key shelf).map Kept.reportFile
  facts : ∀ key ∈ keys,
    tree.node? (store.base ++ namesOf (metadataKey key)) =
      (Table.get? key shelf).map Kept.factsFile
  others : ∀ names content, tree.node? (store.base ++ names) = some (.file content) →
    ∃ key ∈ keys, ∃ target ∈ files key, names = namesOf target
  legible : ∀ key kept, Table.get? key shelf = some kept → kept.Legible

variable {store : ReportStore} {keys : List String} {tree after : FileTree} {shelf : Shelf}
  {key : String}

/-- A regular key leads to its names below the base. -/
theorem path_eq
    (regular : Regular key)
    (store : ReportStore) :
    store.path key = FileTree.pathOf (store.base ++ namesOf key) := by
  rw [path, placeNames, regular.plain.names_eq]

/-- So does the key of the file that tells about a report. -/
theorem metadataPath_eq
    (regular : Regular key)
    (store : ReportStore) :
    store.metadataPath key = FileTree.pathOf (store.base ++ namesOf (metadataKey key)) := by
  rw [metadataPath, path, placeNames, regular.plain_metadataKey.names_eq]

theorem not_mem_place
    (normal : ".." ∉ store.base)
    {text : String}
    (plain : ReportKey.Plain text) :
    ".." ∉ store.base ++ namesOf text := by
  rw [List.mem_append, not_or]
  exact ⟨normal, plain.not_mem_namesOf⟩

/-- A change at one file leaves the other files of all keys as they are. -/
theorem node?_of_changesAt
    (apart : Apart keys)
    {target : String}
    (isKey : key ∈ keys)
    (isTarget : target ∈ files key)
    (changes : ChangesAt (store.base ++ namesOf target) tree after)
    {other taken : String}
    (otherIsKey : other ∈ keys)
    (isTaken : taken ∈ files other)
    (different : taken ≠ target) :
    after.node? (store.base ++ namesOf taken) = tree.node? (store.base ++ namesOf taken) := by
  apply changes.node?_eq
  rw [List.prefix_append_right_inj]
  exact apart.not_isPrefix isKey otherIsKey isTaken isTarget different

/-- What is true of files elsewhere stays true where a file of a key changes. -/
theorem others_of_changesAt
    {target : String}
    (isKey : key ∈ keys)
    (isTarget : target ∈ files key)
    (changes : ChangesAt (store.base ++ namesOf target) tree after)
    (others : ∀ names content, tree.node? (store.base ++ names) = some (.file content) →
      ∃ key ∈ keys, ∃ target ∈ files key, names = namesOf target) :
    ∀ names content, after.node? (store.base ++ names) = some (.file content) →
      ∃ key ∈ keys, ∃ target ∈ files key, names = namesOf target := by
  intro names content stands
  by_cases isPlace : names = namesOf target
  · exact ⟨key, isKey, target, isTarget, isPlace⟩
  · exact others names content (changes.file_before (by simpa using isPlace) stands)

/-- Changes at a name below the base put no file in the way of the base. -/
theorem free_of_changesAt
    {target : String}
    (named : namesOf target ≠ [])
    (changes : ChangesAt (store.base ++ namesOf target) tree after)
    (free : ∀ front, front <+: store.base → ∀ content, tree.node? front ≠ some (.file content)) :
    ∀ front, front <+: store.base → ∀ content, after.node? front ≠ some (.file content) := by
  intro front toBase content stands
  apply free front toBase content
  apply changes.file_before _ stands
  rintro rfl
  have length := toBase.length_le
  have positive := List.length_pos_iff.mpr named
  rw [List.length_append] at length
  omega

/-- Where both files of a key change, the store mirrors the shelf with another entry there. -/
theorem Mirrors.of_changes
    (mirrors : store.Mirrors keys tree shelf)
    (apart : Apart keys)
    (isKey : key ∈ keys)
    {between : FileTree}
    (reportChanges : ChangesAt (store.base ++ namesOf key) tree between)
    (factsChange : ChangesAt (store.base ++ namesOf (metadataKey key)) between after)
    (sound : after.Sound)
    {later : Shelf}
    (once : (later.map Prod.fst).Nodup)
    (elsewhere : ∀ other, other ≠ key → Table.get? other later = Table.get? other shelf)
    (legible : ∀ kept, Table.get? key later = some kept → kept.Legible)
    (report : between.node? (store.base ++ namesOf key) =
      (Table.get? key later).map Kept.reportFile)
    (facts : after.node? (store.base ++ namesOf (metadataKey key)) =
      (Table.get? key later).map Kept.factsFile) :
    store.Mirrors keys after later := by
  have aside {other taken : String} (otherIsKey : other ∈ keys) (different : other ≠ key)
      (isTaken : taken ∈ files other) :
      after.node? (store.base ++ namesOf taken) = tree.node? (store.base ++ namesOf taken) := by
    rw [node?_of_changesAt apart isKey (metadataKey_mem_files _) factsChange otherIsKey isTaken
        (apart.ne_of_ne isKey otherIsKey different isTaken (metadataKey_mem_files _)),
      node?_of_changesAt apart isKey (self_mem_files _) reportChanges otherIsKey isTaken
        (apart.ne_of_ne isKey otherIsKey different isTaken (self_mem_files _))]
  obtain ⟨directory, name, ofKey, ofMetadata, -⟩ := (apart.regular key isKey).exists_names
  constructor
  case sound =>
    exact sound
  case free =>
    apply free_of_changesAt (by simp [ofMetadata]) factsChange
    exact free_of_changesAt (by simp [ofKey]) reportChanges mirrors.free
  case once =>
    exact once
  case known =>
    intro other member
    by_cases same : other = key
    · exact same ▸ isKey
    · rw [Table.mem_keys_iff, elsewhere other same] at member
      exact mirrors.known other (Table.mem_keys_iff.mpr member)
  case report =>
    intro other otherIsKey
    by_cases same : other = key
    · subst same
      rw [node?_of_changesAt apart isKey (metadataKey_mem_files _) factsChange isKey
        (self_mem_files _) (metadataKey_ne _).symm, report]
    · rw [aside otherIsKey same (self_mem_files _), mirrors.report other otherIsKey,
        elsewhere other same]
  case facts =>
    intro other otherIsKey
    by_cases same : other = key
    · subst same
      exact facts
    · rw [aside otherIsKey same (metadataKey_mem_files _),
        mirrors.facts other otherIsKey, elsewhere other same]
  case others =>
    apply others_of_changesAt isKey (metadataKey_mem_files _) factsChange
    exact others_of_changesAt isKey (self_mem_files _) reportChanges mirrors.others
  case legible =>
    intro other kept found
    by_cases same : other = key
    · exact legible kept (same ▸ found)
    · exact mirrors.legible other kept (elsewhere other same ▸ found)

/-- No file is on the way to the file of a report. -/
theorem Mirrors.free_way
    (mirrors : store.Mirrors keys tree shelf)
    (apart : Apart keys)
    (isKey : key ∈ keys) :
    ∀ front, front <+: store.base ++ namesOf key → front ≠ store.base ++ namesOf key →
      ∀ content, tree.node? front ≠ some (.file content) := by
  intro front isPrefix proper content stands
  rcases List.prefix_or_prefix_of_prefix isPrefix (List.prefix_append _ _) with
    toBase | ⟨names, rfl⟩
  · exact mirrors.free front toBase content stands
  · obtain ⟨other, otherIsKey, taken, isTaken, rfl⟩ := mirrors.others names content stands
    apply apart.not_isPrefix isKey otherIsKey isTaken List.mem_cons_self
    · rintro rfl
      exact proper rfl
    · exact (List.prefix_append_right_inj _).mp isPrefix

/-- Where the report is, no file is on the way to the one beside it. -/
theorem free_way_beside
    (regular : Regular key)
    (sound : tree.Sound)
    {node : FileNode}
    (stands : tree.node? (store.base ++ namesOf key) = some node) :
    ∀ front, front <+: store.base ++ namesOf (metadataKey key) →
      front ≠ store.base ++ namesOf (metadataKey key) →
        ∀ content, tree.node? front ≠ some (.file content) := by
  obtain ⟨directory, name, ofKey, ofMetadata, -⟩ := regular.exists_names
  rw [ofMetadata, ← List.append_assoc]
  rw [ofKey, ← List.append_assoc] at stands
  intro front isPrefix proper content isFile
  have toDirectory := (List.prefix_concat_iff.mp isPrefix).resolve_left proper
  have isDirectory :=
    sound.grounded _ node stands front (toDirectory.trans (List.prefix_append _ _)) <| by
      rintro rfl
      have length := toDirectory.length_le
      simp only [List.length_append, List.length_singleton] at length
      omega
  rw [isFile] at isDirectory
  cases isDirectory

/-- No directory stands in the place of a report. -/
theorem Mirrors.no_directory
    (mirrors : store.Mirrors keys tree shelf)
    (isKey : key ∈ keys) :
    tree.node? (store.base ++ namesOf key) ≠ some .directory ∧
      tree.node? (store.base ++ namesOf (metadataKey key)) ≠ some .directory := by
  rw [mirrors.report key isKey, mirrors.facts key isKey]
  cases Table.get? key shelf <;> simp [Kept.reportFile, Kept.factsFile]

/-- Both files of a key are written, and no others. -/
theorem Mirrors.save
    (mirrors : store.Mirrors keys tree shelf)
    (normal : ".." ∉ store.base)
    (apart : Apart keys)
    (isKey : key ∈ keys)
    {storedAt : String}
    {document : StoredDocument}
    {given : List (String × Datum)}
    (countsOnce : document.CountsOnce)
    (plain : Datum.Plain (.record given)) :
    ∃ after,
      (store.save key storedAt document given).run.run tree = (.ok (), after) ∧
        store.Mirrors keys after
          (Table.put key
            ⟨document, Shelf.overridden (Shelf.ownFacts key storedAt document) given⟩ shelf) := by
  have regular := apart.regular key isKey
  have toReport := not_mem_place normal regular.plain
  have toFacts := not_mem_place normal regular.plain_metadataKey
  obtain ⟨noDirectory, noFactsDirectory⟩ := mirrors.no_directory isKey
  have givenOnce : (given.map Prod.fst).Nodup := by
    cases plain with
    | record once _ =>
        exact once
  let facts := Shelf.overridden (Shelf.ownFacts key storedAt document) given
  have merged : metadataOf key storedAt document.toDatum.toJson document given = facts :=
    Shelf.merge_eq_overridden (Shelf.nodup_ownFacts key storedAt document) givenOnce
  have written :=
    writeText_eq_ok mirrors.sound toReport (mirrors.free_way apart isKey) noDirectory
      document.toDatum.toJson
  cases ran : (writeText (FileTree.pathOf (store.base ++ namesOf key))
      document.toDatum.toJson).run.run tree with
  | mk result between =>
      rw [ran] at written
      obtain ⟨betweenSound, reportChanges, stands⟩ := writeText_spec mirrors.sound toReport ran
      have isReport := stands written
      have factsStay :=
        node?_of_changesAt apart isKey (self_mem_files _) reportChanges isKey
          (metadataKey_mem_files _) (metadataKey_ne _)
      have factsWritten :=
        writeText_eq_ok betweenSound toFacts (free_way_beside regular betweenSound isReport)
          (factsStay ▸ noFactsDirectory) (Datum.record facts).toAsciiJson
      cases ranBeside : (writeText (FileTree.pathOf (store.base ++ namesOf (metadataKey key)))
          (Datum.record facts).toAsciiJson).run.run between with
      | mk factsResult after =>
          rw [ranBeside] at factsWritten
          obtain ⟨sound, factsChange, standsBeside⟩ := writeText_spec betweenSound toFacts ranBeside
          cases written
          cases factsWritten
          refine ⟨after, ?_, ?_⟩
          · rw [run_save, path_eq regular, metadataPath_eq regular, ran, merged]
            exact ranBeside
          · apply mirrors.of_changes apart isKey reportChanges factsChange sound
            · exact Table.nodup_put mirrors.once _ _
            · intro other different
              exact Table.get?_put_of_ne different _ _
            · intro kept found
              rw [Table.get?_put_self] at found
              cases found
              exact ⟨countsOnce, Shelf.plain_overridden plain key storedAt document⟩
            · rw [isReport, Table.get?_put_self]
              rfl
            · rw [standsBeside rfl, Table.get?_put_self]
              rfl

/-- Both files of a key are removed, and no others. -/
theorem Mirrors.erase
    (mirrors : store.Mirrors keys tree shelf)
    (normal : ".." ∉ store.base)
    (apart : Apart keys)
    (isKey : key ∈ keys) :
    ∃ after,
      (store.erase key).run.run tree = (.ok (Table.get? key shelf).isSome, after) ∧
        store.Mirrors keys after (Table.erase key shelf) := by
  have regular := apart.regular key isKey
  have toReport := not_mem_place normal regular.plain
  have toFacts := not_mem_place normal regular.plain_metadataKey
  obtain ⟨noDirectory, noFactsDirectory⟩ := mirrors.no_directory isKey
  cases ran : (removeAt (FileTree.pathOf (store.base ++ namesOf key))).run.run tree with
  | mk result between =>
      obtain ⟨betweenSound, reportChanges, removes⟩ := removeAt_spec mirrors.sound toReport ran
      obtain ⟨rfl, isGone⟩ := removes noDirectory
      have factsStay :=
        node?_of_changesAt apart isKey (self_mem_files _) reportChanges isKey
          (metadataKey_mem_files _) (metadataKey_ne _)
      cases ranBeside : (removeAt (FileTree.pathOf
          (store.base ++ namesOf (metadataKey key)))).run.run between with
      | mk factsResult after =>
          obtain ⟨sound, factsChange, removesBeside⟩ :=
            removeAt_spec betweenSound toFacts ranBeside
          obtain ⟨rfl, isGoneBeside⟩ := removesBeside (factsStay ▸ noFactsDirectory)
          refine ⟨after, ?_, ?_⟩
          · rw [run_erase, path_eq regular, metadataPath_eq regular, ran]
            simp only [ranBeside, mirrors.report key isKey, Option.isSome_map]
          · apply mirrors.of_changes apart isKey reportChanges factsChange sound
            · exact Table.nodup_erase mirrors.once _
            · intro other different
              exact Table.get?_erase_of_ne different _
            · intro kept found
              rw [Table.get?_erase_self] at found
              cases found
            · rw [isGone, Table.get?_erase_self]
              rfl
            · rw [isGoneBeside, Table.get?_erase_self]
              rfl

/-! ## Reading -/

/-- Loading answers what the shelf has. -/
theorem Mirrors.load
    (mirrors : store.Mirrors keys tree shelf)
    (normal : ".." ∉ store.base)
    (apart : Apart keys)
    (isKey : key ∈ keys)
    (kind : StoredDocument.Kind) :
    store.load tree key kind =
      match Table.get? key shelf with
      | none => .error (.notFound key)
      | some kept => Shelf.viewed kind kept.document := by
  have plain := (apart.regular key isKey).plain
  have place : store.placeNames key = namesOf key := plain.names_eq store.base
  have toReport : ".." ∉ store.base ++ store.placeNames key := place ▸ not_mem_place normal plain
  have report := mirrors.report key isKey
  rw [← place] at report
  cases found : Table.get? key shelf with
  | none =>
      rw [found] at report
      exact load_of_none mirrors.sound toReport report kind
  | some kept =>
      rw [found] at report
      have legible := mirrors.legible key kept found
      rw [load_of_file mirrors.sound toReport report]
      have readable := (StoredDocument.plain_toDatum legible.countsOnce).ofJson?_toJson
      simp only [documentIn, readable, Shelf.viewed]
      split
      · rename_i isKind
        rw [isKind, StoredDocument.ofDatum_toDatum]
        rfl
      · rfl

/-- A report is there exactly if the shelf has it. -/
theorem Mirrors.holds
    (mirrors : store.Mirrors keys tree shelf)
    (normal : ".." ∉ store.base)
    (apart : Apart keys)
    (isKey : key ∈ keys) :
    store.holds tree key = (Table.get? key shelf).isSome := by
  have regular := apart.regular key isKey
  rw [ReportStore.holds, path_eq regular,
    mirrors.sound.holds_pathOf (not_mem_place normal regular.plain), mirrors.report key isKey,
    Option.isSome_map]

/-- The file about a report tells what the shelf does. -/
theorem Mirrors.metadata
    (mirrors : store.Mirrors keys tree shelf)
    (normal : ".." ∉ store.base)
    (apart : Apart keys)
    (isKey : key ∈ keys) :
    store.metadata tree key =
      match Table.get? key shelf with
      | none => .ok (.record [])
      | some kept => .ok (.record kept.facts) := by
  have plain := (apart.regular key isKey).plain_metadataKey
  have place : store.placeNames (metadataKey key) = namesOf (metadataKey key) :=
    plain.names_eq store.base
  have toFacts : ".." ∉ store.base ++ store.placeNames (metadataKey key) :=
    place ▸ not_mem_place normal plain
  have facts := mirrors.facts key isKey
  rw [← place] at facts
  cases found : Table.get? key shelf with
  | none =>
      rw [found] at facts
      exact metadata_of_none mirrors.sound toFacts facts
  | some kept =>
      rw [found] at facts
      rw [metadata_of_file mirrors.sound toFacts facts, factsIn,
        (mirrors.legible key kept found).plain.ofJson?_toAsciiJson]

/-! ## Listing -/

/-- Sorting forgets in which order texts came. -/
theorem mergeSort_eq_of_perm
    {first second : List String}
    (perm : first.Perm second) :
    (first.mergeSort fun left right => decide (left ≤ right)) =
      second.mergeSort fun left right => decide (left ≤ right) := by
  have sorted (texts : List String) :
      (texts.mergeSort fun left right => decide (left ≤ right)).Pairwise
        fun left right => decide (left ≤ right) = true := by
    apply List.pairwise_mergeSort
    · intro first second third early late
      rw [decide_eq_true_eq] at early late ⊢
      exact String.le_trans early late
    · intro first second
      simpa using String.le_total first second
  apply List.Perm.eq_of_pairwise _ (sorted first) (sorted second)
  · exact (List.mergeSort_perm _ _).trans (perm.trans (List.mergeSort_perm _ _).symm)
  · intro left right _ _ notAfter notBefore
    rw [decide_eq_true_eq] at notAfter notBefore
    exact String.le_antisymm notAfter notBefore

/-- The reports below a directory are those of the keys that go on from its names. -/
theorem Mirrors.mem_reports_iff
    (mirrors : store.Mirrors keys tree shelf)
    (apart : Apart keys)
    {directory names : List String}
    {node : FileNode} :
    (names, node) ∈ (tree.below (store.base ++ directory)).filter isReport ↔
      names ≠ [] ∧ ∃ key kept, Table.get? key shelf = some kept ∧
        directory ++ names = namesOf key ∧ node = kept.reportFile := by
  rw [ReportStore.mem_reports_iff mirrors.sound]
  refine and_congr_right fun named => ?_
  constructor
  · rintro ⟨isName, content, stands, rfl⟩
    rw [List.append_assoc] at stands
    obtain ⟨key, isKey, target, isTarget, isPlace⟩ := mirrors.others _ content stands
    obtain ⟨front, name, ofKey, ofMetadata, -, isMetadata⟩ :=
      (apart.regular key isKey).exists_names
    rcases List.mem_pair.mp isTarget with rfl | rfl
    · rw [isPlace, mirrors.report _ isKey, Option.map_eq_some_iff] at stands
      obtain ⟨kept, found, isFile⟩ := stands
      exact ⟨_, kept, found, isPlace, isFile.symm⟩
    · rw [last_eq_of_append named (isPlace.trans ofMetadata), isMetadata] at isName
      cases isName
  · rintro ⟨key, kept, found, whole, rfl⟩
    have isKey := mirrors.known key (Table.mem_keys_iff.mpr (by simp [found]))
    obtain ⟨front, name, ofKey, -, isName, -⟩ := (apart.regular key isKey).exists_names
    refine ⟨?_, _, ?_, rfl⟩
    · rw [last_eq_of_append named (whole.trans ofKey), isName]
    · rw [List.append_assoc, whole, mirrors.report key isKey, found]
      rfl

/-- All keys on the shelf are regular. -/
theorem Mirrors.regular
    (mirrors : store.Mirrors keys tree shelf)
    (apart : Apart keys)
    {kept : Kept}
    (found : Table.get? key shelf = some kept) :
    Regular key :=
  apart.regular key (mirrors.known key (Table.mem_keys_iff.mpr (by simp [found])))

/-- The reports below a directory are those of the shelf. -/
theorem Mirrors.mem_listed_iff
    (mirrors : store.Mirrors keys tree shelf)
    (apart : Apart keys)
    {directory text : String} :
    text ∈ ((tree.below (store.base ++ namesOf directory)).filter isReport).map
        (fun entry => relativeText (namesOf directory ++ entry.1)) ↔
      text ∈ (shelf.map Prod.fst).filter (Shelf.isBelow directory) := by
  rw [List.mem_map, List.mem_filter]
  constructor
  · rintro ⟨⟨names, node⟩, member, rfl⟩
    obtain ⟨named, key, kept, found, whole, -⟩ := (mirrors.mem_reports_iff apart).mp member
    have positive := List.length_pos_iff.mpr named
    simp only [whole, (mirrors.regular apart found).relativeText_namesOf]
    refine ⟨Table.mem_keys_iff.mpr (by simp [found]), ?_⟩
    rw [Shelf.isBelow, ← whole, Bool.and_eq_true, List.isPrefixOf_iff_prefix, decide_eq_true_eq,
      List.length_append]
    exact ⟨List.prefix_append _ _, by omega⟩
  · rintro ⟨member, isBelow⟩
    obtain ⟨kept, found⟩ := Option.ne_none_iff_exists'.mp (Table.mem_keys_iff.mp member)
    rw [Shelf.isBelow, Bool.and_eq_true, List.isPrefixOf_iff_prefix, decide_eq_true_eq] at isBelow
    obtain ⟨⟨names, whole⟩, shorter⟩ := isBelow
    rw [← whole, List.length_append] at shorter
    refine ⟨(names, kept.reportFile), ?_, ?_⟩
    · rw [mirrors.mem_reports_iff apart]
      exact ⟨List.ne_nil_of_length_pos (by omega), text, kept, found, whole, rfl⟩
    · rw [whole, (mirrors.regular apart found).relativeText_namesOf]

theorem Mirrors.nodup_listed
    (mirrors : store.Mirrors keys tree shelf)
    (apart : Apart keys)
    (directory : String) :
    (((tree.below (store.base ++ namesOf directory)).filter isReport).map
      fun entry => relativeText (namesOf directory ++ entry.1)).Nodup := by
  have entries :=
    (mirrors.sound.nodup_below (store.base ++ namesOf directory)).of_map.filter isReport
  apply entries.map_on
  rintro ⟨first, firstNode⟩ isFirst ⟨second, secondNode⟩ isSecond sameText
  obtain ⟨-, key, kept, found, whole, rfl⟩ := (mirrors.mem_reports_iff apart).mp isFirst
  obtain ⟨-, other, otherKept, otherFound, otherWhole, rfl⟩ :=
    (mirrors.mem_reports_iff apart).mp isSecond
  simp only [whole, otherWhole, (mirrors.regular apart found).relativeText_namesOf,
    (mirrors.regular apart otherFound).relativeText_namesOf] at sameText
  subst sameText
  rw [found] at otherFound
  cases otherFound
  rw [List.append_cancel_left (whole.trans otherWhole.symm)]

/-- The keys that are listed are those of the shelf, in order. -/
theorem Mirrors.keysUnder
    (mirrors : store.Mirrors keys tree shelf)
    (normal : ".." ∉ store.base)
    (apart : Apart keys)
    {directory : String}
    (plain : ReportKey.Plain directory) :
    store.keysUnder tree directory =
      ((shelf.map Prod.fst).filter (Shelf.isBelow directory)).mergeSort fun left right =>
        decide (left ≤ right) := by
  have place : store.placeNames directory = namesOf directory := plain.names_eq store.base
  have noReturn : ".." ∉ store.base ++ store.placeNames directory :=
    place ▸ not_mem_place normal plain
  rw [keysUnder_eq mirrors.sound noReturn, place]
  apply mergeSort_eq_of_perm
  rw [List.perm_ext_iff_of_nodup (mirrors.nodup_listed apart directory) (mirrors.once.filter _)]
  intro text
  exact mirrors.mem_listed_iff apart

/-! ## Calls -/

/-- What is asked of the values of a call: what is saved can be told apart when it is written,
and a directory is named as it stands. -/
def Fits : StoreCall → Prop
  | .save _ _ document given => document.CountsOnce ∧ Datum.Plain (.record given)
  | .keys directory => ReportKey.Plain directory
  | _ => True

/-- A store that mirrors a shelf replies as the shelf does, and mirrors it afterwards. -/
theorem Mirrors.perform
    (mirrors : store.Mirrors keys tree shelf)
    (normal : ".." ∉ store.base)
    (apart : Apart keys)
    {call : StoreCall}
    (used : ∀ key ∈ call.usedKeys, key ∈ keys)
    (fits : Fits call) :
    (store.perform tree call).1 = (shelf.perform call).1 ∧
      store.Mirrors keys (store.perform tree call).2 (shelf.perform call).2 := by
  cases call with
  | save key storedAt document given =>
      obtain ⟨after, ran, later⟩ :=
        mirrors.save normal apart (used key List.mem_cons_self) fits.1 fits.2
      rw [ReportStore.perform, ran]
      exact ⟨rfl, later⟩
  | load key kind =>
      rw [ReportStore.perform, Shelf.perform,
        mirrors.load normal apart (used key List.mem_cons_self)]
      cases Table.get? key shelf with
      | none =>
          exact ⟨rfl, mirrors⟩
      | some kept =>
          exact ⟨rfl, mirrors⟩
  | holds key =>
      rw [ReportStore.perform, mirrors.holds normal apart (used key List.mem_cons_self)]
      exact ⟨rfl, mirrors⟩
  | erase key =>
      obtain ⟨after, ran, later⟩ := mirrors.erase normal apart (used key List.mem_cons_self)
      rw [ReportStore.perform, ran]
      exact ⟨rfl, later⟩
  | keys directory =>
      rw [ReportStore.perform, mirrors.keysUnder normal apart fits]
      exact ⟨rfl, mirrors⟩
  | metadata key =>
      rw [ReportStore.perform, Shelf.perform,
        mirrors.metadata normal apart (used key List.mem_cons_self)]
      cases Table.get? key shelf with
      | none =>
          exact ⟨rfl, mirrors⟩
      | some kept =>
          exact ⟨rfl, mirrors⟩

/-- All calls are answered as by the shelf. -/
theorem Mirrors.replies_eq
    (mirrors : store.Mirrors keys tree shelf)
    (normal : ".." ∉ store.base)
    (apart : Apart keys)
    {calls : List StoreCall}
    (used : ∀ call ∈ calls, ∀ key ∈ call.usedKeys, key ∈ keys)
    (fits : ∀ call ∈ calls, Fits call) :
    store.replies tree calls = shelf.replies calls := by
  induction calls generalizing tree shelf with
  | nil =>
      rfl
  | cons call rest inductionHypothesis =>
      rw [List.forall_mem_cons] at used fits
      obtain ⟨sameReply, later⟩ := mirrors.perform normal apart used.1 fits.1
      rw [replies, Shelf.replies]
      exact congrArg₂ List.cons sameReply (inductionHypothesis later used.2 fits.2)

/-- A store whose directory is empty mirrors an empty shelf. -/
theorem Mirrors.of_empty
    (sound : tree.Sound)
    (free : ∀ front, front <+: store.base → ∀ content, tree.node? front ≠ some (.file content))
    (empty : tree.below store.base = [])
    (apart : Apart keys) :
    store.Mirrors keys tree [] := by
  have nothing {names : List String} (named : names ≠ []) :
      tree.node? (store.base ++ names) = none := by
    by_contra stands
    obtain ⟨node, stands⟩ := Option.ne_none_iff_exists'.mp stands
    have member := sound.mem_below_iff.mpr ⟨named, stands⟩
    rw [empty] at member
    cases member
  constructor
  case sound =>
    exact sound
  case free =>
    exact free
  case once =>
    exact List.nodup_nil
  case known =>
    intro key member
    cases member
  case report =>
    intro key isKey
    obtain ⟨directory, name, ofKey, -⟩ := (apart.regular key isKey).exists_names
    exact nothing (by simp [ofKey])
  case facts =>
    intro key isKey
    obtain ⟨directory, name, -, ofMetadata, -⟩ := (apart.regular key isKey).exists_names
    exact nothing (by simp [ofMetadata])
  case others =>
    intro names content stands
    by_cases named : names = []
    · rw [named, List.append_nil] at stands
      exact absurd stands (free _ (List.prefix_refl _) content)
    · rw [nothing named] at stands
      cases stands
  case legible =>
    intro key kept found
    cases found

/-- Whatever is asked of a store that starts empty, it replies as a shelf does. -/
theorem replies_eq_shelf
    (normal : ".." ∉ store.base)
    (sound : tree.Sound)
    (free : ∀ front, front <+: store.base → ∀ content, tree.node? front ≠ some (.file content))
    (empty : tree.below store.base = [])
    {calls : List StoreCall}
    (apart : Apart (calls.flatMap StoreCall.usedKeys))
    (fits : ∀ call ∈ calls, Fits call) :
    store.replies tree calls = Shelf.replies [] calls := by
  apply (Mirrors.of_empty sound free empty apart).replies_eq normal apart _ fits
  intro call member key used
  exact List.mem_flatMap.mpr ⟨call, member, used⟩

/-- Two keys, of which one is overwritten, listed, erased and asked for again. -/
def rewrittenCalls : List StoreCall :=
  [ .save "b/2.json" "early" (.dexStats { fileName := "classes.dex" })
      [("apk", .text "b.apk"), ("_key", .null)],
    .save "a/1.json" "early" (.report { apkName := "a.apk", fileSize := 9, downloadSize := 4 }) [],
    .keys "",
    .save "b/2.json" "late" (.dexStats { fileName := "classes2.dex" }) [("apk", .text "b.apk")],
    .load "b/2.json" .dexStats,
    .metadata "a/1.json",
    .erase "a/1.json",
    .erase "a/1.json",
    .metadata "a/1.json",
    .load "a/1.json" .report,
    .keys "b" ]

/-- A store below a directory that is not there yet. -/
theorem replies_of_rewrittenCalls :
    let store : ReportStore := ⟨["srv", "reports"]⟩
    let tree : FileTree := {}
    ".." ∉ store.base ∧
      tree.Sound ∧
      (∀ front, front <+: store.base → ∀ content, tree.node? front ≠ some (.file content)) ∧
      tree.below store.base = [] ∧
      Apart (rewrittenCalls.flatMap StoreCall.usedKeys) ∧
      (∀ call ∈ rewrittenCalls, Fits call) ∧
      store.replies tree rewrittenCalls =
        [ .ok .done,
          .ok .done,
          .ok (.keys ["a/1.json", "b/2.json"]),
          .ok .done,
          .ok (.document (.dexStats { fileName := "classes2.dex" })),
          .ok (.facts (.record (Shelf.ownFacts "a/1.json" "early"
            (.report { apkName := "a.apk", fileSize := 9, downloadSize := 4 })))),
          .ok (.truth true),
          .ok (.truth false),
          .ok (.facts (.record [])),
          .error (.notFound "a/1.json"),
          .ok (.keys ["b/2.json"]) ] := by
  have normal : ".." ∉ ["srv", "reports"] := by
    decide
  have sound := FileTree.sound_empty
  have free : ∀ front, front <+: ["srv", "reports"] →
      ∀ content, FileTree.node? {} front ≠ some (.file content) := by
    intro front _ content
    rcases FileTree.node?_empty front with rfl | missing
    · nofun
    · rw [missing]
      nofun
  have regular : ∀ key ∈ ["b/2.json", "a/1.json"], Regular key := by
    intro key member
    rcases List.mem_pair.mp member with rfl | rfl
    · exact ⟨by decide, by decide, by decide, by decide, by decide, by decide⟩
    · exact ⟨by decide, by decide, by decide, by decide, by decide, by decide⟩
  have apart : Apart (rewrittenCalls.flatMap StoreCall.usedKeys) := by
    constructor
    · intro key member
      apply regular
      revert member
      revert key
      decide
    · decide
  have fits : ∀ call ∈ rewrittenCalls, Fits call := by
    have early : Datum.Plain (.record [("apk", .text "b.apk"), ("_key", .null)]) :=
      .record (by decide) (by simp [Datum.Plain.text, Datum.Plain.null])
    have late : Datum.Plain (.record [("apk", .text "b.apk")]) :=
      .record (by decide) (by simp [Datum.Plain.text])
    have nothing : Datum.Plain (.record []) :=
      .record List.nodup_nil nofun
    have root : ReportKey.Plain "" :=
      ⟨by decide, by decide, nofun⟩
    have directory : ReportKey.Plain "b" :=
      ⟨by decide, by decide, by simp⟩
    have noCounts : StoredDocument.CountsOnce
        (.report { apkName := "a.apk", fileSize := 9, downloadSize := 4 }) :=
      nofun
    simp only [rewrittenCalls, List.forall_mem_cons]
    exact ⟨⟨trivial, early⟩, ⟨noCounts, nothing⟩, root, ⟨trivial, late⟩, trivial, trivial, trivial,
      trivial, trivial, trivial, directory, List.forall_mem_nil _⟩
  refine ⟨normal, sound, free, rfl, apart, fits, ?_⟩
  rw [@replies_eq_shelf ⟨["srv", "reports"]⟩ {} normal sound free rfl _ apart fits]
  have both : ((["b/2.json", "a/1.json"].filter (Shelf.isBelow "")).mergeSort
      fun left right => decide (left ≤ right)) = ["a/1.json", "b/2.json"] := by
    have swapped : (["b/2.json", "a/1.json"].filter (Shelf.isBelow "")).Perm
        ["a/1.json", "b/2.json"] := by
      decide
    rw [mergeSort_eq_of_perm swapped, List.mergeSort_of_pairwise (by decide)]
  have last : ((["b/2.json"].filter (Shelf.isBelow "b")).mergeSort
      fun left right => decide (left ≤ right)) = ["b/2.json"] := by
    have only : ["b/2.json"].filter (Shelf.isBelow "b") = ["b/2.json"] := by
      decide
    rw [only, List.mergeSort_singleton]
  simp [rewrittenCalls, Shelf.replies, Shelf.perform, Table.put, Table.get?, Table.erase,
    Shelf.viewed, StoredDocument.kind, both, last, Shelf.overridden]
  rfl

end ReportStore

end ApkAtlas
