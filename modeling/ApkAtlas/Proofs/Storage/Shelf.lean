import ApkAtlas.Proofs.Datum.Json
import ApkAtlas.Storage.ReportStore

namespace ApkAtlas

/-!
# Shelves of documents

A shelf maps keys to documents and to what is told about them, without any files. What is told
are the facts that were given, but what the store tells itself comes before them.
-/

/-- What a client asks of a store. -/
inductive StoreCall where
  | save (key storedAt : String) (document : StoredDocument) (given : List (String × Datum))
  | load (key : String) (kind : StoredDocument.Kind)
  | holds (key : String)
  | erase (key : String)
  /-- The keys of the reports below a directory, which is the whole store for the empty text. -/
  | keys (directory : String)
  | metadata (key : String)

namespace StoreCall

/-- The keys that a call is about. -/
def usedKeys : StoreCall → List String
  | .save key _ _ _ => [key]
  | .load key _ => [key]
  | .holds key => [key]
  | .erase key => [key]
  | .keys _ => []
  | .metadata key => [key]

end StoreCall

/-- What a store answers when nothing is wrong. -/
inductive StoreAnswer where
  | done
  | document (found : StoredDocument)
  | truth (value : Bool)
  | keys (found : List String)
  | facts (found : Datum)

/-- An answer, or why there is none. -/
abbrev StoreReply :=
  Except StoreError StoreAnswer

namespace ReportStore

/-- The reply of a store to a call, and the files after it. -/
def perform (store : ReportStore) (tree : FileTree) : StoreCall → StoreReply × FileTree
  | .save key storedAt document given =>
      let (result, after) := (store.save key storedAt document given).run.run tree
      (result.map fun _ => .done, after)
  | .load key kind => ((store.load tree key kind).map .document, tree)
  | .holds key => (.ok (.truth (store.holds tree key)), tree)
  | .erase key =>
      let (result, after) := (store.erase key).run.run tree
      (result.map .truth, after)
  | .keys directory => (.ok (.keys (store.keysUnder tree directory)), tree)
  | .metadata key => ((store.metadata tree key).map .facts, tree)

/-- The replies of a store to calls one after another. -/
def replies (store : ReportStore) (tree : FileTree) : List StoreCall → List StoreReply
  | [] => []
  | call :: rest =>
      let (reply, after) := store.perform tree call
      reply :: store.replies after rest

end ReportStore

/-! ## Shelves -/

/-- What is kept under a key. -/
structure Kept where
  document : StoredDocument
  facts : List (String × Datum)

/-- What is kept, by its keys. -/
abbrev Shelf :=
  List (String × Kept)

namespace Shelf

/-- What a store itself tells about a document. -/
def ownFacts (key storedAt : String) (document : StoredDocument) : List (String × Datum) :=
  let content := document.toDatum.toJson
  [ ("model_type", .text document.kind.name),
    ("size_chars", .nat content.length),
    ("hash", .text (Checksum.sha256 (Text.Utf8.encode content))),
    ("_stored_at", .text storedAt),
    ("_key", .text key) ]

/-- Given facts, of which some have their own values, and then the rest of these. -/
def overridden (own given : List (String × Datum)) : List (String × Datum) :=
  given.map (fun fact => (fact.1, (Table.get? fact.1 own).getD fact.2)) ++
    own.filter fun fact => (Table.get? fact.1 given).isNone

/-- A kept document as one of a kind. -/
def viewed (kind : StoredDocument.Kind) (document : StoredDocument) :
    Except StoreError StoredDocument :=
  if kind = document.kind then
    .ok document
  else
    (StoredDocument.ofDatum kind document.toDatum).toExcept.mapError .invalid

/-- Whether a key goes on from the names of a directory. -/
def isBelow (directory key : String) : Bool :=
  (FilePath.namesOf directory).isPrefixOf (FilePath.namesOf key) &&
    (FilePath.namesOf directory).length < (FilePath.namesOf key).length

/-- The reply of a shelf to a call, and the shelf after it. -/
def perform (shelf : Shelf) : StoreCall → StoreReply × Shelf
  | .save key storedAt document given =>
      (.ok .done,
        Table.put key ⟨document, overridden (ownFacts key storedAt document) given⟩ shelf)
  | .load key kind =>
      match Table.get? key shelf with
      | none => (.error (.notFound key), shelf)
      | some kept => ((viewed kind kept.document).map .document, shelf)
  | .holds key => (.ok (.truth (Table.get? key shelf).isSome), shelf)
  | .erase key => (.ok (.truth (Table.get? key shelf).isSome), Table.erase key shelf)
  | .keys directory =>
      let found := (shelf.map Prod.fst).filter (isBelow directory)
      (.ok (.keys (found.mergeSort fun left right => decide (left ≤ right))), shelf)
  | .metadata key =>
      match Table.get? key shelf with
      | none => (.ok (.facts (.record [])), shelf)
      | some kept => (.ok (.facts (.record kept.facts)), shelf)

/-- The replies of a shelf to calls one after another. -/
def replies (shelf : Shelf) : List StoreCall → List StoreReply
  | [] => []
  | call :: rest =>
      let (reply, after) := shelf.perform call
      reply :: replies after rest

theorem nodup_ownFacts
    (key storedAt : String)
    (document : StoredDocument) :
    ((ownFacts key storedAt document).map Prod.fst).Nodup := by
  simp [ownFacts]

theorem overridden_put
    {key : String}
    {value : Datum}
    {own given : List (String × Datum)}
    (absent : key ∉ own.map Prod.fst)
    (once : (given.map Prod.fst).Nodup) :
    overridden own (Table.put key value given) = overridden ((key, value) :: own) given := by
  have missing := Table.get?_eq_none_of_not_mem absent
  have others : ∀ fact ∈ own,
      (Table.get? fact.1 (Table.put key value given)).isNone =
        (Table.get? fact.1 given).isNone := by
    intro fact member
    rw [Table.get?_put_of_ne]
    rintro rfl
    exact absent (List.mem_map_of_mem member)
  have elsewhere : ∀ fact : String × Datum, fact.1 ≠ key →
      Table.get? fact.1 ((key, value) :: own) = Table.get? fact.1 own :=
    fun fact different => by rw [Table.get?, if_neg (Ne.symm different)]
  rw [overridden, overridden, List.filter_congr others]
  by_cases member : key ∈ given.map Prod.fst
  · have known := Table.mem_keys_iff.mp member
    rw [Table.put_eq_map once member, List.map_map, List.filter_cons_of_neg (by simpa using known)]
    congr 1
    apply List.map_congr_left
    intro fact _
    by_cases same : fact.1 = key
    · simp [same, missing, Table.get?]
    · simp [same, elsewhere fact same]
  · have unknown := Table.get?_eq_none_of_not_mem member
    rw [Table.put_of_get?_eq_none unknown, List.map_append,
      List.filter_cons_of_pos (by simp [unknown]), List.map_singleton, missing,
      List.append_assoc, List.singleton_append]
    congr 1
    apply List.map_congr_left
    intro fact inGiven
    have different : fact.1 ≠ key := by
      rintro rfl
      exact member (List.mem_map_of_mem inGiven)
    rw [elsewhere fact different]

/-- Putting own facts over given ones overrides these. -/
theorem merge_eq_overridden
    {own given : List (String × Datum)}
    (ownOnce : (own.map Prod.fst).Nodup)
    (givenOnce : (given.map Prod.fst).Nodup) :
    LogValues.merge given own = overridden own given := by
  induction own generalizing given with
  | nil =>
      simp [LogValues.merge, overridden, Table.get?]
  | cons first rest inductionHypothesis =>
      rw [List.map_cons, List.nodup_cons] at ownOnce
      rw [← overridden_put ownOnce.1 givenOnce,
        ← inductionHypothesis ownOnce.2 (Table.nodup_put givenOnce _ _)]
      rfl

theorem plain_put
    {fields : List (String × Datum)}
    (plain : Datum.Plain (.record fields))
    (key : String)
    {value : Datum}
    (plainValue : Datum.Plain value) :
    Datum.Plain (.record (Table.put key value fields)) := by
  cases plain with
  | record once each =>
      have onceAfter := Table.nodup_put once key value
      refine .record onceAfter ?_
      rintro ⟨name, found⟩ member
      rw [← Table.get?_eq_some_iff onceAfter] at member
      by_cases same : name = key
      · subst same
        rw [Table.get?_put_self] at member
        exact Option.some.inj member ▸ plainValue
      · rw [Table.get?_put_of_ne same] at member
        exact each _ (Table.mem_of_get? member)

theorem plain_merge
    {own given : List (String × Datum)}
    (ownPlain : ∀ fact ∈ own, Datum.Plain fact.2)
    (givenPlain : Datum.Plain (.record given)) :
    Datum.Plain (.record (LogValues.merge given own)) := by
  induction own generalizing given with
  | nil =>
      exact givenPlain
  | cons first rest inductionHypothesis =>
      rw [List.forall_mem_cons] at ownPlain
      exact inductionHypothesis ownPlain.2 (plain_put givenPlain first.1 ownPlain.1)

/-- The facts of a document can be told apart if the given ones can. -/
theorem plain_overridden
    {given : List (String × Datum)}
    (plain : Datum.Plain (.record given))
    (key storedAt : String)
    (document : StoredDocument) :
    Datum.Plain (.record (overridden (ownFacts key storedAt document) given)) := by
  have ownPlain : ∀ fact ∈ ownFacts key storedAt document, Datum.Plain fact.2 := by
    simp [ownFacts, Datum.Plain.text, Datum.nat, Datum.Plain.int]
  cases plain with
  | record once each =>
      rw [← merge_eq_overridden (nodup_ownFacts key storedAt document) once]
      exact plain_merge ownPlain (.record once each)

end Shelf

end ApkAtlas
