import ApkAtlas.Checksum
import ApkAtlas.Datum.Json
import ApkAtlas.Log
import ApkAtlas.Report
import ApkAtlas.Storage.FileTree
import ApkAtlas.Storage.FilePath
import ApkAtlas.Text.Utf8

namespace ApkAtlas

/-!
# Stores of reports

A store keeps documents as JSON files below a base directory, and beside each a file that
tells what it is, how large and with which digest. Its operations read or change a file
tree.
-/

/-- A store, by the place of its base directory. -/
structure ReportStore where
  base : List String
deriving Repr, DecidableEq

/-- Why a store cannot do what it is asked for. -/
inductive StoreError where
  | notFound (key : String)
  | file (problem : FileProblem) (path : String)
  | undecodable (error : Text.Utf8.Error)
  | notJson
  | invalid (issues : List Form.Issue)
deriving Repr, DecidableEq

/-- An operation on the files of a store; what it did before an error stays done. -/
abbrev StoreAction := ExceptT StoreError (StateM FileTree)

namespace ReportStore

/-- The store at a path. -/
def ofPath (tree : FileTree) (path : FilePath) : ReportStore :=
  ⟨tree.resolve path⟩

/-- The names that lead from the base directory to the file of a key. -/
def placeNames (store : ReportStore) (key : String) : List String :=
  ReportKey.names store.base key

/-- The path of the file of a key. -/
def path (store : ReportStore) (key : String) : FilePath :=
  FileTree.pathOf (store.base ++ store.placeNames key)

/-- The path of what tells about the report under a key. -/
def metadataPath (store : ReportStore) (key : String) : FilePath :=
  store.path (ReportKey.metadataKey key)

/-- A path below the base directory as text. -/
def relativeText (names : List String) : String :=
  FilePath.toText ⟨0, names⟩

/-- Runs a step on the files at a path. -/
def change (path : FilePath) (step : FileTree → Except FileProblem FileTree) :
    StoreAction Unit := do
  match step (← get) with
  | .ok changed => set changed
  | .error problem => throw (.file problem path.toText)

/-- Writes a text to a path and makes its directories. -/
def writeText (path : FilePath) (content : String) : StoreAction Unit := do
  change path fun tree => tree.makeDirectories [] path.names.dropLast
  change path fun tree => do
    tree.write (← tree.locate path) (Text.Utf8.encode content)

/-- The text at a path. -/
def readText (tree : FileTree) (path : FilePath) : Except StoreError String := do
  let bytes ← (tree.read path).mapError fun problem => StoreError.file problem path.toText
  (Text.Utf8.decode bytes.toList).mapError .undecodable

/-- What is told about a document. The given facts come first, and their places stay. -/
def metadataOf
    (key storedAt content : String)
    (document : StoredDocument)
    (given : List (String × Datum)) :
    List (String × Datum) :=
  LogValues.merge given
    [ ("model_type", .text document.kind.name),
      ("size_chars", .nat content.length),
      ("hash", .text (Checksum.sha256 (Text.Utf8.encode content))),
      ("_stored_at", .text storedAt),
      ("_key", .text key) ]

/-- Stores a document and what is told about it. -/
def save
    (store : ReportStore)
    (key storedAt : String)
    (document : StoredDocument)
    (given : List (String × Datum)) :
    StoreAction Unit := do
  let content := document.toDatum.toJson
  writeText (store.path key) content
  let metadata := Datum.record (metadataOf key storedAt content document given)
  writeText (store.metadataPath key) metadata.toAsciiJson

/-- What is logged of a stored document. -/
def storedFacts (key : String) (document : StoredDocument) : LogValues :=
  [ ("key", .text key),
    ("model_type", .text document.kind.name),
    ("size_chars", .nat document.toDatum.toJson.length) ]

/-- Whether something is kept under a key. -/
def holds (store : ReportStore) (tree : FileTree) (key : String) : Bool :=
  tree.holds (store.path key)

/-- The document of a kind under a key. -/
def load
    (store : ReportStore)
    (tree : FileTree)
    (key : String)
    (kind : StoredDocument.Kind) :
    Except StoreError StoredDocument := do
  if !store.holds tree key then
    throw (.notFound key)
  let text ← readText tree (store.path key)
  match Datum.ofJson? text with
  | none => throw .notJson
  | some value => (StoredDocument.ofDatum kind value).toExcept.mapError .invalid

/-- Removes what is at a path, if there is something, and tells whether there was. -/
def removeAt (path : FilePath) : StoreAction Bool := do
  if !(← get).holds path then
    return false
  change path fun tree => do
    tree.remove (← tree.locate path)
  return true

/-- Removes a report and what is told about it, each if it is there, and tells whether
the report was. -/
def erase (store : ReportStore) (key : String) : StoreAction Bool := do
  let known ← removeAt (store.path key)
  let _ ← removeAt (store.metadataPath key)
  return known

/-- Whether a file name is one of a report. -/
def isReportName (name : String) : Bool :=
  ReportKey.reportSuffix.toList.isSuffixOf name.toList &&
    !ReportKey.metadataSuffix.toList.isSuffixOf name.toList

/-- Whether something below a directory is a report. -/
def isReport (entry : List String × FileNode) : Bool :=
  !entry.2.isDirectory && isReportName (entry.1.getLast?.getD "")

/-- The keys of all reports at or below the place of a key, in order. -/
def keysUnder (store : ReportStore) (tree : FileTree) (key : String) : List String :=
  let names := store.placeNames key
  match tree.find (store.path key) with
  | .error _ => []
  | .ok (place, _) =>
      let found := (tree.below place).filter isReport
      (found.map fun entry => relativeText (names ++ entry.1)).mergeSort fun left right =>
        decide (left ≤ right)

/-- The keys of all reports, in order. -/
def keys (store : ReportStore) (tree : FileTree) : List String :=
  store.keysUnder tree ""

/-- The paths of everything below the base directory, in order. -/
def places (store : ReportStore) (tree : FileTree) : List String :=
  ((tree.below store.base).map fun entry => relativeText entry.1).mergeSort fun left right =>
    decide (left ≤ right)

/-- What is told about the report under a key; nothing if there is no such file. -/
def metadata (store : ReportStore) (tree : FileTree) (key : String) :
    Except StoreError Datum := do
  let path := store.metadataPath key
  if !tree.holds path then
    return .record []
  match Datum.ofJson? (← readText tree path) with
  | none => throw .notJson
  | some value => return value

/-- The path of a kept report, from the base directory on. -/
def localPath? (store : ReportStore) (tree : FileTree) (key : String) : Option String :=
  if store.holds tree key then some (relativeText (store.placeNames key)) else none

/-- The key of the report on a package: its name without ending, and the first digits of
its digest. -/
def reportKey (tree : FileTree) (apk : FilePath) : Except StoreError String := do
  let bytes ← (tree.read apk).mapError fun problem => StoreError.file problem apk.toText
  let digits := String.ofList ((Checksum.sha256 bytes).toList.take 16)
  return apk.stem ++ "/" ++ digits ++ ReportKey.reportSuffix

end ReportStore

end ApkAtlas
