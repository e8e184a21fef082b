import ApkAtlas.Report.Parts

namespace ApkAtlas

/-!
# Reports

A report holds all that is found out about one package. It is kept as a record, as are
its parts on their own, under the name of what they are.
-/

/-- All that is found out about one package. -/
structure Report where
  apkName : String
  fileSize : Int
  downloadSize : Int
  manifest : Option Manifest := none
  dexFiles : List Dex.FileStats := []
  packages : Option PackageSummary := none
  resources : Option ResourceTable := none
  warnings : List String := []
deriving Repr, BEq

namespace Report

/-- A part that may be missing as a value. -/
def optionalPart {Part : Type} (toDatum : Part → Datum) : Option Part → Datum
  | none => .null
  | some part => toDatum part

/-- The report as a record. -/
def toDatum (report : Report) : Datum :=
  .record
    [ ("apk_name", .text report.apkName),
      ("file_size", .int report.fileSize),
      ("download_size", .int report.downloadSize),
      ("manifest", optionalPart Manifest.toDatum report.manifest),
      ("dex_files", .list (report.dexFiles.map Dex.FileStats.toDatum)),
      ("packages", optionalPart PackageSummary.toDatum report.packages),
      ("resources", optionalPart ResourceTable.toDatum report.resources),
      ("warnings", Datum.texts report.warnings) ]

/-- The report in a record. -/
def ofFields (entries : List (String × Datum)) : Checked Report :=
  (fun apkName fileSize downloadSize manifest dexFiles packages resources warnings =>
      { apkName, fileSize, downloadSize, manifest, dexFiles, packages, resources, warnings })
    <$> Form.required entries "apk_name" Form.text
    <*> Form.required entries "file_size" Form.number
    <*> Form.required entries "download_size" Form.number
    <*> Form.withDefault entries "manifest" none
      (Form.optional (Form.fields Manifest.ofFields))
    <*> Form.withDefault entries "dex_files" []
      (Form.list (Form.fields Dex.FileStats.ofFields))
    <*> Form.withDefault entries "packages" none (Form.optional PackageSummary.ofDatum)
    <*> Form.withDefault entries "resources" none
      (Form.optional (Form.fields ResourceTable.ofFields))
    <*> Form.texts entries "warnings"

end Report

/-- What a store keeps: a report or one part of one. -/
inductive StoredDocument where
  | report (content : Report)
  | manifest (content : Manifest)
  | dexStats (content : Dex.FileStats)
  | entry (content : ArchiveEntry)
  | summary (content : PackageSummary)
deriving Repr, BEq

namespace StoredDocument

/-- The kinds of document. -/
inductive Kind where
  | report
  | manifest
  | dexStats
  | entry
  | summary
deriving Repr, DecidableEq

namespace Kind

/-- The name of a kind. -/
def name : Kind → String
  | .report => "ApkReport"
  | .manifest => "ManifestData"
  | .dexStats => "DexFileStats"
  | .entry => "ArchiveEntry"
  | .summary => "PackageSummary"

/-- The kind with the given name. -/
def ofName? : String → Option Kind
  | "ApkReport" => some .report
  | "ManifestData" => some .manifest
  | "DexFileStats" => some .dexStats
  | "ArchiveEntry" => some .entry
  | "PackageSummary" => some .summary
  | _ => none

end Kind

/-- The kind of a document. -/
def kind : StoredDocument → Kind
  | .report _ => .report
  | .manifest _ => .manifest
  | .dexStats _ => .dexStats
  | .entry _ => .entry
  | .summary _ => .summary

/-- The document as a record. -/
def toDatum : StoredDocument → Datum
  | .report content => content.toDatum
  | .manifest content => content.toDatum
  | .dexStats content => content.toDatum
  | .entry content => content.toDatum
  | .summary content => content.toDatum

/-- The document of a kind in a value. -/
def ofDatum : Kind → Datum → Checked StoredDocument
  | .report, value => (Form.fields Report.ofFields value).map .report
  | .manifest, value => (Form.fields Manifest.ofFields value).map .manifest
  | .dexStats, value => (Form.fields Dex.FileStats.ofFields value).map .dexStats
  | .entry, value => (Form.fields ArchiveEntry.ofFields value).map .entry
  | .summary, value => (PackageSummary.ofDatum value).map .summary

end StoredDocument

end ApkAtlas
