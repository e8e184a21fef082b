import ApkAtlas.Archive.Entry
import ApkAtlas.Dex.Stats
import ApkAtlas.Form
import ApkAtlas.Manifest
import ApkAtlas.Package.Summary
import ApkAtlas.ResourceTable

namespace ApkAtlas

/-!
# Parts of reports as records

Each part of a report is written as a record with all its fields in a fixed order, and
read back from a record in which fields with defaults may be missing.
-/

/-- Reads a list of texts, empty by default. -/
def Form.texts (entries : List (String × Datum)) (key : String) : Checked (List String) :=
  Form.withDefault entries key [] (Form.list Form.text)

/-- Reads a count, zero by default. -/
def Form.count (entries : List (String × Datum)) (key : String) : Checked Int :=
  Form.withDefault entries key 0 Form.number

namespace IntentFilter

/-- The filter as a record. -/
def toDatum (filter : IntentFilter) : Datum :=
  .record
    [ ("actions", Datum.texts filter.actions),
      ("categories", Datum.texts filter.categories) ]

/-- The filter in a record. -/
def ofFields (entries : List (String × Datum)) : Checked IntentFilter :=
  (fun actions categories => { actions, categories })
    <$> Form.texts entries "actions"
    <*> Form.texts entries "categories"

end IntentFilter

namespace Component

/-- The fields of a component. -/
def toFields (component : Component) : List (String × Datum) :=
  [ ("name", .text component.name),
    ("exported", Datum.optionalBool component.exported),
    ("intent_filters", .list (component.intentFilters.map IntentFilter.toDatum)) ]

/-- The component as a record. -/
def toDatum (component : Component) : Datum :=
  .record component.toFields

/-- The component in a record. -/
def ofFields (entries : List (String × Datum)) : Checked Component :=
  (fun name exported intentFilters => { name, exported, intentFilters })
    <$> Form.required entries "name" Form.text
    <*> Form.withDefault entries "exported" none (Form.optional Form.truth)
    <*> Form.withDefault entries "intent_filters" []
      (Form.list (Form.fields IntentFilter.ofFields))

end Component

namespace Provider

/-- The provider as a record. -/
def toDatum (provider : Provider) : Datum :=
  .record (provider.component.toFields ++ [("authorities", Datum.texts provider.authorities)])

/-- The provider in a record. -/
def ofFields (entries : List (String × Datum)) : Checked Provider :=
  (fun component authorities => { component, authorities })
    <$> Component.ofFields entries
    <*> Form.texts entries "authorities"

end Provider

namespace Manifest

/-- The manifest as a record. -/
def toDatum (manifest : Manifest) : Datum :=
  let components (list : List Component) : Datum := .list (list.map Component.toDatum)
  .record
    [ ("package_name", .text manifest.packageName),
      ("version_code", Datum.optionalInt manifest.versionCode),
      ("version_name", Datum.optionalText manifest.versionName),
      ("min_sdk_version", Datum.optionalInt manifest.minSdkVersion),
      ("target_sdk_version", Datum.optionalInt manifest.targetSdkVersion),
      ("application_label", Datum.optionalText manifest.applicationLabel),
      ("permissions", Datum.texts manifest.permissions),
      ("activities", components manifest.activities),
      ("services", components manifest.services),
      ("receivers", components manifest.receivers),
      ("providers", .list (manifest.providers.map Provider.toDatum)),
      ("uses_features", Datum.texts manifest.usesFeatures) ]

/-- The manifest in a record. -/
def ofFields (entries : List (String × Datum)) : Checked Manifest :=
  let optionalNumber (key : String) : Checked (Option Int) :=
    Form.withDefault entries key none (Form.optional Form.number)
  let optionalText (key : String) : Checked (Option String) :=
    Form.withDefault entries key none (Form.optional Form.text)
  let components (key : String) : Checked (List Component) :=
    Form.withDefault entries key [] (Form.list (Form.fields Component.ofFields))
  (fun packageName versionCode versionName minSdkVersion targetSdkVersion applicationLabel
      permissions activities services receivers providers usesFeatures =>
      { packageName, versionCode, versionName, minSdkVersion, targetSdkVersion,
        applicationLabel, permissions, activities, services, receivers, providers,
        usesFeatures })
    <$> Form.required entries "package_name" Form.text
    <*> optionalNumber "version_code"
    <*> optionalText "version_name"
    <*> optionalNumber "min_sdk_version"
    <*> optionalNumber "target_sdk_version"
    <*> optionalText "application_label"
    <*> Form.texts entries "permissions"
    <*> components "activities"
    <*> components "services"
    <*> components "receivers"
    <*> Form.withDefault entries "providers" [] (Form.list (Form.fields Provider.ofFields))
    <*> Form.texts entries "uses_features"

end Manifest

namespace Dex.FileStats

/-- The counts as a record. -/
def toDatum (stats : FileStats) : Datum :=
  .record
    [ ("file_name", .text stats.fileName),
      ("class_count", .int stats.classCount),
      ("defined_method_count", .int stats.definedMethodCount),
      ("defined_field_count", .int stats.definedFieldCount),
      ("referenced_method_count", .int stats.referencedMethodCount),
      ("referenced_field_count", .int stats.referencedFieldCount),
      ("string_count", .int stats.stringCount),
      ("type_count", .int stats.typeCount),
      ("file_size", .int stats.fileSize) ]

/-- The counts in a record. -/
def ofFields (entries : List (String × Datum)) : Checked FileStats :=
  (fun fileName classCount definedMethodCount definedFieldCount referencedMethodCount
      referencedFieldCount stringCount typeCount fileSize =>
      { fileName, classCount, definedMethodCount, definedFieldCount, referencedMethodCount,
        referencedFieldCount, stringCount, typeCount, fileSize })
    <$> Form.required entries "file_name" Form.text
    <*> Form.count entries "class_count"
    <*> Form.count entries "defined_method_count"
    <*> Form.count entries "defined_field_count"
    <*> Form.count entries "referenced_method_count"
    <*> Form.count entries "referenced_field_count"
    <*> Form.count entries "string_count"
    <*> Form.count entries "type_count"
    <*> Form.count entries "file_size"

end Dex.FileStats

namespace ArchiveEntry

/-- The entry as a record. -/
def toDatum (entry : ArchiveEntry) : Datum :=
  .record
    [ ("path", .text entry.path),
      ("raw_size", .int entry.rawSize),
      ("download_size", .int entry.downloadSize),
      ("is_directory", .bool entry.isDirectory) ]

/-- The entry in a record. -/
def ofFields (entries : List (String × Datum)) : Checked ArchiveEntry :=
  (fun path rawSize downloadSize isDirectory =>
      { path, rawSize, downloadSize, isDirectory })
    <$> Form.required entries "path" Form.text
    <*> Form.count entries "raw_size"
    <*> Form.count entries "download_size"
    <*> Form.withDefault entries "is_directory" false Form.truth

end ArchiveEntry

namespace PackageSummary

mutual

/-- The summary as a record. -/
def toDatum : PackageSummary → Datum
  | ⟨name, kind, totals, dexFile, children⟩ =>
      .record
        [ ("name", .text name),
          ("kind", .text kind.name),
          ("method_count", .int totals.methods),
          ("field_count", .int totals.fields),
          ("referenced_method_count", .int totals.referencedMethods),
          ("referenced_field_count", .int totals.referencedFields),
          ("class_count", .int totals.classes),
          ("dex_file", Datum.optionalText dexFile),
          ("children", .list (toData children)) ]

/-- Summaries as records. -/
def toData : List PackageSummary → List Datum
  | [] => []
  | first :: rest => first.toDatum :: toData rest

end

/-- The totals among the fields of a summary. -/
def totalsOfFields (entries : List (String × Datum)) : Checked NodeTotals :=
  (fun methods fields referencedMethods referencedFields classes =>
      { methods, fields, referencedMethods, referencedFields, classes })
    <$> Form.count entries "method_count"
    <*> Form.count entries "field_count"
    <*> Form.count entries "referenced_method_count"
    <*> Form.count entries "referenced_field_count"
    <*> Form.count entries "class_count"

/-- The summary in a record, given how its children are read. -/
def ofFieldsWith
    (child : Datum → Checked PackageSummary)
    (entries : List (String × Datum)) :
    Checked PackageSummary :=
  (fun name kind totals dexFile children => ⟨name, kind, totals, dexFile, children⟩)
    <$> Form.required entries "name" Form.text
    <*> Form.required entries "kind" (Form.name NodeKind.ofName?)
    <*> totalsOfFields entries
    <*> Form.withDefault entries "dex_file" none (Form.optional Form.text)
    <*> Form.withDefault entries "children" [] (Form.list child)

/-- The summary in a value at most `depth` levels deep. -/
def ofDatumWithin : Nat → Datum → Checked PackageSummary
  | 0, _ => Form.fault .notRecord
  | depth + 1, value => Form.fields (ofFieldsWith (ofDatumWithin depth)) value

/-- The summary in a value. -/
def ofDatum (value : Datum) : Checked PackageSummary :=
  ofDatumWithin (value.depth + 1) value

end PackageSummary

namespace ResourcePackage

/-- The package as a record. -/
def toDatum (package : ResourcePackage) : Datum :=
  .record
    [ ("package_id", .int package.packageId),
      ("name", .text package.name),
      ("type_spec_count", .int package.typeSpecCount),
      ("type_count", .int package.typeCount),
      ("size_bytes", .int package.sizeBytes) ]

/-- The package in a record. -/
def ofFields (entries : List (String × Datum)) : Checked ResourcePackage :=
  (fun packageId name typeSpecCount typeCount sizeBytes =>
      { packageId, name, typeSpecCount, typeCount, sizeBytes })
    <$> Form.required entries "package_id" Form.number
    <*> Form.required entries "name" Form.text
    <*> Form.count entries "type_spec_count"
    <*> Form.count entries "type_count"
    <*> Form.count entries "size_bytes"

end ResourcePackage

namespace ResourceTable

/-- The table as a record. -/
def toDatum (table : ResourceTable) : Datum :=
  .record
    [ ("declared_package_count", .int table.declaredPackageCount),
      ("string_count", .int table.stringCount),
      ("packages", .list (table.packages.map ResourcePackage.toDatum)),
      ("chunk_counts", .record (table.chunkCounts.map fun (key, count) => (key, .int count))) ]

/-- The table in a record. -/
def ofFields (entries : List (String × Datum)) : Checked ResourceTable :=
  (fun declaredPackageCount stringCount packages chunkCounts =>
      { declaredPackageCount, stringCount, packages, chunkCounts })
    <$> Form.count entries "declared_package_count"
    <*> Form.count entries "string_count"
    <*> Form.withDefault entries "packages" [] (Form.list (Form.fields ResourcePackage.ofFields))
    <*> Form.withDefault entries "chunk_counts" [] (Form.table Form.number)

end ResourceTable

end ApkAtlas
