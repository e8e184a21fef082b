import ApkAtlas.Form
import ApkAtlas.Log
import ApkAtlas.Package.Build

namespace ApkAtlas

/-!
# Settings

How packages are analysed, where symbol maps and reports are, and what is logged. Settings
come from a record, whose missing fields take defaults, or from environment variables.
-/

/-- The least level that is logged. -/
inductive LogThreshold where
  | debug
  | info
  | warning
  | error
deriving Repr, DecidableEq, Inhabited

namespace LogThreshold

/-- The name of a threshold. -/
def name : LogThreshold → String
  | .debug => "DEBUG"
  | .info => "INFO"
  | .warning => "WARNING"
  | .error => "ERROR"

/-- The threshold with the given name. -/
def ofName? : String → Option LogThreshold
  | "DEBUG" => some .debug
  | "INFO" => some .info
  | "WARNING" => some .warning
  | "ERROR" => some .error
  | _ => none

/-- The level at the threshold. -/
def level : LogThreshold → LogLevel
  | .debug => .debug
  | .info => .info
  | .warning => .warning
  | .error => .error

/-- Whether records of a level are written. -/
def admits (threshold : LogThreshold) (level : LogLevel) : Bool :=
  threshold.level.rank ≤ level.rank

end LogThreshold

/-- How log records are written. -/
inductive LogFormat where
  | automatic
  | console
  | json
deriving Repr, DecidableEq, Inhabited

namespace LogFormat

/-- The name of a format. -/
def name : LogFormat → String
  | .automatic => "auto"
  | .console => "console"
  | .json => "json"

/-- The format with the given name. -/
def ofName? : String → Option LogFormat
  | "auto" => some .automatic
  | "console" => some .console
  | "json" => some .json
  | _ => none

end LogFormat

/-- How package trees are built and sizes are estimated. -/
structure AnalysisSettings where
  duplicatePolicy : Package.DuplicatePolicy := .firstWins
  recordReferences : Bool := true
  gzipLevel : Int := 9
  /-- How many children of a package are shown unless more or fewer are asked for. -/
  largestChildrenLimit : Int := 10
deriving Repr, DecidableEq, Inhabited

/-- Where names are restored from. -/
structure MappingSettings where
  mappingPath : Option FilePath := none
  seedsPath : Option FilePath := none
  /-- Whether an unreadable mapping stops the analysis. -/
  strict : Bool := false
deriving Repr, DecidableEq, Inhabited

/-- Where reports are kept. -/
structure StorageSettings where
  basePath : FilePath := ⟨0, ["reports"]⟩
deriving Repr, DecidableEq, Inhabited

/-- All settings. -/
structure Settings where
  projectName : String := "apkanalyzer"
  logThreshold : LogThreshold := .warning
  logFormat : LogFormat := .automatic
  analysis : AnalysisSettings := {}
  mapping : MappingSettings := {}
  storage : StorageSettings := {}
deriving Repr, DecidableEq, Inhabited

/-- A path that may be missing, as a value. -/
def FilePath.optionalDatum (path : Option FilePath) : Datum :=
  Datum.optionalText (path.map FilePath.toText)

namespace AnalysisSettings

/-- The settings in a record. -/
def ofFields (entries : List (String × Datum)) : Checked AnalysisSettings :=
  (fun duplicatePolicy recordReferences gzipLevel largestChildrenLimit =>
      { duplicatePolicy, recordReferences, gzipLevel, largestChildrenLimit })
    <$> Form.withDefault entries "duplicate_class_policy" .firstWins
      (Form.word Package.DuplicatePolicy.ofName?)
    <*> Form.withDefault entries "record_references" true Form.truth
    <*> Form.withDefault entries "gzip_level" 9 (Form.between 1 9)
    <*> Form.withDefault entries "largest_children_limit" 10 (Form.atLeast 1)

/-- The settings as a value. -/
def toDatum (settings : AnalysisSettings) : Datum :=
  .record
    [ ("duplicate_class_policy", .text settings.duplicatePolicy.name),
      ("record_references", .bool settings.recordReferences),
      ("gzip_level", .int settings.gzipLevel),
      ("largest_children_limit", .int settings.largestChildrenLimit) ]

end AnalysisSettings

namespace MappingSettings

/-- The settings in a record. -/
def ofFields (entries : List (String × Datum)) : Checked MappingSettings :=
  (fun mappingPath seedsPath strict => { mappingPath, seedsPath, strict })
    <$> Form.withDefault entries "mapping_path" none (Form.optional Form.path)
    <*> Form.withDefault entries "seeds_path" none (Form.optional Form.path)
    <*> Form.withDefault entries "strict" false Form.truth

/-- The settings as a value. -/
def toDatum (settings : MappingSettings) : Datum :=
  .record
    [ ("mapping_path", FilePath.optionalDatum settings.mappingPath),
      ("seeds_path", FilePath.optionalDatum settings.seedsPath),
      ("strict", .bool settings.strict) ]

end MappingSettings

namespace StorageSettings

/-- The only place where reports can be kept: a directory. -/
def backend : String :=
  "local"

/-- The settings in a record. -/
def ofFields (entries : List (String × Datum)) : Checked StorageSettings :=
  (fun _ basePath => { basePath })
    <$> Form.withDefault entries "backend" backend
      (Form.word fun name => if name = backend then some name else none)
    <*> Form.withDefault entries "base_path" ⟨0, ["reports"]⟩ Form.path

/-- The settings as a value. -/
def toDatum (settings : StorageSettings) : Datum :=
  .record [("backend", .text backend), ("base_path", .text settings.basePath.toText)]

end StorageSettings

/-- Why there are no settings. -/
inductive SettingsError where
  | invalid (issues : List Form.Issue)
  | notNumber (text : String)
deriving Repr, DecidableEq

namespace Settings

/-- The settings in a record. -/
def ofFields (entries : List (String × Datum)) : Checked Settings :=
  (fun projectName logThreshold logFormat analysis mapping storage =>
      { projectName, logThreshold, logFormat, analysis, mapping, storage })
    <$> Form.withDefault entries "project_name" "apkanalyzer" Form.text
    <*> Form.withDefault entries "log_level" .warning (Form.word LogThreshold.ofName?)
    <*> Form.withDefault entries "log_format" .automatic (Form.word LogFormat.ofName?)
    <*> Form.withDefault entries "analysis" {} (Form.fields AnalysisSettings.ofFields)
    <*> Form.withDefault entries "mapping" {} (Form.fields MappingSettings.ofFields)
    <*> Form.withDefault entries "storage" {} (Form.fields StorageSettings.ofFields)

/-- The settings as a value. -/
def toDatum (settings : Settings) : Datum :=
  .record
    [ ("project_name", .text settings.projectName),
      ("log_level", .text settings.logThreshold.name),
      ("log_format", .text settings.logFormat.name),
      ("analysis", settings.analysis.toDatum),
      ("mapping", settings.mapping.toDatum),
      ("storage", settings.storage.toDatum) ]

/-- The path that a variable names; an empty one names none. -/
def variablePath (value : Option String) : Option FilePath :=
  match value with
  | none => none
  | some "" => none
  | some text => some (FilePath.ofText text)

/-- Whether a variable says yes, in any case of letters. -/
def isTrue (text : String) : Bool :=
  text.map Char.toLower == "true"

/-- The settings in environment variables. The settings of the analysis are looked at
before the others, and its number before its words. -/
def ofEnvironment (assigned : List (String × String)) : Except SettingsError Settings := do
  let setting? (key : String) : Option String := Table.get? key assigned
  let variableOr (key default : String) : String := (setting? key).getD default
  let levelText := variableOr "APKA_GZIP_LEVEL" "9"
  let gzipLevel ←
    match Number.ofDecimal? levelText with
    | some number => pure number
    | none => throw (.notNumber levelText)
  let analysis ←
    (AnalysisSettings.ofFields
      [ ("duplicate_class_policy", .text (variableOr "APKA_DUPLICATE_POLICY" "first_wins")),
        ("record_references", .bool (isTrue (variableOr "APKA_RECORD_REFERENCES" "true"))),
        ("gzip_level", .int gzipLevel) ]).toExcept.mapError .invalid
  let outer ←
    (ofFields
      [ ("log_level", .text (variableOr "APKA_LOG_LEVEL" "WARNING")),
        ("log_format", .text (variableOr "APKA_LOG_FORMAT" "auto")) ]).toExcept.mapError
      .invalid
  return { outer with
    analysis
    mapping :=
      { mappingPath := variablePath (setting? "APKA_MAPPING_PATH")
        seedsPath := variablePath (setting? "APKA_SEEDS_PATH")
        strict := isTrue (variableOr "APKA_MAPPING_STRICT" "false") }
    storage := { basePath := FilePath.ofText (variableOr "APKA_REPORTS_PATH" "./reports") } }

end Settings

namespace Settings

/-- The records that are written as JSON lines where nobody watches: those the threshold
admits, unless they are written for people. -/
def written (settings : Settings) (records : List LogRecord) : List LogRecord :=
  match settings.logFormat with
  | .console => []
  | _ => records.filter fun record => settings.logThreshold.admits record.level

end Settings

namespace SettingsError

/-- The error of a text that should be a number. -/
def numberError (text : String) : ExternalError :=
  ⟨.badValue, "invalid literal for int() with base 10: " ++ Text.quoted text⟩

end SettingsError

end ApkAtlas
