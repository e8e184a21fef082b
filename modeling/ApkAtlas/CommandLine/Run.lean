import ApkAtlas.Analysis
import ApkAtlas.CommandLine.Command
import ApkAtlas.Datum
import ApkAtlas.Package.Ranking
import ApkAtlas.SizeText
import ApkAtlas.Storage.ReportStore

namespace ApkAtlas.CommandLine

/-!
# What is displayed

A request displays lines of text, tables and trees.
-/

/-- A labelled tree. -/
inductive Branch where
  | mk (label : String) (children : List Branch)
deriving Repr, Inhabited

namespace Branch

/-- The label of a tree. -/
def label : Branch → String
  | .mk label _ => label

/-- The trees below. -/
def children : Branch → List Branch
  | .mk _ children => children

end Branch

/-- One displayed item. -/
inductive Display where
  | text (content : String)
  | table (title : String) (columns : List String) (rows : List (List String))
  | tree (content : Branch)
deriving Repr

namespace Display

mutual

/-- The lines of a tree, indented by its depth. -/
def branchLines (depth : Nat) : Branch → List String
  | .mk label children =>
      (String.ofList (List.replicate (2 * depth) ' ') ++ label) ::
        branchesLines (depth + 1) children

/-- The lines of trees side by side. -/
def branchesLines (depth : Nat) : List Branch → List String
  | [] => []
  | first :: rest => branchLines depth first ++ branchesLines depth rest

end

/-- The item as plain lines. -/
def lines : Display → List String
  | .text content => [content]
  | .table title columns rows =>
      title :: "\t".intercalate columns :: rows.map ("\t".intercalate ·)
  | .tree content => branchLines 0 content

end Display

/-!
## Running requests

A run takes the arguments, the environment and the files, and says what is displayed, what
is logged, which files there are afterwards, and how it ended. Failures of the library
are displayed; any other error ends the run.
-/

/-- What ends a run before its time. -/
inductive RunError where
  | settings (error : SettingsError)
  | fault (fault : Fault)
  | store (error : StoreError)
deriving Repr

/-- How a run stops. -/
inductive Stop where
  | exit (code : Nat)
  | error (content : RunError)
deriving Repr

/-- What a run has done so far. -/
structure Progress where
  session : Session
  /-- The time under which reports are stored. -/
  now : String := ""
  journal : Journal := {}
  displays : List Display := []

/-- A step of a run; what it did before a stop stays done. -/
abbrev Run := ExceptT Stop (StateM Progress)

namespace Run

/-- Displays an item. -/
def display (item : Display) : Run Unit :=
  modify fun progress => { progress with displays := progress.displays ++ [item] }

/-- Displays a text. -/
def say (text : String) : Run Unit :=
  display (.text text)

/-- Displays a text for each of some warnings. -/
def warn (warnings : List String) : Run Unit :=
  warnings.forM fun warning => say ("[yellow]Warning:[/yellow] " ++ warning)

/-- Displays a failure and stops. -/
def fail {Value : Type} (failure : Failure) : Run Value := do
  say ("[bold red]Error:[/bold red] " ++ failure.message)
  throw (.exit 1)

/-- Runs an operation with its log records. -/
def logged {Value : Type} (operation : Session → Logged Value) :
    Run (Except Fault Value) := do
  let progress ← get
  let (result, journal) := (operation progress.session).run progress.journal
  set { progress with journal }
  return result

/-- Asks a question about a package; a failure is displayed. -/
def ask {Value : Type} (operation : Session → Logged Value) : Run Value := do
  match ← logged operation with
  | .ok value => return value
  | .error (.failure failure) => fail failure
  | .error other => throw (.error (.fault other))

/-- Asks for something that logs nothing. -/
def askPlain {Value : Type} (operation : Session → Except Fault Value) : Run Value :=
  ask fun session => Logged.ofExcept (operation session)

/-- Runs an operation on the files of a store. -/
def onStore {Value : Type} (action : StoreAction Value) : Run Value := do
  let progress ← get
  let (result, files) := action.run progress.session.files
  set { progress with session := { progress.session with files } }
  match result with
  | .ok value => return value
  | .error error => throw (.error (.store error))

/-- Reads from a store. -/
def fromStore {Value : Type} (read : FileTree → Except StoreError Value) : Run Value := do
  match read (← get).session.files with
  | .ok value => return value
  | .error error => throw (.error (.store error))

end Run

open Run

/-- A value that may be missing in words. -/
def orNone (value : Option String) : String :=
  value.getD "None"

/-- A number that may be missing in words. -/
def numberOrNone (value : Option Int) : String :=
  orNone (value.map toString)

/-- A truth value in words. -/
def truthText (value : Bool) : String :=
  if value then "True" else "False"

/-- Displays the sizes of a package. -/
def runSize (apk : FilePath) (human : Bool) : Run Unit := do
  let raw ← askPlain (·.fileSize apk)
  let download ← askPlain (·.downloadSize apk)
  display (.table apk.name ["Measure", "Size"]
    [["File size", sizeText human raw], ["Download size", sizeText human download]])

/-- Displays what a manifest says. -/
def runSummary (apk : FilePath) : Run Unit := do
  let manifest ← ask (·.manifest apk)
  display (.table "APK Summary" ["Property", "Value"]
    [ ["Package", manifest.packageName],
      ["Version",
        orNone manifest.versionName ++ " (" ++ numberOrNone manifest.versionCode ++ ")"],
      ["Min SDK", numberOrNone manifest.minSdkVersion],
      ["Target SDK", numberOrNone manifest.targetSdkVersion],
      ["Activities", toString manifest.activities.length],
      ["Services", toString manifest.services.length],
      ["Receivers", toString manifest.receivers.length],
      ["Providers", toString manifest.providers.length],
      ["Permissions", toString manifest.permissions.length] ])
  if !manifest.activities.isEmpty then
    say "\n[bold]Activities:[/bold]"
    (manifest.activities.take 10).forM fun activity =>
      say ("  • " ++ activity.simpleName ++ if activity.isLauncher then " [launcher]" else "")

/-- Displays the entries of a package. -/
def runFiles (apk : FilePath) (human : Bool) : Run Unit := do
  let entries ← ask (·.filesList apk)
  display (.table s!"{apk.name} ({entries.length} entries)" ["Path", "Raw", "Download"]
    (entries.map fun entry =>
      [entry.path, sizeText human entry.rawSize, sizeText human entry.downloadSize]))

/-- The row of a DEX file. -/
def dexRow (stats : Dex.FileStats) : List String :=
  stats.fileName ::
    [ stats.classCount, stats.definedMethodCount, stats.referencedMethodCount,
      stats.referencedFieldCount, stats.headroom ].map toString

/-- The row of sums over all DEX files, if there are some. -/
def totalRows (all : List Dex.FileStats) : List (List String) :=
  let sum (count : Dex.FileStats → Int) : String := toString ((all.map count).foldr (· + ·) 0)
  if all.isEmpty then
    []
  else
    [ [ "[bold]total[/bold]", sum (·.classCount), sum (·.definedMethodCount),
        sum (·.referencedMethodCount), sum (·.referencedFieldCount), "" ] ]

/-- Displays the counts of the DEX files. -/
def runDexRefs (apk : FilePath) : Run Unit := do
  let all ← ask (·.dexReferences apk)
  display (.table "DEX References"
    [ "File", "Classes", "Defined methods", "Referenced methods", "Referenced fields",
      "Headroom" ]
    (all.map dexRow ++ totalRows all))

/-- The line of a node. -/
def nodeText (label : NodeLabel) : String :=
  let totals := label.totals
  s!"{label.name} [dim]{label.kind.name}[/dim] methods={totals.methods} " ++
    s!"fields={totals.fields} refs={totals.referencedMethods}/{totals.referencedFields}"

/-- The children of a node that rank first, as many levels deep as asked for. -/
def branches (metric : Metric) (limit : Int) :
    Nat → PackageNode → Except ExternalError (List Branch)
  | 0, _ => .ok []
  | depth + 1, node => do
      (← node.largestChildren metric (some limit)).mapM fun child => do
        return .mk (nodeText child.label) (← branches metric limit depth child)

/-- The limit that is asked for; none and zero mean that of the settings. -/
def limitOr (settings : AnalysisSettings) : Option Int → Int
  | none => settings.largestChildrenLimit
  | some 0 => settings.largestChildrenLimit
  | some limit => limit

/-- Displays the package tree. -/
def runPackages
    (apk : FilePath)
    (names : NameSources)
    (metric : Metric)
    (limit : Option Int)
    (depth : Int) :
    Run Unit := do
  let result ← ask (·.packages apk names.mapping names.seeds)
  let limit := limitOr (← get).session.settings.analysis limit
  let totals := result.root.label.totals
  let label := s!"[bold]{apk.name}[/bold] classes={totals.classes} " ++
    s!"methods={totals.methods} fields={totals.fields}"
  match branches metric limit depth.toNat result.root with
  | .error error => throw (.error (.fault (.external error)))
  | .ok children => display (.tree (.mk label children))
  warn (result.warnings.map (·.text))
  result.rejections.forM fun (file, rejected) =>
    rejected.forM fun rejection => say ("[red]" ++ file ++ ":[/red] " ++ rejection.text)

/-- Displays the summary of the resource table. -/
def runResources (apk : FilePath) : Run Unit := do
  let table ← ask (·.resources apk)
  display (.table "Resource Table" ["Package", "Id", "Type specs", "Types", "Size"]
    (table.packages.map fun package =>
      [ package.name, "0x" ++ Text.paddedSignedHex 2 package.packageId,
        toString package.typeSpecCount, toString package.typeCount,
        toString package.sizeBytes ]))
  say s!"Global strings: {table.stringCount}"

/-- The store that is asked for, or that of the settings. -/
def storeAt (output : Option FilePath) : Run ReportStore := do
  let session := (← get).session
  return ReportStore.ofPath session.files (output.getD session.settings.storage.basePath)

/-- Analyses a package and stores the report. -/
def runReport
    (apk : FilePath)
    (names : NameSources)
    (output : Option FilePath)
    (depth : Int) :
    Run Unit := do
  let store ← storeAt output
  let outcome ←
    match ← logged (analyze · apk names.mapping names.seeds (some depth)) with
    | .ok outcome => pure outcome
    | .error fault => throw (.error (.fault fault))
  match outcome.value with
  | none =>
      say ("[bold red]✗ Analysis failed:[/bold red] " ++ orNone outcome.error)
      throw (.exit 1)
  | some report => do
      let key ← fromStore (ReportStore.reportKey · apk)
      let document := StoredDocument.report report
      let facts := [("apk", .text apk.toText), ("warnings", .nat outcome.warnings.length)]
      onStore (store.save key (← get).now document facts)
      modify fun progress =>
        { progress with
          journal :=
            progress.journal.emit .info "Stored report" (ReportStore.storedFacts key document) }
      say ("[bold green]✓ Report stored:[/bold green] " ++ (store.path key).toText)
      warn outcome.warnings

/-- The time under which a report was stored, as far as it is known. -/
def storedAt : Datum → String
  | .record fields =>
      match Table.get? "_stored_at" fields with
      | some (.text value) => value
      | _ => ""
  | _ => ""

/-- Displays the stored reports. -/
def runReports (output : Option FilePath) : Run Unit := do
  let store ← storeAt output
  let keys := store.keys (← get).session.files
  let rows ← keys.mapM fun key => do
    return [key, storedAt (← fromStore (store.metadata · key))]
  display (.table "Stored Reports" ["Key", "Stored at"] rows)

/-- Displays the settings. -/
def runConfig : Run Unit := do
  let settings := (← get).session.settings
  let path (path : Option FilePath) : String := orNone (path.map FilePath.toText)
  display (.table "Current Configuration" ["Setting", "Value"]
    [ ["Log Level", settings.logThreshold.name],
      ["Log Format", settings.logFormat.name],
      ["Duplicate Class Policy", settings.analysis.duplicatePolicy.name],
      ["Record References", truthText settings.analysis.recordReferences],
      ["Gzip Level", toString settings.analysis.gzipLevel],
      ["Mapping", path settings.mapping.mappingPath],
      ["Seeds", path settings.mapping.seedsPath],
      ["Mapping Strict", truthText settings.mapping.strict],
      ["Storage Backend", StorageSettings.backend],
      ["Storage Path", settings.storage.basePath.toText] ])
  say "\n[dim]Configure via environment variables:[/dim]"
  say ("  APKA_LOG_LEVEL, APKA_LOG_FORMAT, APKA_DUPLICATE_POLICY, APKA_RECORD_REFERENCES, " ++
    "APKA_GZIP_LEVEL")
  say "  APKA_MAPPING_PATH, APKA_SEEDS_PATH, APKA_MAPPING_STRICT, APKA_REPORTS_PATH"

/-- Answers a request. -/
def runCommand : Command → Run Unit
  | .size apk human => runSize apk human
  | .manifest apk => do say (← ask (·.manifestText apk))
  | .summary apk => runSummary apk
  | .files apk human => runFiles apk human
  | .cat apk entry => do say (← ask (·.fileText apk entry))
  | .dexList apk => do (← ask (·.dexEntries apk)).forM fun entry => say entry.path
  | .dexRefs apk => runDexRefs apk
  | .packages apk names metric limit depth => runPackages apk names metric limit depth
  | .resources apk => runResources apk
  | .report apk names output depth => runReport apk names output depth
  | .reports output => runReports output
  | .config => runConfig

/-- What a run starts from. -/
structure Environment where
  platform : Platform
  files : FileTree := {}
  /-- The values of environment variables by their names. -/
  assigned : List (String × String) := []
  /-- The time of the run. -/
  now : String := ""

/-- How a run ended. -/
structure RunResult where
  exitCode : Nat := 0
  displays : List Display := []
  error : Option RunError := none
  /-- The log records that are written. -/
  records : List LogRecord := []
  files : FileTree := {}
deriving Repr

/-- The exit code of arguments that cannot be understood. -/
def usageCode : Nat := 2

/-- The line that tells the version. -/
def versionText : String :=
  "apkanalyzer v1.0.0"

/-- Answers a request with settings from the environment. The settings are read before
the request's own arguments. -/
def runRequest
    (environment : Environment)
    (name : CommandName)
    (verbose : Bool)
    (arguments : List String) :
    RunResult :=
  let files := environment.files
  match Settings.ofEnvironment environment.assigned with
  | .error error => { exitCode := 1, error := some (.settings error), files }
  | .ok known =>
      let settings := if verbose then { known with logThreshold := .debug } else known
      match Command.read files name arguments with
      | .error _ => { exitCode := usageCode, files }
      | .ok none => { files }
      | .ok (some command) =>
          let session : Session := ⟨environment.platform, files, settings⟩
          let (result, progress) := (runCommand command).run { session, now := environment.now }
          let ended : RunResult :=
            { displays := progress.displays
              records := settings.written progress.journal.records
              files := progress.session.files }
          match result with
          | .ok _ => ended
          | .error (.exit exitCode) => { ended with exitCode }
          | .error (.error error) => { ended with exitCode := 1, error := some error }

/-- Runs the program. -/
def run (environment : Environment) (arguments : List String) : RunResult :=
  match Invocation.read arguments with
  | .error _ => { exitCode := usageCode, files := environment.files }
  | .ok .help => { files := environment.files }
  | .ok .version => { displays := [.text versionText], files := environment.files }
  | .ok (.request name verbose rest) => runRequest environment name verbose rest

end ApkAtlas.CommandLine
