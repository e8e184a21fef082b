import ApkAtlas.Datum
import ApkAtlas.Inspection
import ApkAtlas.Report

namespace ApkAtlas

/-!
# Outcomes

An operation on a whole package ends with a value, perhaps with warnings, or with a
message that says why there is none.
-/

/-- How an operation ended. -/
structure Outcome (Value : Type) where
  value : Option Value := none
  error : Option String := none
  warnings : List String := []
  /-- Further facts on the operation. -/
  metadata : List (String × Datum) := []
deriving Repr, BEq

namespace Outcome

variable {Value : Type}

/-- The outcome with a value. -/
def success
    (value : Value)
    (warnings : List String)
    (metadata : List (String × Datum)) :
    Outcome Value :=
  { value := some value, warnings, metadata }

/-- The outcome without a value. -/
def failure (error : String) (metadata : List (String × Datum)) : Outcome Value :=
  { error := some error, metadata }

/-- Whether the operation ended well. -/
def succeeded (outcome : Outcome Value) : Bool :=
  outcome.error.isNone

end Outcome

/-!
## Analysing a package

An analysis opens a package once, asks all questions and collects the answers in a
report. What cannot be decoded is left out of the report with a warning. While it runs,
the package's name is bound to all log records, and afterwards nothing is.
-/

namespace Failure.Kind

/-- Whether a failure of this kind leaves a part out of a report: it was raised by a
decoder. -/
def isDecoding : Failure.Kind → Bool
  | .decode => true
  | .malformedHeader => true
  | .outOfBoundsRead => true
  | _ => false

end Failure.Kind

namespace Analysis

/-- A part of the report, or the warning that it is left out. Other faults go on. -/
def tryPart
    {Part : Type}
    (event : String)
    (leavesOut : Failure.Kind → Bool)
    (read : Logged Part) :
    Logged (Option Part × List String) := do
  match ← Logged.attempt read with
  | .ok found => return (some found, [])
  | .error (.failure failure) =>
      if leavesOut failure.kind then
        Logged.log .warning event [("error", .text failure.message)]
        return (none, [event ++ ": " ++ failure.message])
      else
        throw (.failure failure)
  | .error other => throw other

/-- The part of the report that is read from an entry; the entry is bound meanwhile. -/
def part
    {Part : Type}
    (entry event : String)
    (leavesOut : Failure.Kind → Bool)
    (read : Logged Part) :
    Logged (Option Part × List String) :=
  Logged.within [("entry", .text entry)] (tryPart event leavesOut read)

/-- The manifest, or the warning that there is none in the report. -/
def manifestPart (archive : Archive) : Logged (Option Manifest × List String) :=
  part Manifest.entryName "Manifest not decoded"
    (fun kind => kind.isDecoding || kind == .validation)
    (do return Manifest.ofElement (← archive.manifestRoot))

/-- The resource table, if there is one, or the warning that it is not in the report. -/
def resourcePart (archive : Archive) : Logged (Option ResourceTable × List String) :=
  if archive.has ResourceTable.entryName then
    part ResourceTable.entryName "Resource table not decoded" Failure.Kind.isDecoding
      archive.resourceTable
  else
    return (none, [])

/-- The warnings of a build: first on classes declared again, then on rejected ones. -/
def buildWarnings (result : Package.BuildResult) : List String :=
  result.warnings.map (·.text) ++
    result.rejections.flatMap fun (file, rejected) =>
      rejected.map fun rejection => file ++ ": " ++ rejection.text

/-- The report of a package. -/
def report
    (session : Session)
    (apk : FilePath)
    (mapping seeds : Option FilePath)
    (maxDepth : Option Int) :
    Logged Report := do
  Logged.log .info "Starting APK analysis" []
  let archive ← session.openArchive apk
  let fileSize ← Logged.ofExcept (session.fileSize apk)
  let downloadSize ← Logged.ofExcept (session.downloadSize apk)
  let (manifest, manifestWarnings) ← manifestPart archive
  let (resources, resourceWarnings) ← resourcePart archive
  let (files, dexWarnings) ← archive.dexFiles
  let dexFiles ← Logged.ofExcept (Session.statsOf files)
  let symbols ← session.symbolMap mapping seeds
  let tree ← session.packageTree symbols files
  Logged.log .info "APK analysis completed"
    [("dex_files", .nat dexFiles.length), ("classes", .int tree.root.label.totals.classes)]
  return {
    apkName := apk.name
    fileSize, downloadSize, manifest, dexFiles, resources
    packages := some (tree.root.summary maxDepth)
    warnings := manifestWarnings ++ resourceWarnings ++ dexWarnings ++ buildWarnings tree }

/-- The failure of an analysis that was stopped from outside. -/
def stopped (fault : Fault) : Failure :=
  { text := "Analysis failed: " ++ fault.message
    cause := some fault.toCause
    detail := .service "analyzer" "analyze" }

/-- What is known of a finished analysis besides the report; the time it took is filled
in by whoever measures it. -/
def metadata : List (String × Datum) :=
  [("duration_ms", .null)]

end Analysis

/-- Analyses a package. A failure of the library ends with a message, any other fault
with a failure of the service. -/
def analyze
    (session : Session)
    (apk : FilePath)
    (mapping seeds : Option FilePath)
    (maxDepth : Option Int) :
    Logged (Outcome Report) := do
  modifyThe Journal (·.bind [("apk", .text apk.name)])
  match ← Logged.attempt (Analysis.report session apk mapping seeds maxDepth) with
  | .ok report =>
      modifyThe Journal Journal.clear
      return .success report report.warnings Analysis.metadata
  | .error fault =>
      Logged.log .error "APK analysis failed" [("error", .text fault.message)]
      modifyThe Journal Journal.clear
      match fault with
      | .failure failure => return .failure failure.message []
      | .external _ => throw (.failure (Analysis.stopped fault))

end ApkAtlas
