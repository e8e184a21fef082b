import ApkAtlas.CommandLine.Run
import ApkAtlas.Datum.Json
import ApkAtlas.Platform.Builtin

namespace ApkAtlas

/-!
# Timestamps

A moment is counted in seconds since the start of 1970 in universal time, and written as
a date of the Gregorian calendar and a time of day.
-/

/-- A day of the Gregorian calendar. -/
structure CalendarDate where
  year : Int
  month : Nat
  day : Nat
deriving Repr, DecidableEq

namespace CalendarDate

/-- The days from the first of March of the year 0 to the first of January 1970. -/
def epochOffset : Int := 719468

/-- The date that lies some days after the first of January 1970. Years are taken to start
in March, so that a leap day is the last day of its year; 400 years have 146097 days. -/
def ofEpochDays (days : Int) : CalendarDate :=
  let shifted := days + epochOffset
  let era := Int.fdiv shifted 146097
  let dayOfEra := (Int.fmod shifted 146097).toNat
  let yearOfEra :=
    (dayOfEra - dayOfEra / 1460 + dayOfEra / 36524 - dayOfEra / 146096) / 365
  let dayOfYear := dayOfEra - (365 * yearOfEra + yearOfEra / 4 - yearOfEra / 100)
  let fromMarch := (5 * dayOfYear + 2) / 153
  let month := if fromMarch < 10 then fromMarch + 3 else fromMarch - 9
  { year := era * 400 + yearOfEra + (if month ≤ 2 then 1 else 0)
    month
    day := dayOfYear - (153 * fromMarch + 2) / 5 + 1 }

example : ofEpochDays 0 = ⟨1970, 1, 1⟩ := by decide
example : ofEpochDays 19782 = ⟨2024, 2, 29⟩ := by decide
example : ofEpochDays (-1) = ⟨1969, 12, 31⟩ := by decide

end CalendarDate

namespace Timestamp

/-- A number in at least `width` digits. -/
def padded (width number : Nat) : String :=
  let digits := toString number
  String.ofList (List.replicate (width - digits.length) '0') ++ digits

/-- A moment as text; microseconds are written if there are any. -/
def text (seconds : Int) (microseconds : Nat) : String :=
  let date := CalendarDate.ofEpochDays (Int.fdiv seconds 86400)
  let second := (Int.fmod seconds 86400).toNat
  let fraction := if microseconds = 0 then "" else "." ++ padded 6 microseconds
  padded 4 date.year.toNat ++ "-" ++ padded 2 date.month ++ "-" ++ padded 2 date.day ++
    "T" ++ padded 2 (second / 3600) ++ ":" ++ padded 2 (second / 60 % 60) ++ ":" ++
    padded 2 (second % 60) ++ fraction ++ "+00:00"

end Timestamp

end ApkAtlas

namespace ApkAtlas.CommandLine

/-!
# The program

The outer layer of the command line: it brings the files and the environment that a request
may need into memory, runs the request, and carries out what came of it.
-/

/-- The environment variables that settings come from. -/
def variableNames : List String :=
  [ "APKA_LOG_LEVEL", "APKA_LOG_FORMAT", "APKA_DUPLICATE_POLICY", "APKA_RECORD_REFERENCES",
    "APKA_GZIP_LEVEL", "APKA_MAPPING_PATH", "APKA_SEEDS_PATH", "APKA_MAPPING_STRICT",
    "APKA_REPORTS_PATH" ]

/-- The variables that are set. -/
def readVariables : IO (List (String × String)) :=
  variableNames.filterMapM fun name => do
    return (← IO.getEnv name).map fun value => (name, value)

/-- The texts in an argument that may name a file: the argument, what follows an equals
sign, and what follows the letter of a short option. -/
def namesIn (argument : String) : List String :=
  let letters := argument.toList
  [ argument,
    String.ofList ((letters.dropWhile (· ≠ '=')).drop 1),
    String.ofList (letters.drop 2) ]

/-- Adds what stands at a place: a file with its content, or a directory. With `reports`
the reports below a directory are added too. -/
partial def load (reports : Bool) (tree : FileTree) (place : List String) : IO FileTree := do
  let path := (← IO.currentDir) / (FileTree.pathOf place).toText
  if ← path.isDir then
    let known := tree.put place .directory
    if reports then
      let entries := (← path.readDir).toList
      let wanted ← entries.filterM fun entry =>
        return (← entry.path.isDir) || entry.fileName.endsWith ".json"
      wanted.foldlM (fun grown entry => load true grown (place ++ [entry.fileName])) known
    else
      return known
  else if ← path.pathExists then
    return tree.put place (.file (← IO.FS.readBinFile path).data)
  else
    return tree

/-- Adds what a path leads to and everything on the way there. -/
def loadPath (tree : FileTree) (text : String) : IO FileTree := do
  let path := FilePath.ofText text
  let origin := tree.origin path
  let names := path.names
  let onTheWay ← (List.range names.length).foldlM
    (fun grown count => load false grown (FilePath.follow origin (names.take count))) tree
  load true onTheWay (FilePath.follow origin names)

/-- The files that arguments and variables may mean. -/
def loadFiles (arguments : List String) (assigned : List (String × String)) :
    IO FileTree := do
  let home := FilePath.namesOf (← IO.currentDir).toString
  let start := FileTree.ofFiles home []
  let mentioned := arguments.flatMap namesIn ++ assigned.map Prod.snd
  let standard := ({} : StorageSettings).basePath.toText
  (standard :: mentioned.filter (!·.isEmpty)).foldlM loadPath start

/-- The time now: that of a file just made. -/
def currentTime : IO String :=
  IO.FS.withTempFile fun _ path => do
    let modified := (← path.metadata).modified
    return Timestamp.text modified.sec (modified.nsec.toNat / 1000)

/-- Writes the files that are new or have changed. -/
def saveFiles (before after : FileTree) : IO Unit :=
  after.nodes.forM fun (place, node) => do
    match node with
    | .file content =>
        if before.node? place ≠ some node then
          IO.FS.createDirAll (FileTree.pathOf place.dropLast).toText
          IO.FS.writeBinFile (FileTree.pathOf place).toText ⟨content⟩
    | .directory => return

/-- The error that ended a run in words. -/
def errorText : RunError → String
  | .settings (.invalid issues) => s!"{issues.length} invalid settings"
  | .settings (.notNumber text) => (SettingsError.numberError text).message
  | .fault fault => fault.message
  | .store error => reprStr error

end ApkAtlas.CommandLine

open ApkAtlas CommandLine in
/-- Runs the request in the arguments. -/
def main (arguments : List String) : IO UInt32 := do
  let assigned ← readVariables
  let files ← loadFiles arguments assigned
  let result := CommandLine.run ⟨Platform.builtin, files, assigned, ← currentTime⟩ arguments
  result.displays.forM fun item => item.lines.forM IO.println
  result.records.forM fun record => IO.eprintln record.toDatum.toJsonLine
  result.error.forM fun error => IO.eprintln (errorText error)
  saveFiles files result.files
  return result.exitCode.toUInt32
