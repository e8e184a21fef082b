import ApkAtlas.CommandLine.Options
import ApkAtlas.Number.Literal
import ApkAtlas.Package.Node
import ApkAtlas.Storage.FileTree

namespace ApkAtlas.CommandLine

/-!
# Commands

What can be asked on the command line, and how a request is read from its arguments. The
package must be a file, and files to restore names from must exist.
-/

/-- Where names are restored from. -/
structure NameSources where
  mapping : Option FilePath := none
  seeds : Option FilePath := none
deriving Repr, DecidableEq

/-- A request. -/
inductive Command where
  | size (apk : FilePath) (human : Bool)
  | manifest (apk : FilePath)
  | summary (apk : FilePath)
  | files (apk : FilePath) (human : Bool)
  | cat (apk : FilePath) (entry : String)
  | dexList (apk : FilePath)
  | dexRefs (apk : FilePath)
  | packages (apk : FilePath) (names : NameSources) (metric : Metric) (limit : Option Int)
      (depth : Int)
  | resources (apk : FilePath)
  | report (apk : FilePath) (names : NameSources) (output : Option FilePath) (depth : Int)
  | reports (output : Option FilePath)
  | config
deriving Repr

/-- The kinds of request. -/
inductive CommandName where
  | size
  | manifest
  | summary
  | files
  | cat
  | dexList
  | dexRefs
  | packages
  | resources
  | report
  | reports
  | config
deriving Repr, DecidableEq

namespace CommandName

/-- The kind of request with the given name. -/
def ofName? : String → Option CommandName
  | "size" => some .size
  | "manifest" => some .manifest
  | "summary" => some .summary
  | "files" => some .files
  | "cat" => some .cat
  | "dex-list" => some .dexList
  | "dex-refs" => some .dexRefs
  | "packages" => some .packages
  | "resources" => some .resources
  | "report" => some .report
  | "reports" => some .reports
  | "config" => some .config
  | _ => none

/-- How many words a request of a kind has. -/
def wordCount : CommandName → Nat
  | .cat => 2
  | .reports => 0
  | .config => 0
  | _ => 1

end CommandName

/-- The options that requests know. -/
inductive OptionKey where
  | help
  | human
  | mapping
  | seeds
  | metric
  | limit
  | depth
  | output
deriving Repr, DecidableEq

namespace OptionKey

/-- The form of an option. -/
def form : OptionKey → OptionForm OptionKey
  | .help => { key := .help, names := ["--help"] }
  | .human => { key := .human, names := ["--human", "-h"] }
  | .mapping => { key := .mapping, names := ["--mapping", "-m"], takesValue := true }
  | .seeds => { key := .seeds, names := ["--seeds", "-s"], takesValue := true }
  | .metric => { key := .metric, names := ["--by"], takesValue := true }
  | .limit => { key := .limit, names := ["--limit", "-l"], takesValue := true }
  | .depth => { key := .depth, names := ["--depth", "-d"], takesValue := true }
  | .output => { key := .output, names := ["--output", "-o"], takesValue := true }

/-- The options of a kind of request; all know the request for help. -/
def ofCommand : CommandName → List OptionKey
  | .size => [.human, .help]
  | .files => [.human, .help]
  | .packages => [.mapping, .seeds, .metric, .limit, .depth, .help]
  | .report => [.mapping, .seeds, .output, .depth, .help]
  | .reports => [.output, .help]
  | _ => [.help]

end OptionKey

/-- The values of all options. -/
structure Choices where
  help : Bool := false
  human : Bool := false
  names : NameSources := {}
  metric : Metric := .methods
  limit : Option Int := none
  depth : Int := 3
  output : Option FilePath := none
deriving Repr

namespace Choices

/-- The number that the value of an option says. -/
def number (option value : String) : Except UsageError Int :=
  match Number.ofDecimal? value with
  | some number => .ok number
  | none => .error (.badValue option value)

/-- The path to something that exists. -/
def existing (tree : FileTree) (option value : String) : Except UsageError FilePath :=
  let path := FilePath.ofText value
  if !value.isEmpty && tree.holds path then .ok path else .error (.badValue option value)

/-- The values with one more option taken in; a later option replaces an earlier one. -/
def take (tree : FileTree) (choices : Choices) (given : GivenOption OptionKey) :
    Except UsageError Choices := do
  let value := given.value
  match given.key with
  | .help => return { choices with help := true }
  | .human => return { choices with human := true }
  | .mapping =>
      let path ← existing tree "--mapping" value
      return { choices with names := { choices.names with mapping := some path } }
  | .seeds =>
      let path ← existing tree "--seeds" value
      return { choices with names := { choices.names with seeds := some path } }
  | .metric =>
      match Metric.ofName? value with
      | some metric => return { choices with metric }
      | none => throw (.badValue "--by" value)
  | .limit => return { choices with limit := some (← number "--limit" value) }
  | .depth => return { choices with depth := ← number "--depth" value }
  | .output => return { choices with output := some (FilePath.ofText value) }

end Choices

namespace Command

/-- The path from the root to a package, which must be a file. -/
def packagePath (tree : FileTree) (word : String) : Except UsageError FilePath :=
  let place := tree.resolve (FilePath.ofText word)
  match tree.node? place with
  | some (.file _) => .ok (FileTree.pathOf place)
  | _ => .error (.badValue "APK_PATH" word)

/-- The request of a kind about a package. -/
def about (name : CommandName) (apk : FilePath) (words : List String) (choices : Choices) :
    Command :=
  match name with
  | .size => .size apk choices.human
  | .manifest => .manifest apk
  | .summary => .summary apk
  | .files => .files apk choices.human
  | .cat => .cat apk (words.headD "")
  | .dexList => .dexList apk
  | .dexRefs => .dexRefs apk
  | .packages => .packages apk choices.names choices.metric choices.limit choices.depth
  | .resources => .resources apk
  | .report => .report apk choices.names choices.output choices.depth
  | .reports => .reports choices.output
  | .config => .config

/-- The request of a kind in its arguments, or nothing if help is asked for. -/
def read (tree : FileTree) (name : CommandName) (arguments : List String) :
    Except UsageError (Option Command) := do
  let forms := (OptionKey.ofCommand name).map OptionKey.form
  let given ← Arguments.read forms true arguments
  if given.options.any fun option => option.key = .help then
    return none
  let choices ← given.options.foldlM (Choices.take tree) {}
  let words := given.allWords
  if words.length < name.wordCount then
    throw .missingWord
  match words.drop name.wordCount with
  | extra :: _ => throw (.extraWord extra)
  | [] =>
      match words with
      | [] => return some (about name (FileTree.pathOf []) [] choices)
      | apk :: others => return some (about name (← packagePath tree apk) others choices)

end Command

/-- What the arguments ask for before any request is read. -/
inductive Invocation where
  | version
  | help
  | request (name : CommandName) (verbose : Bool) (arguments : List String)
deriving Repr

namespace Invocation

/-- The options in front of a request. -/
inductive Key where
  | version
  | verbose
  | help
deriving Repr, DecidableEq

/-- The forms of the options in front of a request. -/
def forms : List (OptionForm Key) :=
  [ { key := .version, names := ["--version", "-v"] },
    { key := .verbose, names := ["--verbose"] },
    { key := .help, names := ["--help"] } ]

/-- Reads what stands in front of a request. Of the requests for help and for the version
the first one counts. -/
def read (arguments : List String) : Except UsageError Invocation := do
  let given ← Arguments.read forms false arguments
  let keys : List Key := given.options.map (·.key)
  match keys.find? (· ≠ Key.verbose) with
  | some .version => return .version
  | some _ => return .help
  | none =>
      match given.allWords with
      | [] => throw .missingCommand
      | name :: rest =>
          match CommandName.ofName? name with
          | none => throw (.unknownCommand name)
          | some command => return .request command (keys.contains .verbose) rest

end Invocation

end ApkAtlas.CommandLine
