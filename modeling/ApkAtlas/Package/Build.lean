import ApkAtlas.Log
import ApkAtlas.Package.Placement
import ApkAtlas.Symbols.Source

namespace ApkAtlas.Package

/-!
# Building package trees

The classes of some DEX files go into one tree under their source names, in the order
of the files and of the classes in them. For each class a `Decision` says what became of
it; a build is the tree with the decisions, and rejections and log records are read off
the decisions.
-/

/-- What to do when a class name is declared again. -/
inductive DuplicatePolicy where
  | firstWins
  | lastWins
  | refuse
deriving Repr, DecidableEq, Inhabited

namespace DuplicatePolicy

/-- The name of a policy. -/
def name : DuplicatePolicy → String
  | .firstWins => "first_wins"
  | .lastWins => "last_wins"
  | .refuse => "error"

/-- The policy with the given name. -/
def ofName? : String → Option DuplicatePolicy
  | "first_wins" => some .firstWins
  | "last_wins" => some .lastWins
  | "error" => some .refuse
  | _ => none

/-- The policy with the given name, or the error of a name that no policy has. -/
def ofName (name : String) : Except ExternalError DuplicatePolicy :=
  match ofName? name with
  | some policy => .ok policy
  | none => .error ⟨.badValue, Text.quoted name ++ " is not a valid DuplicateClassPolicy"⟩

end DuplicatePolicy

/-- A class that is declared in more than one place. -/
structure DuplicateWarning where
  className : String
  keptFile : String
  duplicateFile : String
  policy : DuplicatePolicy := .firstWins
deriving Repr, DecidableEq

namespace DuplicateWarning

/-- The warning in words. -/
def text (warning : DuplicateWarning) : String :=
  "Class " ++ warning.className ++ " declared in both " ++ warning.keptFile ++ " and " ++
    warning.duplicateFile ++ " (" ++ warning.policy.name ++ ")"

end DuplicateWarning

/-- Why a build stops. -/
inductive BuildError where
  | duplicateClass (className keptFile fileName : String)
  /-- A constructor that is looked up by its parameters has no parameter list. -/
  | noParameterList
deriving Repr, DecidableEq

namespace BuildError

/-- The error as a fault. -/
def toFault : BuildError → Fault
  | .duplicateClass className keptFile fileName =>
      .failure
        { text := "Class " ++ className ++ " already declared in " ++ keptFile
          detail := .duplicateClass className fileName }
  | .noParameterList => .external ⟨.badValue, "substring not found"⟩

end BuildError

/-- What became of a declared class. -/
inductive Decision where
  | added
  | duplicate (warning : DuplicateWarning)
  | rejected (rejection : ClassName.Rejection)
deriving Repr, DecidableEq

namespace Decision

/-- The rejection of a decision. -/
def rejection? : Decision → Option ClassName.Rejection
  | .rejected rejection => some rejection
  | _ => none

end Decision

/-- How to build. -/
structure BuildSettings where
  policy : DuplicatePolicy := .firstWins
  /-- Whether the references of the files count as use. -/
  recordReferences : Bool := true
deriving Repr, DecidableEq, Inhabited

/-- The symbol map that a build looks names up in, and leaves behind. -/
def BuildSettings.symbolsFor
    (settings : BuildSettings)
    (symbols : SymbolMap)
    (sources : List SymbolSource) :
    SymbolMap :=
  if settings.recordReferences then symbols.recordSources sources else symbols

/-- The last segment of a dotted name. -/
def simpleName (name : String) : String :=
  String.ofList (Text.afterLast '.' name.toList)

/-- The name of constructors in bytecode. -/
def constructorName : String := "<init>"

/-- The signature of a member as seeds have it: in source form, under its source name
and with source class names. Constructors go by the name of their class. -/
def seedSignature
    (symbols : SymbolMap)
    (bytecodeName sourceName signature : String) :
    Except BuildError String :=
  if Signature.memberName signature = constructorName then
    let source := Signature.sourceForm symbols.resolveClass "" signature
    match source.toList.dropWhile (· != '(') with
    | [] => .error .noParameterList
    | parameters => .ok (simpleName sourceName ++ String.ofList parameters)
  else
    let sourceName := Signature.memberName (symbols.resolveMember bytecodeName signature)
    .ok (Signature.sourceForm symbols.resolveClass sourceName signature)

/-- Whether a member is recorded as used, by its bytecode signature under the name in
bytecode or by its seed signature under the source name. -/
def isReferenced
    (symbols : SymbolMap)
    (kind : MemberKind)
    (bytecodeName sourceName signature : String) :
    Except BuildError Bool := do
  let ofSource := symbols.usage.members sourceName kind
  if symbols.usage.usesMember bytecodeName signature kind then
    return true
  else if ofSource.isEmpty then
    return false
  else
    return ofSource.contains (← seedSignature symbols bytecodeName sourceName signature)

/-- How many of some signatures are referenced. -/
def countReferenced
    (symbols : SymbolMap)
    (kind : MemberKind)
    (bytecodeName sourceName : String) :
    List String → Except BuildError Nat
  | [] => .ok 0
  | signature :: rest => do
      let hit ← isReferenced symbols kind bytecodeName sourceName signature
      let count ← countReferenced symbols kind bytecodeName sourceName rest
      return if hit then count + 1 else count

/-- The different signatures of a list. -/
def distinct (signatures : List String) : List String :=
  (Std.ExtTreeSet.ofList signatures).toList

/-- The label of a class declared in a file. -/
def classLabel
    (symbols : SymbolMap)
    (fileName bytecodeName sourceName : String)
    (declared : ClassSymbols) :
    Except BuildError NodeLabel := do
  let methods ←
    countReferenced symbols .method bytecodeName sourceName (distinct declared.methods)
  let fields ←
    countReferenced symbols .field bytecodeName sourceName (distinct declared.fields)
  return {
    name := simpleName sourceName
    kind := .classNode
    own := ⟨declared.methods.length, declared.fields.length, methods, fields⟩
    dexFile := some fileName
    sourceFile := declared.sourceFile }

/-- What a build has so far. -/
structure Progress where
  root : PackageNode := PackageNode.emptyRoot
  /-- The file that the class of each name was taken from. -/
  origins : Std.ExtTreeMap String String := ∅
  warnings : List DuplicateWarning := []
deriving Inhabited

namespace Progress

/-- Adds a warning behind the others. -/
def warn (progress : Progress) (warning : DuplicateWarning) : Progress :=
  { progress with warnings := progress.warnings ++ [warning] }

/-- Writes a class from a file at a path. -/
def put
    (progress : Progress)
    (sourceName fileName : String)
    (path : List String)
    (label : NodeLabel) :
    Progress :=
  { progress with
    root := progress.root.putClass label path
    origins := progress.origins.insert sourceName fileName }

end Progress

/-- Puts a declared class into the tree, or decides why not. The packages on its path are
opened before it is known whether the class may stand there. -/
def insert
    (symbols : SymbolMap)
    (policy : DuplicatePolicy)
    (fileName : String)
    (progress : Progress)
    (declared : ClassSymbols) :
    Except BuildError (Progress × Decision) :=
  let bytecodeName := Descriptor.className declared.name
  let sourceName := symbols.resolveClass bytecodeName
  let put (path : List String) (progress : Progress) (decision : Decision) := do
    let label ← classLabel symbols fileName bytecodeName sourceName declared
    return (progress.put sourceName fileName path label, decision)
  match ClassName.path sourceName fileName with
  | .error rejection => .ok (progress, .rejected rejection)
  | .ok path =>
      match progress.root.openPackages path.dropLast with
      | (root, some defect) =>
          .ok ({ progress with root }, .rejected ⟨sourceName, fileName, defect⟩)
      | (root, none) =>
          let progress := { progress with root }
          match root.find? path with
          | none => put path progress .added
          | some known =>
              let keptFile := progress.origins[sourceName]?.getD (known.label.dexFile.getD "")
              if !known.label.isClass then
                .ok (progress, .rejected ⟨sourceName, fileName, .packageAtClass⟩)
              else
                match policy with
                | .refuse => .error (.duplicateClass sourceName keptFile fileName)
                | .firstWins =>
                    let warning := ⟨sourceName, keptFile, fileName, policy⟩
                    .ok (progress.warn warning, .duplicate warning)
                | .lastWins =>
                    let warning := ⟨sourceName, fileName, keptFile, policy⟩
                    put path (progress.warn warning) (.duplicate warning)

/-- What was decided on a class before it was written into the tree. The decision does not
depend on the members, and without members writing does not fail. -/
def decisionOn?
    (symbols : SymbolMap)
    (policy : DuplicatePolicy)
    (fileName : String)
    (progress : Progress)
    (declared : ClassSymbols) :
    Option Decision :=
  let memberless := { declared with methods := [], fields := [] }
  (insert symbols policy fileName progress memberless).toOption.map Prod.snd

/-- What a build came to, the decisions on each file, and the error that stopped it. -/
structure Build where
  progress : Progress := {}
  /-- The decisions on the classes of each file, in order; a build that stops at a class has
  decided on it before, unless the decision is to stop. -/
  files : List (String × List Decision) := []
  stop : Option BuildError := none
deriving Inhabited

/-- Puts the classes of one file into the tree. -/
def insertAll
    (symbols : SymbolMap)
    (policy : DuplicatePolicy)
    (fileName : String) :
    Progress → List ClassSymbols → Progress × List Decision × Option BuildError
  | progress, [] => (progress, [], none)
  | progress, declared :: rest =>
      match insert symbols policy fileName progress declared with
      | .error error =>
          (progress, (decisionOn? symbols policy fileName progress declared).toList, some error)
      | .ok (next, decision) =>
          let (final, decisions, stop) := insertAll symbols policy fileName next rest
          (final, decision :: decisions, stop)

/-- Puts the classes of all files into the tree. -/
def insertSources
    (symbols : SymbolMap)
    (policy : DuplicatePolicy) :
    Progress → List SymbolSource → Build
  | progress, [] => { progress }
  | progress, source :: rest =>
      match insertAll symbols policy source.name progress source.classes with
      | (final, decisions, some error) =>
          { progress := final, files := [(source.name, decisions)], stop := some error }
      | (next, decisions, none) =>
          let build := insertSources symbols policy next rest
          { build with files := (source.name, decisions) :: build.files }

/-- Builds the tree of some files. -/
def build
    (settings : BuildSettings)
    (symbols : SymbolMap)
    (sources : List SymbolSource) :
    Build :=
  insertSources (settings.symbolsFor symbols sources) settings.policy {} sources

/-- A built tree with what was noted on the way. -/
structure BuildResult where
  root : PackageNode
  warnings : List DuplicateWarning
  /-- The rejected classes of each file that has some; a later file of a name takes the
  place of an earlier one. -/
  rejections : List (String × List ClassName.Rejection)
deriving Repr, Inhabited

namespace BuildResult

/-- How many rejections are listed. -/
def rejectionCount (result : BuildResult) : Nat :=
  (result.rejections.flatMap (·.2)).length

/-- Whether rejections are listed. -/
def hasRejections (result : BuildResult) : Bool :=
  result.rejections.any (!·.2.isEmpty)

end BuildResult

namespace Build

/-- The rejections of a build by file. -/
def rejections (build : Build) : List (String × List ClassName.Rejection) :=
  build.files.foldl
    (fun known (name, decisions) =>
      let rejected := decisions.filterMap Decision.rejection?
      if rejected.isEmpty then known else Table.put name rejected known)
    []

/-- The outcome of a build. -/
def result (build : Build) : Except BuildError BuildResult :=
  match build.stop with
  | some error => .error error
  | none => .ok ⟨build.progress.root.rollUp, build.progress.warnings, build.rejections⟩

/-- The log record of a decision on a class of the named file. -/
def logDecision (fileName : String) : Decision → LoggedExcept BuildError Unit
  | .added => return
  | .duplicate warning =>
      Logged.log .warning "Duplicate class"
        [ ("class_name", .text warning.className),
          ("kept", .text warning.keptFile),
          ("dropped", .text warning.duplicateFile) ]
  | .rejected rejection =>
      Logged.log .warning "Skipping class"
        [ ("class_name", .text rejection.className),
          ("dex", .text fileName),
          ("error", .text rejection.text) ]

/-- The outcome of a build with log records of its decisions and of the whole. -/
def logged (build : Build) : LoggedExcept BuildError BuildResult := do
  build.files.forM fun (name, decisions) => decisions.forM (logDecision name)
  let result ← Logged.ofExcept build.result
  let totals := result.root.label.totals
  Logged.log .info "Built package tree"
    [ ("files", .nat build.files.length),
      ("classes", .int totals.classes),
      ("methods", .int totals.methods),
      ("fields", .int totals.fields),
      ("duplicates", .nat result.warnings.length),
      ("errors", .nat result.rejectionCount) ]
  return result

end Build

end ApkAtlas.Package
