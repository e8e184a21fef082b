import ApkAtlas.Log
import ApkAtlas.Storage.FileTree
import ApkAtlas.Symbols.SeedText
import ApkAtlas.Text.Utf8

namespace ApkAtlas.SymbolMap

/-!
# Loading a symbol map

A symbol map comes from a mapping text and a seed text, each of which may be missing. A
text that cannot be read or parsed makes the whole map fall back to the empty one, so a
map is never partly filled; a strict caller gets the failure. A path with a null character
is no path to a text, and asking for it is an error of its own that nobody falls back from.
-/

/-- The text at the head of the failure of a file that cannot be read. -/
def unreadable (error : ExternalError) (path : FilePath) : Failure :=
  { text := "Cannot read mapping source: " ++ error.message
    cause := some ⟨.external error.kind, error.message⟩
    detail := .mappingFormat 0 path.toText }

/-- The error of asking for a path with a null character. -/
def nullInPath : ExternalError :=
  ⟨.badValue, "embedded null byte"⟩

/-- The lines of a file in UTF-8. -/
def readLines (tree : FileTree) (path : FilePath) : Except Fault (List String) :=
  if path.hasNull then
    .error (.external nullInPath)
  else
    match tree.read path with
    | .error problem => .error (.failure (unreadable (problem.toError path.toText) path))
    | .ok content =>
        match Text.Utf8.decode content.toList with
        | .error error =>
            .error (.failure (unreadable ⟨.undecodableText, error.message⟩ path))
        | .ok text => .ok ((Text.lines text.toList).map String.ofList)

/-- Goes on from a map with the text at a path, if one is given. -/
def fillFrom
    (parse : SymbolMap → String → List String → SymbolMap × Option Failure)
    (tree : FileTree)
    (symbols : SymbolMap) :
    Option FilePath → Except Fault SymbolMap
  | none => .ok symbols
  | some path => do
      match parse symbols path.toText (← readLines tree path) with
      | (filled, none) => return filled
      | (_, some failure) => throw (.failure failure)

/-- The map of two texts, or the first fault. -/
def read
    (tree : FileTree)
    (mapping seeds : Option FilePath) :
    Except Fault SymbolMap := do
  fillFrom SeedText.parse tree (← fillFrom MappingText.parse tree {} mapping) seeds

/-- The map of two texts with its log record: after a failure, the failure itself for a
strict caller and the empty map for any other. Other faults go on. -/
def load
    (tree : FileTree)
    (mapping seeds : Option FilePath)
    (strict : Bool) :
    Logged SymbolMap :=
  match read tree mapping seeds with
  | .ok symbols => do
      Logged.log .info "Loaded symbol map"
        [ ("renamed_classes", .nat symbols.renamedClassCount),
          ("used_classes", .nat symbols.usedClassCount) ]
      return symbols
  | .error (.external error) => throw (.external error)
  | .error (.failure failure) => do
      if strict then
        throw (.failure failure)
      Logged.log .warning "Proceeding without deobfuscation" [("error", .text failure.message)]
      return {}

end ApkAtlas.SymbolMap
