import ApkAtlas.Archive
import ApkAtlas.Dex.Stats
import ApkAtlas.Dex.Symbols
import ApkAtlas.Manifest
import ApkAtlas.ResourceTable
import ApkAtlas.Settings
import ApkAtlas.Symbols.Load

namespace ApkAtlas

/-!
# Inspecting a package

Each operation answers one question about a package: it opens the archive, decodes what
the question needs, and answers. DEX files that cannot be read are skipped with a
warning.
-/

namespace Dex

/-- Why the symbols of a DEX file are not known. -/
inductive ReadError where
  | header (error : HeaderError)
  | parser (error : ExternalError)
deriving Repr, DecidableEq

/-- Whether errors of this kind come of files that are cut off or corrupt. -/
def isReadingKind : Failure.ExternalKind → Bool
  | .badLayout => true
  | .badValue => true
  | .undecodableText => true
  | .badIndex => true
  | .unknownKey => true
  | .endOfData => true
  | _ => false

namespace ReadError

/-- The error as a fault. -/
def toFault : ReadError → Fault
  | .header error => error.toFault
  | .parser error => .external error

/-- Whether the file is skipped. With an error that reading does not account for it is
not. -/
def isSkipped : ReadError → Bool
  | .header _ => true
  | .parser error => isReadingKind error.kind

end ReadError

/-- The symbols of a file with the given name and header. -/
def readSymbols (parser : Parser) (name : String) (bytes : Bytes) :
    Except ReadError SymbolSource := do
  let _ ← (Header.decode bytes).mapError .header
  (parser.symbols name bytes).mapError .parser

end Dex

/-- The platform, the files that can be seen, and the settings. -/
structure Session where
  platform : Platform
  files : FileTree := {}
  settings : Settings := {}

/-- A DEX file of a package with its symbols. -/
structure DexFile where
  bytes : Bytes
  source : SymbolSource
deriving Repr

namespace DexFile

/-- The counts of a file. -/
def stats (file : DexFile) : Except Fault Dex.FileStats :=
  (Dex.FileStats.ofFile file.source.name file.bytes file.source.classes).mapError
    Dex.HeaderError.toFault

/-- A DEX file of the given content, or the warning that it is skipped. -/
def decodeLogged (parser : Dex.Parser) (name : String) (bytes : Bytes) :
    Logged (Except String DexFile) := do
  match Dex.readSymbols parser name bytes with
  | .ok source => return .ok ⟨bytes, source⟩
  | .error error =>
      if error.isSkipped then
        let message := error.toFault.message
        Logged.log .warning "Skipping unreadable DEX file" [("error", .text message)]
        return .error ("Skipped unreadable DEX file " ++ name ++ ": " ++ message)
      else
        throw error.toFault

end DexFile

/-- The archive entry that holds the resource table. -/
def ResourceTable.entryName : String :=
  "resources.arsc"

namespace Archive

/-- The content of an entry, with any error as a fault. -/
def content (archive : Archive) (name : String) : Logged Bytes :=
  (archive.readLogged name).adapt ArchiveError.toFault

/-- The root element of the manifest. -/
def manifestRoot (archive : Archive) : Logged Xml.Element := do
  Manifest.decodeLogged archive.platform.markupParser (← archive.content Manifest.entryName)

/-- The summary of the resource table. -/
def resourceTable (archive : Archive) : Logged ResourceTable := do
  let bytes ← archive.content ResourceTable.entryName
  (ResourceTable.decodeLogged bytes).adapt Chunk.DecodeError.toFault

/-- One DEX file, or the warning that it is skipped. -/
def dexFile (archive : Archive) (name : String) : Logged (Except String DexFile) := do
  let bytes ← archive.content name
  Logged.within [("dex", .text name)]
    (DexFile.decodeLogged archive.platform.dexParser name bytes)

/-- The DEX files in the order of loading, and the warnings on those that are skipped. -/
def dexFiles (archive : Archive) : Logged (List DexFile × List String) := do
  let names ← Logged.ofExcept (archive.loadOrder.mapError ArchiveError.toFault)
  let results ← names.mapM archive.dexFile
  let files := results.filterMap fun result =>
    match result with
    | .ok file => some file
    | .error _ => none
  let warnings := results.filterMap fun result =>
    match result with
    | .ok _ => none
    | .error warning => some warning
  return (files, warnings)

end Archive

namespace Session

/-- The archive at a path. -/
def openArchive (session : Session) (apk : FilePath) : Logged Archive :=
  Logged.ofExcept
    ((Archive.openFile session.platform session.files apk).mapError ArchiveError.toFault)

/-- The size of a package. -/
def fileSize (session : Session) (apk : FilePath) : Except Fault Nat :=
  (ApkAtlas.fileSize session.platform session.files apk).mapError ArchiveError.toFault

/-- The size of a package after compression. -/
def downloadSize (session : Session) (apk : FilePath) : Except Fault Nat :=
  match session.files.find apk with
  | .error _ => .error (ArchiveError.fileMissing apk.toText false).toFault
  | .ok (_, .directory) => .error (.external (FileProblem.isDirectory.toError apk.toText))
  | .ok (_, .file bytes) =>
      .ok (session.platform.gzipSize session.settings.analysis.gzipLevel bytes)

/-- The entries of a package by path. -/
def filesList (session : Session) (apk : FilePath) : Logged (List ArchiveEntry) := do
  return ArchiveEntry.sortedByPath (← session.openArchive apk).entries

/-- The text of an entry; bytes that are no text are replaced. -/
def fileText (session : Session) (apk : FilePath) (name : String) : Logged String := do
  let bytes ← (← session.openArchive apk).content name
  return Text.Utf8.decodeLossy bytes.toList

/-- The manifest as text. -/
def manifestText (session : Session) (apk : FilePath) : Logged String := do
  return (← (← session.openArchive apk).manifestRoot).render

/-- What the manifest says. -/
def manifest (session : Session) (apk : FilePath) : Logged Manifest := do
  return Manifest.ofElement (← (← session.openArchive apk).manifestRoot)

/-- The summary of the resource table. -/
def resources (session : Session) (apk : FilePath) : Logged ResourceTable := do
  (← session.openArchive apk).resourceTable

/-- The entries of the DEX files in the order of loading. -/
def dexEntries (session : Session) (apk : FilePath) : Logged (List ArchiveEntry) := do
  let archive ← session.openArchive apk
  Logged.ofExcept (archive.dexEntries.mapError ArchiveError.toFault)

/-- The counts of some files. -/
def statsOf (files : List DexFile) : Except Fault (List Dex.FileStats) :=
  files.mapM DexFile.stats

/-- The counts of the DEX files. -/
def dexReferences (session : Session) (apk : FilePath) : Logged (List Dex.FileStats) := do
  let (files, _) ← (← session.openArchive apk).dexFiles
  Logged.ofExcept (statsOf files)

/-- The symbol map of some texts; those of the settings are taken where none are given. -/
def symbolMap (session : Session) (mapping seeds : Option FilePath) : Logged SymbolMap :=
  let settings := session.settings.mapping
  SymbolMap.load session.files (mapping <|> settings.mappingPath)
    (seeds <|> settings.seedsPath) settings.strict

/-- The package tree of some files. -/
def packageTree (session : Session) (symbols : SymbolMap) (files : List DexFile) :
    Logged Package.BuildResult :=
  let settings := session.settings.analysis
  let build :=
    Package.build
      { policy := settings.duplicatePolicy, recordReferences := settings.recordReferences }
      symbols (files.map (·.source))
  build.logged.adapt Package.BuildError.toFault

/-- The package tree of a package with names restored by a map. -/
def packagesWith (session : Session) (apk : FilePath) (symbols : SymbolMap) :
    Logged Package.BuildResult := do
  let (files, _) ← (← session.openArchive apk).dexFiles
  session.packageTree symbols files

/-- The package tree of a package. The symbol map is read before the package. -/
def packages (session : Session) (apk : FilePath) (mapping seeds : Option FilePath) :
    Logged Package.BuildResult := do
  session.packagesWith apk (← session.symbolMap mapping seeds)

end Session

end ApkAtlas
