import ApkAtlas.Inspection
import ApkAtlas.Proofs.Archive.LoadOrder
import ApkAtlas.Proofs.Package.Notes
import ApkAtlas.Proofs.Package.Repeated
import ApkAtlas.Proofs.Untrusted

namespace ApkAtlas

/-!
# What the operations on a package come to

Each part of a package is decoded from the entries it is in and from nothing else: the
manifest and the resource table from one entry each, and of the DEX files each from its own.
-/

open Logged (Ends)

section Entries

/-- An archive that opens is a file, and is read on the platform that it is opened on. -/
theorem Archive.exists_file_of_openFile
    {platform : Platform}
    {tree : FileTree}
    {path : FilePath}
    {archive : Archive}
    (opened : openFile platform tree path = .ok archive) :
    ∃ place,
      tree.find path = .ok (place, .file archive.bytes) ∧ archive.platform = platform := by
  rw [openFile] at opened
  cases found : tree.find path with
  | error _ =>
      rw [found] at opened
      cases opened
  | ok node =>
      rw [found] at opened
      obtain ⟨place, _ | bytes⟩ := node
      · cases opened
      · cases ofBytes : ofBytes? platform bytes with
        | none =>
            simp only [ofBytes] at opened
            cases opened
        | some result =>
            simp only [ofBytes] at opened
            subst opened
            obtain ⟨_, _, ofEnd⟩ := Option.bind_eq_some_iff.mp ofBytes
            obtain ⟨_, _, ofEnding⟩ := Option.bind_eq_some_iff.mp ofEnd
            obtain ⟨_, _, ofListings⟩ := exists_of_bind_eq_ok (Option.some.inj ofEnding)
            obtain ⟨_, _, same⟩ := exists_of_bind_eq_ok ofListings
            cases same
            exact ⟨place, rfl, rfl⟩

theorem Archive.platform_of_openFile
    {platform : Platform}
    {tree : FileTree}
    {path : FilePath}
    {archive : Archive}
    (opened : openFile platform tree path = .ok archive) :
    archive.platform = platform := by
  obtain ⟨_, _, same⟩ := exists_file_of_openFile opened
  exact same

variable (archive : Archive)

/-- Taking the content of an entry comes to the content, whatever is logged. -/
theorem Archive.ends_content (name : String) :
    Ends (archive.content name) ((archive.read name).mapError ArchiveError.toFault) := by
  apply Ends.adapt
  intro journal
  cases read : archive.read name <;> simp only [readLogged, read] <;> rfl

/-- The manifest is decoded as without log records. -/
theorem Manifest.ends_decodeLogged (parse : Xml.Markup.Parser) (bytes : Bytes) :
    Ends (Manifest.decodeLogged parse bytes) (Manifest.decode parse bytes) := by
  intro journal
  rw [decodeLogged, decode]
  split
  · rfl
  · have ofDocument :=
      Ends.adapt (Xml.Document.decodeLogged_result bytes) Chunk.DecodeError.toFault
    rw [ofDocument.bind (fun document => Logged.ends_pure document.root) journal]
    cases Xml.Document.decode bytes <;> rfl

/-- What the manifest says, from the content of its entry. -/
def Manifest.ofContent
    (parse : Xml.Markup.Parser)
    (content : Except ArchiveError Bytes) :
    Except Fault Manifest := do
  let bytes ← content.mapError ArchiveError.toFault
  return Manifest.ofElement (← Manifest.decode parse bytes)

/-- The summary of the resource table, from the content of its entry. -/
def ResourceTable.ofContent (content : Except ArchiveError Bytes) :
    Except Fault ResourceTable := do
  let bytes ← content.mapError ArchiveError.toFault
  (ResourceTable.decode bytes).mapError Chunk.DecodeError.toFault

/-- What the manifest of an archive says. -/
def Archive.manifest : Except Fault Manifest :=
  Manifest.ofContent archive.platform.markupParser (archive.read Manifest.entryName)

/-- The manifest is read from its own entry. -/
theorem Archive.ends_manifest :
    Ends (do return Manifest.ofElement (← archive.manifestRoot)) archive.manifest := by
  have ofRoot : Ends archive.manifestRoot _ :=
    (archive.ends_content Manifest.entryName).bind
      (Manifest.ends_decodeLogged archive.platform.markupParser)
  rw [manifest, Manifest.ofContent, ← bind_assoc]
  exact ofRoot.bind fun root => Logged.ends_pure (Manifest.ofElement root)

/-- The resource table is read from its own entry. -/
theorem Archive.ends_resourceTable :
    Ends archive.resourceTable
      (ResourceTable.ofContent (archive.read ResourceTable.entryName)) := by
  apply (archive.ends_content ResourceTable.entryName).bind
  intro bytes
  exact Ends.adapt (ResourceTable.decodeLogged_result bytes) Chunk.DecodeError.toFault

end Entries

/-! ## DEX files -/

namespace DexFile

section Contents

variable
  (parser : Dex.Parser)
  (name : String)

/-- What reading a DEX entry comes to: the file, or the line that it is skipped. -/
def ofContent : Except ArchiveError Bytes → Except Fault (Except String DexFile)
  | .error error => .error error.toFault
  | .ok bytes =>
      match Dex.readSymbols parser name bytes with
      | .ok source => .ok (.ok ⟨bytes, source⟩)
      | .error error =>
          if error.isSkipped then
            .ok (.error
              ("Skipped unreadable DEX file " ++ name ++ ": " ++ error.toFault.message))
          else
            .error error.toFault

/-- The line in the place of a DEX file. -/
def line? : Except String DexFile → Option String
  | .ok _ => none
  | .error line => some line

/-- The file in a DEX entry that can be read. -/
def readable? : Except ArchiveError Bytes → Option DexFile
  | .error _ => none
  | .ok bytes =>
      match Dex.readSymbols parser name bytes with
      | .ok source => some ⟨bytes, source⟩
      | .error _ => none

/-- The line on a DEX entry that cannot be read. -/
def skipped? : Except ArchiveError Bytes → Option String
  | .error _ => none
  | .ok bytes =>
      match Dex.readSymbols parser name bytes with
      | .ok _ => none
      | .error error =>
          some ("Skipped unreadable DEX file " ++ name ++ ": " ++ error.toFault.message)

/-- Decoding a content comes to the file, to the line on it or to the error. -/
theorem ends_decodeLogged (bytes : Bytes) :
    Ends (decodeLogged parser name bytes) (ofContent parser name (.ok bytes)) := by
  rw [decodeLogged, ofContent]
  cases Dex.readSymbols parser name bytes with
  | ok _ =>
      exact Logged.ends_pure _
  | error error =>
      by_cases isSkipped : error.isSkipped
      · simp only [isSkipped, ↓reduceIte]
        exact (Logged.ends_log _ _ _).bind_ok (Logged.ends_pure _)
      · simp only [isSkipped, Bool.false_eq_true, ↓reduceIte]
        exact Logged.ends_throw _

variable
  {parser}
  {name}
  {content : Except ArchiveError Bytes}

/-- Where reading an entry does not fail, there is a file in it or a line on it. -/
theorem eq_readable?_and_eq_skipped?
    {result : Except String DexFile}
    (through : ofContent parser name content = .ok result) :
    result.toOption = readable? parser name content ∧
      line? result = skipped? parser name content := by
  cases content with
  | error _ =>
      cases through
  | ok bytes =>
      rw [ofContent] at through
      rw [readable?, skipped?]
      cases read : Dex.readSymbols parser name bytes with
      | ok source =>
          rw [read] at through
          cases through
          exact ⟨rfl, rfl⟩
      | error error =>
          rw [read] at through
          by_cases isSkipped : error.isSkipped
          · simp only [isSkipped, ↓reduceIte] at through
            cases through
            exact ⟨rfl, rfl⟩
          · simp only [isSkipped, Bool.false_eq_true, ↓reduceIte] at through
            cases through

/-- A readable file is named after its entry. -/
theorem name_of_readable?
    {file : DexFile}
    (readable : readable? parser name content = some file) :
    file.source.name = name := by
  cases content with
  | error _ =>
      cases readable
  | ok bytes =>
      rw [readable?] at readable
      cases read : Dex.readSymbols parser name bytes with
      | error _ =>
          rw [read] at readable
          cases readable
      | ok source =>
          rw [read] at readable
          cases readable
          obtain ⟨_, _, ofParser⟩ := exists_of_bind_eq_ok read
          have ofSymbols := eq_ok_of_mapError ofParser
          obtain ⟨_, _, ofSymbols⟩ := exists_of_bind_eq_ok ofSymbols
          obtain ⟨_, _, same⟩ := exists_of_bind_eq_ok ofSymbols
          cases same
          rfl

end Contents

end DexFile

section Files

variable (archive : Archive)

namespace Archive

/-- What reading the DEX entry of a name comes to. -/
def dexAnswer (name : String) : Except Fault (Except String DexFile) :=
  DexFile.ofContent archive.platform.dexParser name (archive.read name)

/-- What reading all DEX entries comes to, in the order of loading. -/
def dexAnswers : Except Fault (List (Except String DexFile)) := do
  (← archive.loadOrder.mapError ArchiveError.toFault).mapM archive.dexAnswer

/-- The file in the DEX entry of a name, if it can be read. -/
def readable? (name : String) : Option DexFile :=
  DexFile.readable? archive.platform.dexParser name (archive.read name)

/-- The line on the DEX entry of a name, if it cannot be read. -/
def skipped? (name : String) : Option String :=
  DexFile.skipped? archive.platform.dexParser name (archive.read name)

/-- The DEX files that can be read, in the order of loading. -/
def readableFiles : List DexFile :=
  archive.dexNames.filterMap archive.readable?

/-- The lines on the DEX entries that cannot be read, in the order of loading. -/
def skippedLines : List String :=
  archive.dexNames.filterMap archive.skipped?

/-- A DEX file is read from its own entry. -/
theorem ends_dexFile (name : String) :
    Ends (archive.dexFile name) (archive.dexAnswer name) := by
  have sequence :
      archive.dexAnswer name =
        (archive.read name).mapError ArchiveError.toFault >>= fun bytes =>
          DexFile.ofContent archive.platform.dexParser name (.ok bytes) := by
    rw [dexAnswer]
    cases archive.read name <;> rfl
  rw [sequence]
  apply (archive.ends_content name).bind
  intro bytes
  exact (DexFile.ends_decodeLogged archive.platform.dexParser name bytes).within _

/-- Results for all DEX entries are one for each name. -/
theorem mapM_dexAnswer_of_dexAnswers
    {results : List (Except String DexFile)}
    (answered : archive.dexAnswers = .ok results) :
    archive.dexNames.mapM archive.dexAnswer = .ok results := by
  rw [dexAnswers] at answered
  rcases archive.loadOrder_cases with ⟨_, known⟩ | ⟨_, _, _, _, _, unknown⟩
  · rwa [known] at answered
  · rw [unknown] at answered
    cases answered

/-- Unless reading a DEX entry fails, it comes to the files that can be read and the lines on
the others. -/
theorem ends_dexFiles :
    Ends archive.dexFiles
      (archive.dexAnswers.map fun _ => (archive.readableFiles, archive.skippedLines)) := by
  have collected : Ends archive.dexFiles _ :=
    (Logged.ends_ofExcept _).bind fun names =>
      (Logged.ends_mapM archive.ends_dexFile names).bind fun results => Logged.ends_pure _
  rw [← bind_assoc, ← dexAnswers] at collected
  cases answered : archive.dexAnswers with
  | error _ =>
      rw [answered] at collected
      exact collected
  | ok results =>
      rw [answered] at collected
      have ofEntries := archive.mapM_dexAnswer_of_dexAnswers answered
      have files :
          archive.readableFiles = results.filterMap fun result =>
            match result with
            | .ok file => some file
            | .error _ => none := by
        symm
        apply filterMap_results ofEntries
        intro name result ofEntry
        rw [readable?, ← (DexFile.eq_readable?_and_eq_skipped? ofEntry).1]
        cases result <;> rfl
      have lines :
          archive.skippedLines = results.filterMap fun result =>
            match result with
            | .ok _ => none
            | .error warning => some warning := by
        symm
        apply filterMap_results ofEntries
        intro name result ofEntry
        rw [skipped?, ← (DexFile.eq_readable?_and_eq_skipped? ofEntry).2]
        cases result <;> rfl
      rw [files, lines]
      exact collected

/-- Where reading the DEX entries does not fail, it finds all that can be read. -/
theorem exists_ends_dexFiles :
    ∃ answer, Ends archive.dexFiles answer ∧
      ∀ found, answer = .ok found → found = (archive.readableFiles, archive.skippedLines) := by
  refine ⟨_, archive.ends_dexFiles, ?_⟩
  intro found through
  obtain ⟨_, _, rfl⟩ := exists_of_map_eq_ok through
  rfl

/-- Files of one name are one file: names are looked up, and find the same entry each time. -/
theorem consistent_readableFiles :
    Package.Consistent (archive.readableFiles.map DexFile.source) := by
  intro first inFirst second inSecond sameName
  obtain ⟨file, inFiles, rfl⟩ := List.mem_map.mp inFirst
  obtain ⟨other, otherInFiles, rfl⟩ := List.mem_map.mp inSecond
  obtain ⟨name, _, readable⟩ := List.mem_filterMap.mp inFiles
  obtain ⟨otherName, _, otherReadable⟩ := List.mem_filterMap.mp otherInFiles
  have sameEntry : name = otherName :=
    (DexFile.name_of_readable? readable).symm.trans
      (sameName.trans (DexFile.name_of_readable? otherReadable))
  subst sameEntry
  cases readable.symm.trans otherReadable
  rfl

end Archive

end Files

/-! ## Sessions -/

section Sessions

variable (session : Session)

/-- Loading a symbol map comes to the same whatever was logged before. -/
theorem Session.exists_ends_symbolMap (mapping seeds : Option FilePath) :
    ∃ answer, Ends (session.symbolMap mapping seeds) answer := by
  simp only [symbolMap, SymbolMap.load]
  split
  · exact ⟨_, (Logged.ends_log _ _ _).bind_ok (Logged.ends_pure _)⟩
  · exact ⟨_, fun _ => rfl⟩
  · by_cases strict : session.settings.mapping.strict
    · simp only [strict, ↓reduceIte]
      exact ⟨_, fun _ => rfl⟩
    · simp only [strict, Bool.false_eq_true, ↓reduceIte]
      exact ⟨_, fun _ => rfl⟩

/-- The build of the package tree of some files. -/
def Session.build (symbols : SymbolMap) (files : List DexFile) : Package.Build :=
  Package.build
    { policy := session.settings.analysis.duplicatePolicy
      recordReferences := session.settings.analysis.recordReferences }
    symbols (files.map (·.source))

/-- Logging what was decided does not change what a build comes to. -/
theorem Package.Build.ends_logged (build : Package.Build) : Ends build.logged build.result := by
  apply Ends.bind_ok
  · apply Logged.ends_forM
    intro file
    apply Logged.ends_forM
    intro decision
    cases decision <;> exact fun _ => rfl
  · intro journal
    cases build.result <;> rfl

/-- The package tree comes from the symbols of the files. -/
theorem Session.ends_packageTree (symbols : SymbolMap) (files : List DexFile) :
    Ends (session.packageTree symbols files)
      ((session.build symbols files).result.mapError Package.BuildError.toFault) :=
  Ends.adapt (session.build symbols files).ends_logged _

end Sessions

/-! ## Operations on a package that opens -/

section Opened

variable
  {session : Session}
  {apk : FilePath}
  {archive : Archive}
  (opened : Archive.openFile session.platform session.files apk = .ok archive)

include opened

/-- The archive that an operation opens. -/
theorem Session.ends_openArchive : Ends (session.openArchive apk) (.ok archive) := by
  rw [openArchive, opened]
  exact Logged.ends_ofExcept _

/-- The operation on the manifest answers what its entry says. -/
theorem Session.ends_manifest :
    Ends (session.manifest apk) archive.manifest :=
  (ends_openArchive opened).bind_ok archive.ends_manifest

/-- The operation on the resource table answers what its entry says. -/
theorem Session.ends_resources :
    Ends (session.resources apk)
      (ResourceTable.ofContent (archive.read ResourceTable.entryName)) :=
  (ends_openArchive opened).bind_ok archive.ends_resourceTable

section Files

variable
  {files : List DexFile}
  {lines : List String}
  (readable : Ends archive.dexFiles (.ok (files, lines)))

include readable

/-- The counts are those of the files that can be read. -/
theorem Session.ends_dexReferences : Ends (session.dexReferences apk) (statsOf files) := by
  apply (ends_openArchive opened).bind_ok
  apply readable.bind_ok
  exact Logged.ends_ofExcept _

/-- The tree is that of the files that can be read, with the names of the symbol map. -/
theorem Session.ends_packages
    {mapping seeds : Option FilePath}
    {symbols : SymbolMap}
    (loaded : Ends (session.symbolMap mapping seeds) (.ok symbols)) :
    Ends (session.packages apk mapping seeds)
      ((session.build symbols files).result.mapError Package.BuildError.toFault) := by
  apply loaded.bind_ok
  apply (ends_openArchive opened).bind_ok
  apply readable.bind_ok
  exact session.ends_packageTree symbols files

end Files

end Opened

end ApkAtlas
