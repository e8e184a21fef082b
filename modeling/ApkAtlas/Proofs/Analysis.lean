import ApkAtlas.Analysis
import ApkAtlas.Platform.Builtin
import ApkAtlas.Proofs.Chunk.Composition
import ApkAtlas.Proofs.Operations

namespace ApkAtlas

/-!
# The report and the separate operations

An analysis reads a package once for everything, and each operation reads it for itself. A
report still says what the operations say: its parts are their answers, and its warnings
are the lines on all that could not be decoded, was declared again or was rejected.
-/

open Logged (Ends)

/-- The kinds of failure that a decoder raises. -/
def Failure.Kind.IsDecode (kind : Failure.Kind) : Prop :=
  kind = .decode ∨ kind.parent? = some .decode

/-- The failures that leave a part out are those of decoders. -/
theorem Failure.Kind.isDecoding_iff (kind : Failure.Kind) :
    kind.isDecoding ↔ kind.IsDecode := by
  cases kind <;> simp [isDecoding, IsDecode, parent?]

namespace Analysis

/-- A part of a report is the answer of its operation, or it is left out with a line on the
failure of the operation. -/
inductive AgreesWith
    {Part : Type}
    (operation : Logged Part)
    (leavesOut : Failure.Kind → Prop)
    (event : String) :
    Option Part → List String → Prop
  | answered
      {part : Part}
      (ends : Ends operation (.ok part)) :
      AgreesWith operation leavesOut event (some part) []
  | leftOut
      {failure : Failure}
      (ends : Ends operation (.error (.failure failure)))
      (ofKind : leavesOut failure.kind) :
      AgreesWith operation leavesOut event none [event ++ ": " ++ failure.message]

section Parts

variable
  {Part : Type}
  {read operation : Logged Part}
  {answer : Except Fault Part}
  {found : Option Part}
  {lines : List String}

/-- A part of a report is the answer of its operation, if there is one. -/
theorem AgreesWith.eq_toOption
    {leavesOut : Failure.Kind → Prop}
    {event : String}
    (agrees : AgreesWith operation leavesOut event found lines)
    (ends : Ends operation answer) :
    found = answer.toOption := by
  cases agrees with
  | answered answered =>
      rw [ends.unique answered]
      rfl
  | leftOut failed _ =>
      rw [ends.unique failed]
      rfl

/-- Reading a part into a report agrees with any operation that comes to the same. -/
theorem agreesWith_of_part
    {entry event : String}
    {leavesOut : Failure.Kind → Bool}
    {kinds : Failure.Kind → Prop}
    {journal : Journal}
    (ofKinds : ∀ kind, leavesOut kind → kinds kind)
    (ofRead : Ends read answer)
    (ofOperation : Ends operation answer)
    (through : (part entry event leavesOut read journal).1 = .ok (found, lines)) :
    AgreesWith operation kinds event found lines := by
  rw [part, Logged.result_within] at through
  obtain ⟨_, _, attempted, through⟩ := (Logged.ends_attempt ofRead).exists_of_bind through
  cases attempted
  cases answer with
  | ok part =>
      cases through
      exact .answered ofOperation
  | error fault =>
      cases fault with
      | external _ =>
          cases through
      | failure failure =>
          by_cases isLeftOut : leavesOut failure.kind
          · simp only [isLeftOut, ↓reduceIte] at through
            cases through
            exact .leftOut ofOperation (ofKinds _ isLeftOut)
          · simp only [isLeftOut, Bool.false_eq_true, ↓reduceIte] at through
            cases through

end Parts

/-- What went into a report besides its own fields. -/
structure Findings where
  /-- The line on the manifest, if it is left out. -/
  manifestLines : List String
  /-- The line on the resource table, if it is there and left out. -/
  resourceLines : List String
  symbols : SymbolMap
  tree : Package.BuildResult

/-- The report on a package combines what the operations on it answer. -/
structure Combined
    (session : Session)
    (apk : FilePath)
    (mapping seeds : Option FilePath)
    (maxDepth : Option Int)
    (archive : Archive)
    (report : Report)
    (found : Findings) : Prop where
  opened : Archive.openFile session.platform session.files apk = .ok archive
  fileSize : ∃ size : Nat, session.fileSize apk = .ok size ∧ report.fileSize = size
  downloadSize : ∃ size : Nat, session.downloadSize apk = .ok size ∧ report.downloadSize = size
  manifest :
    AgreesWith (session.manifest apk) (fun kind => kind.IsDecode ∨ kind = .validation)
      "Manifest not decoded" report.manifest found.manifestLines
  resources :
    archive.has ResourceTable.entryName →
      AgreesWith (session.resources apk) Failure.Kind.IsDecode
        "Resource table not decoded" report.resources found.resourceLines
  noResources :
    archive.has ResourceTable.entryName = false →
      report.resources = none ∧ found.resourceLines = []
  dexFiles : Ends (session.dexReferences apk) (.ok report.dexFiles)
  /-- The counts of each file depend on its own entry alone. -/
  eachDexFile :
    report.dexFiles = archive.readableFiles.filterMap fun file => file.stats.toOption
  symbols : Ends (session.symbolMap mapping seeds) (.ok found.symbols)
  tree : Ends (session.packages apk mapping seeds) (.ok found.tree)
  packages : report.packages = some (found.tree.root.summary maxDepth)
  built : (session.build found.symbols archive.readableFiles).result = .ok found.tree
  /-- The tree has a warning for each class that was declared again. -/
  duplicates :
    found.tree.warnings =
      ((session.build found.symbols archive.readableFiles).files.flatMap
        Prod.snd).filterMap Package.Decision.warning?
  /-- The tree lists the rejected classes of each file. -/
  rejections :
    found.tree.rejections =
      (((session.build found.symbols archive.readableFiles).files.map
        Package.rejectedOf).filter fun file => !file.2.isEmpty).eraseDups
  warnings :
    report.warnings =
      found.manifestLines ++ found.resourceLines ++ archive.skippedLines ++
        (found.tree.warnings.map fun warning => warning.text) ++
        found.tree.rejections.flatMap fun file =>
          file.2.map fun rejection => file.1 ++ ": " ++ rejection.text

section Reports

variable
  {session : Session}
  {apk : FilePath}
  {mapping seeds : Option FilePath}
  {maxDepth : Option Int}
  {journal : Journal}
  {outcome : Outcome Report}
  {report : Report}

/-- After the report an analysis clears the context; after an error it logs the error before. -/
theorem analyze_eq
    (session : Session)
    (apk : FilePath)
    (mapping seeds : Option FilePath)
    (maxDepth : Option Int)
    (journal : Journal) :
    let reached :=
      Analysis.report session apk mapping seeds maxDepth
        (journal.bind [("apk", .text apk.name)])
    analyze session apk mapping seeds maxDepth journal =
      match reached.1 with
      | .ok report => (.ok (.success report report.warnings metadata), reached.2.clear)
      | .error fault =>
          ( match fault with
            | .failure failure => .ok (.failure failure.message [])
            | .external _ => .error (.failure (stopped fault)),
            (reached.2.emit .error "APK analysis failed"
              [("error", .text fault.message)]).clear ) := by
  have bound :
      (modifyThe Journal (·.bind [("apk", .text apk.name)]) : Logged Unit) journal =
        (.ok (), journal.bind [("apk", .text apk.name)]) :=
    rfl
  have attempted (before : Journal) :
      Logged.attempt (Analysis.report session apk mapping seeds maxDepth) before =
        (.ok (Analysis.report session apk mapping seeds maxDepth before).1,
          (Analysis.report session apk mapping seeds maxDepth before).2) :=
    rfl
  rw [analyze, Logged.bind_of_ok (congrArg Prod.fst bound), bound,
    Logged.bind_of_ok (congrArg Prod.fst (attempted _)), attempted]
  generalize Analysis.report session apk mapping seeds maxDepth _ = reached
  obtain ⟨ended, later⟩ := reached
  match ended with
  | .ok _ => rfl
  | .error (.failure _) => rfl
  | .error (.external _) => rfl

/-- An analysis ends with the report that was made, or with the message of a failure. -/
theorem analyze_cases
    (ended : (analyze session apk mapping seeds maxDepth journal).1 = .ok outcome) :
    (∃ report later,
        (Analysis.report session apk mapping seeds maxDepth later).1 = .ok report ∧
          outcome = .success report report.warnings metadata) ∨
      ∃ failure : Failure, outcome = .failure failure.message [] := by
  rw [analyze_eq] at ended
  cases answer : (Analysis.report session apk mapping seeds maxDepth _).1 with
  | ok report =>
      rw [answer] at ended
      cases ended
      exact .inl ⟨report, _, answer, rfl⟩
  | error fault =>
      rw [answer] at ended
      cases fault with
      | failure failure =>
          cases ended
          exact .inr ⟨failure, rfl⟩
      | external _ =>
          cases ended

/-- The manifest of a report agrees with the operation on it. -/
theorem agreesWith_of_manifestPart
    {archive : Archive}
    {manifest : Option Manifest}
    {lines : List String}
    (opened : Archive.openFile session.platform session.files apk = .ok archive)
    (through : (manifestPart archive journal).1 = .ok (manifest, lines)) :
    AgreesWith (session.manifest apk) (fun kind => kind.IsDecode ∨ kind = .validation)
      "Manifest not decoded" manifest lines := by
  apply agreesWith_of_part _ archive.ends_manifest (Session.ends_manifest opened) through
  intro kind leavesOut
  rwa [Bool.or_eq_true, kind.isDecoding_iff, beq_iff_eq] at leavesOut

/-- The resource table of a report agrees with the operation on it. -/
theorem agreesWith_of_resourcePart
    {archive : Archive}
    {resources : Option ResourceTable}
    {lines : List String}
    (opened : Archive.openFile session.platform session.files apk = .ok archive)
    (has : archive.has ResourceTable.entryName)
    (through : (resourcePart archive journal).1 = .ok (resources, lines)) :
    AgreesWith (session.resources apk) Failure.Kind.IsDecode
      "Resource table not decoded" resources lines := by
  rw [resourcePart, if_pos has] at through
  apply agreesWith_of_part _ archive.ends_resourceTable (Session.ends_resources opened) through
  intro kind
  exact kind.isDecoding_iff.mp

/-- The counts of some files are those of each of them. -/
theorem eq_filterMap_stats
    {files : List DexFile}
    {counts : List Dex.FileStats}
    (counted : Session.statsOf files = .ok counts) :
    counts = files.filterMap fun file => file.stats.toOption := by
  have picked (file : DexFile) (stats : Dex.FileStats) (ofFile : file.stats = .ok stats) :
      some stats = file.stats.toOption := by
    rw [ofFile]
    rfl
  rw [← filterMap_results counted picked]
  exact List.filterMap_some.symm

/-- A report that was made combines the answers of the operations. -/
theorem exists_combined
    (ended : (Analysis.report session apk mapping seeds maxDepth journal).1 = .ok report) :
    ∃ archive found, Combined session apk mapping seeds maxDepth archive report found := by
  rw [Analysis.report] at ended
  obtain ⟨_, _, _, ended⟩ := Logged.exists_of_result_bind ended
  obtain ⟨archive, _, opened, ended⟩ := (Logged.ends_ofExcept _).exists_of_bind ended
  have opened := eq_ok_of_mapError opened
  obtain ⟨fileSize, _, ofFile, ended⟩ := (Logged.ends_ofExcept _).exists_of_bind ended
  obtain ⟨downloadSize, _, ofDownload, ended⟩ :=
    (Logged.ends_ofExcept _).exists_of_bind ended
  obtain ⟨⟨manifest, manifestLines⟩, _, ofManifest, ended⟩ :=
    Logged.exists_of_result_bind ended
  obtain ⟨⟨resources, resourceLines⟩, _, ofResources, ended⟩ :=
    Logged.exists_of_result_bind ended
  obtain ⟨_, readable, ofReadable⟩ := archive.exists_ends_dexFiles
  obtain ⟨_, _, rfl, ended⟩ := readable.exists_of_bind ended
  cases ofReadable _ rfl
  obtain ⟨dexFiles, _, counted, ended⟩ := (Logged.ends_ofExcept _).exists_of_bind ended
  obtain ⟨_, loaded⟩ := session.exists_ends_symbolMap mapping seeds
  obtain ⟨symbols, _, rfl, ended⟩ := loaded.exists_of_bind ended
  obtain ⟨tree, _, built, ended⟩ :=
    (session.ends_packageTree symbols archive.readableFiles).exists_of_bind ended
  obtain ⟨_, _, _, ended⟩ := Logged.exists_of_result_bind ended
  cases ended
  have ofBuild := eq_ok_of_mapError built
  have through := (Package.result_eq_ok ofBuild).1
  obtain ⟨warnings, rejections⟩ := Package.notes_of_result ofBuild
  refine ⟨archive, ⟨manifestLines, resourceLines, symbols, tree⟩, ?_⟩
  exact {
    opened := opened
    fileSize := ⟨fileSize, ofFile, rfl⟩
    downloadSize := ⟨downloadSize, ofDownload, rfl⟩
    manifest := agreesWith_of_manifestPart opened ofManifest
    resources := fun has => agreesWith_of_resourcePart opened has ofResources
    noResources := by
      intro hasNot
      rw [resourcePart, hasNot] at ofResources
      cases ofResources
      exact ⟨rfl, rfl⟩
    dexFiles := by
      rw [← counted]
      exact Session.ends_dexReferences opened readable
    eachDexFile := eq_filterMap_stats counted
    symbols := loaded
    tree := by
      rw [← built]
      exact Session.ends_packages opened readable loaded
    packages := rfl
    built := ofBuild
    duplicates := warnings.trans (Package.warnings_build through)
    rejections :=
      rejections.trans
        (Package.rejections_of_consistent through archive.consistent_readableFiles)
    warnings := by
      simp only [buildWarnings, List.append_assoc] }

/-- What two reports share where the packages have the same entries. -/
structure SharedParts (archive other : Archive) (report otherReport : Report) : Prop where
  manifest :
    archive.read Manifest.entryName = other.read Manifest.entryName →
      report.manifest = otherReport.manifest
  resources :
    archive.has ResourceTable.entryName = other.has ResourceTable.entryName →
      archive.read ResourceTable.entryName = other.read ResourceTable.entryName →
        report.resources = otherReport.resources
  dexFiles :
    archive.readableFiles = other.readableFiles → report.dexFiles = otherReport.dexFiles
  packages :
    archive.readableFiles = other.readableFiles → report.packages = otherReport.packages

namespace Combined

variable {archive : Archive} {found : Findings}

/-- The manifest of a report depends on its entry alone. -/
theorem manifest_eq
    (combined : Combined session apk mapping seeds maxDepth archive report found) :
    report.manifest = archive.manifest.toOption :=
  combined.manifest.eq_toOption (Session.ends_manifest combined.opened)

/-- The resource table of a report depends on its entry alone. -/
theorem resources_eq
    (combined : Combined session apk mapping seeds maxDepth archive report found) :
    report.resources =
      if archive.has ResourceTable.entryName then
        (ResourceTable.ofContent (archive.read ResourceTable.entryName)).toOption
      else
        none := by
  split
  case isTrue has =>
    exact (combined.resources has).eq_toOption (Session.ends_resources combined.opened)
  case isFalse hasNot =>
    exact (combined.noResources (Bool.eq_false_iff.mpr hasNot)).1

/-- Reports share the parts that are made of the same entries. -/
theorem sharedParts
    {otherApk : FilePath}
    {other : Archive}
    {otherReport : Report}
    {otherFound : Findings}
    (combined : Combined session apk mapping seeds maxDepth archive report found)
    (otherCombined :
      Combined session otherApk mapping seeds maxDepth other otherReport otherFound) :
    SharedParts archive other report otherReport where
  manifest := by
    intro sameEntry
    rw [combined.manifest_eq, otherCombined.manifest_eq, Archive.manifest, Archive.manifest,
      Archive.platform_of_openFile combined.opened,
      Archive.platform_of_openFile otherCombined.opened, sameEntry]
  resources := by
    intro samePresence sameEntry
    rw [combined.resources_eq, otherCombined.resources_eq, samePresence, sameEntry]
  dexFiles := by
    intro sameFiles
    rw [combined.eachDexFile, otherCombined.eachDexFile, sameFiles]
  packages := by
    intro sameFiles
    have sameSymbols := Except.ok.inj (combined.symbols.unique otherCombined.symbols)
    have built := combined.built
    rw [sameFiles, sameSymbols, otherCombined.built] at built
    rw [combined.packages, otherCombined.packages, Except.ok.inj built]

end Combined

end Reports

/-! ## A package with a broken entry -/

/-- An archive entry whose content is stored as it is. -/
structure StoredEntry where
  name : List UInt8
  content : List UInt8

namespace StoredEntry

/-- The entry with the given name and text, both of one byte a character. -/
def ofText (name content : String) : StoredEntry :=
  let bytes (text : String) := text.toList.map fun char => UInt8.ofNat char.toNat
  ⟨bytes name, bytes content⟩

/-- What stands both in front of a content and in the directory. -/
def sizes (entry : StoredEntry) : List (Nat × Nat) :=
  [ (4, Checksum.crc32 entry.content.toArray),
    (4, entry.content.length),
    (4, entry.content.length),
    (2, entry.name.length),
    (2, 0) ]

/-- An entry with its content. -/
def bytes (entry : StoredEntry) : List UInt8 :=
  Chunk.record ([(4, 0x04034B50), (10, 0)] ++ entry.sizes) ++ entry.name ++ entry.content

/-- The line of the directory on an entry. -/
def line (entry : StoredEntry) (start : Nat) : List UInt8 :=
  Chunk.record ([(4, 0x02014B50), (12, 0)] ++ entry.sizes ++ [(10, 0), (4, start)]) ++
    entry.name

/-- The lines on entries that follow one another from a place on. -/
def lines : Nat → List StoredEntry → List UInt8
  | _, [] => []
  | start, entry :: rest => entry.line start ++ lines (start + entry.bytes.length) rest

/-- The archive of some entries. -/
def archive (entries : List StoredEntry) : Bytes :=
  let contents := entries.flatMap bytes
  let directory := lines 0 entries
  let last :=
    [ (4, 0x06054B50),
      (4, 0),
      (2, entries.length),
      (2, entries.length),
      (4, directory.length),
      (4, contents.length),
      (2, 0) ]
  (contents ++ directory ++ Chunk.record last).toArray

end StoredEntry

/-- A package with a manifest and a DEX entry of one byte. -/
def brokenDex : Session :=
  let entries :=
    [ StoredEntry.ofText Manifest.entryName "<manifest package='p'/>",
      StoredEntry.ofText "classes.dex" "x" ]
  { platform := .builtin
    files := { nodes := [(["broken.apk"], .file (StoredEntry.archive entries))] } }

end Analysis

end ApkAtlas
