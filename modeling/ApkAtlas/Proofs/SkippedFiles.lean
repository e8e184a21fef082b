import ApkAtlas.Proofs.Analysis
import ApkAtlas.Proofs.Archive.LoadOrder

namespace ApkAtlas

/-!
# DEX entries that are skipped

A DEX entry whose content is there but cannot be read is skipped, and everything else is as if
the archive did not have it. An entry whose content cannot be taken from the archive is not
skipped, nor is one that the parser refuses with an error that reading does not account for: the
first such entry ends the operation. So does a name with a number of too many digits.
-/

open Logged (Ends)

namespace DexFile

section Contents

variable
  {parser : Dex.Parser}
  {name : String}
  {content : Except ArchiveError Bytes}
  {file : DexFile}

/-- A DEX entry that does not end the operation. Its content is there, and the parser refuses it
only with errors that reading accounts for. -/
def IsTolerated
    (parser : Dex.Parser)
    (name : String)
    (content : Except ArchiveError Bytes) :
    Prop :=
  ∃ bytes, content = .ok bytes ∧
    ∀ error, Dex.readSymbols parser name bytes = .error error → error.isSkipped

/-- An entry is tolerated exactly if it is read or skipped. -/
theorem isTolerated_iff :
    IsTolerated parser name content ↔ ∃ result, ofContent parser name content = .ok result := by
  cases content with
  | error _ =>
      simp [IsTolerated, ofContent]
  | ok bytes =>
      simp only [IsTolerated, Except.ok.injEq, exists_eq_left', ofContent]
      cases read : Dex.readSymbols parser name bytes with
      | ok _ =>
          simp
      | error error =>
          simp only [Except.error.injEq, forall_eq']
          by_cases isSkipped : error.isSkipped <;> simp [isSkipped]

instance : Decidable (IsTolerated parser name content) :=
  decidable_of_iff (ofContent parser name content).isOk <| by
    rw [isTolerated_iff]
    cases ofContent parser name content <;> simp [Except.isOk, Except.toBool]

/-- An entry that can be read is tolerated. -/
theorem isTolerated_of_readable? (readable : readable? parser name content = some file) :
    IsTolerated parser name content := by
  cases content with
  | error _ =>
      cases readable
  | ok bytes =>
      refine ⟨bytes, rfl, ?_⟩
      intro error failed
      rw [readable?, failed] at readable
      cases readable

/-- A tolerated entry is read, or there is a line on it. -/
theorem skipped?_eq_none_iff (tolerated : IsTolerated parser name content) :
    skipped? parser name content = none ↔ (readable? parser name content).isSome := by
  obtain ⟨bytes, rfl, _⟩ := tolerated
  rw [skipped?, readable?]
  cases Dex.readSymbols parser name bytes <;> simp

/-- The line on an entry names it. -/
theorem exists_message_of_skipped?
    {line : String}
    (skipped : skipped? parser name content = some line) :
    ∃ message, line = "Skipped unreadable DEX file " ++ name ++ ": " ++ message := by
  cases content with
  | error _ =>
      cases skipped
  | ok bytes =>
      rw [skipped?] at skipped
      split at skipped
      · cases skipped
      · exact ⟨_, (Option.some.inj skipped).symm⟩

/-- The counts of a file that was read are known. -/
theorem exists_stats_of_readable? (readable : readable? parser name content = some file) :
    ∃ stats, file.stats = .ok stats := by
  cases content with
  | error _ =>
      cases readable
  | ok bytes =>
      rw [readable?] at readable
      cases read : Dex.readSymbols parser name bytes with
      | error _ =>
          rw [read] at readable
          cases readable
      | ok source =>
          rw [read] at readable
          cases readable
          obtain ⟨header, decoded, _⟩ := exists_of_bind_eq_ok read
          refine ⟨.make source.name bytes.size header source.classes, ?_⟩
          rw [stats, Dex.FileStats.ofFile, eq_ok_of_mapError decoded]
          rfl

end Contents

end DexFile

namespace Archive

section Entries

variable {archive other : Archive}

/-- Whether the DEX entry of a name is that of a DEX file. -/
def isReadable (archive : Archive) (name : String) : Bool :=
  (archive.readable? name).isSome

/-- The names of the DEX entries that can be read, in the order of loading. -/
def readableNames (archive : Archive) : List String :=
  archive.dexNames.filter archive.isReadable

/-- The names of the DEX entries that cannot be read, in the order of loading. -/
def defectiveNames (archive : Archive) : List String :=
  archive.dexNames.filter fun name => !archive.isReadable name

/-- The DEX entry of a name does not end the operation. -/
def Tolerates (archive : Archive) (name : String) : Prop :=
  DexFile.IsTolerated archive.platform.dexParser name (archive.read name)

/-- All numbers in the names of DEX entries can be read, and all entries are read or skipped. -/
structure TolerateAll (archive : Archive) : Prop where
  numbers : ∀ name ∈ archive.names, isDexName name → IsReadable name
  entries : ∀ name ∈ archive.dexNames, archive.Tolerates name

/-- What ends an operation on the DEX entries. -/
inductive StopsWith (archive : Archive) : Fault → Prop where
  /-- A number in one of the names cannot be read. -/
  | number
      {name : String}
      {count : Nat}
      (member : name ∈ archive.names)
      (isDex : isDexName name)
      (tooMany : HasTooMany name count) :
      StopsWith archive (ArchiveError.longNumber Number.digitLimit count).toFault
  /-- The first entry that is not tolerated. -/
  | entry
      {before after : List String}
      {name : String}
      {fault : Fault}
      (known : archive.loadOrder = .ok (before ++ name :: after))
      (earlier : ∀ other ∈ before, archive.Tolerates other)
      (failed : archive.dexAnswer name = .error fault) :
      StopsWith archive fault

/-- An entry is tolerated exactly if reading it comes to an answer. -/
theorem tolerates_iff {name : String} :
    archive.Tolerates name ↔ ∃ result, archive.dexAnswer name = .ok result :=
  DexFile.isTolerated_iff

/-- The DEX entries have answers exactly if all are tolerated. -/
theorem tolerateAll_iff :
    archive.TolerateAll ↔ ∃ results, archive.dexAnswers = .ok results := by
  constructor
  · rintro ⟨numbers, entries⟩
    rw [dexAnswers, loadOrder_eq_ok_iff.mpr ⟨numbers, rfl⟩]
    exact exists_mapM_eq_ok fun name member => tolerates_iff.mp (entries name member)
  · rintro ⟨results, answered⟩
    obtain ⟨names, known, answers⟩ := exists_of_bind_eq_ok answered
    obtain ⟨numbers, rfl⟩ := loadOrder_eq_ok_iff.mp (eq_ok_of_mapError known)
    refine ⟨numbers, ?_⟩
    intro name member
    obtain ⟨result, _, answer⟩ := exists_result_of_mem answers member
    exact tolerates_iff.mpr ⟨result, answer⟩

/-- Where the DEX entries have no answers, a name or the first entry that is not tolerated ends the
operation. -/
theorem stopsWith_of_dexAnswers
    {fault : Fault}
    (failed : archive.dexAnswers = .error fault) :
    archive.StopsWith fault := by
  rw [dexAnswers] at failed
  rcases archive.loadOrder_cases with
    ⟨_, known⟩ | ⟨name, member, isDex, count, tooMany, unknown⟩
  · rw [known] at failed
    obtain ⟨before, name, after, names, through, ofName⟩ := mapM_eq_error_iff.mp failed
    refine .entry (names ▸ known) ?_ ofName
    intro earlier member
    exact tolerates_iff.mpr (through earlier member)
  · rw [unknown] at failed
    cases failed
    exact .number member isDex tooMany

/-- There is one line on each entry that cannot be read. -/
theorem forall₂_skippedLines (tolerated : archive.TolerateAll) :
    List.Forall₂
      (fun name line => ∃ message, line = "Skipped unreadable DEX file " ++ name ++ ": " ++ message)
      archive.defectiveNames archive.skippedLines := by
  have ofEntries := tolerated.entries
  rw [defectiveNames, skippedLines]
  generalize archive.dexNames = names at ofEntries ⊢
  induction names with
  | nil =>
      exact .nil
  | cons name rest inductionHypothesis =>
      obtain ⟨ofName, ofRest⟩ := List.forall_mem_cons.mp ofEntries
      have others := inductionHypothesis ofRest
      have skippedIff : archive.skipped? name = none ↔ archive.isReadable name :=
        DexFile.skipped?_eq_none_iff ofName
      cases skipped : archive.skipped? name with
      | none =>
          have readable : archive.isReadable name := skippedIff.mp skipped
          simpa only [List.filterMap_cons, skipped, List.filter_cons, readable, Bool.not_true,
            Bool.false_eq_true, ↓reduceIte] using others
      | some line =>
          have notReadable : archive.isReadable name = false := by
            rw [← Bool.not_eq_true, ← skippedIff, skipped]
            exact Option.some_ne_none line
          simp only [List.filterMap_cons, skipped, List.filter_cons, notReadable, Bool.not_false,
            ↓reduceIte]
          exact .cons (DexFile.exists_message_of_skipped? skipped) others

/-- The counts of the files that can be read are known, in the order of loading. -/
theorem exists_statsOf (archive : Archive) :
    ∃ stats,
      Session.statsOf archive.readableFiles = .ok stats ∧
        List.Forall₂
          (fun name one => ∃ file, archive.readable? name = some file ∧ file.stats = .ok one)
          archive.readableNames stats := by
  rw [readableFiles, readableNames]
  induction archive.dexNames with
  | nil =>
      exact ⟨[], rfl, .nil⟩
  | cons name rest inductionHypothesis =>
      obtain ⟨stats, counted, others⟩ := inductionHypothesis
      cases readable : archive.readable? name with
      | none =>
          have skips : archive.isReadable name = false := by
            rw [isReadable, readable]
            rfl
          refine ⟨stats, ?_, ?_⟩
          · simpa only [List.filterMap_cons, readable] using counted
          · simpa only [List.filter_cons, skips, Bool.false_eq_true, ↓reduceIte] using others
      | some file =>
          have keeps : archive.isReadable name = true := by
            rw [isReadable, readable]
            rfl
          obtain ⟨one, ofFile⟩ := DexFile.exists_stats_of_readable? readable
          refine ⟨one :: stats, ?_, ?_⟩
          · rw [Session.statsOf] at counted
            simp only [List.filterMap_cons, readable, Session.statsOf, List.mapM_cons, ofFile,
              counted]
            rfl
          · simp only [List.filter_cons, keeps, ↓reduceIte]
            exact .cons ⟨file, readable, ofFile⟩ others

/-- Where all entries are tolerated, the files and the lines on the others are found. -/
theorem ends_dexFiles_of_tolerateAll (tolerated : archive.TolerateAll) :
    Ends archive.dexFiles (.ok (archive.readableFiles, archive.skippedLines)) := by
  obtain ⟨_, answered⟩ := tolerateAll_iff.mp tolerated
  have ends := archive.ends_dexFiles
  rwa [answered] at ends

/-- The other archive is read on the same platform. It has the DEX entries that can be read, in any
order, and none of those that cannot. -/
structure WithoutDefective (archive other : Archive) : Prop where
  platform : other.platform = archive.platform
  names :
    (other.names.filter isDexName).Perm ((archive.names.filter archive.isReadable).filter isDexName)
  contents : ∀ name ∈ other.dexNames, other.read name = archive.read name

namespace WithoutDefective

/-- The names that are left are those of the readable entries, in the same order. -/
theorem dexNames_eq (cleared : archive.WithoutDefective other) :
    other.dexNames = archive.readableNames :=
  (inLoadOrder_of_perm cleared.names).trans (filter_inLoadOrder archive.isReadable).symm

/-- An entry that is left is the same file. -/
theorem readable?_eq
    (cleared : archive.WithoutDefective other)
    {name : String}
    (member : name ∈ other.dexNames) :
    other.readable? name = archive.readable? name := by
  rw [readable?, readable?, cleared.platform, cleared.contents name member]

/-- Every entry that is left can be read. -/
theorem exists_readable?
    (cleared : archive.WithoutDefective other)
    {name : String}
    (member : name ∈ other.dexNames) :
    ∃ file, other.readable? name = some file := by
  have readable := member
  rw [cleared.dexNames_eq] at readable
  rw [cleared.readable?_eq member]
  exact Option.isSome_iff_exists.mp (List.mem_filter.mp readable).2

/-- All numbers that are left can be read, and all entries. -/
theorem tolerateAll
    (cleared : archive.WithoutDefective other)
    (tolerated : archive.TolerateAll) :
    other.TolerateAll := by
  constructor
  · intro name member isDex
    have left := cleared.names.mem_iff.mp (List.mem_filter.mpr ⟨member, isDex⟩)
    exact tolerated.numbers name (List.mem_filter.mp (List.mem_filter.mp left).1).1 isDex
  · intro name member
    obtain ⟨_, readable⟩ := cleared.exists_readable? member
    exact DexFile.isTolerated_of_readable? readable

/-- The readable files stay the same. -/
theorem readableFiles_eq (cleared : archive.WithoutDefective other) :
    other.readableFiles = archive.readableFiles := by
  have sameFiles : other.readableFiles = other.dexNames.filterMap archive.readable? :=
    List.filterMap_congr fun name member => cleared.readable?_eq member
  rw [sameFiles, cleared.dexNames_eq, readableNames, List.filterMap_filter, readableFiles]
  apply List.filterMap_congr
  intro name _
  rw [isReadable]
  cases archive.readable? name <;> rfl

/-- No entry that is left is skipped. -/
theorem skippedLines_eq (cleared : archive.WithoutDefective other) : other.skippedLines = [] := by
  rw [skippedLines, List.filterMap_eq_nil_iff]
  intro name member
  obtain ⟨file, readable⟩ := cleared.exists_readable? member
  refine (DexFile.skipped?_eq_none_iff (DexFile.isTolerated_of_readable? readable)).mpr ?_
  exact Option.isSome_of_eq_some readable

end WithoutDefective

end Entries

end Archive

/-- A package that opens has a size, and one after compression. -/
theorem Session.exists_sizes
    {session : Session}
    {apk : FilePath}
    {archive : Archive}
    (opened : Archive.openFile session.platform session.files apk = .ok archive) :
    ∃ size downloadSize,
      session.fileSize apk = .ok size ∧ session.downloadSize apk = .ok downloadSize := by
  obtain ⟨place, found, _⟩ := Archive.exists_file_of_openFile opened
  refine ⟨archive.bytes.size,
    session.platform.gzipSize session.settings.analysis.gzipLevel archive.bytes, ?_, ?_⟩
  · rw [fileSize, ApkAtlas.fileSize, found]
    rfl
  · rw [downloadSize, found]

namespace Analysis

section Answers

variable {Part : Type}

/-- A part of the report, or the warning that it is left out, from what reading it comes to. -/
def partOf
    (event : String)
    (leavesOut : Failure.Kind → Bool) :
    Except Fault Part → Except Fault (Option Part × List String)
  | .ok found => .ok (some found, [])
  | .error (.failure failure) =>
      if leavesOut failure.kind then
        .ok (none, [event ++ ": " ++ failure.message])
      else
        .error (.failure failure)
  | .error (.external error) => .error (.external error)

/-- A part of the report comes from what reading it comes to. -/
theorem ends_part
    {read : Logged Part}
    {answer : Except Fault Part}
    (entry event : String)
    (leavesOut : Failure.Kind → Bool)
    (ends : Ends read answer) :
    Ends (part entry event leavesOut read) (partOf event leavesOut answer) := by
  apply Ends.within
  apply (Logged.ends_attempt ends).bind_ok
  rcases answer with (failure | _) | _
  · by_cases isLeftOut : leavesOut failure.kind
    · simp only [partOf, isLeftOut, ↓reduceIte]
      exact (Logged.ends_log _ _ _).bind_ok (Logged.ends_pure _)
    · simp only [partOf, isLeftOut, Bool.false_eq_true, ↓reduceIte]
      exact Logged.ends_throw _
  · exact Logged.ends_throw _
  · exact Logged.ends_pure _

/-- What reading the manifest into a report comes to. -/
def manifestAnswer (archive : Archive) : Except Fault (Option Manifest × List String) :=
  partOf "Manifest not decoded" (fun kind => kind.isDecoding || kind == .validation)
    archive.manifest

/-- What reading the resource table into a report comes to. -/
def resourceAnswer (archive : Archive) : Except Fault (Option ResourceTable × List String) :=
  if archive.has ResourceTable.entryName then
    partOf "Resource table not decoded" Failure.Kind.isDecoding
      (ResourceTable.ofContent (archive.read ResourceTable.entryName))
  else
    .ok (none, [])

theorem ends_manifestPart (archive : Archive) :
    Ends (manifestPart archive) (manifestAnswer archive) :=
  ends_part _ _ _ archive.ends_manifest

theorem ends_resourcePart (archive : Archive) :
    Ends (resourcePart archive) (resourceAnswer archive) := by
  rw [resourcePart, resourceAnswer]
  split
  · exact ends_part _ _ _ archive.ends_resourceTable
  · exact Logged.ends_pure _

/-- What a report says besides the name, the sizes and the DEX files of the package. -/
structure Decoded where
  manifest : Option Manifest × List String
  resources : Option ResourceTable × List String
  tree : Package.BuildResult

/-- What a report says that does not depend on skipped entries. -/
def decoded
    (session : Session)
    (archive : Archive)
    (symbols : Except Fault SymbolMap)
    (files : List DexFile) :
    Except Fault Decoded := do
  let manifest ← manifestAnswer archive
  let resources ← resourceAnswer archive
  let symbols ← symbols
  let tree ← (session.build symbols files).result.mapError Package.BuildError.toFault
  return ⟨manifest, resources, tree⟩

/-- The report with what was decoded and the lines on skipped entries. -/
def Decoded.report
    (found : Decoded)
    (apk : FilePath)
    (maxDepth : Option Int)
    (fileSize downloadSize : Nat)
    (dexFiles : List Dex.FileStats)
    (lines : List String) :
    Report :=
  { apkName := apk.name
    fileSize, downloadSize, dexFiles
    manifest := found.manifest.1
    resources := found.resources.1
    packages := some (found.tree.root.summary maxDepth)
    warnings := found.manifest.2 ++ found.resources.2 ++ lines ++ buildWarnings found.tree }

/-- A report comes to what its parts come to, whatever is logged. -/
theorem ends_report
    {session : Session}
    {apk : FilePath}
    {mapping seeds : Option FilePath}
    {archive : Archive}
    {files : List DexFile}
    {lines : List String}
    {stats : List Dex.FileStats}
    {symbols : Except Fault SymbolMap}
    {size downloadSize : Nat}
    (maxDepth : Option Int)
    (opened : Archive.openFile session.platform session.files apk = .ok archive)
    (sized : session.fileSize apk = .ok size)
    (compressed : session.downloadSize apk = .ok downloadSize)
    (readable : Ends archive.dexFiles (.ok (files, lines)))
    (counted : Session.statsOf files = .ok stats)
    (loaded : Ends (session.symbolMap mapping seeds) symbols) :
    Ends (Analysis.report session apk mapping seeds maxDepth)
      ((decoded session archive symbols files).map fun found =>
        found.report apk maxDepth size downloadSize stats lines) := by
  change Ends _
    ((fun found : Decoded => found.report apk maxDepth size downloadSize stats lines) <$>
      decoded session archive symbols files)
  simp only [decoded, map_bind, map_pure]
  have ofFile : Ends (Logged.ofExcept (session.fileSize apk)) (.ok size) := by
    rw [← sized]
    exact Logged.ends_ofExcept _
  have ofDownload : Ends (Logged.ofExcept (session.downloadSize apk)) (.ok downloadSize) := by
    rw [← compressed]
    exact Logged.ends_ofExcept _
  have ofStats : Ends (Logged.ofExcept (Session.statsOf files)) (.ok stats) := by
    rw [← counted]
    exact Logged.ends_ofExcept _
  apply (Logged.ends_log _ _ _).bind_ok
  apply (Session.ends_openArchive opened).bind_ok
  apply ofFile.bind_ok
  apply ofDownload.bind_ok
  apply (ends_manifestPart archive).bind
  intro manifest
  apply (ends_resourcePart archive).bind
  intro resources
  apply readable.bind_ok
  apply ofStats.bind_ok
  apply loaded.bind
  intro symbols
  apply (session.ends_packageTree symbols files).bind
  intro tree
  exact (Logged.ends_log _ _ _).bind_ok (Logged.ends_pure _)

/-- What an analysis ends with, from what the report comes to. -/
def concluded : Except Fault Report → Except Fault (Outcome Report)
  | .ok report => .ok (.success report report.warnings metadata)
  | .error (.failure failure) => .ok (.failure failure.message [])
  | .error (.external error) => .error (.failure (stopped (.external error)))

/-- An analysis ends as its report does. -/
theorem ends_analyze
    {session : Session}
    {apk : FilePath}
    {mapping seeds : Option FilePath}
    {maxDepth : Option Int}
    {answer : Except Fault Report}
    (ends : Ends (Analysis.report session apk mapping seeds maxDepth) answer) :
    Ends (analyze session apk mapping seeds maxDepth) (concluded answer) := by
  have bound :
      Ends (modifyThe Journal (·.bind [("apk", .text apk.name)]) : Logged Unit) (.ok ()) :=
    fun _ => rfl
  have cleared : Ends (modifyThe Journal Journal.clear : Logged Unit) (.ok ()) :=
    fun _ => rfl
  apply bound.bind_ok
  apply (Logged.ends_attempt ends).bind_ok
  rcases answer with (failure | error) | report
  · exact (Logged.ends_log _ _ _).bind_ok (cleared.bind_ok (Logged.ends_pure _))
  · exact (Logged.ends_log _ _ _).bind_ok (cleared.bind_ok (Logged.ends_throw _))
  · exact cleared.bind_ok (Logged.ends_pure _)

/-- Two analyses end alike: with reports that differ in the name and the sizes of the package,
and in that only the first one has the lines among its warnings, or both with the same failure. -/
inductive SameButFor (lines : List String) :
    Except Fault (Outcome Report) → Except Fault (Outcome Report) → Prop where
  | reported {report other : Report} {front back : List String}
      (same : report =
        { other with
          apkName := report.apkName
          fileSize := report.fileSize
          downloadSize := report.downloadSize
          warnings := report.warnings })
      (warnings : report.warnings = front ++ lines ++ back)
      (otherWarnings : other.warnings = front ++ back) :
      SameButFor lines
        (.ok (.success report report.warnings metadata))
        (.ok (.success other other.warnings metadata))
  | failed {ended : Except Fault (Outcome Report)}
      (unsuccessful : ∀ outcome, ended = .ok outcome → ¬ outcome.succeeded) :
      SameButFor lines ended ended

/-- Reports of the same decoded parts end alike. -/
theorem sameButFor_of_decoded
    (found : Except Fault Decoded)
    (apk otherApk : FilePath)
    (maxDepth : Option Int)
    (size downloadSize otherSize otherDownloadSize : Nat)
    (stats : List Dex.FileStats)
    (lines : List String) :
    SameButFor lines
      (concluded (found.map fun decoded =>
        decoded.report apk maxDepth size downloadSize stats lines))
      (concluded (found.map fun decoded =>
        decoded.report otherApk maxDepth otherSize otherDownloadSize stats [])) := by
  rcases found with (failure | error) | decoded
  · apply SameButFor.failed
    rintro _ ⟨⟩
    exact Bool.false_ne_true
  · apply SameButFor.failed
    rintro _ ⟨⟩
  · apply @SameButFor.reported _ _ _ (decoded.manifest.2 ++ decoded.resources.2)
      (buildWarnings decoded.tree) rfl rfl
    simp only [Decoded.report, List.append_nil]

end Answers

end Analysis

/-- The archives have the same manifest and the same resource table. -/
@[mk_iff]
structure Archive.SharesParts (archive other : Archive) : Prop where
  manifest : other.read Manifest.entryName = archive.read Manifest.entryName
  hasResources : other.has ResourceTable.entryName = archive.has ResourceTable.entryName
  resources : other.read ResourceTable.entryName = archive.read ResourceTable.entryName

instance (archive other : Archive) : Decidable (archive.SharesParts other) :=
  decidable_of_iff' _ (Archive.sharesParts_iff archive other)

/-- Packages with the same manifest, resources and files are decoded alike. -/
theorem Archive.SharesParts.decoded_eq
    {archive other : Archive}
    (shares : archive.SharesParts other)
    (samePlatform : other.platform = archive.platform)
    {session otherSession : Session}
    (sameSettings : otherSession.settings = session.settings)
    (symbols : Except Fault SymbolMap)
    (files : List DexFile) :
    Analysis.decoded otherSession other symbols files =
      Analysis.decoded session archive symbols files := by
  simp only [Analysis.decoded, Analysis.manifestAnswer, Analysis.resourceAnswer, Session.build,
    Archive.manifest, samePlatform, shares.manifest, shares.hasResources, shares.resources,
    sameSettings]

section Sessions

variable
  {session : Session}
  {apk : FilePath}
  {archive : Archive}
  (opened : Archive.openFile session.platform session.files apk = .ok archive)

include opened

/-- Where the entries have no answers, there are no counts. -/
theorem Session.ends_dexReferences_of_error
    {fault : Fault}
    (failed : archive.dexAnswers = .error fault) :
    Ends (session.dexReferences apk) (.error fault) := by
  have ends := archive.ends_dexFiles
  rw [failed] at ends
  apply (Session.ends_openArchive opened).bind_ok
  exact ends.bind fun found => Logged.ends_ofExcept (Session.statsOf found.1)

/-- The counts are those of the files that can be read, in the order of loading. -/
theorem Session.exists_ends_dexReferences (tolerated : archive.TolerateAll) :
    ∃ stats,
      Session.statsOf archive.readableFiles = .ok stats ∧
        Ends (session.dexReferences apk) (.ok stats) ∧
        List.Forall₂
          (fun name one => ∃ file, archive.readable? name = some file ∧ file.stats = .ok one)
          archive.readableNames stats := by
  obtain ⟨stats, counted, listed⟩ := archive.exists_statsOf
  refine ⟨stats, counted, ?_, listed⟩
  rw [← counted]
  exact Session.ends_dexReferences opened (Archive.ends_dexFiles_of_tolerateAll tolerated)

/-- Where the entries have no answers, an analysis does not succeed. -/
theorem Session.not_succeeded_of_error
    {fault : Fault}
    (failed : archive.dexAnswers = .error fault)
    {mapping seeds : Option FilePath}
    {maxDepth : Option Int}
    {journal : Journal}
    {outcome : Outcome Report}
    (ended : (analyze session apk mapping seeds maxDepth journal).1 = .ok outcome) :
    ¬ outcome.succeeded := by
  obtain ⟨report, _, made, rfl⟩ | ⟨_, rfl⟩ := Analysis.analyze_cases ended
  · obtain ⟨_, _, combined⟩ := Analysis.exists_combined made
    cases (Session.ends_dexReferences_of_error opened failed).unique combined.dexFiles
  · exact Bool.false_ne_true

/-- An analysis ends alike without the entries that cannot be read, but for the lines on them. -/
theorem Session.sameButFor_of_withoutDefective
    {otherSession : Session}
    {otherApk : FilePath}
    {other : Archive}
    (otherOpened : Archive.openFile otherSession.platform otherSession.files otherApk = .ok other)
    (tolerated : archive.TolerateAll)
    (cleared : archive.WithoutDefective other)
    (sameSettings : otherSession.settings = session.settings)
    (shares : archive.SharesParts other)
    {mapping seeds : Option FilePath}
    {symbols : Except Fault SymbolMap}
    (loaded : Ends (session.symbolMap mapping seeds) symbols)
    (otherLoaded : Ends (otherSession.symbolMap mapping seeds) symbols)
    (maxDepth : Option Int)
    (journal otherJournal : Journal) :
    Analysis.SameButFor archive.skippedLines
      (analyze session apk mapping seeds maxDepth journal).1
      (analyze otherSession otherApk mapping seeds maxDepth otherJournal).1 := by
  obtain ⟨stats, counted, _⟩ := archive.exists_statsOf
  obtain ⟨size, downloadSize, sized, compressed⟩ := Session.exists_sizes opened
  obtain ⟨otherSize, otherDownloadSize, otherSized, otherCompressed⟩ :=
    Session.exists_sizes otherOpened
  have readable := Archive.ends_dexFiles_of_tolerateAll tolerated
  have otherReadable := Archive.ends_dexFiles_of_tolerateAll (cleared.tolerateAll tolerated)
  rw [cleared.readableFiles_eq, cleared.skippedLines_eq] at otherReadable
  have ends :=
    Analysis.ends_analyze
      (Analysis.ends_report maxDepth opened sized compressed readable counted loaded)
  have otherEnds :=
    Analysis.ends_analyze
      (Analysis.ends_report maxDepth otherOpened otherSized otherCompressed otherReadable counted
        otherLoaded)
  rw [shares.decoded_eq cleared.platform sameSettings] at otherEnds
  rw [ends journal, otherEnds otherJournal]
  exact Analysis.sameButFor_of_decoded _ _ _ _ _ _ _ _ _ _

end Sessions

/-! ## Packages with defective entries -/

/-- A package with a DEX entry of one byte, and the package without it. -/
def brokenOrCleared : Session :=
  let broken := Analysis.StoredEntry.archive [Analysis.StoredEntry.ofText "classes.dex" "x"]
  let cleared := Analysis.StoredEntry.archive []
  { platform := .builtin
    files := { nodes := [(["broken.apk"], .file broken), (["cleared.apk"], .file cleared)] } }

/-- A package with a DEX entry whose content is not what its checksum says. -/
def corruptDex : Session :=
  let bytes := Analysis.StoredEntry.archive [Analysis.StoredEntry.ofText "classes.dex" "x"]
  { platform := .builtin
    files := { nodes := [(["corrupt.apk"], .file (bytes.setIfInBounds 41 121))] } }

/-- Both packages open, and the second one is the first without its broken entry. -/
theorem exists_archives_of_brokenOrCleared :
    ∃ archive other,
      Archive.openFile brokenOrCleared.platform brokenOrCleared.files ⟨0, ["broken.apk"]⟩ =
          .ok archive ∧
        Archive.openFile brokenOrCleared.platform brokenOrCleared.files ⟨0, ["cleared.apk"]⟩ =
          .ok other ∧
        archive.defectiveNames = ["classes.dex"] ∧
        archive.TolerateAll ∧
        archive.WithoutDefective other ∧
        archive.SharesParts other := by
  have evaluated :
      ((Archive.openFile brokenOrCleared.platform brokenOrCleared.files
          ⟨0, ["broken.apk"]⟩).toOption.bind fun archive =>
        (Archive.openFile brokenOrCleared.platform brokenOrCleared.files
            ⟨0, ["cleared.apk"]⟩).toOption.map fun other =>
          decide
            (archive.names = ["classes.dex"] ∧ other.names = [] ∧
              Archive.LoadRank.firstLong? archive.names = none ∧
              archive.isReadable "classes.dex" = false ∧
              DexFile.IsTolerated archive.platform.dexParser "classes.dex"
                (archive.read "classes.dex") ∧
              archive.SharesParts other)) = some true := by
    decide +kernel
  obtain ⟨archive, opened, evaluated⟩ := Option.bind_eq_some_iff.mp evaluated
  obtain ⟨other, otherOpened, observed⟩ := Option.map_eq_some_iff.mp evaluated
  obtain ⟨names, otherNames, short, notReadable, isTolerated, shares⟩ :=
    of_decide_eq_true observed
  have opened := eq_ok_of_toOption opened
  have otherOpened := eq_ok_of_toOption otherOpened
  have dexNames : archive.dexNames = ["classes.dex"] := by
    rw [Archive.dexNames, names, ← Archive.eq_inLoadOrder (.refl _) (by decide)]
    decide
  have otherDexNames : other.dexNames = [] := by
    rw [Archive.dexNames, otherNames, ← Archive.eq_inLoadOrder (.refl _) .nil]
    rfl
  refine ⟨archive, other, opened, otherOpened, ?_, ?_, ?_, shares⟩
  · simp [Archive.defectiveNames, dexNames, notReadable]
  · refine ⟨Archive.LoadRank.firstLong?_eq_none_iff.mp short, ?_⟩
    intro name member
    rw [dexNames, List.mem_singleton] at member
    rwa [member]
  · constructor
    · rw [Archive.platform_of_openFile opened, Archive.platform_of_openFile otherOpened]
    · simp [names, otherNames, notReadable]
    · intro name member
      rw [otherDexNames] at member
      cases member

end ApkAtlas
