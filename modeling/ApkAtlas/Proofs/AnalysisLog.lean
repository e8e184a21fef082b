import ApkAtlas.Proofs.LogContext
import ApkAtlas.Proofs.Operations
import ApkAtlas.Proofs.SkippedFiles

namespace ApkAtlas

/-!
# What an analysis logs

An analysis emits its records one after another, some of them in blocks in which an archive entry
or a DEX file is bound: one block for the manifest, one for the resource table if there is one,
and one for each DEX file. It goes through these blocks in order, up to where it is stopped, and
the rest of it runs outside, where only the package is bound.
-/

open Logged (Block Emission Ends GoesThrough Passes)

/-! ## The blocks of an analysis -/

/-- The block in which a part of the report is read. -/
def Analysis.partBlock
    {Part : Type}
    (entry event : String)
    (leavesOut : Failure.Kind → Bool)
    (read : Logged Part) :
    Block where
  values := [("entry", .text entry)]
  effect journal := (tryPart event leavesOut read journal).2

namespace Archive

/-- The block in which the manifest is read. -/
def manifestBlock (archive : Archive) : Block :=
  Analysis.partBlock Manifest.entryName "Manifest not decoded"
    (fun kind => kind.isDecoding || kind == .validation)
    (do return Manifest.ofElement (← archive.manifestRoot))

/-- The block in which the resource table is read, if there is one. -/
def resourceBlocks (archive : Archive) : List Block :=
  if archive.has ResourceTable.entryName then
    [ Analysis.partBlock ResourceTable.entryName "Resource table not decoded"
        Failure.Kind.isDecoding archive.resourceTable ]
  else
    []

/-- The block in which a DEX file is decoded, if its content can be read. -/
def dexBlock (archive : Archive) (name : String) : List Block :=
  match archive.read name with
  | .ok bytes =>
      let decoding := DexFile.decodeLogged archive.platform.dexParser name bytes
      [⟨[("dex", .text name)], fun journal => (decoding journal).2⟩]
  | .error _ => []

/-- The blocks of some DEX files, up to the first one that stops the analysis. -/
def dexBlocks (archive : Archive) : List String → List Block
  | [] => []
  | name :: rest =>
      archive.dexBlock name ++
        if (archive.dexAnswer name).isOk then archive.dexBlocks rest else []

/-- The blocks of all DEX files; none if the order of loading is not known. -/
def loadedBlocks (archive : Archive) : List Block :=
  match archive.loadOrder with
  | .ok names => archive.dexBlocks names
  | .error _ => []

/-- The blocks that an analysis of the archive enters, in order. -/
def blocks (archive : Archive) : List Block :=
  archive.manifestBlock ::
    if (Analysis.manifestAnswer archive).isOk then
      archive.resourceBlocks ++
        if (Analysis.resourceAnswer archive).isOk then
          archive.loadedBlocks
        else
          []
    else
      []

end Archive

/-- The blocks that an analysis enters; none if the package does not open. -/
def Session.blocks (session : Session) (apk : FilePath) : List Block :=
  match Archive.openFile session.platform session.files apk with
  | .ok archive => archive.blocks
  | .error _ => []

/-! ## What enters no block -/

/-- Taking a content enters no block. -/
theorem Archive.goesThrough_content (archive : Archive) (name : String) :
    GoesThrough [] (archive.content name) :=
  (Logged.goesThrough_ofExcept_log (fun _ => rfl) _).adapt _

/-- Decoding a document enters no block. -/
theorem Xml.Document.goesThrough_decodeLogged (bytes : Bytes) :
    GoesThrough [] (Xml.Document.decodeLogged bytes) := by
  apply (Logged.goesThrough_forM _ _).bind_flat
  · intro _
    exact Logged.goesThrough_ofExcept_log (fun _ => rfl) _
  · intro header
    exact Logged.goesThrough_log rfl

/-- Decoding a manifest enters no block of its own. -/
theorem Manifest.goesThrough_decodeLogged (parse : Xml.Markup.Parser) (bytes : Bytes) :
    GoesThrough [] (Manifest.decodeLogged parse bytes) := by
  rw [decodeLogged]
  split
  · exact Logged.goesThrough_ofExcept _
  · apply ((Xml.Document.goesThrough_decodeLogged bytes).adapt _).bind_flat
    intro document
    exact Logged.goesThrough_pure document.root

/-- Decoding a resource table enters no block of its own. -/
theorem ResourceTable.goesThrough_decodeLogged (bytes : Bytes) :
    GoesThrough [] (ResourceTable.decodeLogged bytes) := by
  apply (Logged.goesThrough_forM _ _).bind_flat
  · intro _
    exact Logged.goesThrough_ofExcept_log (fun _ => rfl) _
  · intro package
    exact Logged.goesThrough_log rfl

/-- Loading a symbol map enters no block. -/
theorem SymbolMap.goesThrough_load
    (tree : FileTree)
    (mapping seeds : Option FilePath)
    (strict : Bool) :
    GoesThrough [] (SymbolMap.load tree mapping seeds strict) := by
  rw [load]
  split
  · exact (Logged.goesThrough_log rfl).bind_flat fun _ => Logged.goesThrough_pure _
  · exact Logged.goesThrough_throw _
  · cases strict with
    | true =>
        exact Logged.goesThrough_throw _
    | false =>
        exact (Logged.goesThrough_log rfl).bind_flat fun _ => Logged.goesThrough_pure _

/-- A build enters no block. -/
theorem Package.Build.goesThrough_logged (build : Package.Build) :
    GoesThrough [] build.logged := by
  apply (Logged.goesThrough_forM _ _).bind_flat
  · intro _
    exact Logged.goesThrough_ofExcept_log (fun _ => rfl) _
  · intro file
    apply Logged.goesThrough_forM
    intro decision
    cases decision with
    | added =>
        exact Logged.goesThrough_pure ()
    | duplicate warning =>
        exact Logged.goesThrough_log rfl
    | rejected rejection =>
        exact Logged.goesThrough_log rfl

/-! ## What enters blocks -/

section Blocks

variable (archive : Archive)

/-- A part of the report is read in its own block, with the handling of its errors. -/
theorem Analysis.goesThrough_part
    {Part : Type}
    {read : Logged Part}
    (goes : GoesThrough [] read)
    (entry event : String)
    (leavesOut : Failure.Kind → Bool)
    (plain : ∀ text, (Logged.Event.mk .warning event [("error", .text text)]).isPlain) :
    GoesThrough [partBlock entry event leavesOut read] (part entry event leavesOut read) := by
  rw [part]
  apply GoesThrough.within
  apply goes.attempt.bind_flat
  intro ended
  rcases ended with (failure | _) | _
  · by_cases isLeftOut : leavesOut failure.kind
    · simp only [isLeftOut, ↓reduceIte]
      apply (Logged.goesThrough_log (plain _)).bind_flat
      intro _
      exact Logged.goesThrough_pure _
    · simp only [isLeftOut, Bool.false_eq_true, ↓reduceIte]
      exact Logged.goesThrough_throw _
  · exact Logged.goesThrough_throw _
  · exact Logged.goesThrough_pure _

/-- The manifest is read in its block. -/
theorem Analysis.goesThrough_manifestPart :
    GoesThrough [archive.manifestBlock] (manifestPart archive) := by
  have ofRoot : GoesThrough [] archive.manifestRoot :=
    (archive.goesThrough_content _).bind_flat (Manifest.goesThrough_decodeLogged _)
  have read : GoesThrough [] (do return Manifest.ofElement (← archive.manifestRoot)) :=
    ofRoot.bind_flat fun root => Logged.goesThrough_pure (Manifest.ofElement root)
  exact goesThrough_part read _ _ _ fun _ => rfl

/-- The resource table is read in its block, if there is one. -/
theorem Analysis.goesThrough_resourcePart :
    GoesThrough archive.resourceBlocks (resourcePart archive) := by
  rw [resourcePart, Archive.resourceBlocks]
  split
  · have read : GoesThrough [] archive.resourceTable := by
      apply (archive.goesThrough_content _).bind_flat
      intro bytes
      exact (ResourceTable.goesThrough_decodeLogged bytes).adapt _
    exact goesThrough_part read _ _ _ fun _ => rfl
  · exact Logged.goesThrough_pure _

theorem DexFile.goesThrough_decodeLogged
    (parser : Dex.Parser)
    (name : String)
    (bytes : Bytes) :
    GoesThrough [] (decodeLogged parser name bytes) := by
  rw [decodeLogged]
  split
  · exact Logged.goesThrough_pure _
  · split
    · exact (Logged.goesThrough_log rfl).bind_flat fun _ => Logged.goesThrough_pure _
    · exact Logged.goesThrough_throw _

/-- A DEX file is decoded in its block, behind taking its content. -/
theorem Archive.goesThrough_dexFile (name : String) :
    GoesThrough (archive.dexBlock name) (archive.dexFile name) := by
  have ends := archive.ends_content name
  rw [dexFile]
  change GoesThrough ([] ++ archive.dexBlock name) _
  apply (archive.goesThrough_content name).bind
  · intro bytes journal ended
    have read := eq_ok_of_mapError ((ends journal).symm.trans ended)
    rw [dexBlock, read]
    exact (DexFile.goesThrough_decodeLogged _ name bytes).within _
  · intro error journal ended
    have failed := (ends journal).symm.trans ended
    rw [dexBlock]
    cases read : archive.read name with
    | ok _ =>
        rw [read] at failed
        cases failed
    | error _ =>
        rfl

/-- The files are read one after another, each with its own block. -/
theorem Archive.goesThrough_mapM_dexFile (names : List String) :
    GoesThrough (archive.dexBlocks names) (names.mapM archive.dexFile) := by
  induction names with
  | nil =>
      exact Logged.goesThrough_pure []
  | cons name rest inductionHypothesis =>
      rw [List.mapM_cons]
      apply (archive.goesThrough_dexFile name).bind_of_ends (archive.ends_dexFile name)
      intro file _
      apply inductionHypothesis.bind_flat
      intro files
      exact Logged.goesThrough_pure (file :: files)

/-- The DEX files are read in their blocks, if the order of loading is known. -/
theorem Archive.goesThrough_dexFiles : GoesThrough archive.loadedBlocks archive.dexFiles := by
  rw [dexFiles, loadedBlocks]
  cases archive.loadOrder with
  | error error =>
      change GoesThrough ([] ++ []) _
      apply (Logged.goesThrough_ofExcept (.error error.toFault)).bind
      · intro names _ known
        cases known
      · intro _ _ _
        rfl
  | ok names =>
      apply (Logged.goesThrough_ofExcept _).bind_ok (Logged.ends_ofExcept _)
      exact (archive.goesThrough_mapM_dexFile names).bind_flat fun _ => Logged.goesThrough_pure _

end Blocks

/-! ## The whole analysis -/

/-- A report is made through the blocks of the package. -/
theorem Analysis.goesThrough_report
    (session : Session)
    (apk : FilePath)
    (mapping seeds : Option FilePath)
    (maxDepth : Option Int) :
    GoesThrough (session.blocks apk) (report session apk mapping seeds maxDepth) := by
  apply (Logged.goesThrough_log rfl).bind_ok (Logged.ends_log _ _ _)
  change GoesThrough ([] ++ session.blocks apk) _
  apply (Logged.goesThrough_ofExcept _).bind
  · intro archive _ opened
    have opened := eq_ok_of_mapError opened
    obtain ⟨size, downloadSize, sized, compressed⟩ := Session.exists_sizes opened
    rw [Session.blocks, opened, sized, compressed]
    apply (Logged.goesThrough_ofExcept _).bind_ok (Logged.ends_ofExcept _)
    apply (Logged.goesThrough_ofExcept _).bind_ok (Logged.ends_ofExcept _)
    apply (goesThrough_manifestPart archive).bind_of_ends (ends_manifestPart archive)
    rintro ⟨manifest, manifestWarnings⟩ _
    apply (goesThrough_resourcePart archive).bind_of_ends (ends_resourcePart archive)
    rintro ⟨resources, resourceWarnings⟩ _
    apply archive.goesThrough_dexFiles.bind_flat
    rintro ⟨files, dexWarnings⟩
    apply (Logged.goesThrough_ofExcept _).bind_flat
    intro dexFiles
    apply (SymbolMap.goesThrough_load _ _ _ _).bind_flat
    intro symbols
    apply ((Package.Build.goesThrough_logged _).adapt _).bind_flat
    intro tree
    exact (Logged.goesThrough_log rfl).bind_flat fun _ => Logged.goesThrough_pure _
  · intro fault _ failed
    have failed :
        (Archive.openFile session.platform session.files apk).mapError ArchiveError.toFault =
          .error fault :=
      failed
    rw [Session.blocks]
    cases opened : Archive.openFile session.platform session.files apk with
    | ok _ =>
        rw [opened] at failed
        cases failed
    | error _ =>
        rfl

/-- A block of a DEX file binds the file. -/
theorem Archive.values_of_mem_dexBlocks
    {archive : Archive}
    {names : List String}
    {block : Block}
    (member : block ∈ archive.dexBlocks names) :
    ∃ name ∈ names, block.values = [("dex", .text name)] := by
  induction names with
  | nil =>
      cases member
  | cons name rest inductionHypothesis =>
      rcases List.mem_append.mp member with ofName | ofRest
      · rw [Archive.dexBlock] at ofName
        split at ofName
        · cases List.mem_singleton.mp ofName
          exact ⟨name, List.mem_cons_self, rfl⟩
        · cases ofName
      · split at ofRest
        · obtain ⟨other, inRest, values⟩ := inductionHypothesis ofRest
          exact ⟨other, List.mem_cons_of_mem name inRest, values⟩
        · cases ofRest

theorem Archive.values_of_mem_loadedBlocks
    {archive : Archive}
    {block : Block}
    (member : block ∈ archive.loadedBlocks) :
    ∃ name ∈ archive.dexNames, block.values = [("dex", .text name)] := by
  rw [Archive.loadedBlocks] at member
  rcases archive.loadOrder_cases with ⟨_, known⟩ | ⟨_, _, _, _, _, unknown⟩
  · rw [known] at member
    exact Archive.values_of_mem_dexBlocks member
  · rw [unknown] at member
    cases member

/-- Each block binds an entry or a DEX file, and nothing else. -/
theorem Archive.values_of_mem_blocks
    {archive : Archive}
    {block : Block}
    (member : block ∈ archive.blocks) :
    (∃ entry ∈ [Manifest.entryName, ResourceTable.entryName],
      block.values = [("entry", .text entry)]) ∨
      ∃ name ∈ archive.dexNames, block.values = [("dex", .text name)] := by
  rcases List.mem_cons.mp member with rfl | member
  · exact .inl ⟨_, List.mem_cons_self, rfl⟩
  · split at member
    · rcases List.mem_append.mp member with inResources | member
      · rw [Archive.resourceBlocks] at inResources
        split at inResources
        · cases List.mem_singleton.mp inResources
          exact .inl ⟨_, List.mem_cons_of_mem _ List.mem_cons_self, rfl⟩
        · cases inResources
      · split at member
        · exact .inr (Archive.values_of_mem_loadedBlocks member)
        · cases member
    · cases member

/-- No block binds the package. -/
theorem Session.values_of_mem_blocks
    {session : Session}
    {apk : FilePath}
    {block : Block}
    (member : block ∈ session.blocks apk) :
    ∃ key value, block.values = [(key, value)] ∧ key ≠ "apk" := by
  rw [Session.blocks] at member
  split at member
  · rcases Archive.values_of_mem_blocks member with ⟨entry, _, values⟩ | ⟨name, _, values⟩
    · exact ⟨"entry", _, values, by decide⟩
    · exact ⟨"dex", _, values, by decide⟩
  · cases member

/-- The blocks of a package bind none of what is bound from the start. -/
theorem Session.apart_of_mem_blocks
    {session : Session}
    {apk : FilePath}
    {block : Block}
    (member : block ∈ session.blocks apk) :
    ∀ key ∈ block.values.map Prod.fst, key ∉ [("apk", Datum.text apk.name)].map Prod.fst := by
  intro key isKey
  obtain ⟨_, _, values, other⟩ := Session.values_of_mem_blocks member
  rw [values, List.map_singleton, List.mem_singleton] at isKey
  rw [List.map_singleton, List.mem_singleton, isKey]
  exact other

/-- An emission has the package bound, and then what its block binds. -/
theorem Session.context_of_merge
    {session : Session}
    {apk : FilePath}
    {emission : Emission}
    (merged : emission.context = LogValues.merge [("apk", .text apk.name)] emission.bound)
    (known : ∀ block, emission.during = some block → block ∈ session.blocks apk) :
    emission.context = ("apk", .text apk.name) :: emission.bound ∧
      (emission.context.map Prod.fst).Nodup := by
  rw [merged, Emission.bound]
  cases during : emission.during with
  | none =>
      exact ⟨rfl, List.nodup_singleton _⟩
  | some block =>
      have inBlocks := known block during
      obtain ⟨key, value, values, other⟩ := Session.values_of_mem_blocks inBlocks
      have different : (block.values.map Prod.fst).Nodup := by
        rw [values]
        exact List.nodup_singleton key
      rw [Option.map_some, Option.getD_some,
        LogValues.merge_of_apart different (Session.apart_of_mem_blocks inBlocks), values]
      exact ⟨rfl, by simpa using other.symm⟩

/-- With the package bound, an analysis goes through its blocks, and then the context is cleared. -/
theorem Analysis.exists_passes
    (session : Session)
    (apk : FilePath)
    (mapping seeds : Option FilePath)
    (maxDepth : Option Int)
    (records : List LogRecord) :
    ∃ emissions reached,
      Passes (session.blocks apk) emissions ⟨[("apk", .text apk.name)], records⟩ reached ∧
        (analyze session apk mapping seeds maxDepth ⟨[], records⟩).2 = reached.clear := by
  have start :
      Journal.bind ⟨[], records⟩ [("apk", .text apk.name)] =
        ⟨[("apk", .text apk.name)], records⟩ :=
    rfl
  obtain ⟨emissions, passes⟩ :=
    goesThrough_report session apk mapping seeds maxDepth ⟨[("apk", .text apk.name)], records⟩
  rw [analyze_eq, start]
  cases ended :
      (report session apk mapping seeds maxDepth ⟨[("apk", .text apk.name)], records⟩).1 with
  | ok report =>
      exact ⟨emissions, _, passes, rfl⟩
  | error fault =>
      let failed : Logged.Event :=
        ⟨.error, "APK analysis failed", [("error", .text fault.message)]⟩
      have passesAll := passes.trans (@Passes.emit _ _ _ _ failed rfl .stay)
      rw [List.append_nil] at passesAll
      exact ⟨_, _, passesAll, rfl⟩

/-- A block that covers a value, with one in it that covers another and raises an error, and an
event after the error was caught. -/
def nestedScript : Script :=
  .guarded
    (.block [("dex", .text "classes2.dex"), ("entry", .text "classes2.dex")]
      (.block [("apk", .text "b.apk")] (.raised (.external ⟨.badValue, ""⟩)) .done) .done)
    .done
    (.emitted .info "Caught" [] .done)

/-- A journal with a package and a DEX file bound. -/
def boundDex : Journal where
  context := [("apk", .text "a.apk"), ("dex", .text "classes.dex")]

end ApkAtlas
