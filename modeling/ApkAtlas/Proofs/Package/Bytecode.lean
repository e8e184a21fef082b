import ApkAtlas.Proofs.Dex.OwnMembers
import ApkAtlas.Proofs.Package.Referenced
import ApkAtlas.Proofs.Package.Stopping

namespace ApkAtlas.Package

open PackageNode

/-!
# What the referenced counters say of bytecode

A DEX file refers to everything that it declares, so where references are recorded each
declared member counts as referenced, whatever the symbol map knew before. The counters of
a class then say how many different members its kept declaration has.
-/

/-- Each member that the file declares is also a reference of the file. -/
def RefersToOwn (source : SymbolSource) : Prop :=
  ∀ declared ∈ source.classes, ∀ kind, ∀ signature ∈ declared.members kind,
    ⟨declared.name, signature, kind⟩ ∈ source.references

/-- What a class declares under a signature is one of its items. -/
theorem exists_item_of_mem_members
    {declared : Dex.DeclaredClass}
    {kind : MemberKind}
    {signature : String}
    (member : signature ∈ declared.parsed.symbols.members kind) :
    ∃ item ∈ declared.members kind, item.member.signature kind = signature := by
  cases kind with
  | method | field =>
      obtain ⟨parsed, inParsed, rfl⟩ := List.mem_map.mp member
      obtain ⟨item, inItems, rfl⟩ := List.mem_map.mp inParsed
      exact ⟨item, inItems, rfl⟩

/-- A DEX file refers to the members that its classes declare as their own. -/
theorem refersToOwn_of_symbols
    {parser : Dex.Parser}
    {name : String}
    {bytes : Bytes}
    {source : SymbolSource}
    (wellFormed : Dex.IsWellFormed bytes)
    (faithful : parser.IsFaithful bytes)
    (read : parser.symbols name bytes = .ok source) :
    RefersToOwn source := by
  obtain ⟨classes, declaredClasses, referred⟩ :=
    Dex.declared_mem_references wellFormed faithful read
  intro declared inSource kind signature member
  rw [declaredClasses] at inSource
  obtain ⟨items, inClasses, rfl⟩ := List.mem_map.mp inSource
  obtain ⟨item, inItems, rfl⟩ := exists_item_of_mem_members member
  exact referred items inClasses kind item inItems

/-- The symbols of well-formed files are read exactly if all files have their tables of
members. -/
theorem exists_sources_iff
    {parser : Dex.Parser}
    {files : List (String × Bytes)}
    (wellFormed : ∀ file ∈ files, Dex.IsWellFormed file.2)
    (faithful : ∀ file ∈ files, parser.IsFaithful file.2) :
    (∃ sources, files.mapM (fun file => parser.symbols file.1 file.2) = .ok sources) ↔
      ∀ file ∈ files, Dex.HasReferences file.2 := by
  have one (file : String × Bytes) (inFiles : file ∈ files) :=
    Dex.exists_symbols_iff (wellFormed file inFiles) (faithful file inFiles) file.1
  constructor
  · rintro ⟨sources, read⟩ file inFiles
    obtain ⟨source, _, readFile⟩ := exists_result_of_mem read inFiles
    exact (one file inFiles).mp ⟨source, readFile⟩
  · intro listed
    exact exists_mapM_eq_ok fun file inFiles => (one file inFiles).mpr (listed file inFiles)

section Counting

variable
  {settings : BuildSettings}
  {symbols : SymbolMap}
  {sources : List SymbolSource}
  {source : SymbolSource}
  {declared : ClassSymbols}

/-- All members of a class count as referenced. -/
theorem countReferenced_of_refersToOwn
    (records : settings.recordReferences)
    (inSources : source ∈ sources)
    (refers : RefersToOwn source)
    (inClasses : declared ∈ source.classes)
    (kind : MemberKind)
    (sourceName : String) :
    countReferenced (settings.symbolsFor symbols sources) kind
        (Descriptor.className declared.name) sourceName (distinct (declared.members kind)) =
      .ok {signature | signature ∈ declared.members kind}.ncard := by
  have counted :=
    @countReferenced_distinct (settings.symbolsFor symbols sources) kind
      (Descriptor.className declared.name) sourceName (fun _ => True) (declared.members kind)
  simp only [and_true, iff_true] at counted
  apply counted
  intro signature member
  refine ⟨true, ?_, rfl⟩
  have used :
      (settings.symbolsFor symbols sources).usage.usesMember
        (Descriptor.className declared.name) signature kind := by
    rw [BuildSettings.symbolsFor, if_pos records, SymbolMap.usesMember_recordSources]
    exact .inl ⟨source, inSources, _, refers declared inClasses kind signature member,
      rfl, rfl, rfl⟩
  rw [isReferenced, if_pos used]
  rfl

/-- The label of a class counts each of its members once as referenced. -/
theorem declaredLabel_of_refersToOwn
    (records : settings.recordReferences)
    (inSources : source ∈ sources)
    (refers : RefersToOwn source)
    (inClasses : declared ∈ source.classes)
    (fileName : String) :
    ∃ label,
      declaredLabel (settings.symbolsFor symbols sources) fileName declared = .ok label ∧
        label.own.referencedMethods = {signature | signature ∈ declared.methods}.ncard ∧
        label.own.referencedFields = {signature | signature ∈ declared.fields}.ncard := by
  have counted := @countReferenced_of_refersToOwn settings symbols sources source declared
    records inSources refers inClasses
  rw [declaredLabel, classLabel]
  have methods := counted .method
  have fields := counted .field
  simp only [ClassSymbols.members] at methods fields
  rw [methods, fields]
  exact ⟨_, rfl, rfl, rfl⟩

theorem exists_source_of_kept
    {result : BuildResult}
    {known : SymbolMap}
    {policy : DuplicatePolicy}
    {name : String}
    {entry : Entry}
    (returned : (build settings symbols sources).result = .ok result)
    (kept :
      keptDeclaration? known policy name ((build settings symbols sources).entries sources) =
        some entry) :
    ∃ source ∈ sources, entry.declared ∈ source.classes := by
  have member := List.mem_map_of_mem (f := Entry.declaration) (mem_of_keptDeclaration? kept).1
  rw [(run_build (result_eq_ok returned).1).2, Entry.declaration, mem_declarations] at member
  obtain ⟨source, inSources, _, inClasses⟩ := member
  exact ⟨source, inSources, inClasses⟩

end Counting

/--
The referenced counters of a tree that is built from bytecode. If the members that the
classes of some DEX files declare are their own, and a parser reads these files faithfully,
then each of the members is listed among the references of its file under the same class name
and signature. The files are read if they have their tables of members. A build that records
references then returns, and each class node counts the different methods and fields of its
kept declaration.
-/
theorem referenced_counts_of_bytecode
    {parser : Dex.Parser}
    {settings : BuildSettings}
    {files : List (String × Bytes)}
    (symbols : SymbolMap)
    (wellFormed : ∀ file ∈ files, Dex.IsWellFormed file.2)
    (faithful : ∀ file ∈ files, parser.IsFaithful file.2)
    (records : settings.recordReferences)
    (tolerant : settings.policy ≠ .refuse) :
    ((∃ sources, files.mapM (fun file => parser.symbols file.1 file.2) = .ok sources) ↔
        ∀ file ∈ files, Dex.HasReferences file.2) ∧
      ∀ sources, files.mapM (fun file => parser.symbols file.1 file.2) = .ok sources →
        (∀ source ∈ sources, RefersToOwn source) ∧
          ∃ result,
            (build settings symbols sources).result = .ok result ∧
              ∀ path label, (path, label) ∈ result.root.classes →
                ∃ entry,
                  keptDeclaration? symbols settings.policy (qualifiedName path)
                      ((build settings symbols sources).entries sources) = some entry ∧
                    label.own.referencedMethods =
                      {signature | signature ∈ entry.declared.methods}.ncard ∧
                    label.own.referencedFields =
                      {signature | signature ∈ entry.declared.fields}.ncard := by
  refine ⟨exists_sources_iff wellFormed faithful, ?_⟩
  intro sources read
  have refers (source : SymbolSource) (inSources : source ∈ sources) : RefersToOwn source := by
    obtain ⟨file, inFiles, readFile⟩ := exists_of_mem_results read inSources
    exact refersToOwn_of_symbols (wellFormed file inFiles) (faithful file inFiles) readFile
  have labelled (source : SymbolSource) (inSources : source ∈ sources) :=
    fun (declared : ClassSymbols) (inClasses : declared ∈ source.classes) =>
      @declaredLabel_of_refersToOwn settings symbols sources source declared
        records inSources (refers source inSources) inClasses
  obtain ⟨result, returned⟩ :
      ∃ result, (build settings symbols sources).result = .ok result := by
    apply exists_result tolerant
    intro source inSources declared inClasses
    obtain ⟨label, found, _⟩ := labelled source inSources declared inClasses source.name
    exact ⟨label, found⟩
  refine ⟨refers, result, returned, ?_⟩
  intro path label member
  obtain ⟨root, rolled, contents⟩ := contents_of_result returned
  rw [rolled] at member
  obtain ⟨entry, before, kept, entryLabelled, same⟩ := contents.exists_kept_of_class member
  obtain ⟨source, inSources, inClasses⟩ := exists_source_of_kept returned kept
  obtain ⟨found, labelledAgain, methods, fields⟩ :=
    labelled source inSources entry.declared inClasses entry.fileName
  cases entryLabelled.symm.trans labelledAgain
  rw [keptDeclaration?_symbolsFor] at kept
  rw [same]
  exact ⟨entry, kept, methods, fields⟩

/-- A DEX file that declares a class `A` with a method `m` and a field `m`. -/
def namesakeMembers : Bytes :=
  #[
    -- The header.
    0x64, 0x65, 0x78, 0x0A, 0x30, 0x33, 0x35, 0x00, 0x1F, 0x2A, 0x75, 0x38, 0x27, 0x4C,
    0xED, 0x52, 0xCD, 0x98, 0x07, 0x1D, 0xDE, 0xB3, 0xED, 0x79, 0x90, 0x8F, 0x75, 0x47,
    0x14, 0x0C, 0x6A, 0xA6, 0xA0, 0x01, 0x00, 0x00, 0x70, 0x00, 0x00, 0x00, 0x78, 0x56,
    0x34, 0x12, 0x00, 0x00, 0x00, 0x00, 0x00, 0x00, 0x00, 0x00, 0x18, 0x01, 0x00, 0x00,
    0x07, 0x00, 0x00, 0x00, 0x70, 0x00, 0x00, 0x00, 0x05, 0x00, 0x00, 0x00, 0x8C, 0x00,
    0x00, 0x00, 0x01, 0x00, 0x00, 0x00, 0xA0, 0x00, 0x00, 0x00, 0x01, 0x00, 0x00, 0x00,
    0xAC, 0x00, 0x00, 0x00, 0x01, 0x00, 0x00, 0x00, 0xB4, 0x00, 0x00, 0x00, 0x01, 0x00,
    0x00, 0x00, 0xBC, 0x00, 0x00, 0x00, 0xC4, 0x00, 0x00, 0x00, 0xDC, 0x00, 0x00, 0x00,
    -- The places of the strings, and the types.
    0xE4, 0x00, 0x00, 0x00, 0xE7, 0x00, 0x00, 0x00, 0xEA, 0x00, 0x00, 0x00, 0xEF, 0x00,
    0x00, 0x00, 0x03, 0x01, 0x00, 0x00, 0x06, 0x01, 0x00, 0x00, 0x0B, 0x01, 0x00, 0x00,
    0x00, 0x00, 0x00, 0x00, 0x01, 0x00, 0x00, 0x00, 0x02, 0x00, 0x00, 0x00, 0x03, 0x00,
    0x00, 0x00, 0x04, 0x00, 0x00, 0x00,
    -- The prototype, the field and the method.
    0x05, 0x00, 0x00, 0x00, 0x04, 0x00, 0x00, 0x00, 0xDC, 0x00, 0x00, 0x00, 0x02, 0x00,
    0x00, 0x00, 0x06, 0x00, 0x00, 0x00, 0x02, 0x00, 0x00, 0x00, 0x06, 0x00, 0x00, 0x00,
    -- The class.
    0x02, 0x00, 0x00, 0x00, 0x01, 0x00, 0x00, 0x00, 0x03, 0x00, 0x00, 0x00, 0x00, 0x00,
    0x00, 0x00, 0xFF, 0xFF, 0xFF, 0xFF, 0x00, 0x00, 0x00, 0x00, 0x0E, 0x01, 0x00, 0x00,
    0x00, 0x00, 0x00, 0x00,
    -- The parameters.
    0x02, 0x00, 0x00, 0x00, 0x00, 0x00, 0x01, 0x00,
    -- The strings.
    0x01, 0x49, 0x00, 0x01, 0x4A, 0x00, 0x03, 0x4C, 0x41, 0x3B, 0x00, 0x12, 0x4C, 0x6A,
    0x61, 0x76, 0x61, 0x2F, 0x6C, 0x61, 0x6E, 0x67, 0x2F, 0x4F, 0x62, 0x6A, 0x65, 0x63,
    0x74, 0x3B, 0x00, 0x01, 0x56, 0x00, 0x03, 0x56, 0x49, 0x4A, 0x00, 0x01, 0x6D, 0x00,
    -- The members of the class.
    0x00, 0x01, 0x00, 0x01, 0x00, 0x01, 0x00, 0x81, 0x08, 0x00,
    -- The map.
    0x0B, 0x00, 0x00, 0x00, 0x00, 0x00, 0x00, 0x00, 0x01, 0x00, 0x00, 0x00, 0x00, 0x00,
    0x00, 0x00, 0x01, 0x00, 0x00, 0x00, 0x07, 0x00, 0x00, 0x00, 0x70, 0x00, 0x00, 0x00,
    0x02, 0x00, 0x00, 0x00, 0x05, 0x00, 0x00, 0x00, 0x8C, 0x00, 0x00, 0x00, 0x03, 0x00,
    0x00, 0x00, 0x01, 0x00, 0x00, 0x00, 0xA0, 0x00, 0x00, 0x00, 0x04, 0x00, 0x00, 0x00,
    0x01, 0x00, 0x00, 0x00, 0xAC, 0x00, 0x00, 0x00, 0x05, 0x00, 0x00, 0x00, 0x01, 0x00,
    0x00, 0x00, 0xB4, 0x00, 0x00, 0x00, 0x06, 0x00, 0x00, 0x00, 0x01, 0x00, 0x00, 0x00,
    0xBC, 0x00, 0x00, 0x00, 0x01, 0x10, 0x00, 0x00, 0x01, 0x00, 0x00, 0x00, 0xDC, 0x00,
    0x00, 0x00, 0x02, 0x20, 0x00, 0x00, 0x07, 0x00, 0x00, 0x00, 0xE4, 0x00, 0x00, 0x00,
    0x00, 0x20, 0x00, 0x00, 0x01, 0x00, 0x00, 0x00, 0x0E, 0x01, 0x00, 0x00, 0x00, 0x10,
    0x00, 0x00, 0x01, 0x00, 0x00, 0x00, 0x18, 0x01, 0x00, 0x00]

/-- The class that the file declares. -/
def namesakeClass : ClassSymbols :=
  { name := "LA;", methods := ["m(IJ)V"], fields := ["m:I"] }

/-- What the file says under a name. -/
def namesakeSource (name : String) : SymbolSource :=
  { name
    classes := [namesakeClass]
    references := [⟨"LA;", "m(IJ)V", .method⟩, ⟨"LA;", "m:I", .field⟩] }

/-- The tables of the file are read by its map. -/
theorem read_namesakeMembers :
    Dex.Tables.read namesakeMembers = Dex.Tables.readSections namesakeMembers := by
  apply Dex.Tables.read_eq_readSections
  · decide +kernel
  · decide +kernel
  · rw [Checksum.adler32_eq_foldl]
    decide +kernel

/-- The members of the class stand in the tables, with spaces between the parameters. -/
theorem tableClasses_namesakeMembers :
    Dex.tableClasses namesakeMembers =
      .ok [⟨"LA;", [⟨"LA;", "m", "(I J)V"⟩], [⟨"LA;", "m", "I"⟩]⟩] := by
  rw [Dex.tableClasses, read_namesakeMembers]
  apply eq_ok_of_toOption
  decide +kernel

theorem tableReferences_namesakeMembers (kind : MemberKind) :
    Dex.tableReferences kind namesakeMembers =
      .ok [⟨"LA;", "m", match kind with | .method => "(I J)V" | .field => "I"⟩] := by
  rw [Dex.tableReferences, read_namesakeMembers]
  apply eq_ok_of_toOption
  cases kind <;> decide +kernel

/-- The members that the class declares are its own. -/
theorem isWellFormed_namesakeMembers : Dex.IsWellFormed namesakeMembers := by
  refine ⟨_, tableClasses_namesakeMembers, ?_⟩
  intro declared member kind item inMembers
  cases List.mem_singleton.mp member
  cases kind <;> cases List.mem_singleton.mp inMembers <;> rfl

theorem declaredClasses_namesakeMembers :
    Dex.reader.declaredClasses namesakeMembers = .ok [namesakeClass] := by
  have faithful := Dex.isFaithful_reader namesakeMembers
  rw [Dex.Parser.declaredClasses, faithful.classes _ tableClasses_namesakeMembers]
  apply eq_ok_of_toOption
  rfl

theorem memberReferences_namesakeMembers :
    Dex.reader.memberReferences namesakeMembers =
      .ok [⟨"LA;", "m(IJ)V", .method⟩, ⟨"LA;", "m:I", .field⟩] := by
  have faithful := Dex.isFaithful_reader namesakeMembers
  have methods := (faithful.references .method _).mpr (tableReferences_namesakeMembers .method)
  have fields := (faithful.references .field _).mpr (tableReferences_namesakeMembers .field)
  rw [Dex.Parser.memberReferences, methods, fields]
  apply eq_ok_of_toOption
  rfl

/-- The symbols of the file, whose signatures have no spaces. -/
theorem symbols_namesakeMembers (name : String) :
    Dex.reader.symbols name namesakeMembers = .ok (namesakeSource name) := by
  rw [Dex.Parser.symbols, declaredClasses_namesakeMembers, memberReferences_namesakeMembers]
  rfl

/-- A class that two files declare counts each member once, under another name and where
seeds list a member that it does not have. -/
theorem referenced_counts_of_namesakeMembers :
    ∃ sources result,
      [("classes.dex", namesakeMembers), ("classes2.dex", namesakeMembers)].mapM
          (fun file => Dex.reader.symbols file.1 file.2) = .ok sources ∧
        (build { policy := .lastWins } (listedField.addClass "A" "p.B") sources).result =
          .ok result ∧
        result.root.classNames = ["p.B"] ∧
        ∀ path label, (path, label) ∈ result.root.classes →
          label.own.referencedMethods = 1 ∧ label.own.referencedFields = 1 := by
  obtain ⟨listed, counts⟩ :=
    @referenced_counts_of_bytecode Dex.reader { policy := .lastWins }
      [("classes.dex", namesakeMembers), ("classes2.dex", namesakeMembers)]
      (listedField.addClass "A" "p.B")
      (by simp [isWellFormed_namesakeMembers]) (fun file _ => Dex.isFaithful_reader file.2) rfl
      (by decide)
  have hasReferences : Dex.HasReferences namesakeMembers :=
    fun kind => ⟨_, tableReferences_namesakeMembers kind⟩
  obtain ⟨sources, read⟩ := listed.mpr (by simp [hasReferences])
  have known :
      [("classes.dex", namesakeMembers), ("classes2.dex", namesakeMembers)].mapM
          (fun file => Dex.reader.symbols file.1 file.2) =
        .ok [namesakeSource "classes.dex", namesakeSource "classes2.dex"] := by
    simp only [List.mapM_cons, List.mapM_nil, symbols_namesakeMembers]
    rfl
  cases known.symm.trans read
  obtain ⟨_, result, returned, counted⟩ := counts _ read
  have named :
      (build { policy := .lastWins } (listedField.addClass "A" "p.B")
          [namesakeSource "classes.dex", namesakeSource "classes2.dex"]).result.toOption.map
        (fun result => result.root.classNames) = some ["p.B"] := by
    rfl
  rw [returned] at named
  refine ⟨_, result, read, returned, Option.some.inj named, ?_⟩
  intro path label member
  obtain ⟨entry, kept, methods, fields⟩ := counted path label member
  obtain ⟨source, inSources, inClasses⟩ := exists_source_of_kept returned kept
  have declared : entry.declared = namesakeClass := by
    rcases List.mem_pair.mp inSources with rfl | rfl <;> exact List.mem_singleton.mp inClasses
  rw [declared] at methods fields
  simp only [namesakeClass, List.mem_singleton, Set.ofPred_eq_eq_singleton,
    Set.ncard_singleton, Nat.cast_one] at methods fields
  exact ⟨methods, fields⟩

end ApkAtlas.Package
