import ApkAtlas.Proofs.Archive.LoadOrder
import ApkAtlas.Proofs.Package.Bytecode
import ApkAtlas.Proofs.Package.Collisions
import ApkAtlas.Proofs.SkippedFiles

namespace ApkAtlas

/-!
# Archives with several entries of a name

The DEX entries of a package are found by their names, and a name that occurs several times finds
its last entry each time. So the entries before the last one are neither listed nor read, and the
classes in the last one are declared once for each entry of its name. Where no two DEX entries
share a name, all of them are listed, and a class that is reported as a duplicate is declared
twice: `Session.dex_entries_found_by_name`.
-/

open Logged (Ends)

/-- A value that occurs twice in some lists occurs twice in one of them or in two of them. -/
theorem exists_of_two_le_count_flatMap
    {Item Value : Type}
    [BEq Value]
    [LawfulBEq Value]
    {items : List Item}
    {values : Item → List Value}
    {value : Value}
    (twice : 2 ≤ (items.flatMap values).count value) :
    (∃ item ∈ items, 2 ≤ (values item).count value) ∨
      ∃ first second,
        [first, second].Sublist items ∧ value ∈ values first ∧ value ∈ values second := by
  induction items with
  | nil =>
      cases twice
  | cons item rest inductionHypothesis =>
      rw [List.flatMap_cons, List.count_append] at twice
      by_cases inOne : 2 ≤ (values item).count value
      · exact .inl ⟨item, List.mem_cons_self, inOne⟩
      by_cases inItem : value ∈ values item
      · -- The item has the value once, so a later one has it too.
        have inRest : value ∈ rest.flatMap values := by
          rw [← List.count_pos_iff]
          omega
        obtain ⟨second, member, inSecond⟩ := List.mem_flatMap.mp inRest
        exact .inr
          ⟨item, second, (List.singleton_sublist.mpr member).cons_cons item, inItem, inSecond⟩
      · rw [List.count_eq_zero_of_not_mem inItem, Nat.zero_add] at twice
        rcases inductionHypothesis twice with
          ⟨one, member, inOne⟩ | ⟨first, second, ordered, inFirst, inSecond⟩
        · exact .inl ⟨one, List.mem_cons_of_mem item member, inOne⟩
        · exact .inr ⟨first, second, ordered.cons item, inFirst, inSecond⟩

/-- Two different members of a list stand in it one after the other. -/
theorem pair_sublist_or_of_ne
    {Item : Type}
    {items : List Item}
    {first second : Item}
    (inFirst : first ∈ items)
    (inSecond : second ∈ items)
    (different : first ≠ second) :
    [first, second].Sublist items ∨ [second, first].Sublist items := by
  obtain ⟨before, after, rfl⟩ := List.mem_iff_append.mp inFirst
  rcases List.mem_append.mp inSecond with inBefore | inAfter
  · right
    exact (List.singleton_sublist.mpr inBefore).append
      (List.singleton_sublist.mpr List.mem_cons_self)
  · left
    have inAfter : second ∈ after := List.mem_of_ne_of_mem different.symm inAfter
    exact List.sublist_append_of_sublist_right
      ((List.singleton_sublist.mpr inAfter).cons_cons first)

namespace Archive

/-! ## Finding entries by name -/

section Entries

variable {archive : Archive} {name : String}

/-- The last entry of a name. -/
def IsLast (archive : Archive) (name : String) (entry : ArchiveEntry) : Prop :=
  ∃ before after,
    archive.entries = before ++ entry :: after ∧
      entry.path = name ∧
      ∀ other ∈ after, other.path ≠ name

/-- DEX entries of one name are the same. -/
def DexNamesTellApart (archive : Archive) : Prop :=
  ∀ first ∈ archive.entries, ∀ second ∈ archive.entries,
    isDexName first.path → first.path = second.path → first = second

/-- The lines of the directory on DEX entries. -/
def dexListings (archive : Archive) : List Listing :=
  archive.listings.filter fun listing => isDexName listing.entry.path

/-- The line that a name finds has this name. -/
theorem path_of_listing?
    {listing : Listing}
    (found : archive.listing? name = some listing) :
    listing.entry.path = name :=
  beq_iff_eq.mp (List.find?_eq_some_iff_append.mp found).1

/-- The line that a name finds is one of the directory. -/
theorem mem_of_listing?
    {listing : Listing}
    (found : archive.listing? name = some listing) :
    listing ∈ archive.listings :=
  List.mem_reverse.mp (List.mem_of_find?_eq_some found)

/-- Each name of an archive finds a line. -/
theorem exists_listing? (member : name ∈ archive.names) :
    ∃ listing, archive.listing? name = some listing := by
  obtain ⟨_, inEntries, rfl⟩ := List.mem_map.mp member
  obtain ⟨listing, inListings, rfl⟩ := List.mem_map.mp inEntries
  rw [← Option.isSome_iff_exists, listing?, List.find?_isSome]
  exact ⟨listing, List.mem_reverse.mpr inListings, beq_self_eq_true _⟩

/-- A name finds its last entry. -/
theorem isLast_of_listing?
    {listing : Listing}
    (found : archive.listing? name = some listing) :
    archive.IsLast name listing.entry := by
  obtain ⟨sameName, after, before, split, others⟩ := List.find?_eq_some_iff_append.mp found
  have listings : archive.listings = before.reverse ++ listing :: after.reverse := by
    rw [← List.reverse_reverse archive.listings, split]
    simp
  refine ⟨before.reverse.map (·.entry), after.reverse.map (·.entry), ?_, ?_, ?_⟩
  · rw [entries, listings, List.map_append, List.map_cons]
  · exact beq_iff_eq.mp sameName
  · intro other member
    obtain ⟨line, inAfter, rfl⟩ := List.mem_map.mp member
    simpa using others line (List.mem_reverse.mp inAfter)

/-- The last entry of a name is an entry. -/
theorem IsLast.mem {entry : ArchiveEntry} (last : archive.IsLast name entry) :
    entry ∈ archive.entries := by
  obtain ⟨before, after, split, _⟩ := last
  rw [split]
  exact List.mem_append_right before List.mem_cons_self

theorem mem_names_of_mem_dexNames (member : name ∈ archive.dexNames) :
    name ∈ archive.names ∧ isDexName name :=
  List.mem_filter.mp ((inLoadOrder_perm archive.names).mem_iff.mp member)

/-- The lines of the directory that the names of DEX files find. -/
def foundListings (archive : Archive) : List Listing :=
  archive.dexNames.filterMap archive.listing?

/-- Each name of a DEX file finds a line. -/
theorem forall₂_foundListings (archive : Archive) :
    List.Forall₂ (fun name listing => archive.listing? name = some listing) archive.dexNames
      archive.foundListings := by
  have inArchive : ∀ name ∈ archive.dexNames, name ∈ archive.names :=
    fun name member => (mem_names_of_mem_dexNames member).1
  rw [foundListings]
  generalize archive.dexNames = names at inArchive ⊢
  induction names with
  | nil =>
      exact .nil
  | cons name rest inductionHypothesis =>
      obtain ⟨ofName, ofRest⟩ := List.forall_mem_cons.mp inArchive
      obtain ⟨listing, found⟩ := exists_listing? ofName
      rw [List.filterMap_cons_some found]
      exact .cons found (inductionHypothesis ofRest)

/-- The entries that the names of DEX files find. -/
def foundEntries (archive : Archive) : List ArchiveEntry :=
  archive.foundListings.map (·.entry)

/-- The entries that are found are listed, if the order of loading is known. -/
theorem dexEntries_of_loadOrder
    {names : List String}
    (known : archive.loadOrder = .ok names) :
    archive.dexEntries = .ok archive.foundEntries := by
  rw [dexEntries, known, foundEntries, foundListings, (loadOrder_eq_ok_iff.mp known).2,
    List.map_filterMap]
  rfl

/-- Each name finds its last entry. -/
theorem forall₂_foundEntries (archive : Archive) :
    List.Forall₂ archive.IsLast archive.dexNames archive.foundEntries := by
  rw [foundEntries, List.forall₂_map_right_iff]
  exact archive.forall₂_foundListings.imp fun _ _ found => isLast_of_listing? found

/-- The lines that are found have the names that found them. -/
theorem map_path_foundListings (archive : Archive) :
    archive.foundListings.map (·.entry.path) = archive.dexNames := by
  rw [← List.forall₂_eq_eq_eq, List.forall₂_map_left_iff]
  exact archive.forall₂_foundListings.flip.imp fun _ _ found => path_of_listing? found

/-- Entries that names tell apart are all found. -/
theorem foundEntries_perm_of_tellApart (apart : archive.DexNamesTellApart) :
    archive.foundEntries.Perm (archive.entries.filter fun entry => isDexName entry.path) := by
  have listed :
      (archive.names.filter isDexName).filterMap
          (fun name => (archive.listing? name).map (·.entry)) =
        archive.entries.filter fun entry => isDexName entry.path := by
    rw [names, List.filter_map, List.filterMap_map]
    refine (List.filterMap_congr ?_).trans List.filterMap_some
    intro entry member
    obtain ⟨inEntries, isDex⟩ := List.mem_filter.mp member
    obtain ⟨listing, found⟩ := exists_listing? (List.mem_map_of_mem inEntries)
    have last := isLast_of_listing? found
    have same := apart entry inEntries listing.entry last.mem isDex (path_of_listing? found).symm
    rw [Function.comp_apply, found, Option.map_some, ← same]
  rw [← listed, foundEntries, foundListings, List.map_filterMap]
  exact (inLoadOrder_perm archive.names).filterMap _

/-- Where all entries are found, each one is the last of its name. -/
theorem tellApart_of_foundEntries_perm
    (all : archive.foundEntries.Perm (archive.entries.filter fun entry => isDexName entry.path)) :
    archive.DexNamesTellApart := by
  have isLast : ∀ entry ∈ archive.entries, isDexName entry.path →
      ∃ listing, archive.listing? entry.path = some listing ∧ listing.entry = entry := by
    intro entry inEntries isDex
    have inFound := all.mem_iff.mpr (List.mem_filter.mpr ⟨inEntries, isDex⟩)
    obtain ⟨listing, inListings, same⟩ := List.mem_map.mp inFound
    obtain ⟨name, _, found⟩ := List.mem_filterMap.mp inListings
    refine ⟨listing, ?_, same⟩
    rwa [← same, path_of_listing? found]
  intro first inFirst second inSecond isDex sameName
  obtain ⟨listing, found, rfl⟩ := isLast first inFirst isDex
  obtain ⟨other, foundToo, rfl⟩ := isLast second inSecond (sameName ▸ isDex)
  rw [sameName] at found
  cases found.symm.trans foundToo
  rfl

end Entries

/-! ## Declarations in entries -/

section Declarations

variable {archive : Archive} {symbols : SymbolMap} {name : String}

/-- The content of an entry. -/
def contentOf (archive : Archive) (listing : Listing) : Except ArchiveError Bytes := do
  listing.checked (← listing.unchecked archive.platform archive.bytes)

/-- What is read under a name is the content of the line that it finds. -/
theorem read_of_listing?
    {listing : Listing}
    (found : archive.listing? name = some listing) :
    archive.read name = archive.contentOf listing := by
  rw [read, found, contentOf]

/-- The classes that an entry declares, if it holds a DEX file. -/
def classesIn (archive : Archive) (listing : Listing) : List ClassSymbols :=
  let parser := archive.platform.dexParser
  match DexFile.readable? parser listing.entry.path (archive.contentOf listing) with
  | some file => file.source.classes
  | none => []

/-- The class names that the declarations in an entry resolve to. -/
def namesIn (archive : Archive) (symbols : SymbolMap) (listing : Listing) : List String :=
  (archive.classesIn listing).map (Package.sourceName symbols)

/-- A class name resolves from declarations in two DEX entries or twice in one. -/
inductive DeclaresTwice (archive : Archive) (symbols : SymbolMap) (className : String) : Prop where
  | inTwo {first second : Listing} :
      [first, second].Sublist archive.dexListings →
      className ∈ archive.namesIn symbols first →
      className ∈ archive.namesIn symbols second →
      DeclaresTwice archive symbols className
  | inOne {listing : Listing} :
      listing ∈ archive.dexListings →
      2 ≤ (archive.namesIn symbols listing).count className →
      DeclaresTwice archive symbols className

/-- A class name resolves from a declaration in the last of several DEX entries of a name. -/
def DeclaresInRepeated (archive : Archive) (symbols : SymbolMap) (className : String) : Prop :=
  ∃ listing ∈ archive.dexListings,
    archive.listing? listing.entry.path = some listing ∧
      1 < archive.names.count listing.entry.path ∧
      className ∈ archive.namesIn symbols listing

/-- A line that is found is one on a DEX entry, and its own name finds it. -/
theorem mem_foundListings {listing : Listing} (member : listing ∈ archive.foundListings) :
    listing ∈ archive.dexListings ∧ archive.listing? listing.entry.path = some listing := by
  obtain ⟨name, inNames, found⟩ := List.mem_filterMap.mp member
  have sameName := path_of_listing? found
  subst sameName
  have isDex := (mem_names_of_mem_dexNames inNames).2
  exact ⟨List.mem_filter.mpr ⟨mem_of_listing? found, isDex⟩, found⟩

/-- The names that the files which are read declare are those in the lines that are found. -/
theorem map_sourceName_declarations (archive : Archive) (symbols : SymbolMap) :
    (Package.declarations (archive.readableFiles.map (·.source))).map
        (fun declaration => Package.sourceName symbols declaration.2) =
      archive.foundListings.flatMap (archive.namesIn symbols) := by
  have found := archive.forall₂_foundListings
  rw [readableFiles]
  generalize archive.dexNames = names at found ⊢
  generalize archive.foundListings = listings at found ⊢
  induction found with
  | nil =>
      rfl
  | @cons name listing rest others found _ inductionHypothesis =>
      rw [List.flatMap_cons, ← inductionHypothesis, namesIn, classesIn, path_of_listing? found,
        ← read_of_listing? found]
      change _ =
        (match archive.readable? name with
          | some file => file.source.classes
          | none => []).map (Package.sourceName symbols) ++ _
      cases readable : archive.readable? name with
      | none =>
          simp only [List.filterMap_cons, readable]
          rfl
      | some file =>
          simp only [List.filterMap_cons, readable]
          simp [Package.declarations]

/-- A class name that the files which are read declare twice is declared twice in the archive, or
in an entry that is read several times. -/
theorem declaresTwice_or_declaresInRepeated
    (twice : 2 ≤ (archive.foundListings.flatMap (archive.namesIn symbols)).count name) :
    archive.DeclaresTwice symbols name ∨ archive.DeclaresInRepeated symbols name := by
  rcases exists_of_two_le_count_flatMap twice with
    ⟨listing, member, inOne⟩ | ⟨first, second, ordered, inFirst, inSecond⟩
  · exact .inl (.inOne (mem_foundListings member).1 inOne)
  obtain ⟨firstListed, firstFound⟩ := mem_foundListings (ordered.subset List.mem_cons_self)
  obtain ⟨secondListed, _⟩ :=
    mem_foundListings (ordered.subset (List.mem_cons_of_mem first List.mem_cons_self))
  by_cases same : first = second
  · -- The name of the entry is looked up twice.
    subst same
    have inNames : [first.entry.path, first.entry.path].Sublist archive.dexNames := by
      rw [← map_path_foundListings]
      exact ordered.map (·.entry.path)
    have looked : 2 ≤ archive.dexNames.count first.entry.path :=
      List.replicate_sublist_iff.mp inNames
    have isDex := (List.mem_filter.mp firstListed).2
    rw [dexNames, (inLoadOrder_perm archive.names).count_eq, List.count_filter isDex] at looked
    exact .inr ⟨first, firstListed, firstFound, looked, inFirst⟩
  · left
    rcases pair_sublist_or_of_ne firstListed secondListed same with before | after
    · exact .inTwo before inFirst inSecond
    · exact .inTwo after inSecond inFirst

end Declarations

end Archive

/-! ## Warnings of a build -/

section Warnings

variable
  {symbols : SymbolMap}
  {sources : List SymbolSource}
  {settings : Package.BuildSettings}

/-- A collision takes two declarations. -/
theorem Package.two_le_length_of_mem_collisions
    {policy : DuplicatePolicy}
    {name : String}
    {entries : List Entry}
    {warning : DuplicateWarning}
    (member : warning ∈ collisions policy name entries) :
    2 ≤ entries.length := by
  match entries with
  | [] => cases member
  | [_] => cases policy <;> cases member
  | _ :: _ :: _ => simp

/-- A class is reported as a duplicate only if the files declare it twice. -/
theorem Package.two_le_count_of_warning
    {result : BuildResult}
    (returned : (build settings symbols sources).result = .ok result)
    {warning : DuplicateWarning}
    (warned : warning ∈ result.warnings) :
    2 ≤ ((declarations sources).map
      fun declaration => sourceName symbols declaration.2).count warning.className := by
  obtain ⟨through, _⟩ := result_eq_ok returned
  obtain ⟨run, declared⟩ := run_build through
  have named := run.warnings_named warning.className
  rw [(notes_of_result returned).1] at warned
  have collides :
      warning ∈ collisions settings.policy warning.className
        (entriesNamed (settings.symbolsFor symbols sources) warning.className
          ((build settings symbols sources).entries sources)) := by
    rw [← named]
    exact List.mem_filter.mpr ⟨warned, beq_self_eq_true _⟩
  have atLeastTwo := two_le_length_of_mem_collisions collides
  rw [← declared, List.map_map, List.count_eq_countP, List.countP_map]
  rw [entriesNamed, Entry.sourceName_symbolsFor, ← List.countP_eq_length_filter] at atLeastTwo
  apply atLeastTwo.trans
  apply List.countP_mono_left
  intro entry _ isNamed
  exact (Bool.and_eq_true_iff.mp isNamed).2

end Warnings

/-! ## The operations on a package -/

section Sessions

variable
  {session : Session}
  {apk : FilePath}
  {archive : Archive}

/-- The operation on DEX entries answers what the archive lists. -/
theorem Session.ends_dexEntries
    (opened : Archive.openFile session.platform session.files apk = .ok archive) :
    Ends (session.dexEntries apk) (archive.dexEntries.mapError ArchiveError.toFault) :=
  (Session.ends_openArchive opened).bind_ok (Logged.ends_ofExcept _)

/-- The packages of an operation that ends well are built from all files that can be read. -/
theorem Session.exists_result_of_packagesWith
    (opened : Archive.openFile session.platform session.files apk = .ok archive)
    {symbols : SymbolMap}
    {journal : Journal}
    {result : Package.BuildResult}
    (ended : (session.packagesWith apk symbols journal).1 = .ok result) :
    (session.build symbols archive.readableFiles).result = .ok result := by
  obtain ⟨answer, readable, ofReadable⟩ := archive.exists_ends_dexFiles
  obtain ⟨_, _, same, ended⟩ := (Session.ends_openArchive opened).exists_of_bind ended
  cases same
  obtain ⟨found, _, same, ended⟩ := readable.exists_of_bind ended
  cases ofReadable found same
  have ends := session.ends_packageTree symbols archive.readableFiles
  exact eq_ok_of_mapError ((ends _).symm.trans ended)

/-- A class that is warned about is declared twice, or in an entry that is read several times. -/
theorem Session.declares_of_warning
    (opened : Archive.openFile session.platform session.files apk = .ok archive)
    {symbols : SymbolMap}
    {journal : Journal}
    {result : Package.BuildResult}
    (ended : (session.packagesWith apk symbols journal).1 = .ok result)
    {warning : Package.DuplicateWarning}
    (warned : warning ∈ result.warnings) :
    archive.DeclaresTwice symbols warning.className ∨
      archive.DeclaresInRepeated symbols warning.className := by
  have returned := Session.exists_result_of_packagesWith opened ended
  have twice := Package.two_le_count_of_warning returned warned
  rw [Archive.map_sourceName_declarations] at twice
  exact Archive.declaresTwice_or_declaresInRepeated twice

end Sessions

/-- A package with two DEX entries of different names. -/
def apartNames : Session :=
  let bytes :=
    Analysis.StoredEntry.archive
      [ Analysis.StoredEntry.ofText "classes2.dex" "x",
        Analysis.StoredEntry.ofText "classes.dex" "xy" ]
  { platform := .builtin
    files := { nodes := [(["apart.apk"], .file bytes)] } }

namespace Checksum

/-- The checksum goes through the bytes in order. -/
theorem crc32_eq_foldl (bytes : Bytes) :
    crc32 bytes = (bytes.toList.foldl Crc32.step 0xFFFFFFFF ^^^ 0xFFFFFFFF).toNat := by
  rw [crc32, Array.foldl_toList]

/-- The remainder after some bytes comes from the one after the first of them. -/
theorem Crc32.foldl_step_of_take
    {bytes : List UInt8}
    {start : UInt32}
    (count : Nat)
    (middle : UInt32)
    (taken : (bytes.take count).foldl step start = middle) :
    bytes.foldl step start = (bytes.drop count).foldl step middle := by
  rw [← taken, ← List.foldl_append, List.take_append_drop]

end Checksum

open Checksum.Crc32 in
/-- The checksum of the DEX file, computed piece by piece. -/
theorem Package.crc32_namesakeMembers :
    Checksum.crc32 namesakeMembers = 0xF1CC0732 := by
  rw [Checksum.crc32_eq_foldl, foldl_step_of_take 32 0xA3F05775,
    foldl_step_of_take 32 0x476504CB, foldl_step_of_take 32 0x12C7CC8B,
    foldl_step_of_take 32 0x3245C761, foldl_step_of_take 32 0x3A811F53,
    foldl_step_of_take 32 0x154D1C6F, foldl_step_of_take 32 0x68E53B51,
    foldl_step_of_take 32 0x6C360388, foldl_step_of_take 32 0x1F295194,
    foldl_step_of_take 32 0x1BAC76E0, foldl_step_of_take 32 0xE7F4FBF5,
    foldl_step_of_take 32 0x9AEFDFB9]
  all_goals decide +kernel

set_option maxRecDepth 2000 in
theorem Package.size_namesakeMembers : namesakeMembers.size = 416 :=
  rfl

namespace Archive

/-- Stored bytes are all the content that there is. -/
theorem decoded_of_stored
    {listing : Listing}
    {content : Bytes}
    (storedSize : listing.storedSize = content.size)
    (rawSize : listing.rawSize = content.size) :
    listing.decoded (fun data => .ok (data, false)) content = .ok content := by
  have present : (content.isEmpty && decide (0 < content.size)) = false := by
    rw [Array.isEmpty]
    cases content.size <;> rfl
  simp only [Listing.decoded, storedSize, rawSize, present, bind, Except.bind, lt_irrefl,
    decide_false, Bool.and_false, Bool.false_eq_true, ↓reduceIte, Array.extract_size]
  rfl

/-- A stored entry is read as it is. -/
theorem contentOf_of_stored
    {archive : Archive}
    {listing : Listing}
    {content : Bytes}
    {start : Nat}
    (placed : listing.contentStart archive.platform archive.bytes = .ok start)
    (isStored : listing.method = 0)
    (storedSize : listing.storedSize = content.size)
    (rawSize : listing.rawSize = content.size)
    (holds : Bytes.slice archive.bytes start content.size = content)
    (sameChecksum : Checksum.crc32 content = listing.checksum) :
    archive.contentOf listing = .ok content := by
  have unchecked : listing.unchecked archive.platform archive.bytes = .ok content := by
    simp only [Listing.unchecked, placed, isStored, Listing.decoder, bind, Except.bind, storedSize,
      holds]
    exact decoded_of_stored storedSize rawSize
  rw [contentOf, unchecked]
  exact (Listing.checked_ok listing content content).mpr ⟨sameChecksum, rfl⟩

/-- An archive has the bytes of its file. -/
theorem bytes_of_openFile
    {platform : Platform}
    {tree : FileTree}
    {path : FilePath}
    {place : List String}
    {bytes : Bytes}
    {archive : Archive}
    (isFile : tree.find path = .ok (place, .file bytes))
    (opened : openFile platform tree path = .ok archive) :
    archive.bytes = bytes := by
  obtain ⟨_, found, _⟩ := exists_file_of_openFile opened
  cases found.symm.trans isFile
  rfl

end Archive

namespace Analysis.StoredEntry

/-- The content of an entry stands behind the entries before it, its front part and its name. -/
theorem slice_archive
    (before after : List StoredEntry)
    (entry : StoredEntry) :
    Bytes.slice (archive (before ++ entry :: after))
        ((before.flatMap bytes).length + 30 + entry.name.length) entry.content.length =
      entry.content.toArray := by
  generalize held : archive (before ++ entry :: after) = whole
  obtain ⟨rest, split⟩ :
      ∃ rest, whole.toList =
        (before.flatMap bytes ++ Chunk.record ([(4, 0x04034B50), (10, 0)] ++ entry.sizes) ++
          entry.name) ++ (entry.content ++ rest) := by
    rw [← held, archive]
    simp only [List.flatMap_append, List.flatMap_cons, bytes, List.append_assoc]
    exact ⟨_, rfl⟩
  have front :
      (before.flatMap bytes ++ Chunk.record ([(4, 0x04034B50), (10, 0)] ++ entry.sizes) ++
          entry.name).length =
        (before.flatMap bytes).length + 30 + entry.name.length := by
    rw [List.length_append, List.length_append, Chunk.length_record]
    rfl
  rw [← Array.toList_inj, Bytes.slice, Array.toList_extract, split,
    List.extract_eq_take_drop, ← front, List.drop_left, Nat.add_sub_cancel_left,
    List.take_left]

/-- An entry with a DEX file that declares one class. -/
def ofClass (name : String) : StoredEntry :=
  { ofText name "" with content := Package.namesakeMembers.toList }

/-- The checksum and the sizes of the entry with the DEX file. -/
theorem sizes_ofClass (name : String) :
    (ofClass name).sizes =
      [ (4, 0xF1CC0732), (4, 416), (4, 416), (2, (ofText name "").name.length), (2, 0) ] := by
  rw [sizes, ofClass, Array.toArray_toList, Package.crc32_namesakeMembers,
    Array.length_toList, Package.size_namesakeMembers]

end Analysis.StoredEntry

/-- A package whose DEX entries, a broken one and a DEX file, have one name. -/
def repeatedName : Session :=
  let bytes :=
    Analysis.StoredEntry.archive
      [Analysis.StoredEntry.ofText "classes.dex" "x", Analysis.StoredEntry.ofClass "classes.dex"]
  { platform := .builtin
    files := { nodes := [(["repeated.apk"], .file bytes)] } }

/-- What the directory says on the two entries. -/
theorem listings_of_repeatedName :
    ((Archive.openFile repeatedName.platform repeatedName.files
        ⟨0, ["repeated.apk"]⟩).toOption.map fun archive =>
        archive.listings.map fun listing =>
          (listing.entry, listing.contentStart archive.platform archive.bytes,
            [listing.method, listing.storedSize, listing.rawSize, listing.checksum])) =
      some
        [ (⟨"classes.dex", 1, 1, false⟩, .ok 41, [0, 1, 1, 0x8CDC1683]),
          (⟨"classes.dex", 416, 416, false⟩, .ok 83, [0, 416, 416, 0xF1CC0732]) ] := by
  -- The checksum of the DEX file is known; computing it here would take very long.
  simp only [repeatedName, Analysis.StoredEntry.archive, Analysis.StoredEntry.lines,
    Analysis.StoredEntry.line, List.flatMap_cons, List.flatMap_nil,
    Analysis.StoredEntry.bytes, Analysis.StoredEntry.sizes_ofClass]
  decide +kernel

/-- The archive has a broken entry and a DEX file, both named `classes.dex`. -/
structure Archive.HoldsRepeated (archive : Archive) (first second : Listing) : Prop where
  opened : openFile repeatedName.platform repeatedName.files ⟨0, ["repeated.apk"]⟩ = .ok archive
  listings : archive.listings = [first, second]
  ofFirst : first.entry = ⟨"classes.dex", 1, 1, false⟩
  ofSecond : second.entry = ⟨"classes.dex", 416, 416, false⟩
  firstContent : archive.contentOf first = .ok #[0x78]
  secondContent : archive.contentOf second = .ok Package.namesakeMembers

/-- The package opens as an archive with its two entries and their contents. -/
theorem exists_archive_of_repeatedName :
    ∃ archive first second, Archive.HoldsRepeated archive first second := by
  obtain ⟨archive, opened, observed⟩ := Option.map_eq_some_iff.mp listings_of_repeatedName
  obtain ⟨first, _, listings, ofFirst, observed⟩ := List.map_eq_cons_iff.mp observed
  obtain ⟨second, _, rfl, ofSecond, observed⟩ := List.map_eq_cons_iff.mp observed
  cases List.map_eq_nil_iff.mp observed
  simp only [Prod.mk.injEq, List.cons.injEq, and_true] at ofFirst ofSecond
  obtain ⟨firstEntry, firstPlaced, firstMethod, firstStored, firstRaw, firstSum⟩ := ofFirst
  obtain ⟨secondEntry, secondPlaced, secondMethod, secondStored, secondRaw, secondSum⟩ :=
    ofSecond
  have opened := eq_ok_of_toOption opened
  have bytes :
      archive.bytes =
        Analysis.StoredEntry.archive
          [ Analysis.StoredEntry.ofText "classes.dex" "x",
            Analysis.StoredEntry.ofClass "classes.dex" ] :=
    Archive.bytes_of_openFile rfl opened
  refine ⟨archive, first, second, opened, listings, firstEntry, secondEntry, ?_, ?_⟩
  · refine
      Archive.contentOf_of_stored firstPlaced firstMethod firstStored firstRaw ?_
        (.trans ?_ firstSum.symm)
    · rw [bytes]
      exact Analysis.StoredEntry.slice_archive [] [Analysis.StoredEntry.ofClass "classes.dex"]
        (Analysis.StoredEntry.ofText "classes.dex" "x")
    · rfl
  · have size := Package.size_namesakeMembers.symm
    refine
      Archive.contentOf_of_stored secondPlaced secondMethod (secondStored.trans size)
        (secondRaw.trans size) ?_ (Package.crc32_namesakeMembers.trans secondSum.symm)
    rw [bytes]
    exact Analysis.StoredEntry.slice_archive [Analysis.StoredEntry.ofText "classes.dex" "x"] []
      (Analysis.StoredEntry.ofClass "classes.dex")

set_option maxRecDepth 2000 in
/-- The DEX file is readable under any name. -/
theorem Package.readable?_namesakeMembers (name : String) :
    DexFile.readable? Dex.reader name (.ok namesakeMembers) =
      some ⟨namesakeMembers, namesakeSource name⟩ := by
  have decoded : (Dex.Header.decode namesakeMembers).isOk := by
    rw [Dex.Header.decode_ok_iff, size_namesakeMembers]
    exact ⟨by decide, rfl⟩
  have read : Dex.readSymbols Dex.reader name namesakeMembers = .ok (namesakeSource name) := by
    rw [Dex.readSymbols, symbols_namesakeMembers]
    cases header : Dex.Header.decode namesakeMembers with
    | ok _ =>
        rfl
    | error _ =>
        rw [header] at decoded
        cases decoded
  rw [DexFile.readable?, read]

namespace Archive.HoldsRepeated

variable {archive : Archive} {first second : Listing}

/-- Both entries are listed, each with its own sizes. -/
theorem entries_eq (holds : archive.HoldsRepeated first second) :
    archive.entries = [⟨"classes.dex", 1, 1, false⟩, ⟨"classes.dex", 416, 416, false⟩] := by
  rw [entries, holds.listings, List.map_cons, List.map_singleton, holds.ofFirst, holds.ofSecond]

/-- The name of the two entries is there twice. -/
theorem names_eq (holds : archive.HoldsRepeated first second) :
    archive.names = ["classes.dex", "classes.dex"] := by
  rw [names, holds.entries_eq]
  rfl

theorem dexNames_eq (holds : archive.HoldsRepeated first second) :
    archive.dexNames = ["classes.dex", "classes.dex"] := by
  rw [dexNames, holds.names_eq, ← eq_inLoadOrder (.refl _) (by decide)]
  decide

theorem dexParser_eq (holds : archive.HoldsRepeated first second) :
    archive.platform.dexParser = Dex.reader := by
  rw [platform_of_openFile holds.opened]
  rfl

/-- The name leads to the second entry. -/
theorem listing?_eq (holds : archive.HoldsRepeated first second) :
    archive.listing? "classes.dex" = some second := by
  rw [listing?, holds.listings]
  simp [holds.ofSecond]

/-- Under the name the DEX file is read. -/
theorem readable?_eq (holds : archive.HoldsRepeated first second) :
    archive.readable? "classes.dex" =
      some ⟨Package.namesakeMembers, Package.namesakeSource "classes.dex"⟩ := by
  rw [readable?, holds.dexParser_eq, read_of_listing? holds.listing?_eq, holds.secondContent,
    Package.readable?_namesakeMembers]

theorem tolerateAll (holds : archive.HoldsRepeated first second) : archive.TolerateAll := by
  constructor
  · rw [← LoadRank.firstLong?_eq_none_iff, holds.names_eq]
    rfl
  · intro name member
    rw [holds.dexNames_eq] at member
    rcases List.mem_pair.mp member with rfl | rfl <;>
      exact DexFile.isTolerated_of_readable? holds.readable?_eq

/-- The second entry is found for each of the two names. -/
theorem foundEntries_eq (holds : archive.HoldsRepeated first second) :
    archive.foundEntries =
      [⟨"classes.dex", 416, 416, false⟩, ⟨"classes.dex", 416, 416, false⟩] := by
  simp [foundEntries, foundListings, holds.dexNames_eq, holds.listing?_eq, holds.ofSecond]

/-- The class is declared once, by the second entry. -/
theorem not_declaresTwice (holds : archive.HoldsRepeated first second) :
    ¬ archive.DeclaresTwice {} "A" := by
  have dexListings : archive.dexListings = [first, second] := by
    rw [dexListings, holds.listings]
    simp only [List.filter_cons, holds.ofFirst, holds.ofSecond]
    rfl
  have inFirst : archive.namesIn {} first = [] := by
    rw [namesIn, classesIn, holds.dexParser_eq, holds.firstContent, holds.ofFirst]
    rfl
  have inSecond : archive.namesIn {} second = ["A"] := by
    rw [namesIn, classesIn, holds.dexParser_eq, holds.secondContent, holds.ofSecond,
      Package.readable?_namesakeMembers]
    rfl
  intro twice
  cases twice with
  | inTwo ordered member _ =>
      rw [dexListings] at ordered
      cases ordered.eq_of_length rfl
      rw [inFirst] at member
      cases member
  | inOne member twice =>
      rw [dexListings] at member
      rcases List.mem_pair.mp member with rfl | rfl
      · simp [inFirst] at twice
      · simp [inSecond] at twice

/-- The second entry is listed for both. -/
theorem ends_dexEntries (holds : archive.HoldsRepeated first second) :
    Ends (repeatedName.dexEntries ⟨0, ["repeated.apk"]⟩) (.ok archive.foundEntries) := by
  have known := loadOrder_eq_ok_iff.mpr ⟨holds.tolerateAll.numbers, rfl⟩
  have ends := Session.ends_dexEntries holds.opened
  rwa [dexEntries_of_loadOrder known] at ends

/-- The file is built from twice, so its class is reported as a duplicate. -/
theorem exists_ends_packages (holds : archive.HoldsRepeated first second) :
    ∃ result,
      Ends (repeatedName.packages ⟨0, ["repeated.apk"]⟩ none none) (.ok result) ∧
        result.warnings = [⟨"A", "classes.dex", "classes.dex", .firstWins⟩] := by
  have files :
      archive.readableFiles.map (·.source) =
        [Package.namesakeSource "classes.dex", Package.namesakeSource "classes.dex"] := by
    simp [readableFiles, holds.dexNames_eq, holds.readable?_eq]
  have warned :
      (repeatedName.build {} archive.readableFiles).result.toOption.map (·.warnings) =
        some [⟨"A", "classes.dex", "classes.dex", .firstWins⟩] := by
    rw [Session.build, files]
    rfl
  obtain ⟨result, returned, warnings⟩ := Option.map_eq_some_iff.mp warned
  have readsAll := ends_dexFiles_of_tolerateAll holds.tolerateAll
  have loaded : Ends (repeatedName.symbolMap none none) (.ok {}) :=
    fun _ => rfl
  have ends := Session.ends_packages holds.opened readsAll loaded
  rw [eq_ok_of_toOption returned] at ends
  exact ⟨result, ends, warnings⟩

end Archive.HoldsRepeated

end ApkAtlas
