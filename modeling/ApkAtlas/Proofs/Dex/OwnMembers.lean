import ApkAtlas.Dex.Reader
import ApkAtlas.Proofs.Except

namespace ApkAtlas

/-!
# Declared members among the references

A declared class names its members by their numbers in the tables of methods and of fields,
and the references of a file are these tables. So if the members that a class declares are
its own, each of them is also a reference to the class. Any parser that reads the tables
faithfully finds this: `declared_mem_references`.
-/

/-- The checksum goes through the bytes in order. -/
theorem Checksum.adler32_eq_foldl (bytes : Bytes) (start : Nat) :
    adler32 bytes start =
      Adler32.pack ((bytes.toList.drop start).foldl Adler32.step (1, 0)) := by
  rw [adler32, Array.foldl_eq_foldl_extract, ← Array.foldl_toList, Array.toList_extract]
  simp [List.extract, List.take_of_length_le]

namespace Dex

namespace Tables

/-- A file in the right byte order and with the right checksum is read by its map. -/
theorem read_eq_readSections
    {bytes : Bytes}
    (long : headerSize ≤ bytes.size)
    (mark : Bytes.u32 bytes 40 = byteOrderMark)
    (checksum : Checksum.adler32 bytes 12 = Bytes.u32 bytes 8) :
    read bytes = readSections bytes := by
  rw [read, if_neg (Nat.not_lt.mpr long)]
  simp only [mark, checksum, ne_eq, not_true_eq_false, ↓reduceIte]

variable {tables : Tables} {kind : MemberKind}

/-- Each member of a declared class is an item of its table. -/
theorem exists_item_of_mem_members
    {start : Nat}
    {declared : DeclaredClass}
    (read : tables.declaredAt start = .ok declared)
    {item : ParsedReference}
    (member : item ∈ declared.members kind) :
    ∃ index, tables.item kind index = .ok item := by
  obtain ⟨name, _, read⟩ := exists_of_bind_eq_ok read
  obtain ⟨methods, readMethods, read⟩ := exists_of_bind_eq_ok read
  obtain ⟨fields, readFields, same⟩ := exists_of_bind_eq_ok read
  cases same
  cases kind with
  | method =>
      obtain ⟨index, _, found⟩ := exists_of_mem_results readMethods member
      exact ⟨index, found⟩
  | field =>
      obtain ⟨index, _, found⟩ := exists_of_mem_results readFields member
      exact ⟨index, found⟩

/-- The members of all declared classes are items of their tables. -/
theorem exists_item_of_mem_declared
    {classes : List DeclaredClass}
    (read : tables.declared = .ok classes)
    {declared : DeclaredClass}
    (inClasses : declared ∈ classes)
    {item : ParsedReference}
    (member : item ∈ declared.members kind) :
    ∃ index, tables.item kind index = .ok item := by
  rw [Tables.declared] at read
  split at read
  · cases read
    cases inClasses
  · obtain ⟨places, _, read⟩ := exists_of_bind_eq_ok read
    obtain ⟨start, _, readClass⟩ := exists_of_mem_results read inClasses
    exact exists_item_of_mem_members readClass member

/-- An item that is found in a table lies at one of its places. -/
theorem mem_places
    {kind : TableKind}
    {entry : MapEntry}
    (table : tables.find? kind = some entry)
    {places : List Nat}
    (all : tables.places kind entry = .ok places)
    {index start : Nat}
    (found : tables.place kind index = .ok start) :
    start ∈ places := by
  rw [Tables.places] at all
  split at all
  · cases all
    rw [place, place?, table] at found
    dsimp only at found
    split at found
    · cases found
    · rename_i within
      split at found
      · cases found
        exact List.mem_map.mpr ⟨index, List.mem_range.mpr (Nat.not_le.mp within), rfl⟩
      · cases found
  · cases all

/-- Each item of a table of members is among the references. -/
theorem mem_references
    {references : List ParsedReference}
    (listed : tables.references kind = .ok references)
    {index : Nat}
    {item : ParsedReference}
    (found : tables.item kind index = .ok item) :
    item ∈ references := by
  obtain ⟨start, placed, read⟩ := exists_of_bind_eq_ok found
  rw [Tables.references] at listed
  split at listed
  · cases listed
  · rename_i entry table
    obtain ⟨places, all, listed⟩ := exists_of_bind_eq_ok listed
    obtain ⟨same, member, readAgain⟩ :=
      exists_result_of_mem listed (mem_places table all placed)
    cases read.symm.trans readAgain
    exact member

end Tables

/-- A file whose classes can be read and declare members of their own. -/
def IsWellFormed (bytes : Bytes) : Prop :=
  ∃ classes, tableClasses bytes = .ok classes ∧
    ∀ declared ∈ classes, ∀ kind, ∀ item ∈ declared.members kind,
      item.className = declared.name

/-- A file with both tables of members, in which all items can be read. A file without any
methods or without any fields may leave out a table. -/
def HasReferences (bytes : Bytes) : Prop :=
  ∀ kind, ∃ items, tableReferences kind bytes = .ok items

/-- A parser reads a file faithfully: it finds the classes, and the items of a table if the
table is there. -/
structure Parser.IsFaithful (parser : Parser) (bytes : Bytes) : Prop where
  classes :
    ∀ classes, tableClasses bytes = .ok classes →
      parser.classes bytes = .ok (classes.map DeclaredClass.parsed)
  references :
    ∀ kind items, parser.table kind bytes = .ok items ↔ tableReferences kind bytes = .ok items

/-- The parser by tables reads all files faithfully. -/
theorem isFaithful_reader (bytes : Bytes) : reader.IsFaithful bytes where
  classes classes read := by
    simp only [reader, read]
    rfl
  references kind items := by
    have renamed :
        reader.table kind bytes = (tableReferences kind bytes).mapError TableError.toError := by
      cases kind <;> rfl
    rw [renamed]
    exact ⟨eq_ok_of_mapError, fun read => by rw [read]; rfl⟩

variable {parser : Parser} {bytes : Bytes}

/-- The symbols of a well-formed file are read exactly if it has its tables of members. -/
theorem exists_symbols_iff
    (wellFormed : IsWellFormed bytes)
    (faithful : parser.IsFaithful bytes)
    (name : String) :
    (∃ source, parser.symbols name bytes = .ok source) ↔ HasReferences bytes := by
  obtain ⟨classes, readClasses, _⟩ := wellFormed
  constructor
  · rintro ⟨source, read⟩ kind
    obtain ⟨_, _, read⟩ := exists_of_bind_eq_ok read
    obtain ⟨_, read, _⟩ := exists_of_bind_eq_ok read
    obtain ⟨methods, readMethods, read⟩ := exists_of_bind_eq_ok read
    obtain ⟨fields, readFields, _⟩ := exists_of_bind_eq_ok read
    cases kind with
    | method =>
        exact ⟨methods, (faithful.references _ _).mp readMethods⟩
    | field =>
        exact ⟨fields, (faithful.references _ _).mp readFields⟩
  · intro listed
    obtain ⟨methods, readMethods⟩ := listed .method
    obtain ⟨fields, readFields⟩ := listed .field
    rw [← faithful.references] at readMethods readFields
    rw [Parser.symbols, Parser.declaredClasses, Parser.memberReferences, readMethods, readFields,
      faithful.classes classes readClasses]
    exact ⟨_, rfl⟩

/-- The members that a class declares as its own are references to the class. -/
theorem declared_mem_references
    {name : String}
    {source : SymbolSource}
    (wellFormed : IsWellFormed bytes)
    (faithful : parser.IsFaithful bytes)
    (read : parser.symbols name bytes = .ok source) :
    ∃ classes : List DeclaredClass,
      source.classes = classes.map (fun declared => declared.parsed.symbols) ∧
        ∀ declared ∈ classes, ∀ kind, ∀ item ∈ declared.members kind,
          ⟨declared.name, item.member.signature kind, kind⟩ ∈ source.references := by
  obtain ⟨classes, readClasses, own⟩ := wellFormed
  obtain ⟨symbols, found, read⟩ := exists_of_bind_eq_ok read
  obtain ⟨references, foundReferences, same⟩ := exists_of_bind_eq_ok read
  cases same
  rw [Parser.declaredClasses, faithful.classes classes readClasses] at found
  cases found
  refine ⟨classes, List.map_map, ?_⟩
  intro declared inClasses kind item inMembers
  have ownClass := own declared inClasses kind item inMembers
  obtain ⟨methods, readMethods, foundReferences⟩ := exists_of_bind_eq_ok foundReferences
  obtain ⟨fields, readFields, same⟩ := exists_of_bind_eq_ok foundReferences
  cases same
  rw [faithful.references] at readMethods readFields
  obtain ⟨tables, readTables, readDeclared⟩ := exists_of_bind_eq_ok readClasses
  obtain ⟨index, isItem⟩ := Tables.exists_item_of_mem_declared readDeclared inClasses inMembers
  have inTable
      {listed : List ParsedReference}
      (readListed : tableReferences kind bytes = .ok listed) :
      ⟨declared.name, item.member.signature kind, kind⟩ ∈
        listed.map (ParsedReference.reference kind) := by
    obtain ⟨sameTables, readAgain, isListed⟩ := exists_of_bind_eq_ok readListed
    cases readTables.symm.trans readAgain
    refine List.mem_map.mpr ⟨item, Tables.mem_references isListed isItem, ?_⟩
    rw [ParsedReference.reference, ownClass]
  cases kind with
  | method =>
      exact List.mem_append_left _ (inTable readMethods)
  | field =>
      exact List.mem_append_right _ (inTable readFields)

end Dex

end ApkAtlas
