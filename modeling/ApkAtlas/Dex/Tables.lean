import ApkAtlas.Checksum
import ApkAtlas.Dex.Header
import ApkAtlas.Dex.Symbols
import ApkAtlas.Symbols.Source
import ApkAtlas.Text.Utf16

namespace ApkAtlas.Dex

/-!
# Tables of DEX files

The map of a DEX file lists its tables: of strings, types, prototypes, fields, methods
and classes, whose items name each other by their positions, and the sections of texts,
lists of types and members of classes, whose items are named by their places. A table
must lie inside the file, so looking an item up never reads past the end;
`Tables.place_inside` states this.
-/

/-- Why the tables of a file cannot be read. -/
inductive TableError where
  /-- The file does not have its numbers least significant byte first. -/
  | wrongByteOrder (mark : Nat)
  | wrongChecksum
  /-- So many bytes are needed where the file or a table ends before. -/
  | truncated (width : Nat)
  /-- The map names no table of methods or of fields. -/
  | noReferences
deriving Repr, DecidableEq

namespace TableError

/-- The error as one from outside. -/
def toError : TableError → ExternalError
  | .wrongByteOrder mark =>
      ⟨.badValue,
        "This is not a DEX file! Wrong endian tag: '" ++ Text.markedHex 8 mark ++ "'"⟩
  | .wrongChecksum => ⟨.badValue, "Wrong Adler32 checksum for DEX file!"⟩
  | .truncated width => ⟨.badLayout, s!"unpack requires a buffer of {width} bytes"⟩
  | .noReferences => ⟨.missingPart, "'NoneType' object has no attribute 'gets'"⟩

/-- The error as a fault. -/
def toFault (error : TableError) : Fault :=
  .external error.toError

end TableError

/-- A number of `width` bytes inside the file. -/
def number (bytes : Bytes) (start width : Nat) : Except TableError Nat :=
  if start + width ≤ bytes.size then
    .ok (Bytes.word bytes start width)
  else
    .error (.truncated width)

/-- A number in groups of seven bits, least significant first, in at most `groups` bytes,
and the position behind it. A set highest bit says that a group follows; in the last
byte that there can be, it counts as a bit of the number. -/
def grouped (bytes : Bytes) : Nat → Nat → Except TableError (Nat × Nat)
  | 0, start => .ok (0, start)
  | groups + 1, start => do
      let group ← number bytes start 1
      if group < 0x80 || groups = 0 then
        return (group, start + 1)
      else
        let (higher, next) ← grouped bytes groups (start + 1)
        return (group % 0x80 + 0x80 * higher, next)

/-- The most bytes that a grouped number takes. -/
def groupLimit : Nat := 5

/-- The bytes from a position on up to the first zero. -/
def untilZero (bytes : Bytes) (start : Nat) : List UInt8 :=
  if inside : start < bytes.size then
    if bytes[start] = 0 then [] else bytes[start] :: untilZero bytes (start + 1)
  else
    []
  termination_by bytes.size - start

/-- The kinds of table that symbols are read from. -/
inductive TableKind where
  | strings
  | types
  | prototypes
  | fields
  | methods
  | classes
deriving Repr, DecidableEq

namespace TableKind

/-- The number of a kind in the map. -/
def code : TableKind → Nat
  | .strings => 1
  | .types => 2
  | .prototypes => 3
  | .fields => 4
  | .methods => 5
  | .classes => 6

/-- The size of one item. -/
def width : TableKind → Nat
  | .strings => 4
  | .types => 4
  | .prototypes => 12
  | .fields => 8
  | .methods => 8
  | .classes => 32

/-- The table that holds the members of a kind. -/
def ofMembers : MemberKind → TableKind
  | .method => .methods
  | .field => .fields

end TableKind

/-- One line of the map: a kind, how many items there are and where they start. -/
structure MapEntry where
  code : Nat
  count : Nat
  start : Nat
deriving Repr, DecidableEq

/-! ## Sections -/

/-- The items that follow one another from a place on, each with its place, by what reads
one item and finds the position behind it. -/
def items
    {Item : Type}
    (read : Nat → Except TableError (Item × Nat)) :
    Nat → Nat → Except TableError (List (Nat × Item))
  | 0, _ => .ok []
  | count + 1, start => do
      let (item, next) ← read start
      let rest ← items read count next
      return (start, item) :: rest

/-- The text at a place: its length in units, which nothing needs, and its bytes up to the
first zero. -/
def text (bytes : Bytes) (start : Nat) : Except TableError (String × Nat) := do
  let (_, first) ← grouped bytes groupLimit start
  let encoded := untilZero bytes first
  return (Text.ModifiedUtf8.decode encoded, first + encoded.length + 1)

/-- The list of types at a place, by the numbers of the types. -/
def typeNumbers (bytes : Bytes) (start : Nat) : Except TableError (List Nat × Nat) := do
  let count ← number bytes start 4
  let numbers ← (List.range count).mapM fun index => number bytes (start + 4 + 2 * index) 2
  -- Lists start at multiples of four.
  return (numbers, start + 4 + 2 * (count + count % 2))

/-- How many numbers stand behind the distance in a declared member. -/
def memberExtras : MemberKind → Nat
  | .method => 2
  | .field => 1

/-- The position behind some grouped numbers. -/
def skipGrouped (bytes : Bytes) : Nat → Nat → Except TableError Nat
  | 0, start => .ok start
  | count + 1, start => do
      let (_, next) ← grouped bytes groupLimit start
      skipGrouped bytes count next

/-- The numbers of `count` declared members, and the position behind them. Each is told by
its distance from `last`, the number of the member before. -/
def memberNumbers
    (bytes : Bytes)
    (kind : MemberKind) :
    Nat → Nat → Nat → Except TableError (List Nat × Nat)
  | 0, _, start => .ok ([], start)
  | count + 1, last, start => do
      let (distance, afterDistance) ← grouped bytes groupLimit start
      let next ← skipGrouped bytes (memberExtras kind) afterDistance
      let (rest, behind) ← memberNumbers bytes kind count (last + distance) next
      return ((last + distance) :: rest, behind)

/-- The numbers of the members of a class, static fields before those of instances and
direct methods before virtual ones. -/
structure ClassData where
  fields : List Nat := []
  methods : List Nat := []
deriving Repr, DecidableEq

namespace ClassData

/-- The numbers of the members of a kind. -/
def members (data : ClassData) : MemberKind → List Nat
  | .method => data.methods
  | .field => data.fields

/-- The members of a class at a place. -/
def read (bytes : Bytes) (start : Nat) : Except TableError (ClassData × Nat) := do
  let (staticFields, start) ← grouped bytes groupLimit start
  let (instanceFields, start) ← grouped bytes groupLimit start
  let (directMethods, start) ← grouped bytes groupLimit start
  let (virtualMethods, start) ← grouped bytes groupLimit start
  let (static, start) ← memberNumbers bytes .field staticFields 0 start
  let (ofInstances, start) ← memberNumbers bytes .field instanceFields 0 start
  let (direct, start) ← memberNumbers bytes .method directMethods 0 start
  let (virtual, start) ← memberNumbers bytes .method virtualMethods 0 start
  return (⟨static ++ ofInstances, direct ++ virtual⟩, start)

end ClassData

/-! ## Tables -/

/-- A DEX file with its map and the items of its sections by their places. -/
structure Tables where
  bytes : Bytes
  entries : List MapEntry
  texts : List (Nat × String) := []
  typeLists : List (Nat × List Nat) := []
  classData : List (Nat × ClassData) := []
deriving Repr

namespace Tables

/-- The line of the map at a position. -/
def readEntry (bytes : Bytes) (start : Nat) : MapEntry :=
  ⟨Bytes.u16 bytes start, Bytes.u32 bytes (start + 4), Bytes.u32 bytes (start + 8)⟩

/-- The map at a position; at the start of the file it means that there is none. -/
def readMap (bytes : Bytes) (start : Nat) : Except TableError (List MapEntry) := do
  if start = 0 then
    return []
  let count ← number bytes start 4
  if bytes.size < start + 4 + 12 * count then
    throw (.truncated 12)
  return (List.range count).map fun index => readEntry bytes (start + 4 + 12 * index)

/-- What the mark of the byte order must be. -/
def byteOrderMark : Nat := 0x12345678

/-- The items of the section with a number in the map; a map without it has no items. -/
def sectionItems
    {Item : Type}
    (read : Nat → Except TableError (Item × Nat))
    (entries : List MapEntry)
    (code : Nat) :
    Except TableError (List (Nat × Item)) :=
  match entries.find? (·.code == code) with
  | none => .ok []
  | some entry => items read entry.count entry.start

/-- The tables of a file by its map. -/
def readSections (bytes : Bytes) : Except TableError Tables := do
  let entries ← readMap bytes (Bytes.u32 bytes 52)
  let texts ← sectionItems (text bytes) entries 0x2002
  let typeLists ← sectionItems (typeNumbers bytes) entries 0x1001
  let classData ← sectionItems (ClassData.read bytes) entries 0x2000
  return { bytes, entries, texts, typeLists, classData }

/-- The tables of a file that is in the right byte order and has the checksum it
names. -/
def read (bytes : Bytes) : Except TableError Tables := do
  if bytes.size < headerSize then
    throw (.truncated headerSize)
  let mark := Bytes.u32 bytes 40
  if mark ≠ byteOrderMark then
    throw (.wrongByteOrder mark)
  if Checksum.adler32 bytes 12 ≠ Bytes.u32 bytes 8 then
    throw .wrongChecksum
  readSections bytes

/-- The first table of a kind. -/
def find? (tables : Tables) (kind : TableKind) : Option MapEntry :=
  tables.entries.find? (·.code == kind.code)

/-- Where an item of a table is; a table may not have so many items. -/
def place? (tables : Tables) (kind : TableKind) (index : Nat) :
    Except TableError (Option Nat) :=
  match tables.find? kind with
  | none => .error (.truncated kind.width)
  | some entry =>
      let start := entry.start + kind.width * index
      if entry.count ≤ index then
        .ok none
      else if start + kind.width ≤ tables.bytes.size then
        .ok (some start)
      else
        .error (.truncated kind.width)

/-- Where an item of a table is that must be there. -/
def place (tables : Tables) (kind : TableKind) (index : Nat) : Except TableError Nat := do
  match ← tables.place? kind index with
  | some start => return start
  | none => throw (.truncated kind.width)

/-- An item that a table has lies inside the file. -/
theorem place?_inside
    {tables : Tables}
    {kind : TableKind}
    {index start : Nat}
    (found : tables.place? kind index = .ok (some start)) :
    start + kind.width ≤ tables.bytes.size := by
  rw [place?] at found
  split at found
  · cases found
  · dsimp only at found
    split at found
    · cases found
    · split at found
      · cases found
        assumption
      · cases found

/-- An item that was found lies inside the file. -/
theorem place_inside
    {tables : Tables}
    {kind : TableKind}
    {index start : Nat}
    (found : tables.place kind index = .ok start) :
    start + kind.width ≤ tables.bytes.size := by
  rw [place] at found
  cases searched : tables.place? kind index with
  | error error =>
      rw [searched] at found
      cases found
  | ok place =>
      rw [searched] at found
      cases place with
      | none =>
          cases found
      | some place =>
          cases found
          exact place?_inside searched

/-- Where the items of a table are, in order. -/
def places (tables : Tables) (kind : TableKind) (entry : MapEntry) :
    Except TableError (List Nat) :=
  if entry.start + kind.width * entry.count ≤ tables.bytes.size then
    .ok ((List.range entry.count).map fun index => entry.start + kind.width * index)
  else
    .error (.truncated kind.width)

/-- What stands for a string that the file does not have. -/
def missingText : String := "AG:IS: invalid string"

/-- What stands for a type that the file does not have. -/
def missingType : String := "AG:ITI: invalid type"

/-- The text of a string. -/
def string (tables : Tables) (index : Nat) : Except TableError String := do
  match ← tables.place? .strings index with
  | none => return missingText
  | some start => return (tables.texts.lookup (Bytes.u32 tables.bytes start)).getD missingText

/-- The descriptor of a type. -/
def descriptor (tables : Tables) (index : Nat) : Except TableError String := do
  match ← tables.place? .types index with
  | none => return missingType
  | some start => tables.string (Bytes.u32 tables.bytes start)

/-- The descriptors of the list of types at a place; there may be no list. -/
def typeList (tables : Tables) (start : Nat) : Except TableError (List String) :=
  ((tables.typeLists.lookup start).getD []).mapM tables.descriptor

/-- The parameters in brackets, with spaces between them, and the result of a
prototype. -/
def prototype (tables : Tables) (index : Nat) : Except TableError String := do
  let start ← tables.place .prototypes index
  let parameters ← tables.typeList (Bytes.u32 tables.bytes (start + 8))
  let result ← tables.descriptor (Bytes.u32 tables.bytes (start + 4))
  return "(" ++ " ".intercalate parameters ++ ")" ++ result

end Tables

end ApkAtlas.Dex
