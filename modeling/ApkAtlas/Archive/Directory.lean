import ApkAtlas.Archive.Entry
import ApkAtlas.Archive.Error
import ApkAtlas.Text.SingleByte

namespace ApkAtlas.Archive

/-!
# Directories of archives

An archive ends with a record that tells how large its directory is, which stands right
before the record. Where four bytes are too few for a number, wide records of the end and
extra fields of the lines have it in eight. Bytes before the first entry are tolerated: all
places are counted from where the archive begins, which the record and the directory's
size tell.
-/

/-- One line of the directory. -/
structure Listing where
  entry : ArchiveEntry
  /-- The name as the directory has it, before anything is cut off. -/
  listedName : String
  flags : Nat
  method : Nat
  checksum : Nat
  storedSize : Nat
  rawSize : Nat
  /-- Where the entry starts in the file. -/
  start : Int
  /-- Where what stands behind the entry starts. -/
  limit : Int := 0
deriving Repr

/-- The size of the record at the end. -/
def endSize : Nat := 22

/-- The size of the fixed part of a line. -/
def lineSize : Nat := 46

/-- The greatest distance of the record at the end from the end of the file. -/
def searchLimit : Nat := 65536 + endSize

/-- Whether four bytes open a record of the given kind: the letters `PK` and the kind. -/
def hasMark (bytes : Bytes) (start first second : Nat) : Bool :=
  Bytes.u32 bytes start == 0x4B50 + 0x10000 * first + 0x1000000 * second

/-- Whether the record of the end starts at a position. -/
def isEnd (bytes : Bytes) (start : Nat) : Bool :=
  start + 4 ≤ bytes.size && hasMark bytes start 5 6

/-- The last position below `bound` where the record of the end starts, at most `steps`
positions before the bound. -/
def lastEnd? (bytes : Bytes) : Nat → Nat → Option Nat
  | 0, _ => none
  | _, 0 => none
  | steps + 1, bound + 1 =>
      if isEnd bytes bound then some bound else lastEnd? bytes steps bound

/-- Where the record of the end starts. The last place of the file is taken if it holds
one without comment; otherwise the last mark counts, and must have room for the
record. -/
def end? (bytes : Bytes) : Option Nat :=
  if bytes.size < endSize then
    none
  else
    let last := bytes.size - endSize
    if isEnd bytes last && Bytes.u16 bytes (last + 20) == 0 then
      some last
    else
      (lastEnd? bytes searchLimit bytes.size).filter fun start => start + endSize ≤ bytes.size

/-- What the end of an archive says of its directory. -/
structure Ending where
  /-- The size of the directory. -/
  size : Nat
  /-- Where the directory starts, counted from where the archive begins. -/
  offset : Nat
  /-- How many bytes stand between the directory and the record of the end. -/
  gap : Nat := 0
deriving Repr, DecidableEq

/-- The size of the record that leads to the wide record of the end. -/
def locatorSize : Nat := 20

/-- The size of the wide record of the end, which stands in front of the one that leads to
it. -/
def wideEndSize : Nat := 56

/-- What the end says whose record is at a position. The wide record counts where there is
one; without room for it the file is no archive. -/
def ending? (bytes : Bytes) (last : Nat) : Option (Except ArchiveError Ending) :=
  let plain : Ending := ⟨Bytes.u32 bytes (last + 12), Bytes.u32 bytes (last + 16), 0⟩
  let locator := last - locatorSize
  let wide := locator - wideEndSize
  if last < locatorSize || !hasMark bytes locator 6 7 then
    some (.ok plain)
  else if Bytes.u32 bytes (locator + 4) ≠ 0 || 1 < Bytes.u32 bytes (locator + 16) then
    some (.error .manyDisks)
  else if locator < wideEndSize then
    none
  else if !hasMark bytes wide 6 6 then
    some (.ok plain)
  else
    some (.ok
      { size := Bytes.word bytes (wide + 40) 8
        offset := Bytes.word bytes (wide + 48) 8
        gap := wideEndSize + locatorSize })

/-- Whether the name of an entry is written in UTF-8. -/
def isUtf8 (flags : Nat) : Bool :=
  flags.testBit 11

/-- The text of a name. -/
def nameOf (flags : Nat) (bytes : List UInt8) : Except ArchiveError String :=
  if isUtf8 flags then
    (Text.Utf8.decode bytes).mapError .undecodableName
  else
    .ok (Text.CodePage437.decode bytes)

/-- The numbers of a line that may be too large for four bytes. -/
structure Extent where
  rawSize : Nat
  storedSize : Nat
  /-- Where the entry starts, counted from where the archive begins. -/
  offset : Nat
deriving Repr, DecidableEq

namespace Extent

/-- What stands for a number that is too large for four bytes. -/
def narrowLimit : Nat := 0xFFFFFFFF

/-- What stands for a number that is too large for eight bytes. -/
def wideLimit : Nat := 0xFFFFFFFFFFFFFFFF

/-- The first number of eight bytes and the data behind it; `name` tells what is missing
where there is none. -/
def wide? (name : String) (data : List UInt8) : Except ArchiveError (Nat × List UInt8) :=
  if data.length < 8 then
    .error (.wideField name)
  else
    .ok (Bytes.littleEndian (data.take 8), data.drop 8)

/-- The numbers that an extra field of wide numbers has in place of those that are too
large, one behind the other. -/
def widen (extent : Extent) (data : List UInt8) : Except ArchiveError Extent := do
  let (rawSize, data) ←
    if extent.rawSize = narrowLimit ∨ extent.rawSize = wideLimit then wide? "File size" data
    else pure (extent.rawSize, data)
  let (storedSize, data) ←
    if extent.storedSize = narrowLimit then wide? "Compress size" data
    else pure (extent.storedSize, data)
  let (offset, _) ←
    if extent.offset = narrowLimit then wide? "Header offset" data
    else pure (extent.offset, data)
  return { rawSize, storedSize, offset }

/-- The mark of an extra field of wide numbers. -/
def wideMark : Nat := 1

/-- The numbers behind all extra fields, of which none may reach past the end. -/
def extend (extent : Extent) (extra : List UInt8) : Except ArchiveError Extent :=
  match extra with
  | a :: b :: c :: d :: rest => do
      let mark := Bytes.littleEndian [a, b]
      let size := Bytes.littleEndian [c, d]
      if rest.length < size then
        throw (.extraField mark size)
      let extent ← if mark = wideMark then extent.widen (rest.take size) else pure extent
      extent.extend (rest.drop size)
  | _ => .ok extent
  termination_by extra.length
  decreasing_by simp only [List.length_drop, List.length_cons]; omega

end Extent

/-- The newest version of the format that can be read, in tenths. -/
def newestVersion : Nat := 63

/-- The line of the directory at a position and the size of the whole line. -/
def readLine (directory : Bytes) (start : Nat) (shift : Int) :
    Except ArchiveError (Listing × Nat) := do
  if directory.size < start + lineSize then
    throw .directoryTruncated
  if !hasMark directory start 1 2 then
    throw .directoryMark
  let flags := Bytes.u16 directory (start + 8)
  let nameSize := Bytes.u16 directory (start + 28)
  let extraSize := Bytes.u16 directory (start + 30)
  let commentSize := Bytes.u16 directory (start + 32)
  let listedName ← nameOf flags (Bytes.slice directory (start + lineSize) nameSize).toList
  let version := Bytes.u8 directory (start + 6)
  if newestVersion < version then
    throw (.unsupportedVersion version)
  let narrow : Extent :=
    { rawSize := Bytes.u32 directory (start + 24)
      storedSize := Bytes.u32 directory (start + 20)
      offset := Bytes.u32 directory (start + 42) }
  let extent ←
    narrow.extend (Bytes.slice directory (start + lineSize + nameSize) extraSize).toList
  let name := String.ofList (listedName.toList.takeWhile (· ≠ '\x00'))
  let entry : ArchiveEntry :=
    { path := name
      rawSize := extent.rawSize
      downloadSize := extent.storedSize
      isDirectory := name.toList.getLast? == some '/' }
  let listing : Listing :=
    { entry, listedName, flags
      method := Bytes.u16 directory (start + 10)
      checksum := Bytes.u32 directory (start + 16)
      storedSize := extent.storedSize
      rawSize := extent.rawSize
      start := extent.offset + shift }
  return (listing, lineSize + nameSize + extraSize + commentSize)

/-- All lines of a directory. A line takes at least a byte, so as many steps as bytes are
enough. -/
def readLines (directory : Bytes) (shift : Int) :
    Nat → Nat → List Listing → Except ArchiveError (List Listing)
  | 0, _, done => .ok done.reverse
  | steps + 1, start, done =>
      if directory.size ≤ start then
        .ok done.reverse
      else
        match readLine directory start shift with
        | .error error => .error error
        | .ok (listing, size) =>
            readLines directory shift steps (start + size) (listing :: done)

/-- Where what stands behind an entry starts: the next entry, or the directory. Of entries
that start at one place, only the first listed has room. -/
def limitOf (directoryStart start : Int) (earlier all : List Listing) : Int :=
  if earlier.any (·.start == start) then
    start
  else
    let behind := (all.map (·.start)).filter (start < ·)
    match behind with
    | [] => directoryStart
    | first :: rest => rest.foldl (fun least other => if other < least then other else least) first

/-- The lines with their limits, where `earlier` were listed before them. -/
def withLimits (directoryStart : Int) (all : List Listing) :
    List Listing → List Listing → List Listing
  | _, [] => []
  | earlier, listing :: rest =>
      { listing with limit := limitOf directoryStart listing.start earlier all } ::
        withLimits directoryStart all (listing :: earlier) rest

/-- The lines of the directory of an archive whose record of the end is at a position. -/
def readDirectory (bytes : Bytes) (last : Nat) (ending : Ending) :
    Except ArchiveError (List Listing) :=
  if last < ending.size + ending.gap then
    .error .directoryOffset
  else do
    let start := last - ending.gap - ending.size
    let shift := (start : Int) - ending.offset
    let found ← readLines (Bytes.slice bytes start ending.size) shift ending.size 0 []
    return withLimits start found [] found

end ApkAtlas.Archive
