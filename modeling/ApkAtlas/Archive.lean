import ApkAtlas.Archive.Directory
import ApkAtlas.Archive.LoadOrder
import ApkAtlas.Checksum
import ApkAtlas.Log
import ApkAtlas.Platform
import ApkAtlas.Storage.FileTree

namespace ApkAtlas

/-!
# Archives

A package is an archive whose entries are stored as they are or compressed by one of three
methods. Names may occur several times; the last entry of a name is the one that is read.
The content of an entry that was read has the listed checksum; `Listing.checked_ok` states
this.
-/

/-- An archive with the lines of its directory, and the platform it is read on. -/
structure Archive where
  platform : Platform
  bytes : Bytes
  listings : List Archive.Listing

namespace Archive

/-- The size of the fixed part in front of an entry's content. -/
def frontSize : Nat := 30

/-- The first position that does not fit into eight bytes with a sign. -/
def offsetLimit : Int := 0x8000000000000000

namespace Listing

/-- Where the content of an entry starts. The part in front of it must name the same
file as the directory, and the content must end before the next entry. -/
def contentStart (listing : Listing) (platform : Platform) (bytes : Bytes) :
    Except ArchiveError Nat := do
  if listing.start < -offsetLimit || offsetLimit ≤ listing.start then
    throw .entryOffset
  if listing.start < 0 || platform.lastPosition < listing.start then
    throw .entryPosition
  if bytes.size < listing.start + frontSize then
    throw .entryTruncated
  let start := listing.start.toNat
  if !hasMark bytes start 3 4 then
    throw .entryMark
  let nameSize := Bytes.u16 bytes (start + 26)
  let extraSize := Bytes.u16 bytes (start + 28)
  let found := (Bytes.slice bytes (start + frontSize) nameSize).toList
  if listing.flags.testBit 5 then
    throw .patched
  if listing.flags.testBit 6 then
    throw .stronglyEncrypted
  if (← nameOf (Bytes.u16 bytes (start + 6)) found) ≠ listing.listedName then
    throw (.entryRenamed listing.listedName found)
  let contentStart := start + frontSize + nameSize + extraSize
  if listing.limit < min contentStart bytes.size + listing.storedSize then
    throw (.entryOverlaps listing.listedName)
  if listing.flags.testBit 0 then
    throw (.encrypted listing.entry.path)
  return contentStart

/-- What decodes the bytes of an entry, and tells whether the content has an end there. -/
abbrev Decoder := Bytes → Except ArchiveError (Bytes × Bool)

/-- The decoder of deflated bytes. -/
def inflater : Decoder := fun data =>
  let state := Compression.inflate data
  match state.stop with
  | some (.defect defect) => .error (.contentCorrupt defect)
  | some .ended => .ok (state.output, false)
  | none => .ok (state.output, true)

/-- The decoder of a decompressor with a name, which the platform may not have. -/
def decoderOf (name : String) : Option Decompressor → Except ArchiveError Decoder
  | none => .error (.missingModule name)
  | some decompress => .ok fun data => (decompress data).mapError .contentRefused

/-- The decoder of a method. -/
def decoder (platform : Platform) : Nat → Except ArchiveError Decoder
  | 0 => .ok fun data => .ok (data, false)
  | 8 => .ok inflater
  | 12 => decoderOf "bz2" platform.bzip2
  | 14 => decoderOf "lzma" platform.lzma
  | _ => .error .unsupportedMethod

/-- The content of an entry, cut off at its size. Bytes may be missing at the end of the file
only where the content has its end or its size without them. -/
def decoded (listing : Listing) (decode : Decoder) (data : Bytes) :
    Except ArchiveError Bytes := do
  if data.isEmpty && 0 < listing.storedSize then
    throw .contentTruncated
  let (output, ended) ← decode data
  if !ended && data.size < listing.storedSize && output.size < listing.rawSize then
    throw .contentTruncated
  return output.extract 0 listing.rawSize

/-- The content before its checksum is looked at. -/
def unchecked (listing : Listing) (platform : Platform) (bytes : Bytes) :
    Except ArchiveError Bytes := do
  let start ← listing.contentStart platform bytes
  let decode ← decoder platform listing.method
  listing.decoded decode (Bytes.slice bytes start listing.storedSize)

/-- A content, if it has the listed checksum. -/
def checked (listing : Listing) (content : Bytes) : Except ArchiveError Bytes :=
  if Checksum.crc32 content = listing.checksum then
    .ok content
  else
    .error (.wrongChecksum listing.entry.path)

/-- Exactly a content with the listed checksum passes. -/
theorem checked_ok (listing : Listing) (content result : Bytes) :
    listing.checked content = .ok result ↔
      Checksum.crc32 content = listing.checksum ∧ content = result := by
  unfold checked
  split <;> simp_all

end Listing

/-- The archive in a byte string, or nothing if there is no record of an end. -/
def ofBytes? (platform : Platform) (bytes : Bytes) : Option (Except ArchiveError Archive) := do
  let last ← end? bytes
  let ending ← ending? bytes last
  return do
    let listings ← readDirectory bytes last (← ending)
    return { platform, bytes, listings }

/-- The archive at a path. -/
def openFile (platform : Platform) (tree : FileTree) (path : FilePath) :
    Except ArchiveError Archive :=
  match tree.find path with
  | .error _ => .error (.fileMissing path.toText true)
  | .ok (_, .directory) => .error (.notAnArchive path.toText)
  | .ok (_, .file bytes) =>
      match ofBytes? platform bytes with
      | none => .error (.notAnArchive path.toText)
      | some result => result

/-- All entries in the order of the directory. -/
def entries (archive : Archive) : List ArchiveEntry :=
  archive.listings.map (·.entry)

/-- The paths of all entries. -/
def names (archive : Archive) : List String :=
  archive.entries.map (·.path)

/-- The names of the DEX files in the order of loading. -/
def dexNames (archive : Archive) : List String :=
  inLoadOrder archive.names

/-- The names of the DEX files in the order of loading, if the numbers in all of them can be
read. -/
def loadOrder (archive : Archive) : Except ArchiveError (List String) :=
  match LoadRank.firstLong? archive.names with
  | some digits => .error (.longNumber Number.digitLimit digits)
  | none => .ok archive.dexNames

/-- The line of a name; of several, the last one. -/
def listing? (archive : Archive) (name : String) : Option Listing :=
  archive.listings.reverse.find? fun listing => listing.entry.path == name

/-- Whether there is an entry of a name. -/
def has (archive : Archive) (name : String) : Bool :=
  (archive.listing? name).isSome

/-- The entries of the DEX files in the order of loading. -/
def dexEntries (archive : Archive) : Except ArchiveError (List ArchiveEntry) := do
  return (← archive.loadOrder).filterMap fun name => (archive.listing? name).map (·.entry)

/-- The content of an entry. -/
def read (archive : Archive) (name : String) : Except ArchiveError Bytes :=
  match archive.listing? name with
  | none => .error (.noEntry name)
  | some listing => do listing.checked (← listing.unchecked archive.platform archive.bytes)

/-- The content of an entry, with a log record of its size. -/
def readLogged (archive : Archive) (name : String) : LoggedExcept ArchiveError Bytes := do
  let content ← Logged.ofExcept (archive.read name)
  Logged.log .debug "Read archive entry" [("entry", .text name), ("size", .nat content.size)]
  return content

end Archive

/-- The size of the file or of the directory at a path. -/
def fileSize (platform : Platform) (tree : FileTree) (path : FilePath) :
    Except ArchiveError Nat :=
  match tree.find path with
  | .error _ => .error (.fileMissing path.toText false)
  | .ok (place, .directory) => .ok (platform.directorySize place)
  | .ok (_, .file bytes) => .ok bytes.size

end ApkAtlas
