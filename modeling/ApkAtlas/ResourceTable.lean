import ApkAtlas.Chunk.StringPool
import ApkAtlas.Log
import ApkAtlas.Text.Segment

namespace ApkAtlas

/-!
# Resource tables

A resource table is summarised chunk by chunk: how many strings its pool has, which
packages it holds, and how often each kind of chunk occurs. Entry values are not read.
-/

/-- One package of a resource table. -/
structure ResourcePackage where
  packageId : Int
  name : String
  typeSpecCount : Int := 0
  typeCount : Int := 0
  sizeBytes : Int := 0
deriving Repr, DecidableEq, Inhabited

/-- The summary of a resource table. -/
structure ResourceTable where
  declaredPackageCount : Int := 0
  stringCount : Int := 0
  packages : List ResourcePackage := []
  /-- How often each kind of chunk occurs, in the order of first occurrence. -/
  chunkCounts : List (String × Int) := []
deriving Repr, DecidableEq, Inhabited

namespace ResourceTable

open Chunk

/-- The names of the packages. -/
def packageNames (table : ResourceTable) : List String :=
  table.packages.map ResourcePackage.name

/-- The type specifications of all packages. -/
def typeSpecCount (table : ResourceTable) : Int :=
  (table.packages.map ResourcePackage.typeSpecCount).foldr (· + ·) 0

/-- Counts one more chunk of the given kind. -/
def count (name : String) (counts : List (String × Int)) : List (String × Int) :=
  Table.put name ((Table.get? name counts).getD 0 + 1) counts

/-- Where the name of a package starts in its chunk. -/
def nameOffset : Nat := 12

/-- The bytes that the name of a package takes. -/
def nameSize : Nat := 256

/-- The name in a field of fixed size: it ends at the first zero unit. -/
def nameOf (field : Bytes) : String :=
  let text := (Text.Utf16.decodeLossy field.toList).toList
  String.ofList (Text.beforeFirst (Char.ofNat 0) text)

/-- A table while its chunks are read. -/
structure Reading where
  table : ResourceTable
  /-- Where the packages start. -/
  offsets : List Nat := []
deriving Repr, Inhabited

namespace Reading

/-- Counts a chunk. -/
def counted (reading : Reading) (header : Header) : Reading :=
  { reading with
    table := { reading.table with
      chunkCounts := count (Token.name header.token) reading.table.chunkCounts } }

/-- Counts a chunk inside a package. -/
def innerStep
    (state : ResourcePackage × Reading)
    (header : Header) :
    Except DecodeError (ResourcePackage × Reading) :=
  let (package, reading) := state
  let package :=
    if header.token = Token.tableTypeSpec then
      { package with typeSpecCount := package.typeSpecCount + 1 }
    else if header.token = Token.tableType then
      { package with typeCount := package.typeCount + 1 }
    else
      package
  .ok (package, reading.counted header)

/-- Reads a package. -/
def package
    (buffer : Bytes)
    (reading : Reading)
    (header : Header) :
    Except DecodeError Reading := do
  let packageId := Bytes.u32 (← header.bytes buffer 8 4) 0
  let name := nameOf (← header.bytes buffer nameOffset nameSize)
  let start : ResourcePackage :=
    { packageId := packageId, name, sizeBytes := header.chunkSize }
  match (header.children buffer).run innerStep (start, reading) with
  | (_, some error) => throw error
  | ((package, reading), none) =>
      return {
        table := { reading.table with packages := reading.table.packages ++ [package] }
        offsets := reading.offsets ++ [header.offset] }

/-- Reads a chunk of the table. -/
def step
    (buffer : Bytes)
    (reading : Reading)
    (header : Header) :
    Except DecodeError Reading := do
  let reading := reading.counted header
  if header.token = Token.stringPool then
    let pool ← StringPool.parse buffer header
    return { reading with table := { reading.table with stringCount := pool.strings.size } }
  else if header.token = Token.tablePackage then
    reading.package buffer header
  else
    return reading

end Reading

/-- How far a table can be read, and the error that stopped early. -/
def run (buffer : Bytes) : Reading × Option DecodeError :=
  match readHeader buffer 0 with
  | .error error => (⟨{}, []⟩, some error)
  | .ok header =>
      if header.token = Token.table then
        match header.bytes buffer 8 4 with
        | .error error => (⟨{}, []⟩, some error)
        | .ok window =>
            let start : Reading := ⟨{ declaredPackageCount := Bytes.u32 window 0 }, []⟩
            (header.children buffer).run (Reading.step buffer) (start.counted header)
      else
        (⟨{}, []⟩, some (.malformed (.notResourceTable header.token) 0))

/-- The summary of a byte string. -/
def decode (buffer : Bytes) : Except DecodeError ResourceTable :=
  match run buffer with
  | (_, some error) => .error error
  | (reading, none) => .ok reading.table

/-- The log record of a package. -/
def logPackage (package : ResourcePackage) (offset : Nat) : LoggedExcept DecodeError Unit :=
  Logged.log .debug "Read resource package"
    [ ("package", .text package.name),
      ("package_id", .text (Text.markedHex 2 package.packageId.toNat)),
      ("offset", .nat offset),
      ("types", .int package.typeCount) ]

/-- The summary of a byte string, with log records of its packages and of the whole. -/
def decodeLogged (buffer : Bytes) : LoggedExcept DecodeError ResourceTable := do
  let (reading, _) := run buffer
  (reading.table.packages.zip reading.offsets).forM fun (package, offset) =>
    logPackage package offset
  let table ← Logged.ofExcept (decode buffer)
  Logged.log .debug "Read resource table"
    [("packages", .nat table.packages.length), ("strings", .int table.stringCount)]
  return table

end ResourceTable

end ApkAtlas
