import ApkAtlas.Chunk.Header
import ApkAtlas.Text.Utf16

namespace ApkAtlas

/-!
# String pools

A string pool is a chunk that holds the strings to which its document refers by index.
Its header gives the counts, the encoding and where the strings start; a table of string
positions follows the header. Each string is stored behind its length.
-/

/-- The strings of one pool. -/
structure StringPool where
  strings : Array String := #[]
  styleCount : Nat := 0
  isUtf8 : Bool := false
deriving Repr, DecidableEq, Inhabited

namespace StringPool

open Chunk

/-- The size of a string pool header. -/
def leastHeaderSize : Nat := 28

/-- The bit of the flags that marks UTF-8 strings. -/
def utf8Bit : Nat := 8

/-- The string at an index of the pool. -/
def get? (pool : StringPool) (index : Int) : Option String :=
  if 0 ≤ index then pool.strings[index.toNat]? else none

/-- The string at an index, or the empty text where the pool has none. -/
def text (pool : StringPool) (index : Int) : String :=
  (pool.get? index).getD ""

/-- A length of one byte, or of two if the first has its top bit set, and the position
after it. -/
def shortLength
    (buffer : Bytes)
    (header : Header)
    (position : Nat) :
    Except DecodeError (Nat × Nat) := do
  let first := Bytes.u8 (← header.bytes buffer position 1) 0
  if first < 0x80 then
    return (first, position + 1)
  let second := Bytes.u8 (← header.bytes buffer (position + 1) 1) 0
  return ((first - 0x80) * 0x100 + second, position + 2)

/-- A string in UTF-8: the count of its 16-bit units, the count of its bytes, its bytes. -/
def utf8String
    (buffer : Bytes)
    (header : Header)
    (position : Nat) :
    Except DecodeError String := do
  let (_, afterUnits) ← shortLength buffer header position
  let (length, start) ← shortLength buffer header afterUnits
  return Text.Utf8.decodeLossy (← header.bytes buffer start length).toList

/-- A string in UTF-16: the count of its units in one word, or in two if the first has
its top bit set, and its units. -/
def utf16String
    (buffer : Bytes)
    (header : Header)
    (position : Nat) :
    Except DecodeError String := do
  let first := Bytes.u16 (← header.bytes buffer position 2) 0
  if first < 0x8000 then
    return Text.Utf16.decodeLossy (← header.bytes buffer (position + 2) (first * 2)).toList
  let second := Bytes.u16 (← header.bytes buffer (position + 2) 2) 0
  let length := (first - 0x8000) * 0x10000 + second
  return Text.Utf16.decodeLossy (← header.bytes buffer (position + 4) (length * 2)).toList

/-- The string at an index of the table of positions. -/
def stringAt
    (buffer : Bytes)
    (header : Header)
    (isUtf8 : Bool)
    (stringsStart index : Nat) :
    Except DecodeError String := do
  let position := Bytes.u32 (← header.bytes buffer (header.headerSize + index * 4) 4) 0
  if isUtf8 then
    utf8String buffer header (stringsStart + position)
  else
    utf16String buffer header (stringsStart + position)

/-- The next `count` strings from an index on. -/
def stringsFrom
    (buffer : Bytes)
    (header : Header)
    (isUtf8 : Bool)
    (stringsStart index : Nat) :
    Nat → Except DecodeError (List String)
  | 0 => .ok []
  | count + 1 => do
      let first ← stringAt buffer header isUtf8 stringsStart index
      let rest ← stringsFrom buffer header isUtf8 stringsStart (index + 1) count
      return first :: rest

/-- The pool in a chunk. -/
def parse (buffer : Bytes) (header : Header) : Except DecodeError StringPool := do
  if header.token ≠ Token.stringPool then
    throw (.malformed (.notStringPool header.token) header.offset)
  if header.headerSize < leastHeaderSize then
    throw (.malformed (.stringPoolHeaderTooSmall header.headerSize) header.offset)
  let fields ← header.bytes buffer 8 20
  let isUtf8 := (Bytes.u32 fields 8).testBit utf8Bit
  let strings ←
    stringsFrom buffer header isUtf8 (Bytes.u32 fields 12) 0 (Bytes.u32 fields 0)
  return ⟨strings.toArray, Bytes.u32 fields 4, isUtf8⟩

end StringPool

end ApkAtlas
