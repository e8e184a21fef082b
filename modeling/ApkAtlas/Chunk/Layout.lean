import ApkAtlas.Chunk.Header

namespace ApkAtlas.Chunk

/-!
# Record layouts

A layout describes fields that follow each other without padding. It is written as an
optional byte order (`<` or `=` for the least significant byte first, `>` or `!` for the
most significant one) and codes, each with an optional count: `x` skips a byte, `s` is a
byte string, `p` one behind its length in a byte, `c` a single byte, `?` a truth value,
`b h i l q` are signed and `B H I L Q` unsigned numbers of one, two, four, four and eight
bytes, and `e f d` floating-point numbers of two, four and eight bytes, which are given as
they are encoded. The fields of a layout take less than 2^63 bytes together.
-/

/-- What one code stands for. -/
inductive FieldCode where
  | skip
  | text
  /-- A text behind the count of its bytes, which takes the first byte of the field. -/
  | counted
  | byte
  | flag
  | unsigned (width : Nat)
  | signed (width : Nat)
  | floating (width : Nat)
deriving Repr, DecidableEq

namespace FieldCode

/-- The code of a character. -/
def ofChar? : Char → Option FieldCode
  | 'x' => some .skip
  | 's' => some .text
  | 'p' => some .counted
  | 'c' => some .byte
  | '?' => some .flag
  | 'b' => some (.signed 1)
  | 'B' => some (.unsigned 1)
  | 'h' => some (.signed 2)
  | 'H' => some (.unsigned 2)
  | 'i' => some (.signed 4)
  | 'I' => some (.unsigned 4)
  | 'l' => some (.signed 4)
  | 'L' => some (.unsigned 4)
  | 'q' => some (.signed 8)
  | 'Q' => some (.unsigned 8)
  | 'e' => some (.floating 2)
  | 'f' => some (.floating 4)
  | 'd' => some (.floating 8)
  | _ => none

/-- The bytes that one field takes. -/
def width : FieldCode → Nat
  | .unsigned width => width
  | .signed width => width
  | .floating width => width
  | _ => 1

end FieldCode

/-- Why a text is no layout. -/
inductive LayoutFault where
  | unknownCode
  | countWithoutCode
  | tooLong
deriving Repr, DecidableEq

namespace LayoutFault

/-- The fault in words. -/
def message : LayoutFault → String
  | .unknownCode => "bad char in struct format"
  | .countWithoutCode => "repeat count given without format specifier"
  | .tooLong => "total struct size too long"

end LayoutFault

/-- Fields that follow each other. -/
structure Layout where
  bigEndian : Bool
  /-- Codes with their counts. -/
  fields : List (Nat × FieldCode)
deriving Repr, DecidableEq

namespace Layout

/-- The most bytes that the fields of a layout take together. -/
def sizeLimit : Nat := 9223372036854775807

/-- Characters that may stand between codes. -/
def isGap (c : Char) : Bool :=
  c == ' ' || (0x09 ≤ c.toNat && c.toNat ≤ 0x0D)

/-- The codes of a text, with `size` the bytes of the fields before and `count?` the digits
read before the next code. -/
def fieldsOf (size : Nat) (count? : Option Nat) :
    List Char → Except LayoutFault (List (Nat × FieldCode))
  | [] => if count?.isSome then .error .countWithoutCode else .ok []
  | c :: rest =>
      if c.isDigit then
        let count := count?.getD 0 * 10 + (c.toNat - 0x30)
        if sizeLimit < count then .error .tooLong else fieldsOf size (some count) rest
      else if isGap c && count?.isNone then
        fieldsOf size none rest
      else
        match FieldCode.ofChar? c with
        | none => .error .unknownCode
        | some code =>
            let count := count?.getD 1
            let taken := size + count * code.width
            if sizeLimit < taken then
              .error .tooLong
            else do
              let fields ← fieldsOf taken none rest
              return (count, code) :: fields

/-- The layout that a text describes. -/
def parse (text : String) : Except LayoutFault Layout :=
  match text.toList with
  | '<' :: rest => (fieldsOf 0 none rest).map (⟨false, ·⟩)
  | '=' :: rest => (fieldsOf 0 none rest).map (⟨false, ·⟩)
  | '>' :: rest => (fieldsOf 0 none rest).map (⟨true, ·⟩)
  | '!' :: rest => (fieldsOf 0 none rest).map (⟨true, ·⟩)
  | rest => (fieldsOf 0 none rest).map (⟨false, ·⟩)

/-- The bytes that all fields take. -/
def size (layout : Layout) : Nat :=
  (layout.fields.map fun (count, code) => count * code.width).foldr (· + ·) 0

/-- The value of one field. -/
def value (bigEndian : Bool) (code : FieldCode) (field : List UInt8) : Datum :=
  let number := if bigEndian then Bytes.bigEndian field else Bytes.littleEndian field
  match code with
  | .skip => .null
  | .text => .bytes field
  | .counted => .bytes (field.tail.take (field.headD 0).toNat)
  | .byte => .bytes field
  | .flag => .bool (number != 0)
  | .unsigned _ => .nat number
  | .signed width => .int (Bytes.signed (8 * width) number)
  | .floating _ => .bytes (if bigEndian then field.reverse else field)

/-- The values of `count` fields with the same code. -/
def values (bigEndian : Bool) (code : FieldCode) : Nat → List UInt8 → List Datum
  | 0, _ => []
  | count + 1, bytes =>
      value bigEndian code (bytes.take code.width) ::
        values bigEndian code count (bytes.drop code.width)

/-- The values of fields with their counts: bytes that are skipped have none, and a byte
string has one whatever its length. -/
def unpackFields (bigEndian : Bool) : List (Nat × FieldCode) → List UInt8 → List Datum
  | [], _ => []
  | (count, .skip) :: rest, bytes => unpackFields bigEndian rest (bytes.drop count)
  | (count, .text) :: rest, bytes =>
      value bigEndian .text (bytes.take count) ::
        unpackFields bigEndian rest (bytes.drop count)
  | (count, .counted) :: rest, bytes =>
      value bigEndian .counted (bytes.take count) ::
        unpackFields bigEndian rest (bytes.drop count)
  | (count, code) :: rest, bytes =>
      values bigEndian code count bytes ++
        unpackFields bigEndian rest (bytes.drop (count * code.width))

/-- The values of a layout. -/
def unpack (layout : Layout) (bytes : List UInt8) : List Datum :=
  unpackFields layout.bigEndian layout.fields bytes

end Layout

/-- Why a record could not be read. -/
inductive RecordError where
  | decode (error : DecodeError)
  | layout (fault : LayoutFault)
  /-- The chunk claims bytes that the buffer does not have. -/
  | bufferTooSmall (offset size bufferSize : Nat)
deriving Repr, DecidableEq

namespace RecordError

/-- The error as a fault. -/
def toFault : RecordError → Fault
  | .decode error => error.toFault
  | .layout fault => .external ⟨.badLayout, fault.message⟩
  | .bufferTooSmall offset size bufferSize =>
      .external ⟨.badLayout,
        s!"unpack_from requires a buffer of at least {offset + size} bytes for unpacking " ++
          s!"{size} bytes at offset {offset} (actual buffer size is {bufferSize})"⟩

end RecordError

namespace Header

/-- The values of a record at a position relative to the chunk. -/
def record
    (header : Header)
    (buffer : Bytes)
    (relative : Int)
    (layoutText : String) :
    Except RecordError (List Datum) := do
  let start ← (header.absolute relative).mapError .decode
  let layout ← (Layout.parse layoutText).mapError .layout
  let _ ← (header.absolute (relative + layout.size)).mapError .decode
  if buffer.size < start + layout.size then
    throw (.bufferTooSmall start layout.size buffer.size)
  return layout.unpack (Bytes.slice buffer start layout.size).toList

end Header

end ApkAtlas.Chunk
