import ApkAtlas.Bytes
import ApkAtlas.Failure

namespace ApkAtlas.Dex

/-!
# Headers of DEX files

A DEX file opens with a header of 112 bytes. It names the format's version and the sizes
of the tables, which is enough to tell how many methods and fields the code refers to.
`Header.decode_ok_iff` says which byte strings have a header.
-/

/-- The size of a header. -/
def headerSize : Nat := 112

/-- Why a byte string has no header. -/
inductive HeaderError where
  | tooShort (size : Nat)
  | badMagic (magic : List UInt8)
deriving Repr, DecidableEq

namespace HeaderError

/-- The error in words. -/
def text : HeaderError → String
  | .tooShort _ => s!"DEX file shorter than its {headerSize} byte header"
  | .badMagic magic => "Bad DEX magic " ++ Text.quotedBytes magic

/-- The size of the file where it explains the error. -/
def context : HeaderError → List (String × Datum)
  | .tooShort size => [("size", .nat size)]
  | .badMagic _ => []

/-- The error as a failure at the start of the file. -/
def toFailure (error : HeaderError) : Failure :=
  { text := error.text
    context := error.context
    detail := .malformedHeader 0 }

/-- The error as a fault. -/
def toFault (error : HeaderError) : Fault :=
  .failure error.toFailure

end HeaderError

/-- The version and the table sizes of a DEX file. -/
structure Header where
  version : String
  fileSize : Nat
  stringCount : Nat
  typeCount : Nat
  prototypeCount : Nat
  fieldCount : Nat
  methodCount : Nat
  classCount : Nat
deriving Repr, DecidableEq

namespace Header

/-- One character of the version; a byte that is no ASCII becomes the replacement
character. -/
def versionChar (byte : UInt8) : Char :=
  if byte < 0x80 then Char.ofNat byte.toNat else '\ufffd'

/-- Whether a file opens as a DEX file: the letters `dex`, a line feed, three bytes of
version and a zero. -/
def hasMagic (bytes : Bytes) : Bool :=
  (Bytes.slice bytes 0 4).toList == [0x64, 0x65, 0x78, 0x0A] && Bytes.u8 bytes 7 == 0

/-- The header that stands at the start of a byte string. -/
def read (bytes : Bytes) : Header :=
  { version := String.ofList ((Bytes.slice bytes 4 3).toList.map versionChar)
    fileSize := Bytes.u32 bytes 32
    stringCount := Bytes.u32 bytes 56
    typeCount := Bytes.u32 bytes 64
    prototypeCount := Bytes.u32 bytes 72
    fieldCount := Bytes.u32 bytes 80
    methodCount := Bytes.u32 bytes 88
    classCount := Bytes.u32 bytes 96 }

/-- The header of a DEX file. -/
def decode (bytes : Bytes) : Except HeaderError Header :=
  if bytes.size < headerSize then
    .error (.tooShort bytes.size)
  else if hasMagic bytes then
    .ok (read bytes)
  else
    .error (.badMagic (Bytes.slice bytes 0 8).toList)

/-- Exactly the long enough byte strings with the magic have a header. -/
theorem decode_ok_iff (bytes : Bytes) :
    (decode bytes).isOk ↔ headerSize ≤ bytes.size ∧ hasMagic bytes = true := by
  unfold decode
  by_cases short : bytes.size < headerSize
  · simp only [short, if_true, Except.isOk, Except.toBool]
    constructor
    · intro impossible; cases impossible
    · intro ⟨longEnough, _⟩; omega
  · by_cases magic : hasMagic bytes = true
    · simp [short, magic, Except.isOk, Except.toBool]; omega
    · simp [short, magic, Except.isOk, Except.toBool]

end Header

end ApkAtlas.Dex
