import ApkAtlas.Bytes
import ApkAtlas.Dex.Reader
import ApkAtlas.Platform
import ApkAtlas.Xml.Markup
import ApkAtlas.Xml.Markup.Encoding

namespace ApkAtlas.Compression

/-!
# Sizes of gzip files of literals

How many bytes a file takes when it is compressed as one block of literals in the fixed code,
or stored as it is where that is not longer. Compressors do better where a file repeats
itself or is long, so this is what they come to only for short files without repetition.
-/

namespace GzipSize

/-- The bytes around the blocks: a header of ten bytes, a checksum and a length. -/
def frame : Nat := 18

/-- The length of a literal's word in the fixed code. -/
def literalBits (byte : UInt8) : Nat :=
  if byte < 144 then 8 else 9

/-- The whole bytes of a block of literals: three bits in front, the words, and seven bits
for the end of the block. -/
def literalBlock (bytes : Bytes) : Nat :=
  (3 + (bytes.toList.map literalBits).foldr (· + ·) 0 + 7 + 7) / 8

/-- The bytes of a block that is stored: the bits in front and two lengths. -/
def storedBlock (bytes : Bytes) : Nat :=
  bytes.size + 5

/-- A block is stored when its bytes with the two lengths are no more than the coded
block. -/
def block (bytes : Bytes) : Nat :=
  if bytes.size + 4 ≤ literalBlock bytes then storedBlock bytes else literalBlock bytes

end GzipSize

/-- The size of a file that is written in literals. -/
def literalGzipSize (bytes : Bytes) : Nat :=
  GzipSize.frame + GzipSize.block bytes

end ApkAtlas.Compression

namespace ApkAtlas

/-!
# A platform without other software

The platform that runs where nothing else is at hand. Its parsers are the readers described
here, which know the usual files; it has no decompressors of its own, and it only estimates
what compression would come to.
-/

/-- The platform that is made of what is described here. -/
def Platform.builtin : Platform where
  dexParser := Dex.reader
  markupParser := Xml.Markup.reader Xml.Markup.knownCharsets fun _ => "not well-formed"
  bzip2 := none
  lzma := none
  gzipSize _ bytes := Compression.literalGzipSize bytes
  directorySize _ := 4096
  lastPosition := 0x7FFFFFFFFFFFFFFF

end ApkAtlas
