import ApkAtlas.Text.SingleByte
import ApkAtlas.Text.Utf16
import ApkAtlas.Text.Utf8
import ApkAtlas.Xml.Markup.Scan

namespace ApkAtlas.Xml.Markup

/-!
# Encodings of XML texts

An XML text may open with a declaration of its version, its encoding and whether it stands
alone. Without one it is in UTF-8, or in UTF-16 where its second byte is zero. Encodings of
other names are looked up; only those of one byte for each character can be read.
-/

/-- How a named encoding writes characters. -/
inductive Charset where
  /-- In one byte each; a byte may be no character. -/
  | singleByte (char? : UInt8 → Option Char)
  | multiByte

/-- Encodings by their names. -/
abbrev Charsets := String → Option Charset

/-- Why a document cannot be read. -/
inductive DocumentError where
  | malformed
  /-- There is no encoding of the name. -/
  | unknownEncoding (name : String)
  | multiByteEncoding
deriving Repr, DecidableEq

/-- The encodings that are known without being looked up. -/
inductive Encoding where
  | utf8
  | utf16
  | utf16LittleEndian
  | utf16BigEndian
  | latin1
  | ascii
deriving Repr, DecidableEq

/-- Whether a document is in units of two bytes, least significant byte first. -/
def isWide (bytes : List UInt8) : Bool :=
  bytes.take 2 == [0x3C, 0x00]

namespace Encoding

/-- The encoding of a name, in any case. -/
def ofName? (name : String) : Option Encoding :=
  match name.toLower with
  | "utf-8" => some .utf8
  | "utf-16" => some .utf16
  | "utf-16le" => some .utf16LittleEndian
  | "utf-16be" => some .utf16BigEndian
  | "iso-8859-1" => some .latin1
  | "us-ascii" => some .ascii
  | _ => none

/-- The encoding of a document that names none. -/
def standard (bytes : List UInt8) : Encoding :=
  if isWide bytes then .utf16 else .utf8

/-- The characters of a byte string. A document in single bytes is not in UTF-16, whatever
it says, and one in units is not in the other byte order. -/
def decode? (bytes : List UInt8) : Encoding → Option (List Char)
  | .utf8 => (Text.Utf8.decode bytes).toOption.map String.toList
  | .utf16 => if isWide bytes then Text.Utf16.decode? bytes else none
  | .utf16LittleEndian => if isWide bytes then Text.Utf16.decode? bytes else none
  | .utf16BigEndian => none
  | .latin1 => some (bytes.map fun byte => Char.ofNat byte.toNat)
  | .ascii => bytes.mapM fun byte => if byte < 0x80 then some (Char.ofNat byte.toNat) else none

end Encoding

/-- What an XML declaration says. -/
structure Header where
  encoding : Option String := none
  standalone : Bool := false
deriving Repr, DecidableEq

/-- Whether a value of the declaration may hold the character. -/
def isHeaderChar (c : Char) : Bool :=
  c.isAlphanum || c == '.' || c == '-' || c == '_'

/-- The part of the declaration under a key: its value and the rest of the text. -/
def headerPart? (key : String) (text : List Char) : Option (String × List Char) := do
  let rest ← after? key.toList (← space? text)
  let rest ← after? ['='] (skipSpace rest)
  let (value, after) ← quoted? (skipSpace rest)
  if value.all isHeaderChar then some (String.ofList value, after) else none

/-- Whether a value can be the name of an encoding. -/
def startsWithLetter (name : String) : Bool :=
  (name.toList.head?.map Char.isAlpha).getD false

/-- What the text of a declaration says behind its opening, without its closing mark. -/
def headerOf? (text : List Char) : Option Header := do
  let (_, rest) ← headerPart? "version" text
  let (encoding, rest) ←
    match headerPart? "encoding" rest with
    | some (name, after) => if startsWithLetter name then some (some name, after) else none
    | none => some (none, rest)
  let (standalone, rest) ←
    match headerPart? "standalone" rest with
    | some ("yes", after) => some (true, after)
    | some ("no", after) => some (false, after)
    | some _ => none
    | none => some (false, rest)
  if (skipSpace rest).isEmpty then some ⟨encoding, standalone⟩ else none

/-- The declaration that opens a text, and how many characters it takes; a text without
one has the usual header. -/
def header? (text : List Char) : Option (Header × Nat) :=
  match after? "<?xml".toList text with
  | some (c :: rest) =>
      if isSpace c then do
        let (inside, after) ← Text.cutAt? "?>".toList (c :: rest)
        return (← headerOf? inside, text.length - after.length)
      else
        some ({}, 0)
  | _ => some ({}, 0)

/-- The result of reading, where nothing means that the document is not well-formed. -/
def orMalformed {Value : Type} : Option Value → Except DocumentError Value
  | some value => .ok value
  | none => .error .malformed

/-- The characters of a document with a header. -/
def Header.decode (header : Header) (charsets : Charsets) (bytes : List UInt8) :
    Except DocumentError (List Char) :=
  match header.encoding with
  | none => orMalformed ((Encoding.standard bytes).decode? bytes)
  | some name =>
      match Encoding.ofName? name with
      | some encoding => orMalformed (encoding.decode? bytes)
      | none =>
          match charsets name with
          | none => .error (.unknownEncoding name)
          | some .multiByte => .error .multiByteEncoding
          | some (.singleByte char?) => orMalformed (bytes.mapM char?)

/-- The characters that the declaration of a document is read from. -/
def headerChars (bytes : List UInt8) : List Char :=
  if isWide bytes then
    Text.Utf16.ofUnits (Text.Utf16.units bytes)
  else
    bytes.map fun byte => Char.ofNat byte.toNat

/-!
## Named encodings

Some encodings with the names that they go by. A name is compared in lower case, by its runs
of letters, digits and dots.
-/

/-- A name in lower case with single underscores between its letters, digits and dots. -/
def plainForm (name : String) : String :=
  let marked := name.toLower.toList.map fun c => if c.isAlphanum || c == '.' then c else '_'
  String.ofList (['_'].intercalate ((Text.segments '_' marked).filter (!·.isEmpty)))

/-- The encoding whose upper half is a table. -/
def Charset.ofTable (upperHalf : Array Nat) : Charset :=
  .singleByte (Text.SingleByte.char? upperHalf)

/-- Latin-1, in which a byte is the number of its character. -/
def Charset.latin1 : Charset :=
  .singleByte fun byte => some (Char.ofNat byte.toNat)

/-- ASCII. Other spellings of UTF-8 are taken for it, since an encoding that is looked up is
one of single bytes. -/
def Charset.ascii : Charset :=
  .ofTable #[]

/-- Encodings with their names. -/
def namedCharsets : List (List String × Charset) :=
  [ (["iso_8859_1", "iso8859_1", "iso8859", "latin1", "latin_1", "latin", "l1", "cp819",
      "ibm819", "iso_ir_100", "csisolatin1", "iso_8859_1_1987"], .latin1),
    (["us_ascii", "ascii", "us", "cp367", "csascii", "ibm367", "iso646_us", "iso_ir_6",
      "utf8", "utf_8", "u8", "utf", "cp65001"], .ascii),
    (["cp437", "ibm437", "cspc8codepage437"], .ofTable Text.CodePage437.upperHalf),
    (["cp1252", "windows_1252"], .ofTable Text.SingleByte.windows1252),
    (["iso_8859_2", "iso8859_2", "latin2", "l2", "iso_ir_101", "csisolatin2",
      "iso_8859_2_1987"], .ofTable Text.SingleByte.latin2),
    (["koi8_r", "cskoi8r"], .ofTable Text.SingleByte.koi8r),
    (["utf_7", "u7", "utf_16", "utf16", "u16", "utf_16_le", "utf_16le", "utf_16_be", "utf_16be",
      "utf_32", "utf32", "u32", "utf_32_le", "utf_32le", "utf_32_be", "utf_32be"],
      .multiByte),
    (["shift_jis", "shiftjis", "sjis", "euc_jp", "eucjp", "iso_2022_jp", "euc_kr", "euckr",
      "gb2312", "gbk", "gb18030", "big5"], .multiByte) ]

/-- The encoding of a name among those named here. -/
def knownCharsets : Charsets := fun name =>
  (namedCharsets.find? fun (names, _) => names.contains (plainForm name)).map Prod.snd

end ApkAtlas.Xml.Markup
