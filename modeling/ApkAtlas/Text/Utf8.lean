import ApkAtlas.Bytes
import ApkAtlas.Text.Hex

namespace ApkAtlas.Text.Utf8

/-!
# Reading UTF-8

A byte string is read front to back as characters and ill-formed parts. An ill-formed
part is a maximal beginning of a character that cannot be completed, so a lossy reader
writes one replacement character for each, and a strict reader reports the first.
-/

/-- The character that stands for an ill-formed part. -/
def replacement : Char :=
  Char.ofNat 0xFFFD

/-- What is wrong with an ill-formed part. -/
inductive Fault where
  | invalidStart
  | invalidContinuation
  | unexpectedEnd
deriving Repr, DecidableEq

namespace Fault

/-- The fault in words. -/
def message : Fault → String
  | .invalidStart => "invalid start byte"
  | .invalidContinuation => "invalid continuation byte"
  | .unexpectedEnd => "unexpected end of data"

end Fault

/-- A character, or an ill-formed part with its bytes. -/
inductive Piece where
  | char (c : Char)
  | bad (fault : Fault) (bytes : List UInt8)
deriving Repr, DecidableEq

namespace Piece

/-- The piece as a reader shows it that goes on past faults. -/
def toChar : Piece → Char
  | .char c => c
  | .bad _ _ => replacement

end Piece

/-- What a first byte announces. -/
structure Lead where
  /-- How many bytes follow. -/
  count : Nat
  /-- The least second byte. -/
  low : UInt8
  /-- The greatest second byte. -/
  high : UInt8
  /-- The bits of the character that the first byte holds. -/
  bits : Nat
deriving Repr, DecidableEq

/-- What the first byte of a character announces, or nothing if no character starts so.
The bounds on the second byte rule out long forms, surrogates and code points past the
last plane. -/
def lead? (first : UInt8) : Option Lead :=
  let code := first.toNat
  if first ≤ 0x7F then some ⟨0, 0x80, 0xBF, code⟩
  else if 0xC2 ≤ first ∧ first ≤ 0xDF then some ⟨1, 0x80, 0xBF, code - 0xC0⟩
  else if first = 0xE0 then some ⟨2, 0xA0, 0xBF, 0⟩
  else if first = 0xED then some ⟨2, 0x80, 0x9F, 0xD⟩
  else if 0xE1 ≤ first ∧ first ≤ 0xEF then some ⟨2, 0x80, 0xBF, code - 0xE0⟩
  else if first = 0xF0 then some ⟨3, 0x90, 0xBF, 0⟩
  else if 0xF1 ≤ first ∧ first ≤ 0xF3 then some ⟨3, 0x80, 0xBF, code - 0xF0⟩
  else if first = 0xF4 then some ⟨3, 0x80, 0x8F, 4⟩
  else none

/-- The longest beginning of at most `count` bytes that can continue a character whose
next byte lies between `low` and `high`. -/
def tails (low high : UInt8) : Nat → List UInt8 → List UInt8
  | count + 1, byte :: rest =>
      if low ≤ byte ∧ byte ≤ high then byte :: tails 0x80 0xBF count rest else []
  | _, _ => []

/-- The code point of the leading bits followed by six bits of each further byte. -/
def codePoint (bits : Nat) (bytes : List UInt8) : Nat :=
  bytes.foldl (fun code byte => code * 64 + (byte.toNat - 0x80)) bits

/-- The first piece of a nonempty byte string and how many bytes after the first one it
takes. -/
def first (byte : UInt8) (rest : List UInt8) : Piece × Nat :=
  match lead? byte with
  | none => (.bad .invalidStart [byte], 0)
  | some lead =>
      let body := tails lead.low lead.high lead.count rest
      if body.length = lead.count then
        (.char (Char.ofNat (codePoint lead.bits body)), lead.count)
      else if body.length = rest.length then
        (.bad .unexpectedEnd (byte :: body), body.length)
      else
        (.bad .invalidContinuation (byte :: body), body.length)

/-- The pieces of a byte string in order. -/
def pieces : List UInt8 → List Piece
  | [] => []
  | byte :: rest =>
      (first byte rest).1 :: pieces (rest.drop (first byte rest).2)
  termination_by bytes => bytes.length
  decreasing_by simp only [List.length_drop, List.length_cons]; omega

/-- The text with a replacement character for each ill-formed part. -/
def decodeLossy (bytes : List UInt8) : String :=
  String.ofList ((pieces bytes).map Piece.toChar)

/-- Where and why a byte string is not UTF-8. -/
structure Error where
  /-- The offending bytes. -/
  bytes : List UInt8
  /-- Where they start. -/
  position : Nat
  fault : Fault
deriving Repr, DecidableEq

namespace Error

/-- The offending bytes and where they are, in words. -/
def place (error : Error) : String :=
  match error.bytes with
  | [byte] => "byte 0x" ++ hex 2 byte.toNat ++ " in position " ++ toString error.position
  | bytes =>
      "bytes in position " ++ toString error.position ++ "-" ++
        toString (error.position + bytes.length - 1)

/-- The error in words. -/
def message (error : Error) : String :=
  "'utf-8' codec can't decode " ++ error.place ++ ": " ++ error.fault.message

end Error

/-- The characters of well-formed pieces, or the first ill-formed part, with positions
counted from `position` on. -/
def charsOfPieces (position : Nat) : List Piece → Except Error (List Char)
  | [] => .ok []
  | .bad fault bytes :: _ => .error ⟨bytes, position, fault⟩
  | .char c :: rest => do
      let chars ← charsOfPieces (position + c.utf8Size) rest
      return c :: chars

/-- The text, or the first ill-formed part. -/
def decode (bytes : List UInt8) : Except Error String :=
  (charsOfPieces 0 (pieces bytes)).map String.ofList

/-- The bytes of a text. -/
def encode (text : String) : Bytes :=
  text.toUTF8.data

end ApkAtlas.Text.Utf8
