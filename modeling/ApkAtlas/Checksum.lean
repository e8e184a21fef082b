import ApkAtlas.Bytes
import ApkAtlas.Text.Hex

namespace ApkAtlas.Checksum

/-!
# Checksums

The numbers that tell whether bytes are those that were written: DEX files carry an Adler-32
checksum, entries of archives a CRC-32 one, and stored reports go by their SHA-256 digest.
-/

/-! ## Adler-32

Two sums modulo the largest prime below 2^16: the first adds the bytes, the second adds
the first sum after each byte. -/

namespace Adler32

/-- The modulus of both sums. -/
def modulus : Nat := 65521

/-- The two sums after one more byte. -/
def step (sums : Nat × Nat) (byte : UInt8) : Nat × Nat :=
  let low := (sums.1 + byte.toNat) % modulus
  (low, (sums.2 + low) % modulus)

/-- The two sums as one number, the second sum in the upper half. -/
def pack (sums : Nat × Nat) : Nat :=
  sums.2 * 65536 + sums.1

end Adler32

/-- The Adler-32 checksum of the bytes from `start` on. -/
def adler32 (bytes : Bytes) (start : Nat) : Nat :=
  Adler32.pack (bytes.foldl Adler32.step (1, 0) start)

/-! ## CRC-32

The remainder of a byte string by a polynomial over two elements, with the lowest bit of
each byte first, inverted before the first and after the last byte. -/

namespace Crc32

/-- The polynomial without its highest term, lowest bit last. -/
def polynomial : UInt32 := 0xEDB88320

/-- The remainder after one more zero bit. -/
def shift (remainder : UInt32) : UInt32 :=
  if remainder &&& 1 = 1 then (remainder >>> 1) ^^^ polynomial else remainder >>> 1

/-- The remainder after several zero bits. -/
def shifts : Nat → UInt32 → UInt32
  | 0, remainder => remainder
  | count + 1, remainder => shifts count (shift remainder)

/-- The remainder after one more byte. -/
def step (remainder : UInt32) (byte : UInt8) : UInt32 :=
  shifts 8 (remainder ^^^ byte.toUInt32)

end Crc32

/-- The CRC-32 checksum of a byte string. -/
def crc32 (bytes : Bytes) : Nat :=
  (bytes.foldl Crc32.step 0xFFFFFFFF ^^^ 0xFFFFFFFF).toNat

/-! ## SHA-256

The digest of a message: the message is padded to blocks of 64 bytes, and each block is
mixed in 64 rounds into a state of eight 32-bit words. -/

namespace Sha256

/-- The fractional parts of the cube roots of the first 64 primes, to 32 bits. -/
def roundConstants : List UInt32 :=
  [0x428a2f98, 0x71374491, 0xb5c0fbcf, 0xe9b5dba5, 0x3956c25b, 0x59f111f1, 0x923f82a4,
    0xab1c5ed5, 0xd807aa98, 0x12835b01, 0x243185be, 0x550c7dc3, 0x72be5d74, 0x80deb1fe,
    0x9bdc06a7, 0xc19bf174, 0xe49b69c1, 0xefbe4786, 0x0fc19dc6, 0x240ca1cc, 0x2de92c6f,
    0x4a7484aa, 0x5cb0a9dc, 0x76f988da, 0x983e5152, 0xa831c66d, 0xb00327c8, 0xbf597fc7,
    0xc6e00bf3, 0xd5a79147, 0x06ca6351, 0x14292967, 0x27b70a85, 0x2e1b2138, 0x4d2c6dfc,
    0x53380d13, 0x650a7354, 0x766a0abb, 0x81c2c92e, 0x92722c85, 0xa2bfe8a1, 0xa81a664b,
    0xc24b8b70, 0xc76c51a3, 0xd192e819, 0xd6990624, 0xf40e3585, 0x106aa070, 0x19a4c116,
    0x1e376c08, 0x2748774c, 0x34b0bcb5, 0x391c0cb3, 0x4ed8aa4a, 0x5b9cca4f, 0x682e6ff3,
    0x748f82ee, 0x78a5636f, 0x84c87814, 0x8cc70208, 0x90befffa, 0xa4506ceb, 0xbef9a3f7,
    0xc67178f2]

/-- The state of the digest. -/
structure State where
  a : UInt32
  b : UInt32
  c : UInt32
  d : UInt32
  e : UInt32
  f : UInt32
  g : UInt32
  h : UInt32
deriving Repr, DecidableEq

namespace State

/-- The fractional parts of the square roots of the first eight primes, to 32 bits. -/
def start : State :=
  ⟨0x6a09e667, 0xbb67ae85, 0x3c6ef372, 0xa54ff53a, 0x510e527f, 0x9b05688c, 0x1f83d9ab,
    0x5be0cd19⟩

/-- The words of a state in order. -/
def words (state : State) : List UInt32 :=
  [state.a, state.b, state.c, state.d, state.e, state.f, state.g, state.h]

/-- The sum of two states, word by word. -/
def add (left right : State) : State :=
  ⟨left.a + right.a, left.b + right.b, left.c + right.c, left.d + right.d, left.e + right.e,
    left.f + right.f, left.g + right.g, left.h + right.h⟩

end State

/-- A word turned right by some bits. -/
def rotate (word : UInt32) (count : UInt32) : UInt32 :=
  (word >>> count) ||| (word <<< (32 - count))

/-- One round with a word of the schedule and its constant. -/
def round (state : State) (input : UInt32 × UInt32) : State :=
  let upper := rotate state.e 6 ^^^ rotate state.e 11 ^^^ rotate state.e 25
  let choice := (state.e &&& state.f) ^^^ ((~~~ state.e) &&& state.g)
  let first := state.h + upper + choice + input.2 + input.1
  let lower := rotate state.a 2 ^^^ rotate state.a 13 ^^^ rotate state.a 22
  let majority := (state.a &&& state.b) ^^^ (state.a &&& state.c) ^^^ (state.b &&& state.c)
  ⟨first + (lower + majority), state.a, state.b, state.c, state.d + first, state.e,
    state.f, state.g⟩

/-- The next word of a schedule from the words before it. -/
def scheduled (words : Array UInt32) : UInt32 :=
  let before (distance : Nat) : UInt32 := words.getD (words.size - distance) 0
  let low := rotate (before 15) 7 ^^^ rotate (before 15) 18 ^^^ (before 15 >>> 3)
  let high := rotate (before 2) 17 ^^^ rotate (before 2) 19 ^^^ (before 2 >>> 10)
  before 16 + low + before 7 + high

/-- A schedule with some more words. -/
def extend : Nat → Array UInt32 → Array UInt32
  | 0, words => words
  | count + 1, words => extend count (words.push (scheduled words))

/-- The words of the block at a position, and 48 more made of them. -/
def schedule (message : Bytes) (start : Nat) : Array UInt32 :=
  let word (index : Nat) : UInt32 :=
    UInt32.ofNat (Bytes.bigEndian (Bytes.slice message (start + 4 * index) 4).toList)
  extend 48 ((List.range 16).map word).toArray

/-- The state after the block at a position. -/
def block (message : Bytes) (state : State) (start : Nat) : State :=
  let inputs := (schedule message start).toList.zip roundConstants
  state.add (inputs.foldl round state)

/-- A number as bytes, most significant first. -/
def bigEndianBytes (width number : Nat) : List UInt8 :=
  (List.range width).reverse.map fun place => UInt8.ofNat (number / Nat.pow 256 place % 256)

/-- The message with a set bit, as many zeros as needed, and its length in bits. -/
def padded (message : Bytes) : Bytes :=
  let zeros := (119 - message.size % 64) % 64
  message ++ ((0x80 : UInt8) :: List.replicate zeros 0 ++
    bigEndianBytes 8 (8 * message.size)).toArray

/-- The final state of a message. -/
def digest (message : Bytes) : State :=
  let text := padded message
  ((List.range (text.size / 64)).map (64 * ·)).foldl (block text) State.start

end Sha256

/-- The SHA-256 digest of a message in 64 hexadecimal digits. -/
def sha256 (message : Bytes) : String :=
  String.join ((Sha256.digest message).words.map fun word => Text.hex 8 word.toNat)

end ApkAtlas.Checksum
