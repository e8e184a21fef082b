namespace ApkAtlas

/-!
# Byte strings

Files, chunks and encoded texts are byte strings. This module fixes their type and
the two things every decoder does with them: cutting out a part and reading a part
as a number, least significant byte first.
-/

/-- A finite byte string with constant-time access. -/
abbrev Bytes := Array UInt8

namespace Bytes

/-- The number whose bytes, least significant first, are the given ones. -/
def littleEndian : List UInt8 → Nat
  | [] => 0
  | byte :: rest => byte.toNat + 256 * littleEndian rest

/-- The number whose bytes, most significant first, are the given ones. -/
def bigEndian (bytes : List UInt8) : Nat :=
  littleEndian bytes.reverse

/-- The part of `length` bytes from `start` on, cut off at the end of the string. -/
def slice (bytes : Bytes) (start length : Nat) : Bytes :=
  bytes.extract start (start + length)

/-- The `width` bytes from `start` on, read as one number. -/
def word (bytes : Bytes) (start width : Nat) : Nat :=
  littleEndian (slice bytes start width).toList

/-- The byte at `start`, or zero past the end. -/
def u8 (bytes : Bytes) (start : Nat) : Nat :=
  (bytes.getD start 0).toNat

/-- The 16-bit number at `start`. -/
def u16 (bytes : Bytes) (start : Nat) : Nat :=
  word bytes start 2

/-- The 32-bit number at `start`. -/
def u32 (bytes : Bytes) (start : Nat) : Nat :=
  word bytes start 4

/-- The signed number in two's complement with the given count of bits. -/
def signed (bits value : Nat) : Int :=
  if Nat.pow 2 (bits - 1) ≤ value then (value : Int) - Nat.pow 2 bits else value

/-- A slice that lies inside the string has its full length. -/
theorem size_slice
    {bytes : Bytes}
    {start length : Nat}
    (inside : start + length ≤ bytes.size) :
    (slice bytes start length).size = length := by
  simp [slice]; omega

/-- A number read from some bytes is smaller than their count allows. -/
theorem littleEndian_lt (bytes : List UInt8) :
    littleEndian bytes < Nat.pow 256 bytes.length := by
  induction bytes with
  | nil => simp [littleEndian]
  | cons byte rest inductionHypothesis =>
      have byteBound := byte.toNat_lt
      have power : Nat.pow 256 (byte :: rest).length = Nat.pow 256 rest.length * 256 := rfl
      simp only [littleEndian, power]
      omega

end Bytes

end ApkAtlas
