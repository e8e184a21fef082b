import ApkAtlas.Proofs.Chunk.Tiling

namespace ApkAtlas

/-!
# Reads are exact and independent of the place

A chunk inside the file gives the bytes that it holds and no others: a read succeeds exactly
if both of its ends are positions of the chunk, and then nothing is cut off. A chunk with
anything in front of it and behind it gives what it gives on its own.
-/

namespace Chunk

namespace Header

/-- So many bytes at the position lie inside the chunk. -/
def Holds (header : Header) (relative : Int) (length : Nat) : Prop :=
  0 ≤ relative ∧ relative + length ≤ header.chunkSize

instance (header : Header) (relative : Int) (length : Nat) :
    Decidable (header.Holds relative length) :=
  inferInstanceAs (Decidable (_ ∧ _))

/-- The first end of a read that lies outside the chunk, if the chunk does not hold it. -/
def missed (header : Header) (relative : Int) (length : Nat) : Int :=
  if header.Holds relative 0 then relative + length else relative

/-- The error of a position outside the chunk. -/
def outside (header : Header) (relative : Int) : DecodeError :=
  .outOfBounds header.token relative (header.offset + relative) header.chunkEnd

section Reads

variable {buffer : Bytes} {header : Header} {relative : Int} {length : Nat}

theorem Holds.start (holds : header.Holds relative length) : header.Holds relative 0 := by
  obtain ⟨lower, upper⟩ := holds
  exact ⟨lower, by omega⟩

theorem absolute_of_holds (holds : header.Holds relative 0) :
    header.absolute relative = .ok (header.offset + relative.toNat) := by
  obtain ⟨lower, upper⟩ := holds
  rw [absolute, if_pos (by rw [chunkEnd]; omega)]

theorem absolute_of_not_holds (escapes : ¬ header.Holds relative 0) :
    header.absolute relative = .error (header.outside relative) := by
  rw [Holds] at escapes
  rw [absolute, if_neg (by rw [chunkEnd]; omega)]
  rfl

/-- A read gives the bytes that the chunk holds, or names the end that is not in the chunk. -/
theorem bytes_eq_ite (relative : Int) (length : Nat) :
    header.bytes buffer relative length =
      if header.Holds relative length then
        .ok (Bytes.slice buffer (header.offset + relative.toNat) length)
      else
        .error (header.outside (header.missed relative length)) := by
  rw [bytes]
  by_cases starts : header.Holds relative 0
  · rw [absolute_of_holds starts, missed, if_pos starts]
    obtain ⟨positive, _⟩ := starts
    by_cases stops : header.Holds relative length
    · have stopInside : header.Holds (relative + length) 0 := by
        obtain ⟨lower, upper⟩ := stops
        constructor <;> omega
      have stopAt :
          header.offset + (relative + length).toNat =
            header.offset + relative.toNat + length := by
        omega
      rw [absolute_of_holds stopInside, if_pos stops, stopAt]
      rfl
    · have stopOutside : ¬ header.Holds (relative + length) 0 := by
        rintro ⟨_, upper⟩
        exact stops ⟨positive, by omega⟩
      rw [absolute_of_not_holds stopOutside, if_neg stops]
      rfl
  · rw [absolute_of_not_holds starts, missed, if_neg starts,
      if_neg fun holds => starts holds.start]
    rfl

/-- Inside the file nothing is cut off what a read gives. -/
theorem Holds.size_slice
    (holds : header.Holds relative length)
    (inside : header.chunkEnd ≤ buffer.size) :
    (Bytes.slice buffer (header.offset + relative.toNat) length).size = length := by
  obtain ⟨lower, upper⟩ := holds
  rw [chunkEnd] at inside
  exact Bytes.size_slice (by omega)

/-- A record is unpacked from the bytes that the chunk holds, or fails as their read does. -/
theorem record_eq_ite
    (inside : header.chunkEnd ≤ buffer.size)
    {layoutText : String}
    {layout : Layout}
    (parsed : Layout.parse layoutText = .ok layout)
    (relative : Int) :
    header.record buffer relative layoutText =
      if header.Holds relative layout.size then
        .ok (layout.unpack
          (Bytes.slice buffer (header.offset + relative.toNat) layout.size).toList)
      else
        .error (.decode (header.outside (header.missed relative layout.size))) := by
  rw [Fallible.record_eq inside parsed, bytes_eq_ite]
  by_cases holds : header.Holds relative layout.size
  · rw [if_pos holds, if_pos holds]
    rfl
  · rw [if_neg holds, if_neg holds]
    rfl

end Reads

section Surroundings

variable {distance : Int} {first second : Bytes} {header twin : Header}

/-- A chunk that lies elsewhere than its twin has a twin that lies elsewhere. -/
theorem Moved.symm (moved : header.Moved distance first second twin) :
    twin.Moved (-distance) second first header where
  offset := by
    rw [moved.offset]
    omega
  token := moved.token.symm
  headerSize := moved.headerSize.symm
  chunkSize := moved.chunkSize.symm
  window := moved.window.symm

end Surroundings

end Header

/-- A chunk is read among other bytes as it is read on its own, behind what is in front. -/
theorem IsChunk.exists_surrounded
    {chunk : List UInt8}
    (isChunk : IsChunk chunk)
    (before after : List UInt8) :
    ∃ header twin,
      readHeader chunk.toArray 0 = .ok header ∧
        readHeader (before ++ chunk ++ after).toArray before.length = .ok twin ∧
        header.Moved before.length chunk.toArray (before ++ chunk ++ after).toArray twin := by
  obtain ⟨composed, fits, rfl⟩ := isChunk.exists_composed
  obtain ⟨twin, read, atStart, covers⟩ :=
    @readHeader_composed (before ++ composed.bytes ++ after).toArray _ before after fits rfl
  obtain ⟨_, header, readAlone, moved⟩ := Header.exists_alone read
  rw [covers.window_eq] at readAlone moved
  have back := moved.symm
  rw [Int.neg_neg, atStart] at back
  exact ⟨header, twin, readAlone, read, back⟩

end Chunk

namespace StringPool

open Chunk

/-- The pool in the chunk at a position of the file. -/
def decodeAt (buffer : Bytes) (offset : Int) : Except DecodeError StringPool :=
  readHeader buffer offset >>= parse buffer

/-- A pool is decoded among other bytes as on its own. -/
theorem decodeAt_surrounded
    {chunk : List UInt8}
    (isChunk : IsChunk chunk)
    (before after : List UInt8) :
    decodeAt (before ++ chunk ++ after).toArray before.length =
      (decodeAt chunk.toArray 0).mapError (.moved before.length) := by
  obtain ⟨header, twin, readAlone, read, moved⟩ := isChunk.exists_surrounded before after
  rw [decodeAt, decodeAt, readAlone, read]
  exact parse_moved moved

end StringPool

namespace Chunk

/-- A pool of the strings `a` and `b`, of which the second is said to be at the end. -/
def cutPool : List UInt8 :=
  [1, 0, 28, 0, 39, 0, 0, 0, 2, 0, 0, 0, 0, 0, 0, 0, 0, 1, 0, 0, 36, 0, 0, 0, 0, 0, 0, 0,
    0, 0, 0, 0, 3, 0, 0, 0, 1, 1, 97]

end Chunk

end ApkAtlas
