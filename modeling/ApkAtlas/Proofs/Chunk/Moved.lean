import ApkAtlas.Proofs.Except
import ApkAtlas.Xml.Compiled

namespace ApkAtlas

/-!
# Chunks at other places

What reads from a chunk asks for positions relative to it and sees nothing else of the file.
So the same chunk at another place, in another file, reads the same, and where it does not
the error is the same but for the places that it names.
-/

namespace Chunk

/-- The error with its places that much further behind. -/
def DecodeError.moved (distance : Int) : DecodeError → DecodeError
  | .malformed defect offset => .malformed defect (offset + distance)
  | .outOfBounds token relative offset limit =>
      .outOfBounds token relative (offset + distance) (limit + distance)

/-- An error that is moved by nothing stays in its place. -/
theorem DecodeError.moved_zero : DecodeError.moved 0 = id := by
  funext error
  cases error <;> simp [DecodeError.moved]

theorem mapError_moved_zero {Value : Type} (outcome : Except DecodeError Value) :
    outcome.mapError (DecodeError.moved 0) = outcome := by
  rw [DecodeError.moved_zero]
  cases outcome <;> rfl

/-- The chunk of one header in one file is that of another one in another file, with
`distance` between their places. -/
structure Header.Moved
    (distance : Int)
    (first second : Bytes)
    (header twin : Header) : Prop where
  offset : (twin.offset : Int) = header.offset + distance
  token : twin.token = header.token
  headerSize : twin.headerSize = header.headerSize
  chunkSize : twin.chunkSize = header.chunkSize
  window :
    second.extract twin.offset twin.chunkEnd = first.extract header.offset header.chunkEnd

namespace Header.Moved

variable
  {distance : Int}
  {first second : Bytes}
  {header twin : Header}

/-- A part of a chunk is a part of its bytes. -/
theorem extract_eq
    (moved : header.Moved distance first second twin)
    {start stop : Nat}
    (inside : stop ≤ header.chunkSize) :
    second.extract (twin.offset + start) (twin.offset + stop) =
      first.extract (header.offset + start) (header.offset + stop) := by
  have cut (buffer : Bytes) (owner : Header) (within : stop ≤ owner.chunkSize) :
      buffer.extract (owner.offset + start) (owner.offset + stop) =
        (buffer.extract owner.offset owner.chunkEnd).extract start stop := by
    rw [Array.extract_extract, Header.chunkEnd, Nat.min_eq_left (by omega)]
  rw [cut first header inside, cut second twin (moved.chunkSize ▸ inside), moved.window]

/-- A position that both chunks admit is the same distance behind both starts, and one that
they do not admit is so far behind either way. -/
theorem absolute_eq
    (moved : header.Moved distance first second twin)
    (relative : Int) :
    (0 ≤ relative ∧ relative ≤ header.chunkSize ∧
      header.absolute relative = .ok (header.offset + relative.toNat) ∧
      twin.absolute relative = .ok (twin.offset + relative.toNat)) ∨
    ∃ error,
      header.absolute relative = .error error ∧
        twin.absolute relative = .error (error.moved distance) := by
  have offset := moved.offset
  have chunkSize := moved.chunkSize
  have ends : header.chunkEnd = header.offset + header.chunkSize := rfl
  have twinEnds : twin.chunkEnd = twin.offset + twin.chunkSize := rfl
  by_cases inside : 0 ≤ relative ∧ relative ≤ header.chunkSize
  · refine .inl ⟨inside.1, inside.2, ?_, ?_⟩
    · rw [Header.absolute, if_pos (by omega)]
    · rw [Header.absolute, if_pos (by omega)]
  · refine .inr ⟨.outOfBounds header.token relative (header.offset + relative) header.chunkEnd,
      ?_, ?_⟩
    · rw [Header.absolute, if_neg (by omega)]
    · have place : (twin.offset + relative : Int) = header.offset + relative + distance := by
        omega
      have bound : (twin.chunkEnd : Int) = header.chunkEnd + distance := by
        omega
      rw [Header.absolute, if_neg (by omega), DecodeError.moved, moved.token, place, bound]

/-- The bytes at a position of a chunk are the same wherever the chunk lies. -/
theorem bytes_eq
    (moved : header.Moved distance first second twin)
    (relative length : Int) :
    twin.bytes second relative length =
      (header.bytes first relative length).mapError (.moved distance) := by
  rw [Header.bytes, Header.bytes]
  rcases moved.absolute_eq relative with ⟨_, _, start, twinStart⟩ | ⟨error, start, twinStart⟩
  · rcases moved.absolute_eq (relative + length) with
      ⟨_, inside, stop, twinStop⟩ | ⟨error, stop, twinStop⟩
    · simp only [start, twinStart, stop, twinStop, bind, Except.bind, pure, Except.pure]
      rw [moved.extract_eq (by omega)]
      rfl
    · simp only [start, twinStart, stop, twinStop, bind, Except.bind]
      rfl
  · simp only [start, twinStart, bind, Except.bind]
    rfl

/-- Moving a chunk leaves the size of its payload. -/
theorem payloadSize_eq (moved : header.Moved distance first second twin) :
    twin.payloadSize = header.payloadSize := by
  rw [Header.payloadSize, Header.payloadSize, moved.chunkSize, moved.headerSize]

end Header.Moved

end Chunk

namespace StringPool

open Chunk

variable
  {distance : Int}
  {first second : Bytes}
  {header twin : Header}

/-- A length is read alike in a moved chunk, with errors moved along. -/
theorem shortLength_moved
    (moved : header.Moved distance first second twin)
    (position : Nat) :
    shortLength second twin position =
      (shortLength first header position).mapError (.moved distance) := by
  simp only [shortLength, moved.bytes_eq, mapError_bind, apply_ite (Except.mapError _),
    mapError_pure]

/-- A string of bytes is read alike in a moved chunk. -/
theorem utf8String_moved
    (moved : header.Moved distance first second twin)
    (position : Nat) :
    utf8String second twin position =
      (utf8String first header position).mapError (.moved distance) := by
  simp only [utf8String, shortLength_moved moved, moved.bytes_eq, mapError_bind, mapError_pure]

/-- A string of units is read alike in a moved chunk. -/
theorem utf16String_moved
    (moved : header.Moved distance first second twin)
    (position : Nat) :
    utf16String second twin position =
      (utf16String first header position).mapError (.moved distance) := by
  simp only [utf16String, moved.bytes_eq, mapError_bind, apply_ite (Except.mapError _),
    mapError_pure]

/-- The string of an index is read alike in a moved chunk. -/
theorem stringAt_moved
    (moved : header.Moved distance first second twin)
    (isUtf8 : Bool)
    (stringsStart index : Nat) :
    stringAt second twin isUtf8 stringsStart index =
      (stringAt first header isUtf8 stringsStart index).mapError (.moved distance) := by
  simp only [stringAt, moved.bytes_eq, moved.headerSize, utf8String_moved moved,
    utf16String_moved moved, mapError_bind, apply_ite (Except.mapError _)]

/-- The strings of a pool are read alike in a moved chunk. -/
theorem stringsFrom_moved
    (moved : header.Moved distance first second twin)
    (isUtf8 : Bool)
    (stringsStart index count : Nat) :
    stringsFrom second twin isUtf8 stringsStart index count =
      (stringsFrom first header isUtf8 stringsStart index count).mapError (.moved distance) := by
  induction count generalizing index with
  | zero =>
      rfl
  | succ count inductionHypothesis =>
      simp only [stringsFrom, stringAt_moved moved, inductionHypothesis, mapError_bind,
        mapError_pure]

/-- A pool is the same wherever its chunk lies. -/
theorem parse_moved (moved : header.Moved distance first second twin) :
    parse second twin = (parse first header).mapError (.moved distance) := by
  rw [parse, parse, moved.token, moved.headerSize]
  by_cases other : header.token ≠ Token.stringPool
  · simp only [if_pos other, moved.offset]
    rfl
  · by_cases small : header.headerSize < leastHeaderSize
    · simp only [if_neg other, if_pos small, moved.offset]
      rfl
    · simp only [if_neg other, if_neg small, moved.bytes_eq, stringsFrom_moved moved,
        mapError_bind, mapError_pure]

end StringPool

end ApkAtlas

namespace ApkAtlas.Xml.Part

/-!
# Parts at other places

What a chunk of a document says depends on the chunk only, not on its place in a file. Chunks
with tokens that documents have no use for say nothing.
-/

open Chunk

section Moved

variable
  {distance : Int}
  {first second : Bytes}
  {header twin : Header}

/-- Identifiers are read alike in a moved chunk. -/
theorem readIds_moved
    (moved : header.Moved distance first second twin)
    (index count : Nat) :
    readIds second twin index count =
      (readIds first header index count).mapError (.moved distance) := by
  induction count generalizing index with
  | zero =>
      rfl
  | succ count inductionHypothesis =>
      simp only [readIds, moved.headerSize, moved.bytes_eq, inductionHypothesis, mapError_bind,
        mapError_pure]

/-- Attributes are read alike in a moved chunk. -/
theorem readAttributes_moved
    (moved : header.Moved distance first second twin)
    (position stride count : Nat) :
    readAttributes second twin position stride count =
      (readAttributes first header position stride count).mapError (.moved distance) := by
  induction count generalizing position with
  | zero =>
      rfl
  | succ count inductionHypothesis =>
      simp only [readAttributes, readAttribute, moved.bytes_eq, inductionHypothesis, mapError_bind,
        mapError_pure]

/-- The start of an element is read alike in a moved chunk. -/
theorem readStartElement_moved (moved : header.Moved distance first second twin) :
    readStartElement second twin =
      (readStartElement first header).mapError (.moved distance) := by
  simp only [readStartElement, moved.headerSize, moved.bytes_eq, readAttributes_moved moved,
    mapError_bind, mapError_pure]

/-- A chunk says the same wherever it lies. -/
theorem read_moved (moved : header.Moved distance first second twin) :
    read second twin = (read first header).mapError (.moved distance) := by
  simp only [read, moved.token, moved.headerSize, moved.payloadSize_eq, moved.bytes_eq,
    StringPool.parse_moved moved, readIds_moved moved, readStartElement_moved moved,
    mapError_bind, mapError_pure, apply_ite (Except.mapError _)]

end Moved

end ApkAtlas.Xml.Part
