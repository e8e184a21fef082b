import ApkAtlas.Proofs.Chunk.Fallible

namespace ApkAtlas

/-!
# Composing chunks

Numbers are written as records, and a chunk as its common header, the rest of its header
and its payload. Reading undoes this: a header is read back from a chunk wherever the chunk
lies in a buffer, chunks written back to back are walked one by one, and each part of a
chunk is found at its position.
-/

/-- The first number that does not fit into so many bytes. -/
def Bytes.limit (width : Nat) : Nat :=
  Nat.pow 256 width

theorem Bytes.limit_one : Bytes.limit 1 = 256 :=
  rfl

theorem Bytes.limit_two : Bytes.limit 2 = 65536 :=
  rfl

theorem Bytes.limit_four : Bytes.limit 4 = 4294967296 :=
  rfl

/-- The bytes of a number, least significant first. -/
def Bytes.ofNumber : Nat → Nat → List UInt8
  | 0, _ => []
  | width + 1, number => UInt8.ofNat number :: Bytes.ofNumber width (number / 256)

@[simp] theorem Bytes.length_ofNumber (width number : Nat) :
    (Bytes.ofNumber width number).length = width := by
  induction width generalizing number with
  | zero =>
      rfl
  | succ width inductionHypothesis =>
      rw [Bytes.ofNumber, List.length_cons, inductionHypothesis]

/-- A number that is written in some bytes is read back, up to their limit. -/
theorem Bytes.littleEndian_ofNumber (width number : Nat) :
    Bytes.littleEndian (Bytes.ofNumber width number) = number % Bytes.limit width := by
  induction width generalizing number with
  | zero =>
      exact (Nat.mod_one number).symm
  | succ width inductionHypothesis =>
      have byte : (UInt8.ofNat number).toNat = number % 256 := UInt8.toNat_ofNat'
      have wider : Bytes.limit (width + 1) = 256 * Bytes.limit width :=
        Nat.mul_comm _ _
      rw [Bytes.ofNumber, Bytes.littleEndian, inductionHypothesis, byte, wider, Nat.mod_mul]

namespace Chunk

open Fallible (windowWords word_eq)

section Records

/-- The bytes of numbers with their widths. -/
def record (fields : List (Nat × Nat)) : List UInt8 :=
  fields.flatMap fun field => Bytes.ofNumber field.1 field.2

/-- Fields are written one behind the other. -/
theorem record_append (first second : List (Nat × Nat)) :
    record (first ++ second) = record first ++ record second :=
  List.flatMap_append

@[simp] theorem length_record (fields : List (Nat × Nat)) :
    (record fields).length = (fields.map Prod.fst).sum := by
  induction fields with
  | nil =>
      rfl
  | cons field rest inductionHypothesis =>
      simp only [record, List.flatMap_cons, List.length_append, Bytes.length_ofNumber,
        List.map_cons, List.sum_cons] at inductionHypothesis ⊢
      rw [inductionHypothesis]

/-- Numbers are read back where their fields are placed. -/
theorem windowWords_of_drop
    {window : Bytes}
    {start : Nat}
    {fields : List (Nat × Nat)}
    {rest : List UInt8}
    (placed : window.toList.drop start = record fields ++ rest) :
    windowWords window start (fields.map Prod.fst) =
      fields.map fun field => field.2 % Bytes.limit field.1 := by
  induction fields generalizing start with
  | nil =>
      rfl
  | cons field others inductionHypothesis =>
      have first :
          window.toList.drop start = Bytes.ofNumber field.1 field.2 ++ (record others ++ rest) := by
        simpa [record] using placed
      have later : window.toList.drop (start + field.1) = record others ++ rest := by
        rw [← List.drop_drop, first, List.drop_left' (Bytes.length_ofNumber _ _)]
      rw [List.map_cons, windowWords, word_eq, first,
        List.take_left' (Bytes.length_ofNumber _ _), Bytes.littleEndian_ofNumber,
        inductionHypothesis later, List.map_cons]

/-- The numbers of a record are read back as far as their widths hold them. -/
theorem windowWords_record (fields : List (Nat × Nat)) :
    windowWords (record fields).toArray 0 (fields.map Prod.fst) =
      fields.map fun field => field.2 % Bytes.limit field.1 :=
  windowWords_of_drop (List.append_nil _).symm

/-- A single number is read back, up to its limit. -/
theorem word_ofNumber (width number : Nat) :
    Bytes.word (Bytes.ofNumber width number).toArray 0 width = number % Bytes.limit width := by
  have words := windowWords_record [(width, number)]
  simpa [record, windowWords] using words

end Records

/-- A chunk before it is laid out: its token, its header behind the part that all headers
share, and its payload. -/
structure Composed where
  token : Nat
  extension : List UInt8
  payload : List UInt8
deriving Repr, DecidableEq

namespace Composed

def headerSize (chunk : Composed) : Nat :=
  leastHeaderSize + chunk.extension.length

/-- The part of the header that all headers share. -/
def start (chunk : Composed) : List UInt8 :=
  record
    [(2, chunk.token), (2, chunk.headerSize), (4, chunk.headerSize + chunk.payload.length)]

def bytes (chunk : Composed) : List UInt8 :=
  chunk.start ++ chunk.extension ++ chunk.payload

/-- The numbers of the header fit their fields. -/
structure Fits (chunk : Composed) : Prop where
  token : chunk.token < Bytes.limit 2
  header : chunk.headerSize < Bytes.limit 2
  size : chunk.bytes.length < Bytes.limit 4

instance (chunk : Composed) : Decidable chunk.Fits :=
  decidable_of_iff
    (chunk.token < Bytes.limit 2 ∧ chunk.headerSize < Bytes.limit 2 ∧
      chunk.bytes.length < Bytes.limit 4)
    ⟨fun ⟨token, header, size⟩ => ⟨token, header, size⟩, fun fits =>
      ⟨fits.token, fits.header, fits.size⟩⟩

@[simp] theorem length_start (chunk : Composed) : chunk.start.length = leastHeaderSize := by
  simp [start, leastHeaderSize]

@[simp] theorem length_bytes (chunk : Composed) :
    chunk.bytes.length = chunk.headerSize + chunk.payload.length := by
  simp [bytes, headerSize, Nat.add_assoc]

/-- A chunk is no longer than all of those it is written with. -/
theorem length_bytes_le
    {chunk : Composed}
    {chunks : List Composed}
    (member : chunk ∈ chunks) :
    chunk.bytes.length ≤ (chunks.flatMap bytes).length := by
  obtain ⟨before, after, split⟩ := List.append_of_mem member
  simp only [split, List.flatMap_append, List.flatMap_cons, List.length_append]
  omega

end Composed

/-- The header is that of a chunk in the buffer. -/
structure Header.Covers (header : Header) (buffer : Bytes) (chunk : Composed) : Prop where
  token : header.token = chunk.token
  headerSize : header.headerSize = chunk.headerSize
  chunkSize : header.chunkSize = chunk.bytes.length
  placed : ∃ before after,
    buffer.toList = before ++ chunk.bytes ++ after ∧ before.length = header.offset

namespace Header.Covers

variable
  {header : Header}
  {buffer : Bytes}
  {chunk : Composed}
  {before field after : List UInt8}
  {relative length : Nat}

/-- A part of the chunk is found at its position. -/
theorem bytes_eq
    (covers : header.Covers buffer chunk)
    (split : chunk.bytes = before ++ field ++ after)
    (start : before.length = relative)
    (long : field.length = length) :
    header.bytes buffer relative length = .ok field.toArray := by
  obtain ⟨outerBefore, outerAfter, placed, offset⟩ := covers.placed
  have size := covers.chunkSize
  rw [split, List.length_append, List.length_append] at size
  have window :
      (buffer.extract (header.offset + relative) (header.offset + (relative + length))).toList =
        field := by
    rw [Array.toList_extract, List.extract_eq_take_drop, placed, split]
    have skipped : header.offset + relative = (outerBefore ++ before).length := by
      rw [List.length_append, offset, start]
    have taken :
        header.offset + (relative + length) - (header.offset + relative) = field.length := by
      omega
    rw [taken, skipped]
    simp only [List.append_assoc]
    rw [← List.append_assoc outerBefore before, List.drop_left, List.take_left]
  have startsInside :
      (0 : Int) ≤ relative ∧ (header.offset + relative : Int) ≤ header.chunkEnd := by
    simp only [Header.chunkEnd]
    omega
  have stopsInside :
      (0 : Int) ≤ relative + length ∧
        (header.offset + (relative + length) : Int) ≤ header.chunkEnd := by
    simp only [Header.chunkEnd]
    omega
  have stopAt : ((relative : Int) + length).toNat = relative + length := by
    omega
  rw [Header.bytes, Header.absolute, Header.absolute, if_pos startsInside, if_pos stopsInside,
    stopAt, Int.toNat_natCast]
  simp only [bind, Except.bind, pure, Except.pure]
  rw [← window, Array.toArray_toList]

/-- A field of the extended header is read back where it is placed. -/
theorem extension_eq
    (covers : header.Covers buffer chunk)
    (split : chunk.extension = before ++ field ++ after)
    (start : leastHeaderSize + before.length = relative)
    (long : field.length = length) :
    header.bytes buffer relative length = .ok field.toArray := by
  apply @bytes_eq _ _ _ (chunk.start ++ before) _ (after ++ chunk.payload) _ _ covers _ _ long
  · simp [Composed.bytes, split]
  · simp [start]

/-- A field of the payload is read back where it is placed. -/
theorem payload_eq
    (covers : header.Covers buffer chunk)
    (split : chunk.payload = before ++ field ++ after)
    (start : chunk.headerSize + before.length = relative)
    (long : field.length = length) :
    header.bytes buffer relative length = .ok field.toArray := by
  apply @bytes_eq _ _ _ (chunk.start ++ chunk.extension ++ before) _ after _ _ covers _ _ long
  · simp [Composed.bytes, split]
  · simp [← start, Composed.headerSize, Nat.add_assoc]

end Header.Covers

section Reading

variable {buffer : Bytes} {chunk : Composed} {before after : List UInt8}

/-- The header of a chunk that fits is read where the chunk is placed. -/
theorem readHeader_composed
    (fits : chunk.Fits)
    (placed : buffer.toList = before ++ chunk.bytes ++ after) :
    ∃ header,
      readHeader buffer before.length = .ok header ∧
        header.offset = before.length ∧ header.Covers buffer chunk := by
  have numbers :
      windowWords buffer before.length [2, 2, 4] =
        [chunk.token % Bytes.limit 2, chunk.headerSize % Bytes.limit 2,
          (chunk.headerSize + chunk.payload.length) % Bytes.limit 4] := by
    apply @windowWords_of_drop _ _
      [(2, chunk.token), (2, chunk.headerSize), (4, chunk.headerSize + chunk.payload.length)]
      (chunk.extension ++ chunk.payload ++ after)
    rw [placed, List.append_assoc, List.drop_left]
    simp [Composed.bytes, Composed.start]
  have size := fits.size
  rw [chunk.length_bytes] at size
  rw [Nat.mod_eq_of_lt fits.token, Nat.mod_eq_of_lt fits.header, Nat.mod_eq_of_lt size] at numbers
  simp only [windowWords, List.cons.injEq, and_true] at numbers
  obtain ⟨token, headerSize, chunkSize⟩ := numbers
  have held : before.length + chunk.bytes.length ≤ buffer.size := by
    rw [← Array.length_toList, placed]
    simp only [List.length_append]
    omega
  rw [chunk.length_bytes] at held
  have atLeast : leastHeaderSize ≤ chunk.headerSize :=
    Nat.le_add_right _ _
  have complete :
      ¬ ((before.length : Int) < 0 ∨ (buffer.size : Int) < before.length + leastHeaderSize) := by
    omega
  let header : Header :=
    ⟨before.length, chunk.headerSize, chunk.headerSize + chunk.payload.length, chunk.token,
      Nat.le_add_right _ _⟩
  have covers : header.Covers buffer chunk :=
    ⟨rfl, rfl, (chunk.length_bytes).symm, before, after, placed, rfl⟩
  refine ⟨header, ?_, rfl, covers⟩
  rw [readHeader, if_neg complete]
  simp only [Int.toNat_natCast, Bytes.u16, Bytes.u32, token, headerSize, chunkSize,
    if_neg (Nat.not_lt.mpr atLeast)]
  rw [dif_pos (Nat.le_add_right _ _), if_neg (Nat.not_lt.mpr held)]

/-- A walk goes on behind a chunk that ends inside the limit. -/
theorem walk_of_ok
    {offset limit : Int}
    {header : Header}
    (starts : offset < limit)
    (read : readHeader buffer offset = .ok header)
    (ends : header.chunkEnd ≤ limit) :
    walk buffer offset limit =
      ⟨header :: (walk buffer header.chunkEnd limit).headers,
        (walk buffer header.chunkEnd limit).stop⟩ := by
  rw [walk, if_pos starts]
  split
  · rename_i failed
    rw [read] at failed
    cases failed
  · rename_i found
    rw [read] at found
    cases found
    rw [if_neg (Int.not_lt.mpr ends)]

/-- Chunks that were written back to back are walked one by one. -/
theorem walk_composed
    {chunks : List Composed}
    (fits : ∀ chunk ∈ chunks, chunk.Fits)
    (placed : buffer.toList = before ++ chunks.flatMap Composed.bytes ++ after) :
    ∃ headers,
      walk buffer before.length (before.length + (chunks.flatMap Composed.bytes).length : Nat) =
          ⟨headers, none⟩ ∧
        List.Forall₂ (fun header chunk => header.Covers buffer chunk) headers chunks := by
  induction chunks generalizing before with
  | nil =>
      refine ⟨[], ?_, .nil⟩
      rw [walk, if_neg (by simp)]
  | cons chunk rest inductionHypothesis =>
      have here :
          buffer.toList = before ++ chunk.bytes ++ (rest.flatMap Composed.bytes ++ after) := by
        simpa using placed
      obtain ⟨header, read, offset, covers⟩ :=
        readHeader_composed (fits chunk List.mem_cons_self) here
      have behind :
          buffer.toList = (before ++ chunk.bytes) ++ rest.flatMap Composed.bytes ++ after := by
        simpa using placed
      obtain ⟨headers, walked, others⟩ :=
        inductionHypothesis (fun other member => fits other (List.mem_cons_of_mem _ member)) behind
      have chunkEnd : header.chunkEnd = (before ++ chunk.bytes).length := by
        rw [Header.chunkEnd, offset, covers.chunkSize, List.length_append]
      have limit :
          (before ++ chunk.bytes).length + (rest.flatMap Composed.bytes).length =
            before.length + ((chunk :: rest).flatMap Composed.bytes).length := by
        simp only [List.flatMap_cons, List.length_append, Nat.add_assoc]
      have positive : 0 < chunk.bytes.length := by
        rw [chunk.length_bytes, Composed.headerSize, leastHeaderSize]
        omega
      rw [limit, ← chunkEnd] at walked
      refine ⟨header :: headers, ?_, .cons covers others⟩
      rw [walk_of_ok _ read, walked]
      · rw [← limit, chunkEnd]
        omega
      · rw [← limit, List.length_append]
        omega

/-- The chunks that make up the payload of a chunk are its children. -/
theorem Header.Covers.exists_children
    {header : Header}
    {chunks : List Composed}
    (covers : header.Covers buffer chunk)
    (payload : chunk.payload = chunks.flatMap Composed.bytes)
    (fits : ∀ child ∈ chunks, child.Fits) :
    ∃ headers,
      header.children buffer = ⟨headers, none⟩ ∧
        List.Forall₂ (fun header child => header.Covers buffer child) headers chunks := by
  obtain ⟨before, after, placed, offset⟩ := covers.placed
  have inner :
      buffer.toList =
        (before ++ chunk.start ++ chunk.extension) ++ chunks.flatMap Composed.bytes ++ after := by
    rw [placed, Composed.bytes, payload]
    simp only [List.append_assoc]
  obtain ⟨headers, walked, children⟩ := walk_composed fits inner
  have front :
      (before ++ chunk.start ++ chunk.extension).length = header.offset + header.headerSize := by
    rw [List.length_append, List.length_append, Composed.length_start, offset,
      covers.headerSize, Composed.headerSize, Nat.add_assoc]
  have size := covers.chunkSize
  rw [Composed.length_bytes, payload, ← covers.headerSize] at size
  rw [front, Nat.add_assoc, ← size] at walked
  exact ⟨headers, walked, children⟩

end Reading

end Chunk

end ApkAtlas
