import ApkAtlas.Proofs.Chunk.SharedFront

namespace ApkAtlas

/-!
# Walks tile their range

The chunks of a walk lie back to back from the start of its range on, and none of them leaves
the range or the file. A walk that ends on its own has covered the range; one that is stopped
names the position behind its last chunk. Conversely, byte strings that are chunks and lie back
to back are found one by one.
-/

section Numbers

/-- Bytes are written again for their number. -/
theorem Bytes.ofNumber_littleEndian (bytes : List UInt8) :
    Bytes.ofNumber bytes.length (Bytes.littleEndian bytes) = bytes := by
  induction bytes with
  | nil =>
      rfl
  | cons byte rest inductionHypothesis =>
      have small := byte.toNat_lt
      have first : UInt8.ofNat (byte.toNat + 256 * Bytes.littleEndian rest) = byte := by
        rw [← UInt8.toNat_inj, UInt8.toNat_ofNat']
        omega
      have others :
          (byte.toNat + 256 * Bytes.littleEndian rest) / 256 = Bytes.littleEndian rest := by
        omega
      rw [Bytes.littleEndian, List.length_cons, Bytes.ofNumber, first, others, inductionHypothesis]

/-- A number that was read is written as the bytes it was read from. -/
theorem Bytes.ofNumber_word
    {bytes : Bytes}
    {start width : Nat}
    (inside : start + width ≤ bytes.size) :
    Bytes.ofNumber width (Bytes.word bytes start width) = (bytes.toList.drop start).take width := by
  have long : ((bytes.toList.drop start).take width).length = width := by
    rw [List.length_take, List.length_drop, Array.length_toList]
    omega
  have written := Bytes.ofNumber_littleEndian ((bytes.toList.drop start).take width)
  rwa [long, ← Fallible.word_eq] at written

/-- A number is below the limit of its width. -/
theorem Bytes.word_lt_limit (bytes : Bytes) (start width : Nat) :
    Bytes.word bytes start width < Bytes.limit width := by
  rw [Fallible.word_eq]
  apply Nat.lt_of_lt_of_le (Bytes.littleEndian_lt _)
  apply Nat.pow_le_pow_right (by omega)
  rw [List.length_take]
  omega

end Numbers

namespace Chunk

/-- Each chunk starts where the one in front of it ends, and the first one at `start`. -/
def BackToBack (start : Int) : List Header → Prop
  | [] => True
  | header :: rest => header.offset = start ∧ BackToBack header.chunkEnd rest

/-- The end of the last chunk, or `start` if there is none. -/
def reached (start : Int) : List Header → Int
  | [] => start
  | header :: rest => reached header.chunkEnd rest

/-- What a walk from `start` to `limit` finds and how it ends. -/
structure Walk.Tiles (walked : Walk) (buffer : Bytes) (start limit : Int) : Prop where
  read : ∀ header ∈ walked.headers, readHeader buffer header.offset = .ok header
  sizes : ∀ header ∈ walked.headers,
    leastHeaderSize ≤ header.headerSize ∧ header.headerSize ≤ header.chunkSize
  adjacent : BackToBack start walked.headers
  inside : ∀ header ∈ walked.headers, header.chunkEnd ≤ limit ∧ header.chunkEnd ≤ buffer.size
  few : walked.headers ≠ [] →
    start + leastHeaderSize * walked.headers.length ≤ buffer.size
  total : start + (walked.headers.map Header.chunkSize).sum = reached start walked.headers
  complete : walked.stop = none → start ≤ limit → reached start walked.headers = limit
  stopped : ∀ error ∈ walked.stop,
    ∃ defect, error = .malformed defect (reached start walked.headers)

section Soundness

variable {buffer : Bytes} {start limit : Int} {header : Header} {walked : Walk}

/-- Where no chunk is read the walk is stopped at its start. -/
theorem Walk.tiles_malformed (defect : Defect) :
    Walk.Tiles ⟨[], some (.malformed defect start)⟩ buffer start limit where
  read := by simp
  sizes := by simp
  adjacent := trivial
  inside := by simp
  few := by simp
  total := by simp [reached]
  complete := by simp
  stopped := by
    rintro _ ⟨⟩
    exact ⟨defect, rfl⟩

/-- One more chunk in front of the range of a walk. -/
theorem Walk.Tiles.cons
    (read : readHeader buffer start = .ok header)
    (fits : header.chunkEnd ≤ limit)
    (rest : walked.Tiles buffer header.chunkEnd limit) :
    Walk.Tiles ⟨header :: walked.headers, walked.stop⟩ buffer start limit := by
  obtain ⟨atStart, covers, held⟩ := readHeader_sound read
  have readAgain : readHeader buffer header.offset = .ok header := by
    rw [atStart, read]
  have size : start + header.chunkSize = header.chunkEnd := by
    rw [Header.chunkEnd]
    omega
  constructor
  · exact List.forall_mem_cons.mpr ⟨readAgain, rest.read⟩
  · exact List.forall_mem_cons.mpr ⟨⟨covers, header.headerSize_le⟩, rest.sizes⟩
  · exact ⟨atStart, rest.adjacent⟩
  · exact List.forall_mem_cons.mpr ⟨⟨fits, held⟩, rest.inside⟩
  · intro _
    have atLeast := header.headerSize_le
    have others := rest.few
    simp only [leastHeaderSize] at covers others ⊢
    by_cases last : walked.headers = []
    · simp only [last, List.length_cons, List.length_nil]
      omega
    · have behind := others last
      rw [List.length_cons]
      omega
  · have others := rest.total
    rw [List.map_cons, List.sum_cons]
    simp only [reached]
    push_cast at others ⊢
    omega
  · intro ended _
    exact rest.complete ended fits
  · exact rest.stopped

/-- Every walk tiles its range as far as it goes. -/
theorem tiles_walk (buffer : Bytes) (start limit : Int) :
    (walk buffer start limit).Tiles buffer start limit := by
  fun_induction walk buffer start limit with
  | case1 start starts error read =>
      obtain ⟨defect, rfl⟩ := exists_defect_of_readHeader read
      exact Walk.tiles_malformed defect
  | case2 start starts header read overruns =>
      exact Walk.tiles_malformed _
  | case3 start starts header read fits rest inductionHypothesis =>
      exact .cons read (Int.not_lt.mp fits) inductionHypothesis
  | case4 start done =>
      constructor
      · simp
      · simp
      · trivial
      · simp
      · simp
      · simp [reached]
      · intro _ before
        simp only [reached]
        omega
      · simp

end Soundness

/-- The bytes of one chunk: a header that holds what all headers share and is no larger than
the chunk, and the rest of the chunk. -/
@[mk_iff]
structure IsChunk (bytes : List UInt8) : Prop where
  least : leastHeaderSize ≤ Bytes.u16 bytes.toArray 2
  most : Bytes.u16 bytes.toArray 2 ≤ Bytes.u32 bytes.toArray 4
  whole : Bytes.u32 bytes.toArray 4 = bytes.length

instance (bytes : List UInt8) : Decidable (IsChunk bytes) :=
  decidable_of_iff' _ (isChunk_iff bytes)

section Completeness

variable {bytes : List UInt8} {chunks : List (List UInt8)}

/-- The bytes of a chunk are laid out from its parts. -/
theorem IsChunk.exists_composed
    (isChunk : IsChunk bytes) :
    ∃ chunk : Composed, chunk.Fits ∧ chunk.bytes = bytes := by
  obtain ⟨least, most, whole⟩ := isChunk
  let headerSize := Bytes.u16 bytes.toArray 2
  let chunk : Composed :=
    { token := Bytes.u16 bytes.toArray 0
      extension := (bytes.take headerSize).drop leastHeaderSize
      payload := bytes.drop headerSize }
  have inside : headerSize ≤ bytes.length := by
    omega
  have written (start width : Nat) (shared : start + width ≤ leastHeaderSize) :
      Bytes.ofNumber width (Bytes.word bytes.toArray start width) =
        (bytes.drop start).take width := by
    apply Bytes.ofNumber_word
    rw [List.size_toArray]
    omega
  have size : chunk.headerSize = headerSize := by
    simp only [Composed.headerSize, chunk, List.length_drop, List.length_take]
    omega
  have total : headerSize + chunk.payload.length = Bytes.u32 bytes.toArray 4 := by
    rw [List.length_drop, whole]
    omega
  have start : chunk.start = bytes.take leastHeaderSize := by
    have token : Bytes.ofNumber 2 chunk.token = bytes.take 2 := written 0 2 (by decide)
    have headerField : Bytes.ofNumber 2 headerSize = (bytes.drop 2).take 2 :=
      written 2 2 (by decide)
    have sizeField : Bytes.ofNumber 4 (Bytes.u32 bytes.toArray 4) = (bytes.drop 4).take 4 :=
      written 4 4 (by decide)
    have split : leastHeaderSize = 2 + (2 + 4) := rfl
    rw [Composed.start, size, total, split, List.take_add, List.take_add, List.drop_drop]
    simp only [record, List.flatMap_cons, List.flatMap_nil, List.append_nil, token, headerField,
      sizeField]
  have joined : chunk.bytes = bytes := by
    have front : (bytes.take headerSize).take leastHeaderSize = bytes.take leastHeaderSize := by
      rw [List.take_take, Nat.min_eq_left least]
    rw [Composed.bytes, start, ← front, List.take_append_drop, List.take_append_drop]
  refine ⟨chunk, ?_, joined⟩
  constructor
  · exact Bytes.word_lt_limit _ _ _
  · rw [size]
    exact Bytes.word_lt_limit _ _ _
  · rw [joined, ← whole]
    exact Bytes.word_lt_limit _ _ _

/-- Valid chunks can be composed. -/
theorem exists_composed_of_forall
    (valid : ∀ chunk ∈ chunks, IsChunk chunk) :
    ∃ composed : List Composed,
      (∀ chunk ∈ composed, chunk.Fits) ∧ composed.map Composed.bytes = chunks := by
  induction chunks with
  | nil =>
      exact ⟨[], by simp, rfl⟩
  | cons first rest inductionHypothesis =>
      obtain ⟨ofFirst, ofRest⟩ := List.forall_mem_cons.mp valid
      obtain ⟨chunk, fits, laidOut⟩ := ofFirst.exists_composed
      obtain ⟨others, othersFit, othersLaidOut⟩ := inductionHypothesis ofRest
      refine ⟨chunk :: others, List.forall_mem_cons.mpr ⟨fits, othersFit⟩, ?_⟩
      rw [List.map_cons, laidOut, othersLaidOut]

/-- The bytes of the chunk of a header. -/
def Header.window (header : Header) (buffer : Bytes) : List UInt8 :=
  (buffer.extract header.offset header.chunkEnd).toList

/-- The window of a header that covers a chunk is the chunk. -/
theorem Header.Covers.window_eq
    {header : Header}
    {buffer : Bytes}
    {chunk : Composed}
    (covers : header.Covers buffer chunk) :
    header.window buffer = chunk.bytes := by
  obtain ⟨before, after, placed, atOffset⟩ := covers.placed
  have long : header.chunkEnd - header.offset = chunk.bytes.length := by
    rw [Header.chunkEnd, covers.chunkSize, Nat.add_sub_cancel_left]
  rw [Header.window, Array.toList_extract, List.extract_eq_take_drop, long, placed, ← atOffset,
    List.append_assoc, List.drop_left, List.take_left]

/-- Chunks that lie back to back in a file are those that a walk finds. -/
theorem walk_flatten
    (valid : ∀ chunk ∈ chunks, IsChunk chunk)
    {buffer : Bytes}
    {before after : List UInt8}
    (placed : buffer.toList = before ++ chunks.flatten ++ after) :
    ∃ headers,
      walk buffer before.length (before ++ chunks.flatten).length = ⟨headers, none⟩ ∧
        headers.map (fun header => header.window buffer) = chunks := by
  obtain ⟨composed, fits, rfl⟩ := exists_composed_of_forall valid
  rw [← List.flatMap_def] at placed ⊢
  obtain ⟨headers, walked, covers⟩ := walk_composed fits placed
  rw [List.length_append]
  refine ⟨headers, walked, ?_⟩
  rw [← List.forall₂_eq_eq_eq, List.forall₂_map_left_iff, List.forall₂_map_right_iff]
  exact covers.imp fun _ _ => Header.Covers.window_eq

end Completeness

section Windows

variable {buffer : Bytes} {start limit offset : Int} {header : Header} {headers : List Header}

/-- A header says what stands at the start of its chunk. -/
theorem Header.fields_of_readHeader (read : readHeader buffer offset = .ok header) :
    header.token = Bytes.u16 buffer header.offset ∧
      header.headerSize = Bytes.u16 buffer (header.offset + 2) ∧
      header.chunkSize = Bytes.u32 buffer (header.offset + 4) := by
  rw [readHeader] at read
  split at read
  · cases read
  · dsimp only at read
    split_ifs at read
    cases read
    exact ⟨rfl, rfl, rfl⟩

/-- A number in the window of a chunk is the one in the buffer. -/
theorem Header.word_window
    {position width : Nat}
    (inside : position + width ≤ header.chunkSize) :
    Bytes.word (header.window buffer).toArray position width =
      Bytes.word buffer (header.offset + position) width :=
  Fallible.word_slice inside

theorem Header.length_window (inside : header.chunkEnd ≤ buffer.size) :
    (header.window buffer).length = header.chunkSize := by
  rw [Header.window, Array.length_toList, Array.size_extract, Nat.min_eq_left inside,
    Header.chunkEnd, Nat.add_sub_cancel_left]

/-- The bytes of a chunk are read as a chunk on their own. -/
theorem IsChunk.readHeader_eq
    {bytes : List UInt8}
    (isChunk : IsChunk bytes) :
    readHeader bytes.toArray 0 =
      .ok ⟨0, Bytes.u16 bytes.toArray 2, Bytes.u32 bytes.toArray 4, Bytes.u16 bytes.toArray 0,
        isChunk.most⟩ := by
  obtain ⟨least, most, whole⟩ := isChunk
  have complete :
      ¬ ((0 : Int) < 0 ∨ (bytes.toArray.size : Int) < 0 + leastHeaderSize) := by
    rw [List.size_toArray]
    omega
  have held : ¬ bytes.toArray.size < Bytes.u32 bytes.toArray 4 := by
    rw [List.size_toArray]
    omega
  rw [readHeader, if_neg complete]
  simp only [Int.toNat_zero, Nat.zero_add, if_neg (Nat.not_lt.mpr least), dif_pos most,
    if_neg held]

/-- A header that was read is that of its chunk on its own. -/
theorem Header.exists_alone
    (read : readHeader buffer offset = .ok header) :
    IsChunk (header.window buffer) ∧
      ∃ twin,
        readHeader (header.window buffer).toArray 0 = .ok twin ∧
          header.Moved (-header.offset) buffer (header.window buffer).toArray twin := by
  obtain ⟨_, covers, inside⟩ := readHeader_sound read
  obtain ⟨token, headerSize, chunkSize⟩ := Header.fields_of_readHeader read
  have most := header.headerSize_le
  have held : leastHeaderSize ≤ header.chunkSize := covers.trans most
  simp only [leastHeaderSize] at held
  have tokenAlone : Bytes.u16 (header.window buffer).toArray 0 = header.token :=
    (Header.word_window (by omega)).trans token.symm
  have headerSizeAlone : Bytes.u16 (header.window buffer).toArray 2 = header.headerSize :=
    (Header.word_window (by omega)).trans headerSize.symm
  have chunkSizeAlone : Bytes.u32 (header.window buffer).toArray 4 = header.chunkSize :=
    (Header.word_window (by omega)).trans chunkSize.symm
  have isChunk : IsChunk (header.window buffer) := by
    constructor
    · rwa [headerSizeAlone]
    · rwa [headerSizeAlone, chunkSizeAlone]
    · rw [chunkSizeAlone, Header.length_window inside]
  refine ⟨isChunk, _, isChunk.readHeader_eq, ?_⟩
  constructor
  · exact (Int.add_right_neg _).symm
  · exact tokenAlone
  · exact headerSizeAlone
  · exact chunkSizeAlone
  · apply (Array.extract_eq_self_of_le _).trans
    · rfl
    · rw [Header.chunkEnd, List.size_toArray, Header.length_window inside]
      simp only [chunkSizeAlone, Nat.zero_add, le_refl]

/-- Chunks that lie back to back are a part of the file. -/
theorem flatten_windows
    {start : Nat}
    (adjacent : BackToBack start headers)
    (inside : ∀ header ∈ headers, header.chunkEnd ≤ buffer.size) :
    (start : Int) ≤ reached start headers ∧
      (headers.map fun header => header.window buffer).flatten =
        (buffer.extract start (reached start headers).toNat).toList := by
  induction headers generalizing start with
  | nil =>
      simp [reached]
  | cons header rest inductionHypothesis =>
      obtain ⟨atStart, others⟩ := adjacent
      obtain ⟨ahead, joined⟩ :=
        inductionHypothesis others fun other member => inside other (List.mem_cons_of_mem _ member)
      have before : header.offset ≤ header.chunkEnd := Nat.le_add_right _ _
      have offset : header.offset = start := by
        omega
      have total : header.chunkEnd ≤ (reached header.chunkEnd rest).toNat := by
        omega
      refine ⟨by simp only [reached]; omega, ?_⟩
      rw [List.map_cons, List.flatten_cons, joined, Header.window, ← Array.toList_append,
        Array.extract_append_extract, Nat.min_eq_left before, Nat.max_eq_right total, offset]
      rfl

end Windows

/-- Every walk tiles its range as far as it goes, and finds the chunks that lie there back to
back. -/
theorem walk_tiles_range :
    (∀ (buffer : Bytes) (start limit : Int),
      (walk buffer start limit).Tiles buffer start limit) ∧
    ∀ (before after : List UInt8) (chunks : List (List UInt8)),
      (∀ chunk ∈ chunks, IsChunk chunk) →
      let buffer := (before ++ chunks.flatten ++ after).toArray
      let walked := walk buffer before.length (before ++ chunks.flatten).length
      walked.stop = none ∧ walked.headers.map (fun header => header.window buffer) = chunks := by
  refine ⟨tiles_walk, ?_⟩
  intro before after chunks valid
  have placed :
      (before ++ chunks.flatten ++ after).toArray.toList = before ++ chunks.flatten ++ after :=
    rfl
  obtain ⟨headers, walked, windows⟩ := walk_flatten valid placed
  simp only [walked]
  exact ⟨trivial, windows⟩

/-- A chunk that is nothing but its header, and one with a larger header and a payload. -/
def twoChunks : List (List UInt8) :=
  [[7, 0, 8, 0, 8, 0, 0, 0], [1, 2, 12, 0, 14, 0, 0, 0, 5, 5, 5, 5, 6, 6]]

/-- The walk starts behind one byte and leaves the bytes behind its range alone. -/
theorem twoChunks_are_walked :
    (∀ chunk ∈ twoChunks, IsChunk chunk) ∧
      let buffer := ([255] ++ twoChunks.flatten ++ [8, 0, 8, 0]).toArray
      (walk buffer 1 23).stop = none ∧
        (walk buffer 1 23).headers.map (fun header => header.window buffer) = twoChunks := by
  have valid : ∀ chunk ∈ twoChunks, IsChunk chunk := by
    decide
  exact ⟨valid, walk_tiles_range.2 [255] [8, 0, 8, 0] twoChunks valid⟩

end Chunk

end ApkAtlas
