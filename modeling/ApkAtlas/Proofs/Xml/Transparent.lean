import ApkAtlas.Proofs.Chunk.Tiling
import ApkAtlas.Proofs.Xml.Assembled
import ApkAtlas.Proofs.Chunk.Moved

namespace ApkAtlas.Xml

/-!
# Chunks that say nothing

What a file is decoded into depends on the byte strings of the chunks in it, not on where they
lie. Chunks whose token means nothing to a document say nothing, so they can be put between
the others or taken out, wherever and however many, and the document stays the same.
-/

open Chunk

namespace Part

section Alone

variable {buffer : Bytes} {header : Header} {chunk : List UInt8} {before after : List (List UInt8)}

/-- What a chunk on its own says. -/
def ofChunk? (chunk : List UInt8) : Option Part :=
  (readHeader chunk.toArray 0).toOption.bind fun header => (read chunk.toArray header).toOption

/-- What chunks on their own say, but for those that say nothing. -/
def said? (chunks : List (List UInt8)) : Option (List Part) :=
  (chunks.mapM ofChunk?).map fun parts => parts.filter (· ≠ .unknown)

/-- A chunk in a file says what it says on its own. -/
theorem toOption_read
    {offset : Int}
    (found : readHeader buffer offset = .ok header) :
    (read buffer header).toOption = ofChunk? (header.window buffer) := by
  obtain ⟨_, twin, foundAlone, moved⟩ := Header.exists_alone found
  have same :
      ofChunk? (header.window buffer) = (read (header.window buffer).toArray twin).toOption := by
    rw [ofChunk?, foundAlone]
    rfl
  rw [same, read_moved moved]
  cases read buffer header <;> rfl

/-- Parts are read from their chunks alone. -/
theorem toOption_mapM_read
    {headers : List Header}
    (found : ∀ header ∈ headers, readHeader buffer header.offset = .ok header) :
    (headers.mapM (read buffer)).toOption =
      (headers.map fun header => header.window buffer).mapM ofChunk? := by
  induction headers with
  | nil =>
      rfl
  | cons header rest inductionHypothesis =>
      obtain ⟨ofFirst, ofRest⟩ := List.forall_mem_cons.mp found
      rw [List.mapM_cons, List.map_cons, List.mapM_cons, ← toOption_read ofFirst,
        ← inductionHypothesis ofRest]
      cases read buffer header with
      | error _ =>
          rfl
      | ok part =>
          cases rest.mapM (read buffer) <;> rfl

/-- A chunk whose token is none of those that documents know. -/
@[mk_iff]
structure IsForeign (chunk : List UInt8) : Prop where
  isChunk : IsChunk chunk
  token : Bytes.u16 chunk.toArray 0 ∉
    [ Token.stringPool, Token.resourceMap, Token.startNamespace, Token.endNamespace,
      Token.startElement, Token.endElement, Token.characterData ]

instance (chunk : List UInt8) : Decidable (IsForeign chunk) :=
  decidable_of_iff' _ (isForeign_iff chunk)

/-- A chunk of an unknown kind is an unknown part. -/
theorem IsForeign.ofChunk?_eq (isForeign : IsForeign chunk) : ofChunk? chunk = some .unknown := by
  have others := isForeign.token
  simp only [List.mem_cons, List.not_mem_nil, or_false, not_or] at others
  obtain ⟨notPool, notMap, notStart, notEnd, notElement, notElementEnd, notText⟩ := others
  rw [ofChunk?, isForeign.isChunk.readHeader_eq]
  simp only [Except.toOption, Option.bind_some, read, if_neg notPool, if_neg notMap,
    if_neg notStart, if_neg notEnd, if_neg notElement, if_neg notElementEnd, if_neg notText]
  rfl

/-- A chunk of an unknown kind says nothing. -/
theorem IsForeign.said?_eq (isForeign : IsForeign chunk) :
    said? (before ++ chunk :: after) = said? (before ++ after) := by
  rw [said?, said?, List.mapM_append, List.mapM_append, List.mapM_cons, isForeign.ofChunk?_eq]
  cases before.mapM ofChunk? with
  | none =>
      rfl
  | some front =>
      cases after.mapM ofChunk? with
      | none =>
          rfl
      | some back =>
          simp

end Alone

end Part

/-- Chunks after others were put between them or taken out that documents do not know. -/
inductive Edited : List (List UInt8) → List (List UInt8) → Prop where
  | refl (chunks : List (List UInt8)) : Edited chunks chunks
  | insert {chunks before after : List (List UInt8)} {chunk : List UInt8}
      (edited : Edited chunks (before ++ after))
      (isForeign : Part.IsForeign chunk) :
      Edited chunks (before ++ chunk :: after)
  | remove {chunks before after : List (List UInt8)} {chunk : List UInt8}
      (edited : Edited chunks (before ++ chunk :: after))
      (isForeign : Part.IsForeign chunk) :
      Edited chunks (before ++ after)

namespace Edited

variable {chunks others : List (List UInt8)}

/-- Chunks that were edited say the same. -/
theorem said?_eq (edited : Edited chunks others) : Part.said? others = Part.said? chunks := by
  induction edited with
  | refl =>
      rfl
  | insert _ isForeign inductionHypothesis =>
      rw [isForeign.said?_eq, inductionHypothesis]
  | remove _ isForeign inductionHypothesis =>
      rw [← isForeign.said?_eq, inductionHypothesis]

/-- Editing keeps chunks valid. -/
theorem isChunk
    (edited : Edited chunks others)
    (valid : ∀ chunk ∈ chunks, IsChunk chunk) :
    ∀ chunk ∈ others, IsChunk chunk := by
  induction edited with
  | refl =>
      exact valid
  | insert _ isForeign inductionHypothesis =>
      rw [List.forall_mem_append, List.forall_mem_cons]
      obtain ⟨front, back⟩ := List.forall_mem_append.mp inductionHypothesis
      exact ⟨front, isForeign.isChunk, back⟩
  | remove _ _ inductionHypothesis =>
      obtain ⟨front, back⟩ := List.forall_mem_append.mp inductionHypothesis
      exact List.forall_mem_append.mpr ⟨front, (List.forall_mem_cons.mp back).2⟩

end Edited

namespace Document

section Chunks

variable {buffer : Bytes} {header : Header} {others : List (List UInt8)}

/-- The byte strings of the chunks inside the chunk of a document. -/
def chunks (buffer : Bytes) (header : Header) : List (List UInt8) :=
  (header.children buffer).headers.map fun child => child.window buffer

/-- The file with the given chunks inside the chunk of its document, whose size counts them. -/
def withChunks (buffer : Bytes) (header : Header) (chunks : List (List UInt8)) : Bytes :=
  let size := header.headerSize + chunks.flatten.length
  let extension := (buffer.toList.take header.headerSize).drop leastHeaderSize
  let rest := buffer.toList.drop header.chunkSize
  (buffer.toList.take 4 ++ Bytes.ofNumber 4 size ++ extension ++ chunks.flatten ++ rest).toArray

/-- What a file is decoded into depends on what its chunks say on their own. -/
theorem toOption_decode_of_said
    (found : readHeader buffer 0 = .ok header)
    (isXml : header.token = Token.xml)
    (complete : (header.children buffer).stop = none) :
    (decode buffer).toOption = (Part.said? (chunks buffer header)).bind ofParts? := by
  have tiles := tiles_walk buffer header.dataOffset header.chunkEnd
  have mapped :
      ((header.children buffer).headers.mapM (Part.read buffer)).toOption =
        (chunks buffer header).mapM Part.ofChunk? :=
    Part.toOption_mapM_read tiles.read
  have parsed :
      readParts buffer = (header.children buffer).headers.mapM (Part.read buffer) := by
    rw [readParts, found]
    simp only [bind, Except.bind, complete]
  rw [← parsed] at mapped
  rw [Part.said?, ← mapped]
  cases isParts : readParts buffer with
  | ok parts =>
      rw [toOption_decode found isXml isParts, ofParts?, ← Assembly.ofParts?_filter parts]
      rfl
  | error _ =>
      cases decoded : decode buffer with
      | error _ =>
          rfl
      | ok document =>
          obtain ⟨_, _, isOk, _, _⟩ := exists_parts decoded
          rw [isParts] at isOk
          cases isOk

/-- The chunk of the document in the file with other chunks in it. -/
def wholeWith (buffer : Bytes) (header : Header) (chunks : List (List UInt8)) : Composed where
  token := header.token
  extension := (buffer.toList.take header.headerSize).drop leastHeaderSize
  payload := chunks.flatten

/-- The header of a file that is read lies inside of it. -/
theorem bounds_of_readHeader (found : readHeader buffer 0 = .ok header) :
    header.offset = 0 ∧ leastHeaderSize ≤ header.headerSize ∧
      header.headerSize ≤ header.chunkSize ∧ header.chunkSize ≤ buffer.toList.length := by
  obtain ⟨atStart, covers, inside⟩ := readHeader_sound found
  have offset : header.offset = 0 := by
    omega
  rw [Header.chunkEnd, offset, Nat.zero_add] at inside
  exact ⟨offset, covers, header.headerSize_le, inside⟩

theorem headerSize_wholeWith (found : readHeader buffer 0 = .ok header) :
    (wholeWith buffer header others).headerSize = header.headerSize := by
  obtain ⟨_, least, most, inside⟩ := bounds_of_readHeader found
  rw [Composed.headerSize, wholeWith, List.length_drop, List.length_take]
  omega

/-- The fields of the header are those in the file, but for the size. -/
theorem toList_withChunks (found : readHeader buffer 0 = .ok header) :
    (withChunks buffer header others).toList =
      (wholeWith buffer header others).bytes ++ buffer.toList.drop header.chunkSize := by
  obtain ⟨offset, least, most, inside⟩ := bounds_of_readHeader found
  obtain ⟨token, headerSize, _⟩ := Header.fields_of_readHeader found
  rw [leastHeaderSize] at least
  rw [Array.length_toList] at inside
  rw [offset] at token headerSize
  have tokenField : Bytes.ofNumber 2 header.token = buffer.toList.take 2 := by
    rw [token]
    exact Bytes.ofNumber_word (by omega)
  have headerField : Bytes.ofNumber 2 header.headerSize = (buffer.toList.drop 2).take 2 := by
    rw [headerSize]
    exact Bytes.ofNumber_word (by omega)
  have start :
      (wholeWith buffer header others).start =
        buffer.toList.take 4 ++ Bytes.ofNumber 4 (header.headerSize + others.flatten.length) := by
    rw [Composed.start, headerSize_wholeWith found]
    simp only [record, List.flatMap_cons, List.flatMap_nil, List.append_nil, wholeWith, tokenField,
      headerField]
    rw [← List.append_assoc, ← List.take_add]
  rw [Composed.bytes, start]
  rfl

/-- The chunks of a file are what lies between the header of its document and the end. -/
theorem flatten_chunks
    (found : readHeader buffer 0 = .ok header)
    (complete : (header.children buffer).stop = none) :
    (chunks buffer header).flatten =
      (buffer.toList.take header.chunkSize).drop header.headerSize := by
  obtain ⟨offset, _, most, _⟩ := bounds_of_readHeader found
  have tiles := tiles_walk buffer header.dataOffset header.chunkEnd
  have dataOffset : header.dataOffset = header.headerSize := by
    rw [Header.dataOffset, offset, Nat.zero_add]
  have chunkEnd : header.chunkEnd = header.chunkSize := by
    rw [Header.chunkEnd, offset, Nat.zero_add]
  have ends : reached header.dataOffset (header.children buffer).headers = header.chunkEnd :=
    tiles.complete complete (by omega)
  have joined :=
    (flatten_windows tiles.adjacent fun child member => (tiles.inside child member).2).2
  rw [← Header.children, ends, Int.toNat_natCast, dataOffset, chunkEnd, Array.toList_extract,
    List.extract_eq_take_drop, ← List.drop_take] at joined
  exact joined

/-- The chunks that are in the file make up the file. -/
theorem withChunks_chunks
    (found : readHeader buffer 0 = .ok header)
    (complete : (header.children buffer).stop = none) :
    withChunks buffer header (chunks buffer header) = buffer := by
  obtain ⟨offset, least, most, inside⟩ := bounds_of_readHeader found
  obtain ⟨_, _, chunkSize⟩ := Header.fields_of_readHeader found
  rw [offset] at chunkSize
  have payload := flatten_chunks found complete
  have size : header.headerSize + (chunks buffer header).flatten.length = header.chunkSize := by
    rw [payload, List.length_drop, List.length_take]
    omega
  have sizeField : Bytes.ofNumber 4 header.chunkSize = (buffer.toList.drop 4).take 4 := by
    rw [leastHeaderSize] at least
    rw [Array.length_toList] at inside
    rw [chunkSize]
    exact Bytes.ofNumber_word (by omega)
  have fields :
      buffer.toList.take 4 ++ (buffer.toList.drop 4).take 4 =
        (buffer.toList.take header.headerSize).take leastHeaderSize := by
    rw [← List.take_add, List.take_take, Nat.min_eq_left least]
    rfl
  have front :
      buffer.toList.take header.headerSize =
        (buffer.toList.take header.chunkSize).take header.headerSize := by
    rw [List.take_take, Nat.min_eq_left most]
  rw [← Array.toList_inj]
  calc (withChunks buffer header (chunks buffer header)).toList
      = buffer.toList.take 4 ++ (buffer.toList.drop 4).take 4 ++
          (buffer.toList.take header.headerSize).drop leastHeaderSize ++
          (buffer.toList.take header.chunkSize).drop header.headerSize ++
          buffer.toList.drop header.chunkSize := by
        rw [withChunks, size, sizeField, payload]
    _ = buffer.toList := by
        rw [fields, List.take_append_drop, front, List.take_append_drop, List.take_append_drop]

/-- A file with other chunks has a header of the same kind and these chunks. -/
theorem exists_header_withChunks
    (found : readHeader buffer 0 = .ok header)
    (valid : ∀ chunk ∈ others, IsChunk chunk)
    (small : header.headerSize + others.flatten.length < Bytes.limit 4) :
    ∃ whole,
      readHeader (withChunks buffer header others) 0 = .ok whole ∧ whole.token = header.token ∧
        (whole.children (withChunks buffer header others)).stop = none ∧
        chunks (withChunks buffer header others) whole = others := by
  obtain ⟨token, headerSize, _⟩ := Header.fields_of_readHeader found
  have size : (wholeWith buffer header others).headerSize = header.headerSize :=
    headerSize_wholeWith found
  have fits : (wholeWith buffer header others).Fits := by
    constructor
    · rw [wholeWith, token]
      exact Bytes.word_lt_limit _ _ _
    · rw [size, headerSize]
      exact Bytes.word_lt_limit _ _ _
    · rw [Composed.length_bytes, size]
      exact small
  let front := (wholeWith buffer header others).start ++ (wholeWith buffer header others).extension
  let rest := buffer.toList.drop header.chunkSize
  have asWhole :
      (withChunks buffer header others).toList =
        [] ++ (wholeWith buffer header others).bytes ++ rest :=
    toList_withChunks found
  have asChunks :
      (withChunks buffer header others).toList = front ++ others.flatten ++ rest :=
    toList_withChunks found
  obtain ⟨whole, read, atStart, covered⟩ := readHeader_composed fits asWhole
  obtain ⟨headers, walked, windows⟩ := walk_flatten valid asChunks
  have walkedAll :
      whole.children (withChunks buffer header others) = ⟨headers, none⟩ := by
    have dataOffset : whole.dataOffset = front.length := by
      rw [Header.dataOffset, atStart, covered.headerSize, Composed.headerSize, List.length_append,
        Composed.length_start, List.length_nil, Nat.zero_add]
    have chunkEnd : whole.chunkEnd = (front ++ others.flatten).length := by
      rw [Header.chunkEnd, atStart, covered.chunkSize, List.length_nil, Nat.zero_add]
      rfl
    rw [← walked, Header.children, dataOffset, chunkEnd]
  refine ⟨whole, read, covered.token, ?_, ?_⟩
  · rw [walkedAll]
  · rw [chunks, walkedAll]
    exact windows

/-- What a file is decoded into stays the same whatever chunks that documents do not know are
put between the chunks of the document, or taken out. -/
theorem decode_edited
    {document : Document}
    (decoded : decode buffer = .ok document) :
    ∃ header,
      readHeader buffer 0 = .ok header ∧ withChunks buffer header (chunks buffer header) = buffer ∧
        ∀ others, Edited (chunks buffer header) others →
          header.headerSize + others.flatten.length < Bytes.limit 4 →
          decode (withChunks buffer header others) = .ok document := by
  obtain ⟨header, parts, found, isXml, parsed⟩ := exists_header_of_decode decoded
  have complete := (exists_children_of_readParts found parsed).1
  refine ⟨header, found, withChunks_chunks found complete, ?_⟩
  intro others edited small
  have valid : ∀ chunk ∈ chunks buffer header, IsChunk chunk := by
    intro chunk member
    obtain ⟨child, isChild, rfl⟩ := List.mem_map.mp member
    exact (Header.exists_alone ((tiles_walk _ _ _).read child isChild)).1
  obtain ⟨whole, foundWhole, sameToken, completeWhole, chunksWhole⟩ :=
    exists_header_withChunks found (edited.isChunk valid) small
  apply eq_ok_of_toOption
  rw [toOption_decode_of_said foundWhole (sameToken.trans isXml) completeWhole, chunksWhole,
    edited.said?_eq, ← toOption_decode_of_said found isXml complete, decoded]
  rfl

/-- One element without attributes. -/
def oneElement : Bytes :=
  layOut ["a"]
    [Node.compose ["a"] (.startElement 1 "a" []), Node.compose ["a"] (.endElement 2 "a")]

/-- A chunk that documents do not know, with a payload of four bytes. -/
def stranger : List UInt8 :=
  [153, 9, 8, 0, 12, 0, 0, 0, 1, 2, 3, 4]

/-- Strangers in front of the pool and behind the end of the element. -/
theorem oneElement_between_strangers :
    ∃ document header,
      decode oneElement = .ok document ∧ readHeader oneElement 0 = .ok header ∧
        decode
            (withChunks oneElement header
              ([stranger] ++ chunks oneElement header ++ [stranger])) =
          .ok document := by
  have isForeign : Part.IsForeign stranger := by
    decide
  have decoded : (decode oneElement).toOption.isSome := by
    decide +kernel
  obtain ⟨document, isDocument⟩ := Option.isSome_iff_exists.mp decoded
  obtain ⟨header, found, _, transparent⟩ := decode_edited (eq_ok_of_toOption isDocument)
  have small :
      (readHeader oneElement 0).toOption.map (fun header =>
          header.headerSize +
            ([stranger] ++ chunks oneElement header ++ [stranger]).flatten.length) =
        some 132 := by
    decide +kernel
  rw [found] at small
  have size :
      header.headerSize + ([stranger] ++ chunks oneElement header ++ [stranger]).flatten.length =
        132 :=
    Option.some.inj small
  refine ⟨document, header, eq_ok_of_toOption isDocument, found, transparent _ ?_ ?_⟩
  · have behind : Edited (chunks oneElement header) (chunks oneElement header ++ [stranger]) := by
      apply Edited.insert _ isForeign
      rw [List.append_nil]
      exact .refl _
    exact @Edited.insert _ [] _ _ behind isForeign
  · rw [size]
    decide

end Chunks

end Document

end ApkAtlas.Xml
