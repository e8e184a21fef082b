import ApkAtlas.Proofs.Chunk.PoolArrangement

namespace ApkAtlas.StringPool

/-!
# Composing string pools

A pool is written as its counts, the table of positions and the strings back to back, each
behind its length: in UTF-16 the count of its units, in UTF-8 the counts of its characters and
of its bytes. Every string that is short enough for one count is read back.
-/

open Chunk
open Text

section Layout

variable {Item : Type} {entry : Item → List UInt8} {items : List Item} {start : Nat}

/-- Where each item starts, if they are written back to back and the first one starts at
`start`. -/
def starts (entry : Item → List UInt8) (start : Nat) : List Item → List Nat
  | [] => []
  | item :: rest => start :: starts entry (start + (entry item).length) rest

theorem length_starts (entry : Item → List UInt8) (start : Nat) (items : List Item) :
    (starts entry start items).length = items.length := by
  induction items generalizing start with
  | nil =>
      rfl
  | cons item rest inductionHypothesis =>
      rw [starts, List.length_cons, List.length_cons, inductionHypothesis]

/-- No item starts behind the last one. -/
theorem le_of_mem_starts
    {position : Nat}
    (member : position ∈ starts entry start items) :
    position ≤ start + (items.flatMap entry).length := by
  induction items generalizing start with
  | nil =>
      cases member
  | cons item rest inductionHypothesis =>
      rw [List.flatMap_cons, List.length_append]
      rcases List.mem_cons.mp member with rfl | later
      · omega
      · have bound := inductionHypothesis later
        omega

/-- What holds of each item behind those in front of it holds of all where they start. -/
theorem forall₂_starts
    {holds : Nat → Item → Prop}
    {done rest : List Item}
    (whole : items = done ++ rest)
    (each :
      ∀ before item after, items = before ++ item :: after →
        holds (before.flatMap entry).length item) :
    List.Forall₂ holds (starts entry (done.flatMap entry).length rest) rest := by
  induction rest generalizing done with
  | nil =>
      exact .nil
  | cons item rest inductionHypothesis =>
      have later := @inductionHypothesis (done ++ [item]) (by simp [whole])
      rw [List.flatMap_append, List.flatMap_singleton, List.length_append] at later
      exact .cons (each done item rest whole) later

end Layout

/-- The zeros that fill up to a multiple of four bytes. -/
def padding (length : Nat) : List UInt8 :=
  List.replicate ((4 - length % 4) % 4) 0

/-- The pool of strings that are written back to back, with the given flags. -/
def packed (flags : Nat) (entry : String → List UInt8) (texts : List String) : Arrangement where
  flags := flags
  stringsStart := leastHeaderSize + 4 * texts.length
  positions := starts entry 0 texts
  data := texts.flatMap entry ++ padding (texts.flatMap entry).length

section Packed

variable
  {flags : Nat}
  {entry : String → List UInt8}
  {texts : List String}
  {buffer : Bytes}
  {header : Header}

/-- A packed pool has its positions, its strings and padding. -/
theorem payload_packed :
    (packed flags entry texts).chunk.payload =
      (starts entry 0 texts).flatMap (Bytes.ofNumber 4) ++
        (texts.flatMap entry ++ padding (texts.flatMap entry).length) :=
  rfl

theorem headerSize_packed : (packed flags entry texts).chunk.headerSize = leastHeaderSize := by
  simp [packed, Arrangement.chunk, Arrangement.fields, Composed.headerSize, leastHeaderSize,
    Chunk.leastHeaderSize]

/-- An entry lies behind those in front of it. -/
theorem exists_split_packed
    {before after : List String}
    {text : String}
    (whole : texts = before ++ text :: after) :
    ∃ front rest,
      (packed flags entry texts).chunk.bytes = front ++ entry text ++ rest ∧
        front.length =
          (packed flags entry texts).stringsStart + (before.flatMap entry).length := by
  refine
    ⟨(packed flags entry texts).chunk.start ++ (packed flags entry texts).chunk.extension ++
        (starts entry 0 texts).flatMap (Bytes.ofNumber 4) ++ before.flatMap entry,
      after.flatMap entry ++ padding (texts.flatMap entry).length, ?_, ?_⟩
  · have entries :
        texts.flatMap entry = before.flatMap entry ++ entry text ++ after.flatMap entry := by
      rw [whole, List.flatMap_append, List.flatMap_cons, ← List.append_assoc]
    rw [Composed.bytes, payload_packed]
    nth_rewrite 1 [entries]
    simp only [List.append_assoc]
  · have header :
        ((packed flags entry texts).chunk.start ++
          (packed flags entry texts).chunk.extension).length = leastHeaderSize := by
      rw [List.length_append, Composed.length_start, ← headerSize_packed, Composed.headerSize]
    rw [List.length_append, List.length_append, header, length_table, length_starts, packed,
      Nat.mul_comm 4]

/-- The pool is read if each entry is read wherever it lies in the chunk. -/
theorem parse_packed
    (covers : header.Covers buffer (packed flags entry texts).chunk)
    (size : (packed flags entry texts).chunk.bytes.length < Bytes.limit 4)
    (flagsFit : flags < Bytes.limit 4)
    (reads :
      ∀ text ∈ texts, ∀ before after position,
        (packed flags entry texts).chunk.bytes = before ++ entry text ++ after →
        before.length = (packed flags entry texts).stringsStart + position →
        (packed flags entry texts).ReadsAt buffer header position text) :
    parse buffer header = .ok ⟨texts.toArray, 0, flags.testBit utf8Bit⟩ := by
  have inside := size
  rw [Composed.length_bytes, headerSize_packed, payload_packed, List.length_append,
    length_table, length_starts, List.length_append] at inside
  have strings :
      List.Forall₂ ((packed flags entry texts).ReadsAt buffer header)
        (packed flags entry texts).positions texts := by
    apply forall₂_starts (List.nil_append texts).symm
    intro before text after whole
    obtain ⟨front, rest, split, start⟩ := exists_split_packed whole
    exact reads text (by simp [whole]) front rest _ split start
  apply parse_of_readsAt covers size (Nat.pow_pos (by decide)) flagsFit ?_ ?_ strings
  · change leastHeaderSize + 4 * texts.length < _
    omega
  · intro position member
    have bound := le_of_mem_starts member
    omega

end Packed

/-! ## Strings in UTF-16 -/

/-- A string behind the count of its units, with a zero unit after it. -/
def entry (text : String) : List UInt8 :=
  Bytes.ofNumber 2 (Utf16.encodeUnits text).length ++ Utf16.encode text ++ [0, 0]

theorem length_entry (text : String) :
    (entry text).length = 2 * (Utf16.encodeUnits text).length + 4 := by
  simp only [entry, Utf16.encode, Utf16.length_bytesOf, List.length_append, Bytes.length_ofNumber,
    List.length_cons, List.length_nil]
  omega

/-- Where each string starts, if the first one starts at `start`. -/
def positions (start : Nat) : List String → List Nat
  | [] => []
  | text :: rest => start :: positions (start + (entry text).length) rest

/-- The pool of the given strings. -/
def compose (texts : List String) : Composed :=
  { token := Token.stringPool
    extension :=
      record [(4, texts.length), (4, 0), (4, 0), (4, leastHeaderSize + 4 * texts.length), (4, 0)]
    payload :=
      (positions 0 texts).flatMap (Bytes.ofNumber 4) ++
        (texts.flatMap entry ++ padding (texts.flatMap entry).length) }

@[simp] theorem headerSize_compose (texts : List String) :
    (compose texts).headerSize = leastHeaderSize := by
  simp [compose, Composed.headerSize, leastHeaderSize, Chunk.leastHeaderSize]

/-- The positions of strings are where their entries start. -/
theorem positions_eq (start : Nat) (texts : List String) :
    positions start texts = starts entry start texts := by
  induction texts generalizing start with
  | nil =>
      rfl
  | cons text rest inductionHypothesis =>
      rw [positions, starts, inductionHypothesis]

/-- The table of positions is a part of the payload. -/
theorem length_payload (texts : List String) :
    texts.length * 4 ≤ (compose texts).payload.length := by
  simp only [compose, List.length_append, length_table, positions_eq, length_starts]
  omega

theorem length_payload_le (texts : List String) :
    (compose texts).payload.length ≤
      4 * texts.length + (texts.flatMap entry).length + 3 := by
  simp only [compose, List.length_append, length_table,
    positions_eq, length_starts, padding, List.length_replicate]
  omega

/-- The pool that the composer writes is packed. -/
theorem chunk_packed (texts : List String) : (packed 0 entry texts).chunk = compose texts := by
  simp only [Arrangement.chunk, Arrangement.fields, packed, compose, length_starts, positions_eq,
    List.append_nil]

/-- The strings of a composed pool are read back. -/
theorem parse_compose
    {texts : List String}
    {buffer : Bytes}
    {header : Header}
    (covers : header.Covers buffer (compose texts))
    (size : (compose texts).bytes.length < Bytes.limit 4)
    (short : ∀ text ∈ texts, (Utf16.encodeUnits text).length < 0x8000) :
    parse buffer header = .ok ⟨texts.toArray, 0, false⟩ := by
  rw [← chunk_packed] at covers size
  apply parse_packed covers size (Nat.pow_pos (by decide))
  intro text member before after position split start
  have counted :
      Counted 2 (Utf16.encodeUnits text).length
        (Bytes.ofNumber 2 (Utf16.encodeUnits text).length) :=
    .one (short text member)
  have atText :
      (packed 0 entry texts).chunk.bytes =
        before ++ (Bytes.ofNumber 2 (Utf16.encodeUnits text).length ++ Utf16.encode text) ++
          ([0, 0] ++ after) := by
    rw [split, entry]
    simp only [List.append_assoc]
  have isUtf16 : (packed 0 entry texts).isUtf8 = false := Nat.zero_testBit utf8Bit
  simp only [Arrangement.ReadsAt, isUtf16, Bool.false_eq_true, if_false]
  exact utf16String_of_stored covers (.utf16 counted) atText start

/-! ## Strings in UTF-8 -/

/-- The flags of a pool of strings in UTF-8. -/
def utf8Flags : Nat :=
  2 ^ utf8Bit

/-- A string behind the counts of its characters and of its bytes, with a zero byte after it. -/
def utf8Entry (text : String) : List UInt8 :=
  Bytes.ofNumber 1 text.length ++ Bytes.ofNumber 1 (Utf8.encode text).size ++
    (Utf8.encode text).toList ++ [0]

/-- A string has no more characters than bytes. -/
theorem length_le_size_encode (text : String) : text.length ≤ (Utf8.encode text).size := by
  rw [← Array.length_toList, Utf8.toList_encode, ← String.length_toList]
  induction text.toList with
  | nil =>
      exact Nat.zero_le _
  | cons c rest inductionHypothesis =>
      have atLeastOne := c.utf8Size_pos
      rw [List.flatMap_cons, List.length_append, String.length_utf8EncodeChar, List.length_cons]
      omega

/-- The strings of a pool in UTF-8 are read back. -/
theorem parse_packed_utf8
    {texts : List String}
    {buffer : Bytes}
    {header : Header}
    (covers : header.Covers buffer (packed utf8Flags utf8Entry texts).chunk)
    (size : (packed utf8Flags utf8Entry texts).chunk.bytes.length < Bytes.limit 4)
    (short : ∀ text ∈ texts, (Utf8.encode text).size < 0x80) :
    parse buffer header = .ok ⟨texts.toArray, 0, true⟩ := by
  apply parse_packed covers size (by decide)
  intro text member before after position split start
  have bytesFit := short text member
  have charactersFit := length_le_size_encode text
  have atText :
      (packed utf8Flags utf8Entry texts).chunk.bytes =
        before ++
          (Bytes.ofNumber 1 text.length ++ Bytes.ofNumber 1 (Utf8.encode text).size ++
            (Utf8.encode text).toList) ++ ([0] ++ after) := by
    rw [split, utf8Entry]
    simp only [List.append_assoc]
  have counted {count : Nat} (fits : count < 0x80) :
      Counted 1 count (Bytes.ofNumber 1 count) :=
    .one fits
  have isUtf8 : (packed utf8Flags utf8Entry texts).isUtf8 = true := Nat.testBit_two_pow_self
  simp only [Arrangement.ReadsAt, isUtf8, if_true]
  exact utf8String_of_counted covers (counted (by omega)) (counted bytesFit) atText start

end ApkAtlas.StringPool
