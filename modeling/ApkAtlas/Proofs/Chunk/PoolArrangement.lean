import ApkAtlas.Proofs.Chunk.Composition
import ApkAtlas.Proofs.Text.Utf16
import ApkAtlas.Proofs.Text.Utf8

namespace ApkAtlas.StringPool

/-!
# Arranged string pools

Each string of a pool is stored behind its length and found through the table of positions. It
does not matter where in the chunk the strings lie: in another order, with gaps between them or
on top of each other, they are read back in the order of the table.
-/

open Chunk
open Text

/-- A length in one number of the given width, or in two numbers of which the first has its top
bit set. -/
inductive Counted (width length : Nat) : List UInt8 → Prop
  | one (short : length < Bytes.limit width / 2) :
      Counted width length (Bytes.ofNumber width length)
  | two (long : length < Bytes.limit width / 2 * Bytes.limit width) :
      Counted width length
        (Bytes.ofNumber width (Bytes.limit width / 2 + length / Bytes.limit width) ++
          Bytes.ofNumber width (length % Bytes.limit width))

/-- How a string is stored. In UTF-8 two lengths stand in front of it, of its 16-bit units and of
its bytes, and in UTF-16 the one of its units. -/
inductive Stored (text : String) : Bool → List UInt8 → Prop
  | utf8
      {units count : List UInt8}
      (ofUnits : Counted 1 (Utf16.encodeUnits text).length units)
      (ofBytes : Counted 1 (Utf8.encode text).size count) :
      Stored text true (units ++ count ++ (Utf8.encode text).toList)
  | utf16
      {count : List UInt8}
      (ofUnits : Counted 2 (Utf16.encodeUnits text).length count) :
      Stored text false (count ++ Utf16.encode text)

/-- A string pool before it is laid out. -/
structure Arrangement where
  styleCount : Nat := 0
  flags : Nat := 0
  /-- The place in the chunk from which positions are counted. -/
  stringsStart : Nat
  stylesStart : Nat := 0
  /-- What the header holds behind its fields. -/
  moreHeader : List UInt8 := []
  /-- Where each string lies. -/
  positions : List Nat
  /-- What the chunk holds behind the table of positions. -/
  data : List UInt8
deriving Repr, DecidableEq

namespace Arrangement

def isUtf8 (arrangement : Arrangement) : Bool :=
  arrangement.flags.testBit utf8Bit

/-- The numbers of the header. -/
def fields (arrangement : Arrangement) : List (Nat × Nat) :=
  [ (4, arrangement.positions.length),
    (4, arrangement.styleCount),
    (4, arrangement.flags),
    (4, arrangement.stringsStart),
    (4, arrangement.stylesStart) ]

def chunk (arrangement : Arrangement) : Composed where
  token := Token.stringPool
  extension := record arrangement.fields ++ arrangement.moreHeader
  payload := arrangement.positions.flatMap (Bytes.ofNumber 4) ++ arrangement.data

/-- The string is stored in the chunk at a position. -/
def HasAt (arrangement : Arrangement) (position : Nat) (text : String) : Prop :=
  ∃ before stored after,
    arrangement.chunk.bytes = before ++ stored ++ after ∧
      before.length = arrangement.stringsStart + position ∧
      Stored text arrangement.isUtf8 stored

/-- The numbers fit their fields, and each string is stored at its position. -/
structure Holds (arrangement : Arrangement) (texts : List String) : Prop where
  styleCount : arrangement.styleCount < Bytes.limit 4
  flags : arrangement.flags < Bytes.limit 4
  stringsStart : arrangement.stringsStart < Bytes.limit 4
  positions : ∀ position ∈ arrangement.positions, position < Bytes.limit 4
  strings : List.Forall₂ arrangement.HasAt arrangement.positions texts

end Arrangement

section Strings

variable
  {buffer : Bytes}
  {header : Header}
  {chunk : Composed}
  {before stored after : List UInt8}
  {position length : Nat}
  {text : String}

/-- A number is read back where it lies. -/
theorem word_of_covers
    {width number : Nat}
    (covers : header.Covers buffer chunk)
    (split : chunk.bytes = before ++ Bytes.ofNumber width number ++ after)
    (start : before.length = position)
    (small : number < Bytes.limit width) :
    ∃ window,
      header.bytes buffer position width = .ok window ∧ Bytes.word window 0 width = number := by
  refine ⟨_, covers.bytes_eq split start (Bytes.length_ofNumber width number), ?_⟩
  rw [word_ofNumber, Nat.mod_eq_of_lt small]

/-- Two numbers that are placed one behind the other are read back. -/
theorem words_of_covers
    {width first second : Nat}
    (covers : header.Covers buffer chunk)
    (split :
      chunk.bytes =
        before ++ (Bytes.ofNumber width first ++ Bytes.ofNumber width second) ++ after)
    (start : before.length = position)
    (firstSmall : first < Bytes.limit width)
    (secondSmall : second < Bytes.limit width) :
    (∃ window,
      header.bytes buffer position width = .ok window ∧ Bytes.word window 0 width = first) ∧
    ∃ window,
      header.bytes buffer (position + width : Nat) width = .ok window ∧
        Bytes.word window 0 width = second := by
  have atFirst :
      chunk.bytes =
        before ++ Bytes.ofNumber width first ++ (Bytes.ofNumber width second ++ after) := by
    simp only [split, List.append_assoc]
  have atSecond :
      chunk.bytes =
        (before ++ Bytes.ofNumber width first) ++ Bytes.ofNumber width second ++ after := by
    simp only [split, List.append_assoc]
  have behindFirst : (before ++ Bytes.ofNumber width first).length = position + width := by
    rw [List.length_append, start, Bytes.length_ofNumber]
  exact
    ⟨word_of_covers covers atFirst start firstSmall,
      word_of_covers covers atSecond behindFirst secondSmall⟩

/-- A length that is placed in a chunk is read back. -/
theorem shortLength_of_counted
    (covers : header.Covers buffer chunk)
    (counted : Counted 1 length stored)
    (split : chunk.bytes = before ++ stored ++ after)
    (start : before.length = position) :
    shortLength buffer header position = .ok (length, position + stored.length) := by
  cases counted with
  | one short =>
      rw [Bytes.limit_one] at short
      obtain ⟨window, read, first⟩ :=
        word_of_covers covers split start (by rw [Bytes.limit_one]; omega)
      change header.bytes buffer position 1 = .ok window at read
      rw [← Fallible.u8_eq_word] at first
      rw [shortLength, read]
      simp only [bind, Except.bind, first, if_pos short, Bytes.length_ofNumber]
      rfl
  | two long =>
      rw [Bytes.limit_one] at long
      obtain ⟨⟨window, read, first⟩, other, readOther, second⟩ :=
        words_of_covers covers split start
          (by rw [Bytes.limit_one]; omega) (by rw [Bytes.limit_one]; omega)
      change header.bytes buffer position 1 = .ok window at read
      change header.bytes buffer (position + 1) 1 = .ok other at readOther
      rw [← Fallible.u8_eq_word, Bytes.limit_one] at first second
      have topBit : ¬ 256 / 2 + length / 256 < 0x80 := by
        omega
      have whole : (256 / 2 + length / 256 - 0x80) * 0x100 + length % 256 = length := by
        omega
      rw [shortLength, read]
      simp only [bind, Except.bind, first, if_neg topBit, readOther, second, whole,
        List.length_append, Bytes.length_ofNumber]
      rfl

/-- The length in units plays no role when a string in UTF-8 is read. -/
theorem utf8String_of_counted
    {units count : List UInt8}
    {anyLength : Nat}
    (covers : header.Covers buffer chunk)
    (ofUnits : Counted 1 anyLength units)
    (ofBytes : Counted 1 (Utf8.encode text).size count)
    (split : chunk.bytes = before ++ (units ++ count ++ (Utf8.encode text).toList) ++ after)
    (start : before.length = position) :
    utf8String buffer header position = .ok text := by
  have atUnits :
      chunk.bytes = before ++ units ++ (count ++ (Utf8.encode text).toList ++ after) := by
    simp only [split, List.append_assoc]
  have atCount :
      chunk.bytes = (before ++ units) ++ count ++ ((Utf8.encode text).toList ++ after) := by
    simp only [split, List.append_assoc]
  have atText :
      chunk.bytes = (before ++ units ++ count) ++ (Utf8.encode text).toList ++ after := by
    simp only [split, List.append_assoc]
  have behindUnits : (before ++ units).length = position + units.length := by
    rw [List.length_append, start]
  have behindCount :
      (before ++ units ++ count).length = position + units.length + count.length := by
    rw [List.length_append, behindUnits]
  have unitCount := shortLength_of_counted covers ofUnits atUnits start
  have byteCount := shortLength_of_counted covers ofBytes atCount behindUnits
  have read := covers.bytes_eq atText behindCount Array.length_toList
  rw [utf8String, unitCount]
  simp only [bind, Except.bind, byteCount, read]
  exact congrArg Except.ok (Utf8.decodeLossy_encode text)

/-- A string of bytes that is placed in a chunk is read back. -/
theorem utf8String_of_stored
    (covers : header.Covers buffer chunk)
    (isStored : Stored text true stored)
    (split : chunk.bytes = before ++ stored ++ after)
    (start : before.length = position) :
    utf8String buffer header position = .ok text := by
  cases isStored with
  | utf8 ofUnits ofBytes =>
      exact utf8String_of_counted covers ofUnits ofBytes split start

/-- A string of units that is placed in a chunk is read back. -/
theorem utf16String_of_stored
    (covers : header.Covers buffer chunk)
    (isStored : Stored text false stored)
    (split : chunk.bytes = before ++ stored ++ after)
    (start : before.length = position) :
    utf16String buffer header position = .ok text := by
  cases isStored with
  | @utf16 count ofUnits =>
      have atCount : chunk.bytes = before ++ count ++ (Utf16.encode text ++ after) := by
        simp only [split, List.append_assoc]
      have atText : chunk.bytes = (before ++ count) ++ Utf16.encode text ++ after := by
        simp only [split, List.append_assoc]
      have behindCount : (before ++ count).length = position + count.length := by
        rw [List.length_append, start]
      have readText := covers.bytes_eq atText behindCount (Utf16.length_encode text)
      have decoded : Utf16.decodeLossy (Utf16.encode text).toArray.toList = text :=
        Utf16.decodeLossy_encode text
      cases ofUnits with
      | one short =>
          rw [Bytes.limit_two] at short
          obtain ⟨window, read, first⟩ :=
            word_of_covers covers atCount start (by rw [Bytes.limit_two]; omega)
          change header.bytes buffer position 2 = .ok window at read
          change Bytes.u16 window 0 = _ at first
          rw [Bytes.length_ofNumber] at readText
          push_cast at readText
          rw [utf16String, read]
          simp only [bind, Except.bind, first, if_pos short, readText, decoded]
          rfl
      | two long =>
          rw [Bytes.limit_two] at long
          obtain ⟨⟨window, read, first⟩, other, readOther, second⟩ :=
            words_of_covers covers atCount start
              (by rw [Bytes.limit_two]; omega) (by rw [Bytes.limit_two]; omega)
          change header.bytes buffer position 2 = .ok window at read
          change header.bytes buffer (position + 2) 2 = .ok other at readOther
          change Bytes.u16 window 0 = _ at first
          change Bytes.u16 other 0 = _ at second
          rw [Bytes.limit_two] at first second
          have topBit : ¬ 65536 / 2 + (Utf16.encodeUnits text).length / 65536 < 0x8000 := by
            omega
          have whole :
              (65536 / 2 + (Utf16.encodeUnits text).length / 65536 - 0x8000) * 0x10000 +
                (Utf16.encodeUnits text).length % 65536 = (Utf16.encodeUnits text).length := by
            omega
          rw [List.length_append, Bytes.length_ofNumber, Bytes.length_ofNumber] at readText
          push_cast at readText
          rw [utf16String, read]
          simp only [bind, Except.bind, first, if_neg topBit, readOther, second, whole, readText,
            decoded]
          rfl

end Strings

section Pools

variable
  {buffer : Bytes}
  {header : Header}
  {arrangement : Arrangement}
  {texts : List String}

theorem length_table (positions : List Nat) :
    (positions.flatMap (Bytes.ofNumber 4)).length = positions.length * 4 := by
  induction positions with
  | nil =>
      rfl
  | cons position rest inductionHypothesis =>
      rw [List.flatMap_cons, List.length_append, Bytes.length_ofNumber, inductionHypothesis,
        List.length_cons]
      omega

/-- A string of the pool is read at a position. -/
def Arrangement.ReadsAt
    (arrangement : Arrangement)
    (buffer : Bytes)
    (header : Header)
    (position : Nat)
    (text : String) : Prop :=
  (if arrangement.isUtf8 then
      utf8String buffer header (arrangement.stringsStart + position)
    else
      utf16String buffer header (arrangement.stringsStart + position)) = .ok text

/-- A string is read where it is stored. -/
theorem readsAt_of_hasAt
    (covers : header.Covers buffer arrangement.chunk)
    {position : Nat}
    {text : String}
    (hasAt : arrangement.HasAt position text) :
    arrangement.ReadsAt buffer header position text := by
  obtain ⟨front, stored, rest, split, start, isStored⟩ := hasAt
  rw [Arrangement.ReadsAt]
  cases encoding : arrangement.isUtf8 with
  | true =>
      rw [encoding] at isStored
      exact utf8String_of_stored covers isStored split start
  | false =>
      rw [encoding] at isStored
      exact utf16String_of_stored covers isStored split start

/-- The string of an index is read back from its listed position. -/
theorem stringAt_of_readsAt
    (covers : header.Covers buffer arrangement.chunk)
    {before after : List Nat}
    {position : Nat}
    (listed : arrangement.positions = before ++ position :: after)
    (small : position < Bytes.limit 4)
    {text : String}
    (reads : arrangement.ReadsAt buffer header position text) :
    stringAt buffer header arrangement.isUtf8 arrangement.stringsStart before.length =
      .ok text := by
  have atPosition :
      arrangement.chunk.bytes =
        (arrangement.chunk.start ++ arrangement.chunk.extension ++
            before.flatMap (Bytes.ofNumber 4)) ++
          Bytes.ofNumber 4 position ++
            (after.flatMap (Bytes.ofNumber 4) ++ arrangement.data) := by
    have payload : arrangement.chunk.payload =
        arrangement.positions.flatMap (Bytes.ofNumber 4) ++ arrangement.data := rfl
    rw [Composed.bytes, payload, listed, List.flatMap_append, List.flatMap_cons]
    simp only [List.append_assoc]
  have entryStart :
      (arrangement.chunk.start ++ arrangement.chunk.extension ++
          before.flatMap (Bytes.ofNumber 4)).length =
        header.headerSize + before.length * 4 := by
    rw [List.length_append, List.length_append, Composed.length_start, length_table,
      covers.headerSize, Composed.headerSize]
  obtain ⟨window, read, found⟩ := word_of_covers covers atPosition entryStart small
  change Bytes.u32 window 0 = _ at found
  push_cast at read
  rw [stringAt, read]
  simp only [bind, Except.bind, found]
  exact reads

/-- All strings are read back from their listed positions. -/
theorem stringsFrom_of_readsAt
    (covers : header.Covers buffer arrangement.chunk)
    {before positions : List Nat}
    (listed : arrangement.positions = before ++ positions)
    (small : ∀ position ∈ positions, position < Bytes.limit 4)
    (strings : List.Forall₂ (arrangement.ReadsAt buffer header) positions texts) :
    stringsFrom buffer header arrangement.isUtf8 arrangement.stringsStart before.length
        positions.length =
      .ok texts := by
  induction strings generalizing before with
  | nil =>
      rfl
  | @cons position text rest others reads _ inductionHypothesis =>
      obtain ⟨firstSmall, restSmall⟩ := List.forall_mem_cons.mp small
      have first := stringAt_of_readsAt covers listed firstSmall reads
      have listedRest : arrangement.positions = (before ++ [position]) ++ rest := by
        rw [listed, List.append_assoc, List.singleton_append]
      have later := inductionHypothesis listedRest restSmall
      rw [List.length_append, List.length_singleton] at later
      rw [List.length_cons, stringsFrom, first]
      simp only [bind, Except.bind, later]
      rfl

/-- A pool is read if each of its strings is. -/
theorem parse_of_readsAt
    (covers : header.Covers buffer arrangement.chunk)
    (size : arrangement.chunk.bytes.length < Bytes.limit 4)
    (styleCountFits : arrangement.styleCount < Bytes.limit 4)
    (flagsFit : arrangement.flags < Bytes.limit 4)
    (startFits : arrangement.stringsStart < Bytes.limit 4)
    (positionsFit : ∀ position ∈ arrangement.positions, position < Bytes.limit 4)
    (reads : List.Forall₂ (arrangement.ReadsAt buffer header) arrangement.positions texts) :
    parse buffer header =
      .ok ⟨texts.toArray, arrangement.styleCount, arrangement.isUtf8⟩ := by
  have split :
      arrangement.chunk.extension =
        [] ++ record arrangement.fields ++ arrangement.moreHeader :=
    rfl
  have read : header.bytes buffer 8 20 = .ok (record arrangement.fields).toArray :=
    covers.extension_eq split (by rfl) (by simp [Arrangement.fields])
  have token : header.token = Token.stringPool := covers.token
  have enough : ¬ header.headerSize < leastHeaderSize := by
    rw [covers.headerSize, Composed.headerSize, split]
    simp [Arrangement.fields, leastHeaderSize, Chunk.leastHeaderSize]
    omega
  have strings := stringsFrom_of_readsAt covers (List.nil_append _).symm positionsFit reads
  have countFits : arrangement.positions.length < Bytes.limit 4 := by
    have payload : arrangement.chunk.payload =
        arrangement.positions.flatMap (Bytes.ofNumber 4) ++ arrangement.data := rfl
    rw [Composed.length_bytes, payload, List.length_append, length_table] at size
    omega
  have numbers :
      Fallible.windowWords (record arrangement.fields).toArray 0 [4, 4, 4, 4, 4] =
        [arrangement.positions.length, arrangement.styleCount, arrangement.flags,
          arrangement.stringsStart, arrangement.stylesStart % Bytes.limit 4] := by
    refine (windowWords_record arrangement.fields).trans ?_
    simp only [Arrangement.fields, List.map_cons, List.map_nil, Nat.mod_eq_of_lt countFits,
      Nat.mod_eq_of_lt styleCountFits, Nat.mod_eq_of_lt flagsFit, Nat.mod_eq_of_lt startFits]
  simp only [Fallible.windowWords, Nat.reduceAdd, List.cons.injEq, and_true] at numbers
  obtain ⟨count, styles, flags, stringsStart, _⟩ := numbers
  rw [parse, token]
  simp only [ne_eq, not_true_eq_false, if_false, if_neg enough, bind, Except.bind, pure,
    Except.pure, read, Bytes.u32, count, styles, flags, stringsStart]
  rw [List.length_nil, Arrangement.isUtf8] at strings
  rw [strings, Arrangement.isUtf8]

/-- The strings of an arranged pool are read back. -/
theorem parse_of_holds
    (covers : header.Covers buffer arrangement.chunk)
    (size : arrangement.chunk.bytes.length < Bytes.limit 4)
    (holds : arrangement.Holds texts) :
    parse buffer header =
      .ok ⟨texts.toArray, arrangement.styleCount, arrangement.isUtf8⟩ :=
  parse_of_readsAt covers size holds.styleCount holds.flags holds.stringsStart holds.positions
    (holds.strings.imp fun _ _ => readsAt_of_hasAt covers)

theorem length_of_stringsFrom
    {isUtf8 : Bool}
    {stringsStart index count : Nat}
    (through : stringsFrom buffer header isUtf8 stringsStart index count = .ok texts) :
    texts.length = count := by
  induction count generalizing index texts with
  | zero =>
      cases through
      rfl
  | succ count inductionHypothesis =>
      rw [stringsFrom] at through
      obtain ⟨first, _, through⟩ := exists_of_bind_eq_ok through
      obtain ⟨rest, restThrough, same⟩ := exists_of_bind_eq_ok through
      cases same
      rw [List.length_cons, inductionHypothesis restThrough]

/-- Bytes of a chunk are a slice of the buffer. -/
theorem eq_slice_of_bytes
    {relative length : Nat}
    {window : Bytes}
    (read : header.bytes buffer relative length = .ok window) :
    window = Bytes.slice buffer (header.offset + relative) length := by
  obtain ⟨start, starts, read⟩ := exists_of_bind_eq_ok read
  obtain ⟨stop, stops, same⟩ := exists_of_bind_eq_ok read
  obtain ⟨atStart, _⟩ := Fallible.absolute_eq_ok starts
  obtain ⟨atStop, _⟩ := Fallible.absolute_eq_ok stops
  have first : start = header.offset + relative := by
    omega
  have last : stop = header.offset + relative + length := by
    omega
  cases same
  rw [Bytes.slice, first, last]

/-- A pool has as many strings as its header says. -/
theorem size_of_parse
    {pool : StringPool}
    (parsed : parse buffer header = .ok pool) :
    pool.strings.size = Bytes.u32 buffer (header.offset + 8) := by
  rw [parse] at parsed
  split at parsed
  · cases parsed
  · dsimp only at parsed
    split at parsed
    · cases parsed
    · obtain ⟨fields, read, parsed⟩ := exists_of_bind_eq_ok parsed
      obtain ⟨strings, through, same⟩ := exists_of_bind_eq_ok parsed
      cases same
      have field : Bytes.u32 fields 0 = Bytes.u32 buffer (header.offset + 8) := by
        rw [eq_slice_of_bytes read]
        exact Fallible.word_slice (by decide)
      rw [List.size_toArray, length_of_stringsFrom through, field]

end Pools

/-- A pool is read back however its strings are arranged, and every pool that is read has as many
strings as its header says. -/
theorem decoding_undoes_arranging :
    (∀ (arrangement : Arrangement) (texts : List String),
      arrangement.Holds texts → arrangement.chunk.Fits →
      ∀ (buffer : Bytes) (before after : List UInt8),
        buffer.toList = before ++ arrangement.chunk.bytes ++ after →
        (readHeader buffer before.length >>= parse buffer) =
          .ok ⟨texts.toArray, arrangement.styleCount, arrangement.isUtf8⟩) ∧
    ∀ (buffer : Bytes) (header : Header) (pool : StringPool),
      parse buffer header = .ok pool →
      pool.strings.size = Bytes.u32 buffer (header.offset + 8) := by
  refine ⟨?_, fun _ _ _ => size_of_parse⟩
  intro arrangement texts holds fits buffer before after placed
  obtain ⟨header, read, _, covers⟩ := readHeader_composed fits placed
  rw [read]
  exact parse_of_holds covers fits.size holds

/-- A pool in UTF-8 whose second string lies in front of the first, which is the third as well,
with gaps between them and a length in two bytes where one would do. -/
def sharedPool : Arrangement where
  styleCount := 7
  flags := 0x101
  stringsStart := 44
  moreHeader := [0, 0, 0, 0]
  positions := [6, 1, 6]
  data := [255, 0x80, 1, 1, 0x61, 0, 3, 6, 0xC3, 0xA9, 0xF0, 0x9F, 0x98, 0x80]

/-- A pool with two indices for one string and unused bytes. -/
theorem sharedPool_is_read_back :
    sharedPool.Holds ["é😀", "a", "é😀"] ∧ sharedPool.chunk.Fits ∧
      (readHeader ([9] ++ sharedPool.chunk.bytes ++ [8, 8]).toArray 1 >>=
          parse ([9] ++ sharedPool.chunk.bytes ++ [8, 8]).toArray) =
        .ok ⟨#["é😀", "a", "é😀"], 7, true⟩ := by
  have atSix : sharedPool.HasAt 6 "é😀" :=
    ⟨sharedPool.chunk.bytes.take 50, _, sharedPool.chunk.bytes.drop 58, by decide +kernel,
      by decide +kernel, .utf8 (.one (by decide +kernel)) (.one (by decide +kernel))⟩
  have atOne : sharedPool.HasAt 1 "a" :=
    ⟨sharedPool.chunk.bytes.take 45, _, sharedPool.chunk.bytes.drop 49, by decide +kernel,
      by decide +kernel, .utf8 (.two (by decide +kernel)) (.one (by decide +kernel))⟩
  have holds : sharedPool.Holds ["é😀", "a", "é😀"] :=
    { styleCount := by decide
      flags := by decide
      stringsStart := by decide
      positions := by decide
      strings := .cons atSix (.cons atOne (.cons atSix .nil)) }
  have fits : sharedPool.chunk.Fits :=
    { token := by decide
      header := by decide
      size := by decide }
  exact ⟨holds, fits, decoding_undoes_arranging.1 _ _ holds fits _ [9] [8, 8] rfl⟩

end ApkAtlas.StringPool
