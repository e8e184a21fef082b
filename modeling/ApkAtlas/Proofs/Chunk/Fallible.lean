import ApkAtlas.Chunk.Layout
import ApkAtlas.Proofs.Chunk.ErrorPlace
import ApkAtlas.Proofs.Except
import ApkAtlas.ResourceValue
import Mathlib

namespace ApkAtlas

/-!
# Readers that take nothing for granted

The decoders cut windows out of chunks and read numbers from them without asking whether
the window is as long as it should be. Here the same readers are written so that every
operation that is not defined everywhere can fail: a record that the buffer does not hold,
a record that has other fields than it is taken apart into, an index that a list does not
have, a number that does not fit its word. Inside a file none of this happens.
-/

open Chunk

/-- What can stop a reader that takes nothing for granted. -/
inductive ReadFault where
  | record (error : RecordError)
  | fields
  | index
  | word (error : ResourceValue.WordError)
deriving Repr, DecidableEq

/-- The fault of an error that decoders declare. -/
def ReadFault.declared (error : DecodeError) : ReadFault :=
  .record (.decode error)

/-- A step that stops as decoders declare it. -/
def declared {Value : Type} (step : Except DecodeError Value) : Except ReadFault Value :=
  step.mapError .declared

section Declared

variable {Value Next : Type}

@[simp] theorem declared_ok (value : Value) : declared (.ok value) = .ok value :=
  rfl

@[simp] theorem declared_pure (value : Value) : declared (pure value) = pure value :=
  rfl

@[simp] theorem declared_error (error : DecodeError) :
    declared (.error error : Except DecodeError Value) = .error (.declared error) :=
  rfl

/-- What succeeds after it was wrapped succeeded before. -/
theorem eq_ok_of_declared
    {step : Except DecodeError Value}
    {value : Value}
    (succeeds : declared step = .ok value) :
    step = .ok value := by
  cases step with
  | ok _ =>
      cases succeeds
      rfl
  | error _ =>
      cases succeeds

/-- Wrapping a sequence wraps its steps. -/
theorem declared_bind
    (first : Except DecodeError Value)
    (next : Value → Except DecodeError Next) :
    declared (first >>= next) = declared first >>= fun value => declared (next value) :=
  mapError_bind _ first next

/-- Two readers agree after a common first step if they agree on what it gives. -/
theorem declared_bind_congr
    {first : Except DecodeError Value}
    {next : Value → Except DecodeError Next}
    {fallible : Value → Except ReadFault Next}
    (same : ∀ value, first = .ok value → fallible value = declared (next value)) :
    declared first >>= fallible = declared (first >>= next) := by
  cases first with
  | ok value =>
      exact same value rfl
  | error _ =>
      rfl

/-- What is made of a value afterwards does not stop a reader. -/
theorem declared_map
    (first : Except DecodeError Value)
    (result : Value → Next) :
    declared first >>= (fun value => pure (result value)) =
      declared (first >>= fun value => pure (result value)) :=
  declared_bind_congr fun _ _ => rfl

end Declared

namespace Fallible

section Records

/-- The numbers of a record; other fields than numbers are not what the reader expects. -/
def numbers : List Datum → Except ReadFault (List Nat)
  | [] => .ok []
  | .int (.ofNat number) :: rest => do
      let others ← numbers rest
      return number :: others
  | _ :: _ => .error .fields

/-- The numbers of a record at a position of the buffer, which must hold all of it. -/
def unpackFrom (buffer : Bytes) (start : Nat) (layoutText : String) :
    Except ReadFault (List Nat) := do
  let layout ← (Layout.parse layoutText).mapError fun fault => ReadFault.record (.layout fault)
  if buffer.size < start + layout.size then
    throw (.record (.bufferTooSmall start layout.size buffer.size))
  numbers (layout.unpack (Bytes.slice buffer start layout.size).toList)

/-- The numbers of a record at a position relative to a chunk. -/
def words (buffer : Bytes) (header : Header) (relative : Int) (layoutText : String) :
    Except ReadFault (List Nat) := do
  let fields ← (header.record buffer relative layoutText).mapError .record
  numbers fields

/-- The only number of a record. -/
def word (buffer : Bytes) (header : Header) (relative : Int) (layoutText : String) :
    Except ReadFault Nat := do
  match ← words buffer header relative layoutText with
  | [number] => return number
  | _ => throw .fields

/-- The layout of unsigned numbers with the given widths. -/
def layoutOf (widths : List Nat) : Layout :=
  ⟨false, widths.map fun width => (1, .unsigned width)⟩

/-- The numbers of the given widths in a window, from a position on. -/
def windowWords (window : Bytes) (start : Nat) : List Nat → List Nat
  | [] => []
  | width :: rest => Bytes.word window start width :: windowWords window (start + width) rest

theorem size_layoutOf (widths : List Nat) : (layoutOf widths).size = widths.sum := by
  induction widths with
  | nil =>
      rfl
  | cons width rest inductionHypothesis =>
      simpa [layoutOf, Layout.size, FieldCode.width] using inductionHypothesis

/-- A number in a buffer is that of the bytes from its place on. -/
theorem word_eq (bytes : Bytes) (start width : Nat) :
    Bytes.word bytes start width = Bytes.littleEndian ((bytes.toList.drop start).take width) := by
  simp [Bytes.word, Bytes.slice, List.extract_eq_take_drop]

/-- Unpacking the fields of a layout reads the numbers one behind the other. -/
theorem unpack_layoutOf (window : Bytes) (start : Nat) (widths : List Nat) :
    (layoutOf widths).unpack (window.toList.drop start) =
      (windowWords window start widths).map .nat := by
  induction widths generalizing start with
  | nil =>
      rfl
  | cons width rest inductionHypothesis =>
      have later := inductionHypothesis (start + width)
      simp only [layoutOf, Layout.unpack] at later
      simp [layoutOf, Layout.unpack, Layout.unpackFields, Layout.values, Layout.value,
        FieldCode.width, windowWords, word_eq, later]

/-- Fields that are numbers are taken as they are. -/
theorem numbers_nat (words : List Nat) : numbers (words.map .nat) = .ok words := by
  induction words with
  | nil =>
      rfl
  | cons word rest inductionHypothesis =>
      rw [List.map_cons, Datum.nat, ← Int.ofNat_eq_natCast, numbers, inductionHypothesis]
      rfl

variable {buffer : Bytes} {header : Header} {layoutText : String} {widths : List Nat}

/-- A position that is admitted lies in the chunk, counted from its start. -/
theorem absolute_eq_ok
    {relative : Int}
    {start : Nat}
    (admitted : header.absolute relative = .ok start) :
    start = header.offset + relative.toNat ∧ start ≤ header.chunkEnd ∧ 0 ≤ relative := by
  rw [Header.absolute] at admitted
  split at admitted
  · cases admitted
    omega
  · cases admitted

/-- A record of a chunk inside the buffer is unpacked from the window it takes. -/
theorem record_eq
    (inside : header.chunkEnd ≤ buffer.size)
    {layout : Layout}
    (parsed : Layout.parse layoutText = .ok layout)
    (relative : Int) :
    header.record buffer relative layoutText =
      (header.bytes buffer relative layout.size).mapError RecordError.decode >>= fun window =>
        .ok (layout.unpack window.toList) := by
  rw [Header.record, Header.bytes]
  cases starts : header.absolute relative with
  | error _ =>
      rfl
  | ok start =>
      cases stops : header.absolute (relative + layout.size) with
      | error _ =>
          simp [parsed, stops, bind, Except.bind, Except.mapError]
      | ok stop =>
          obtain ⟨atStart, _, positive⟩ := absolute_eq_ok starts
          obtain ⟨atStop, inChunk, _⟩ := absolute_eq_ok stops
          have behind : stop = start + layout.size := by
            omega
          have held : ¬ buffer.size < start + layout.size := by
            omega
          simp [parsed, stops, bind, Except.bind, Except.mapError, held, Bytes.slice, behind,
            pure, Except.pure]

/-- Reading numbers with every operation checked fails only where the bytes cannot be read. -/
theorem words_eq
    (inside : header.chunkEnd ≤ buffer.size)
    (parsed : Layout.parse layoutText = .ok (layoutOf widths))
    (relative : Nat) :
    words buffer header relative layoutText =
      declared (header.bytes buffer relative widths.sum) >>= fun window =>
        .ok (windowWords window 0 widths) := by
  rw [words, record_eq inside parsed, size_layoutOf]
  cases header.bytes buffer relative widths.sum with
  | error _ =>
      rfl
  | ok window =>
      have unpacked := unpack_layoutOf window 0 widths
      rw [List.drop_zero] at unpacked
      simp only [Except.mapError, bind, Except.bind, unpacked, numbers_nat, declared_ok]

/-- Readers agree after a record if they agree on the window that holds it. -/
theorem words_bind_congr
    {Next : Type}
    (inside : header.chunkEnd ≤ buffer.size)
    (parsed : Layout.parse layoutText = .ok (layoutOf widths))
    {relative : Nat}
    {fallible : List Nat → Except ReadFault Next}
    {next : Bytes → Except DecodeError Next}
    (same : ∀ window, fallible (windowWords window 0 widths) = declared (next window)) :
    words buffer header relative layoutText >>= fallible =
      declared (header.bytes buffer relative widths.sum >>= next) := by
  rw [words_eq inside parsed]
  cases header.bytes buffer relative widths.sum with
  | error _ =>
      rfl
  | ok window =>
      exact same window

/-- A number is read alike, if what is done with it is. -/
theorem word_bind_congr
    {Next : Type}
    (inside : header.chunkEnd ≤ buffer.size)
    {width : Nat}
    (parsed : Layout.parse layoutText = .ok (layoutOf [width]))
    {relative : Nat}
    {fallible : Nat → Except ReadFault Next}
    {next : Bytes → Except DecodeError Next}
    (same : ∀ window, fallible (Bytes.word window 0 width) = declared (next window)) :
    word buffer header relative layoutText >>= fallible =
      declared (header.bytes buffer relative width >>= next) := by
  let onlyOne (numbers : List Nat) : Except ReadFault Next :=
    match numbers with
    | [number] => fallible number
    | _ => .error .fields
  have read :
      words buffer header relative layoutText >>= onlyOne =
        declared (header.bytes buffer relative [width].sum >>= next) :=
    words_bind_congr inside parsed same
  rw [List.sum_singleton] at read
  rw [← read, word]
  cases words buffer header relative layoutText with
  | error _ =>
      rfl
  | ok numbers =>
      match numbers with
      | [] => rfl
      | [_] => rfl
      | _ :: _ :: _ => rfl

theorem u8_eq_word (bytes : Bytes) (start : Nat) :
    Bytes.u8 bytes start = Bytes.word bytes start 1 := by
  rw [Bytes.u8, word_eq, Array.getD_eq_getD_getElem?, ← Array.getElem?_toList,
    ← List.head?_drop]
  cases bytes.toList.drop start <;> simp [Bytes.littleEndian]

section Numbers

variable
  {Next : Type}
  {relative : Nat}
  {fallible : Nat → Except ReadFault Next}
  {next : Bytes → Except DecodeError Next}

/-- A number of one byte is read alike, if what is done with it is. -/
theorem u8_bind_congr
    (inside : header.chunkEnd ≤ buffer.size)
    (same : ∀ window, fallible (Bytes.u8 window 0) = declared (next window)) :
    word buffer header relative "<B" >>= fallible =
      declared (header.bytes buffer relative 1 >>= next) := by
  simp only [u8_eq_word] at same
  exact word_bind_congr inside (by rfl) same

/-- A number of two bytes is read alike, if what is done with it is. -/
theorem u16_bind_congr
    (inside : header.chunkEnd ≤ buffer.size)
    (same : ∀ window, fallible (Bytes.u16 window 0) = declared (next window)) :
    word buffer header relative "<H" >>= fallible =
      declared (header.bytes buffer relative 2 >>= next) :=
  word_bind_congr inside (by rfl) same

/-- A number of four bytes is read alike, if what is done with it is. -/
theorem u32_bind_congr
    (inside : header.chunkEnd ≤ buffer.size)
    (same : ∀ window, fallible (Bytes.u32 window 0) = declared (next window)) :
    word buffer header relative "<I" >>= fallible =
      declared (header.bytes buffer relative 4 >>= next) :=
  word_bind_congr inside (by rfl) same

end Numbers

end Records

section Headers

variable {buffer : Bytes}

/-- The header at a position, with the check that a header makes on its own as well. -/
def readHeader (buffer : Bytes) (offset : Int) : Except ReadFault Header :=
  if offset < 0 ∨ buffer.size < offset + leastHeaderSize then
    .error (.declared (.malformed (.incompleteHeader buffer.size) offset))
  else do
    match ← unpackFrom buffer offset.toNat "<HHI" with
    | [token, headerSize, chunkSize] =>
        if headerSize < leastHeaderSize then
          .error (.declared (.malformed (.headerTooSmall headerSize) offset))
        else if chunkSize < headerSize then
          .error (.declared (.malformed (.headerExceedsChunk headerSize chunkSize) offset))
        else if buffer.size < offset + chunkSize then
          .error (.declared (.malformed (.chunkPastBuffer chunkSize buffer.size) offset))
        else
          declared (Header.make offset headerSize chunkSize token)
    | _ => .error .fields

/-- A number inside a slice is the one at its place in the buffer. -/
theorem word_slice
    {start size position width : Nat}
    (inside : position + width ≤ size) :
    Bytes.word (Bytes.slice buffer start size) position width =
      Bytes.word buffer (start + position) width := by
  rw [word_eq, word_eq, Bytes.slice, Array.toList_extract, List.extract_eq_take_drop,
    Nat.add_sub_cancel_left, List.drop_take, List.take_take, List.drop_drop,
    Nat.min_eq_left (by omega)]

/-- Numbers inside a slice are those at their place in the buffer. -/
theorem windowWords_slice
    {start size position : Nat}
    {widths : List Nat}
    (inside : position + widths.sum ≤ size) :
    windowWords (Bytes.slice buffer start size) position widths =
      windowWords buffer (start + position) widths := by
  induction widths generalizing position with
  | nil =>
      rfl
  | cons width rest inductionHypothesis =>
      rw [List.sum_cons] at inside
      rw [windowWords, windowWords, word_slice (by omega),
        @inductionHypothesis (position + width) (by omega), Nat.add_assoc]

/-- Unpacking does not fail where the buffer holds the whole layout. -/
theorem unpackFrom_eq
    {layoutText : String}
    {widths : List Nat}
    (parsed : Layout.parse layoutText = .ok (layoutOf widths))
    {start : Nat}
    (held : start + widths.sum ≤ buffer.size) :
    unpackFrom buffer start layoutText = .ok (windowWords buffer start widths) := by
  have unpacked := unpack_layoutOf (Bytes.slice buffer start widths.sum) 0 widths
  rw [List.drop_zero, windowWords_slice (by omega), Nat.add_zero] at unpacked
  have enough : ¬ buffer.size < start + widths.sum := by
    omega
  simp [unpackFrom, parsed, size_layoutOf, enough, unpacked, numbers_nat, bind, Except.bind,
    Except.mapError]

/-- Reading a header with every operation checked fails only as declared. -/
theorem readHeader_eq (buffer : Bytes) (offset : Int) :
    readHeader buffer offset = declared (Chunk.readHeader buffer offset) := by
  rw [readHeader, Chunk.readHeader]
  split
  · rfl
  · rename_i complete
    have held : offset.toNat + [2, 2, 4].sum ≤ buffer.size := by
      simp only [leastHeaderSize] at complete
      simp only [List.sum_cons, List.sum_nil]
      omega
    have unpacked :
        unpackFrom buffer offset.toNat "<HHI" =
          .ok [Bytes.u16 buffer offset.toNat, Bytes.u16 buffer (offset.toNat + 2),
            Bytes.u32 buffer (offset.toNat + 4)] :=
      unpackFrom_eq (by rfl) held
    rw [unpacked]
    simp only [bind, Except.bind]
    generalize Bytes.u16 buffer offset.toNat = token
    generalize Bytes.u16 buffer (offset.toNat + 2) = headerSize
    generalize Bytes.u32 buffer (offset.toNat + 4) = chunkSize
    by_cases small : headerSize < leastHeaderSize
    · simp [small]
    · by_cases exceeds : chunkSize < headerSize
      · have unfit : ¬ headerSize ≤ chunkSize := by
          omega
        simp [small, exceeds, unfit]
      · have fit : headerSize ≤ chunkSize := by
          omega
        have atOffset : (offset.toNat : Int) = offset := by
          omega
        have pastIff :
            (buffer.size : Int) < offset + chunkSize ↔ buffer.size < offset.toNat + chunkSize := by
          omega
        by_cases past : buffer.size < offset.toNat + chunkSize
        · simp [small, exceeds, fit, pastIff, past]
        · have made : 0 ≤ offset ∧ (0 : Int) ≤ headerSize ∧ (headerSize : Int) ≤ chunkSize := by
            omega
          simp [small, exceeds, fit, pastIff, past, Header.make, made]

end Headers

section Walks

variable {State : Type} {buffer : Bytes}

/-- Takes a step for each chunk from a position up to a limit, right after its header is
read. -/
def foldChunks
    (buffer : Bytes)
    (step : State → Header → Except ReadFault State)
    (state : State)
    (offset limit : Int) :
    Except ReadFault State :=
  if offset < limit then
    match _read : readHeader buffer offset with
    | .error fault => .error fault
    | .ok header =>
        if limit < header.chunkEnd then
          .error (.declared (.malformed (.chunkPastParent limit) offset))
        else do
          let next ← step state header
          foldChunks buffer step next header.chunkEnd limit
  else
    .ok state
termination_by (buffer.size - offset).toNat
decreasing_by
  rw [readHeader_eq] at _read
  have sound := readHeader_sound (eq_ok_of_declared _read)
  have covered := header.headerSize_le
  simp only [leastHeaderSize, Header.chunkEnd] at *
  omega

/-- A fold over chunks starts with the first header, or ends with its error. -/
theorem foldChunks_of_lt
    (step : State → Header → Except ReadFault State)
    (state : State)
    {offset limit : Int}
    (starts : offset < limit) :
    foldChunks buffer step state offset limit =
      match Chunk.readHeader buffer offset with
      | .error error => .error (.declared error)
      | .ok header =>
          if limit < header.chunkEnd then
            .error (.declared (.malformed (.chunkPastParent limit) offset))
          else
            step state header >>= fun next =>
              foldChunks buffer step next header.chunkEnd limit := by
  have same := readHeader_eq buffer offset
  rw [foldChunks, if_pos starts]
  cases read : Chunk.readHeader buffer offset with
  | error _ =>
      rw [read] at same
      split <;> rename_i found <;> rw [same] at found <;> cases found
      rfl
  | ok _ =>
      rw [read] at same
      split <;> rename_i found <;> rw [same] at found <;> cases found
      rfl

/-- What a run ends with: its state, or the error that stopped it. -/
def outcome : State × Option DecodeError → Except DecodeError State
  | (state, none) => .ok state
  | (_, some error) => .error error

/-- A run whose error lies in the buffer fails within it. -/
theorem failsWithin_outcome
    {size : Nat}
    {ran : State × Option DecodeError}
    (within : ∀ error ∈ ran.2, error.Within size) :
    FailsWithin size (outcome ran) := by
  rcases ran with ⟨state, _ | error⟩
  · exact failsWithin_ok _
  · exact failsWithin_error (within error rfl)

/-- A walk runs over its first header and then over the others. -/
theorem run_cons
    (step : State → Header → Except DecodeError State)
    (state : State)
    (header : Header)
    (rest : Walk) :
    outcome (Walk.run ⟨header :: rest.headers, rest.stop⟩ step state) =
      step state header >>= fun next => outcome (rest.run step next) := by
  simp only [Walk.run, Walk.steps]
  cases step state header <;> rfl

/-- A run without an error takes a step for each header of a walk that was not stopped. -/
theorem steps_of_outcome_run
    {walked : Walk}
    {step : State → Header → Except DecodeError State}
    {initial final : State}
    (ran : outcome (walked.run step initial) = .ok final) :
    Walk.steps step initial walked.headers = (final, none) ∧ walked.stop = none := by
  rw [Walk.run] at ran
  split at ran
  · cases ran
  · rename_i state stepped
    cases stopped : walked.stop with
    | some error =>
        rw [stopped] at ran
        cases ran
    | none =>
        rw [stopped] at ran
        cases ran
        exact ⟨stepped, rfl⟩

/-- Reading a chunk and taking its step by turns comes to the same as walking the chunks
first, if the steps agree on chunks inside the buffer. -/
theorem foldChunks_eq
    {fallible : State → Header → Except ReadFault State}
    {step : State → Header → Except DecodeError State}
    (same : ∀ header, header.chunkEnd ≤ buffer.size →
      ∀ state, fallible state header = declared (step state header))
    {offset limit : Int}
    (state : State) :
    foldChunks buffer fallible state offset limit =
      declared (outcome ((walk buffer offset limit).run step state)) := by
  fun_induction walk buffer offset limit generalizing state with
  | case1 offset starts error read =>
      rw [foldChunks_of_lt _ _ starts, read]
      rfl
  | case2 offset starts header read overruns =>
      rw [foldChunks_of_lt _ _ starts, read]
      simp only [if_pos overruns]
      rfl
  | case3 offset starts header read fits rest inductionHypothesis =>
      rw [foldChunks_of_lt _ _ starts, read, run_cons]
      simp only [if_neg fits]
      rw [same header (readHeader_sound read).2.2]
      exact declared_bind_congr fun next _ => inductionHypothesis next
  | case4 offset done =>
      rw [foldChunks, if_neg done]
      rfl

end Walks

section Strings

variable {buffer : Bytes} {header : Header}

def shortLength (buffer : Bytes) (header : Header) (position : Nat) :
    Except ReadFault (Nat × Nat) := do
  let first ← word buffer header position "<B"
  if first < 0x80 then
    return (first, position + 1)
  let second ← word buffer header (position + 1) "<B"
  return ((first - 0x80) * 0x100 + second, position + 2)

def utf8String (buffer : Bytes) (header : Header) (position : Nat) :
    Except ReadFault String := do
  let (_, afterUnits) ← shortLength buffer header position
  let (length, start) ← shortLength buffer header afterUnits
  return Text.Utf8.decodeLossy (← declared (header.bytes buffer start length)).toList

def utf16String (buffer : Bytes) (header : Header) (position : Nat) :
    Except ReadFault String := do
  let first ← word buffer header position "<H"
  if first < 0x8000 then
    let units ← declared (header.bytes buffer (position + 2) (first * 2))
    return Text.Utf16.decodeLossy units.toList
  let second ← word buffer header (position + 2) "<H"
  let length := (first - 0x8000) * 0x10000 + second
  return Text.Utf16.decodeLossy
    (← declared (header.bytes buffer (position + 4) (length * 2))).toList

def stringAt
    (buffer : Bytes)
    (header : Header)
    (isUtf8 : Bool)
    (stringsStart index : Nat) :
    Except ReadFault String := do
  let position ← word buffer header (header.headerSize + index * 4) "<I"
  if isUtf8 then
    utf8String buffer header (stringsStart + position)
  else
    utf16String buffer header (stringsStart + position)

def stringsFrom
    (buffer : Bytes)
    (header : Header)
    (isUtf8 : Bool)
    (stringsStart index : Nat) :
    Nat → Except ReadFault (List String)
  | 0 => .ok []
  | count + 1 => do
      let first ← stringAt buffer header isUtf8 stringsStart index
      let rest ← stringsFrom buffer header isUtf8 stringsStart (index + 1) count
      return first :: rest

def pool (buffer : Bytes) (header : Header) : Except ReadFault StringPool := do
  if header.token ≠ Token.stringPool then
    throw (.declared (.malformed (.notStringPool header.token) header.offset))
  if header.headerSize < StringPool.leastHeaderSize then
    throw (.declared (.malformed (.stringPoolHeaderTooSmall header.headerSize) header.offset))
  match ← words buffer header 8 "<IIIII" with
  | [stringCount, styleCount, flags, stringsStart, _] =>
      let isUtf8 := flags.testBit StringPool.utf8Bit
      let strings ← stringsFrom buffer header isUtf8 stringsStart 0 stringCount
      return ⟨strings.toArray, styleCount, isUtf8⟩
  | _ => throw .fields

/-- The length of a string of bytes is read alike. -/
theorem shortLength_eq
    (inside : header.chunkEnd ≤ buffer.size)
    (position : Nat) :
    shortLength buffer header position =
      declared (StringPool.shortLength buffer header position) := by
  apply u8_bind_congr inside
  intro window
  dsimp only
  split
  · rfl
  · apply u8_bind_congr inside
    intro _
    rfl

/-- A string of bytes is read alike, with its two lengths. -/
theorem utf8String_eq
    (inside : header.chunkEnd ≤ buffer.size)
    (position : Nat) :
    utf8String buffer header position =
      declared (StringPool.utf8String buffer header position) := by
  rw [utf8String, StringPool.utf8String, shortLength_eq inside]
  apply declared_bind_congr
  rintro ⟨_, afterUnits⟩ _
  simp only [shortLength_eq inside]
  apply declared_bind_congr
  rintro ⟨length, start⟩ _
  exact declared_map _ _

/-- A string of units is read alike, with its one length. -/
theorem utf16String_eq
    (inside : header.chunkEnd ≤ buffer.size)
    (position : Nat) :
    utf16String buffer header position =
      declared (StringPool.utf16String buffer header position) := by
  apply u16_bind_congr inside
  intro window
  dsimp only
  split
  · exact declared_map _ _
  · apply u16_bind_congr inside
    intro _
    exact declared_map _ _

/-- The string of an index is read alike in both encodings. -/
theorem stringAt_eq
    (inside : header.chunkEnd ≤ buffer.size)
    (isUtf8 : Bool)
    (stringsStart index : Nat) :
    stringAt buffer header isUtf8 stringsStart index =
      declared (StringPool.stringAt buffer header isUtf8 stringsStart index) := by
  apply u32_bind_congr inside
  intro _
  dsimp only
  split
  · exact utf8String_eq inside _
  · exact utf16String_eq inside _

/-- The strings of a pool are read alike from an index on. -/
theorem stringsFrom_eq
    (inside : header.chunkEnd ≤ buffer.size)
    (isUtf8 : Bool)
    (stringsStart index count : Nat) :
    stringsFrom buffer header isUtf8 stringsStart index count =
      declared (StringPool.stringsFrom buffer header isUtf8 stringsStart index count) := by
  induction count generalizing index with
  | zero =>
      rfl
  | succ count inductionHypothesis =>
      rw [stringsFrom, StringPool.stringsFrom, stringAt_eq inside, inductionHypothesis]
      apply declared_bind_congr
      intro _ _
      exact declared_map _ _

/-- A string pool is read alike: its operations never fail otherwise. -/
theorem pool_eq
    (inside : header.chunkEnd ≤ buffer.size) :
    pool buffer header = declared (StringPool.parse buffer header) := by
  rw [pool, StringPool.parse]
  split
  · rfl
  · dsimp only
    split
    · rfl
    · apply @words_bind_congr _ _ _ [4, 4, 4, 4, 4] _ inside (by rfl) 8
      intro fields
      apply Eq.trans
      · apply congrArg (· >>= _)
        exact stringsFrom_eq inside _ _ _ _
      · exact declared_map _ _

end Strings

end Fallible

end ApkAtlas
