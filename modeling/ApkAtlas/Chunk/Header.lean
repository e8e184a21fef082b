import ApkAtlas.Bytes
import ApkAtlas.Chunk.Error

namespace ApkAtlas.Chunk

/-!
# Chunk headers

A chunk starts with a token, the size of its header and its own size. A header that was
read from a buffer covers at least itself and ends inside the buffer, so every position
it admits is a position of the buffer; `readHeader_sound` states this. All reading goes
through `Header.absolute`, which admits the chunk's own positions and its end.
-/

/-- The size of the part that all headers share. -/
def leastHeaderSize : Nat := 8

/-- One chunk inside a buffer. -/
structure Header where
  /-- Where the chunk starts. -/
  offset : Nat
  headerSize : Nat
  /-- The size of the chunk with its header. -/
  chunkSize : Nat
  token : Nat
  headerSize_le : headerSize ≤ chunkSize
deriving Repr, DecidableEq

namespace Header

/-- The header with the given numbers, unless the header is larger than the chunk. -/
def make (offset headerSize chunkSize : Int) (token : Nat) : Except DecodeError Header :=
  if fits : 0 ≤ offset ∧ 0 ≤ headerSize ∧ headerSize ≤ chunkSize then
    .ok ⟨offset.toNat, headerSize.toNat, chunkSize.toNat, token, by omega⟩
  else
    .error (.malformed (.headerExceedsChunk headerSize chunkSize) offset)

/-- Where the payload starts. -/
def dataOffset (header : Header) : Nat :=
  header.offset + header.headerSize

/-- Where the chunk ends, which is where a sibling would start. -/
def chunkEnd (header : Header) : Nat :=
  header.offset + header.chunkSize

/-- The size of the payload. -/
def payloadSize (header : Header) : Nat :=
  header.chunkSize - header.headerSize

/-- The buffer position of a position relative to the chunk. The end of the chunk is a
position too, so that reading nothing there succeeds. -/
def absolute (header : Header) (relative : Int) : Except DecodeError Nat :=
  if 0 ≤ relative ∧ header.offset + relative ≤ header.chunkEnd then
    .ok (header.offset + relative.toNat)
  else
    .error (.outOfBounds header.token relative (header.offset + relative) header.chunkEnd)

/-- The `length` bytes at a position relative to the chunk, as far as the buffer goes. -/
def bytes
    (header : Header)
    (buffer : Bytes)
    (relative length : Int) :
    Except DecodeError Bytes := do
  let start ← header.absolute relative
  let stop ← header.absolute (relative + length)
  return buffer.extract start stop

/-- The header in one line. -/
def summary (header : Header) : String :=
  "(Token:" ++ Text.upperHex header.token ++
    s!"; Start: {header.offset}; Data: {header.dataOffset}; End {header.chunkEnd})"

end Header

/-- The header of the chunk at a position of the buffer. -/
def readHeader (buffer : Bytes) (offset : Int) : Except DecodeError Header :=
  if offset < 0 ∨ buffer.size < offset + leastHeaderSize then
    .error (.malformed (.incompleteHeader buffer.size) offset)
  else
    let start := offset.toNat
    let token := Bytes.u16 buffer start
    let headerSize := Bytes.u16 buffer (start + 2)
    let chunkSize := Bytes.u32 buffer (start + 4)
    if headerSize < leastHeaderSize then
      .error (.malformed (.headerTooSmall headerSize) offset)
    else if fits : headerSize ≤ chunkSize then
      if buffer.size < start + chunkSize then
        .error (.malformed (.chunkPastBuffer chunkSize buffer.size) offset)
      else
        .ok ⟨start, headerSize, chunkSize, token, fits⟩
    else
      .error (.malformed (.headerExceedsChunk headerSize chunkSize) offset)

/-- A header that was read starts where it was asked for, covers at least itself and ends
inside the buffer. -/
theorem readHeader_sound
    {buffer : Bytes}
    {offset : Int}
    {header : Header}
    (read : readHeader buffer offset = .ok header) :
    (header.offset : Int) = offset ∧
      leastHeaderSize ≤ header.headerSize ∧
      header.chunkEnd ≤ buffer.size := by
  unfold readHeader at read
  split at read
  · simp at read
  · simp only at read
    split at read
    · simp at read
    · split at read
      · split at read
        · simp at read
        · simp only [Except.ok.injEq] at read
          subst read
          simp only [Header.chunkEnd]
          omega
      · simp at read

/-!
## Walking sibling chunks

Chunks lie back to back. A walk reads one header after the other until it reaches the end
of its range, and stops early at a defective header or at a chunk that is not inside the
range. It always ends, because each chunk is at least as large as its header.
-/

/-- The headers of a walk in order, and the error that stopped it early. -/
structure Walk where
  headers : List Header
  stop : Option DecodeError
deriving Repr, DecidableEq

/-- The chunks from `offset` up to `limit`. -/
def walk (buffer : Bytes) (offset limit : Int) : Walk :=
  if offset < limit then
    match _read : readHeader buffer offset with
    | .error error => ⟨[], some error⟩
    | .ok header =>
        if limit < header.chunkEnd then
          ⟨[], some (.malformed (.chunkPastParent limit) offset)⟩
        else
          let rest := walk buffer header.chunkEnd limit
          ⟨header :: rest.headers, rest.stop⟩
  else
    ⟨[], none⟩
termination_by (buffer.size - offset).toNat
decreasing_by
  have sound := readHeader_sound _read
  have covered := header.headerSize_le
  simp only [leastHeaderSize, Header.chunkEnd] at *
  omega

namespace Header

/-- The chunks inside the payload of a chunk. -/
def children (header : Header) (buffer : Bytes) : Walk :=
  walk buffer header.dataOffset header.chunkEnd

end Header

namespace Walk

/-- Takes one step after the other and stops at the first error, with the state reached
until then. -/
def steps
    {State Item : Type}
    (step : State → Item → Except DecodeError State)
    (state : State) :
    List Item → State × Option DecodeError
  | [] => (state, none)
  | item :: rest =>
      match step state item with
      | .error error => (state, some error)
      | .ok next => steps step next rest

/-- Takes a step for each header of the walk: the error of a step comes before the error
that stopped the walk, because the walk only reads on after the step. -/
def run
    {State : Type}
    (walk : Walk)
    (step : State → Header → Except DecodeError State)
    (initial : State) :
    State × Option DecodeError :=
  match steps step initial walk.headers with
  | (state, some error) => (state, some error)
  | (state, none) => (state, walk.stop)

end Walk

end ApkAtlas.Chunk
