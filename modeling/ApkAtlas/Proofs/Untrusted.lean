import ApkAtlas.Proofs.Logged
import ApkAtlas.Proofs.Text.Segment
import ApkAtlas.Proofs.Xml.Untrusted
import ApkAtlas.ResourceTable

namespace ApkAtlas

/-!
# Untrusted bytes

A resource table is read with every operation checked as well, down to the first piece of a
package name. Both decoders then end on any bytes with a value or with a declared error that
points into the bytes.
-/

open Chunk

namespace ResourceTable

open ApkAtlas.Fallible (failsWithin_outcome outcome)

namespace Reading

/-- The package that a chunk starts with, before its own chunks are counted. -/
def opened (header : Header) (packageId : Nat) (name : String) : ResourcePackage :=
  { packageId := packageId, name, sizeBytes := header.chunkSize }

/-- The reading after a package and the chunks inside it. -/
def withPackage (header : Header) (counted : ResourcePackage × Reading) : Reading :=
  { table := { counted.2.table with packages := counted.2.table.packages ++ [counted.1] }
    offsets := counted.2.offsets ++ [header.offset] }

/-- A package is read from its identifier, its name and the chunks in it. -/
theorem package_eq (buffer : Bytes) (reading : Reading) (header : Header) :
    reading.package buffer header = (do
      let idField ← header.bytes buffer 8 4
      let nameField ← header.bytes buffer nameOffset nameSize
      let start := opened header (Bytes.u32 idField 0) (nameOf nameField)
      let counted ← outcome ((header.children buffer).run innerStep (start, reading))
      return withPackage header counted) := by
  simp only [package, opened]
  congr
  funext idField
  congr
  funext nameField
  rcases (header.children buffer).run innerStep _ with ⟨⟨_, _⟩, _ | _⟩ <;> rfl

end Reading

/-- Decoding a table reads its header and then the chunks in it one after the other. -/
theorem decode_eq_bind (buffer : Bytes) :
    decode buffer = (do
      let header ← readHeader buffer 0
      if header.token = Token.table then
        let countField ← header.bytes buffer 8 4
        let start : Reading := ⟨{ declaredPackageCount := Bytes.u32 countField 0 }, []⟩
        let reading ←
          outcome ((header.children buffer).run (Reading.step buffer) (start.counted header))
        return reading.table
      else
        throw (.malformed (.notResourceTable header.token) 0)) := by
  rw [decode, run]
  cases readHeader buffer 0 with
  | error _ =>
      rfl
  | ok header =>
      simp only [bind, Except.bind]
      by_cases isTable : header.token = Token.table
      · simp only [if_pos isTable]
        cases header.bytes buffer 8 4 with
        | error _ =>
            rfl
        | ok countField =>
            simp only
            rcases (header.children buffer).run _ _ with ⟨_, _ | _⟩ <;> rfl
      · simp only [if_neg isTable]
        rfl

section ErrorPlace

variable {buffer : Bytes} {header : Header}

/-- Reading a package fails within the buffer. -/
theorem Reading.failsWithin_package
    (inside : header.chunkEnd ≤ buffer.size)
    (reading : Reading) :
    FailsWithin buffer.size (reading.package buffer header) := by
  rw [package_eq]
  apply FailsWithin.bind (header.failsWithin_bytes inside 8 4)
  intro idField _
  apply FailsWithin.bind (header.failsWithin_bytes inside nameOffset nameSize)
  intro nameField _
  apply FailsWithin.bind
  · apply failsWithin_outcome
    exact (Header.inside_children inside).within_run (fun _ _ _ => failsWithin_ok _) _
  · intro _ _
    exact failsWithin_ok _

/-- Each chunk of a table is taken in or fails within the buffer. -/
theorem Reading.failsWithin_step
    (inside : header.chunkEnd ≤ buffer.size)
    (reading : Reading) :
    FailsWithin buffer.size (reading.step buffer header) := by
  rw [step]
  split
  · exact (StringPool.failsWithin_parse inside).map _
  · split
    · exact Reading.failsWithin_package inside _
    · exact failsWithin_ok _

/-- A table fails to be decoded at a place in its bytes. -/
theorem failsWithin_decode (buffer : Bytes) : FailsWithin buffer.size (decode buffer) := by
  rw [decode_eq_bind]
  apply FailsWithin.bind (failsWithin_readHeader (by omega) (by omega))
  intro header read
  have inside := (readHeader_sound read).2.2
  split
  · apply FailsWithin.bind (header.failsWithin_bytes inside 8 4)
    intro countField _
    apply FailsWithin.bind
    · apply failsWithin_outcome
      exact
        (Header.inside_children inside).within_run
          (fun _ within reading => Reading.failsWithin_step within reading) _
    · intro _ _
      exact failsWithin_ok _
  · exact failsWithin_error ⟨by omega, by omega⟩

end ErrorPlace

namespace Fallible

open ApkAtlas.Fallible hiding readHeader

/-- The first piece of the text in a field of fixed size. -/
def nameOf (field : Bytes) : Except ReadFault String :=
  let text := (Text.Utf16.decodeLossy field.toList).toList
  match (Text.segments (Char.ofNat 0) text)[0]? with
  | some piece => .ok (String.ofList piece)
  | none => .error .index

def package (buffer : Bytes) (reading : Reading) (header : Header) :
    Except ReadFault Reading := do
  let packageId ← word buffer header 8 "<I"
  let name ← nameOf (← declared (header.bytes buffer nameOffset nameSize))
  let start := Reading.opened header packageId name
  let counted ←
    foldChunks buffer (fun state child => declared (Reading.innerStep state child))
      (start, reading) header.dataOffset header.chunkEnd
  return Reading.withPackage header counted

/-- Reads a chunk of the table. -/
def step (buffer : Bytes) (reading : Reading) (header : Header) :
    Except ReadFault Reading := do
  let reading := reading.counted header
  if header.token = Token.stringPool then
    let strings ← pool buffer header
    return { reading with table := { reading.table with stringCount := strings.strings.size } }
  else if header.token = Token.tablePackage then
    package buffer reading header
  else
    return reading

/-- The summary of a byte string. -/
def decode (buffer : Bytes) : Except ReadFault ResourceTable := do
  let header ← ApkAtlas.Fallible.readHeader buffer 0
  if header.token = Token.table then
    let declaredCount ← word buffer header 8 "<I"
    let start : Reading := ⟨{ declaredPackageCount := declaredCount }, []⟩
    let reading ←
      foldChunks buffer (step buffer) (start.counted header) header.dataOffset header.chunkEnd
    return reading.table
  else
    throw (.declared (.malformed (.notResourceTable header.token) 0))

variable {buffer : Bytes} {header : Header}

/-- Reading the name of a package never fails. -/
theorem nameOf_eq (field : Bytes) : nameOf field = .ok (ResourceTable.nameOf field) := by
  have first := Text.head?_segments (Char.ofNat 0) (Text.Utf16.decodeLossy field.toList).toList
  rw [List.head?_eq_getElem?] at first
  rw [nameOf, first]
  rfl

/-- A package is read alike with every operation checked. -/
theorem package_eq
    (inside : header.chunkEnd ≤ buffer.size)
    (reading : Reading) :
    package buffer reading header = declared (reading.package buffer header) := by
  rw [package, Reading.package_eq]
  apply u32_bind_congr inside
  intro idField
  apply declared_bind_congr
  intro nameField _
  rw [nameOf_eq]
  have walked (start : ResourcePackage) :
      foldChunks buffer (fun state child => declared (Reading.innerStep state child))
          (start, reading) header.dataOffset header.chunkEnd =
        declared (outcome ((header.children buffer).run Reading.innerStep (start, reading))) :=
    foldChunks_eq (fun _ _ _ => rfl) _
  simp only [walked]
  exact declared_map _ _

/-- A chunk of a table is taken in alike with every operation checked. -/
theorem step_eq
    (inside : header.chunkEnd ≤ buffer.size)
    (reading : Reading) :
    step buffer reading header = declared (reading.step buffer header) := by
  rw [step, Reading.step]
  split
  · rw [pool_eq inside]
    exact declared_map _ _
  · split
    · exact package_eq inside _
    · rfl

/-- With every operation that could fail checked, decoding a table comes to the same. -/
theorem decode_eq (buffer : Bytes) : decode buffer = declared (ResourceTable.decode buffer) := by
  rw [decode, decode_eq_bind, readHeader_eq]
  apply declared_bind_congr
  intro header read
  have inside := (readHeader_sound read).2.2
  split
  · apply u32_bind_congr inside
    intro countField
    have walked (start : Reading) :
        foldChunks buffer (step buffer) start header.dataOffset header.chunkEnd =
          declared (outcome ((header.children buffer).run (Reading.step buffer) start)) :=
      foldChunks_eq (fun _ within reading => step_eq within reading) _
    simp only [walked]
    exact declared_map _ _
  · rfl

end Fallible

end ResourceTable

section Logging

/-- Logging does not change what a document is decoded to. -/
theorem Xml.Document.decodeLogged_result (buffer : Bytes) (journal : Journal) :
    (Document.decodeLogged buffer journal).1 = Document.decode buffer := by
  apply Logged.Ends.bind_ok (Logged.ends_forM (fun _ _ => rfl) _)
  intro later
  cases decoded : Document.decode buffer <;> rfl

/-- Logging does not change what a table is decoded to. -/
theorem ResourceTable.decodeLogged_result (buffer : Bytes) (journal : Journal) :
    (ResourceTable.decodeLogged buffer journal).1 = ResourceTable.decode buffer := by
  apply Logged.Ends.bind_ok (Logged.ends_forM (fun _ _ => rfl) _)
  intro later
  cases decoded : ResourceTable.decode buffer <;> rfl

end Logging

/-- A failure of one of the two declared kinds, at a place in bytes of the given size. -/
def Failure.PointsInto (size : Nat) (failure : Failure) : Prop :=
  match failure.detail with
  | .malformedHeader offset => 0 ≤ offset ∧ offset ≤ size
  | .outOfBoundsRead offset limit => limit < offset ∧ limit ≤ size
  | _ => False

/-- An end with a value or with a declared failure, and with nothing else. -/
def DeclaredEnd {Value : Type} (size : Nat) : Except ReadFault Value → Prop
  | .ok _ => True
  | .error (.record (.decode error)) => error.toFailure.PointsInto size
  | .error _ => False

/-- What fails within a size ends as declared. -/
theorem declaredEnd_of_failsWithin
    {Value : Type}
    {size : Nat}
    {step : Except DecodeError Value}
    (within : FailsWithin size step) :
    DeclaredEnd size (declared step) := by
  cases step with
  | ok _ =>
      trivial
  | error error =>
      have place := within error rfl
      cases error <;> exact place

/-- The decoders that check every operation end on any bytes with a value or a declared
failure, and the decoders give the same, whatever they log on the way. -/
theorem untrusted_bytes_end_as_declared (buffer : Bytes) (journal : Journal) :
    (DeclaredEnd buffer.size (Xml.Fallible.decode buffer) ∧
      Xml.Fallible.decode buffer = declared (Xml.Document.decode buffer) ∧
      (Xml.Document.decodeLogged buffer journal).1 = Xml.Document.decode buffer) ∧
    (DeclaredEnd buffer.size (ResourceTable.Fallible.decode buffer) ∧
      ResourceTable.Fallible.decode buffer = declared (ResourceTable.decode buffer) ∧
      (ResourceTable.decodeLogged buffer journal).1 = ResourceTable.decode buffer) := by
  have document := Xml.Fallible.decode_eq buffer
  have table := ResourceTable.Fallible.decode_eq buffer
  refine ⟨⟨?_, document, Xml.Document.decodeLogged_result buffer journal⟩,
    ⟨?_, table, ResourceTable.decodeLogged_result buffer journal⟩⟩
  · rw [document]
    exact declaredEnd_of_failsWithin (Xml.Document.failsWithin_decode buffer)
  · rw [table]
    exact declaredEnd_of_failsWithin (ResourceTable.failsWithin_decode buffer)

end ApkAtlas
