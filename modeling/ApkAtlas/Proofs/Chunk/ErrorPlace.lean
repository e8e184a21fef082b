import ApkAtlas.Chunk.StringPool

namespace ApkAtlas.Chunk

/-!
# Where errors point

A defect is at a position of the file or at its end. A read out of bounds names a position
behind the end of its chunk, and the chunk lies inside the file. Every step of a decoder
keeps this, because it only reads through headers of chunks inside the file and at
positions that are not negative.
-/

/-- Where an error in a file of the given size can be. -/
def DecodeError.Within (size : Nat) : DecodeError → Prop
  | .malformed _ offset => 0 ≤ offset ∧ offset ≤ size
  | .outOfBounds _ _ offset limit => limit < offset ∧ limit ≤ size

/-- A step that fails only within a file of the given size. -/
def FailsWithin {Value : Type} (size : Nat) (step : Except DecodeError Value) : Prop :=
  ∀ error, step = .error error → error.Within size

section Steps

variable {Value Next : Type} {size : Nat}

theorem failsWithin_ok (value : Value) : FailsWithin size (.ok value) := by
  intro error failed
  cases failed

theorem failsWithin_error
    {error : DecodeError}
    (within : error.Within size) :
    FailsWithin size (.error error : Except DecodeError Value) := by
  intro other failed
  cases failed
  exact within

/-- A sequence fails within a size if its steps do. -/
theorem FailsWithin.bind
    {first : Except DecodeError Value}
    {next : Value → Except DecodeError Next}
    (early : FailsWithin size first)
    (late : ∀ value, first = .ok value → FailsWithin size (next value)) :
    FailsWithin size (first >>= next) := by
  cases first with
  | ok value =>
      exact late value rfl
  | error error =>
      exact failsWithin_error (early error rfl)

/-- What is made of a value afterwards does not fail. -/
theorem FailsWithin.map
    {first : Except DecodeError Value}
    (early : FailsWithin size first)
    (result : Value → Next) :
    FailsWithin size (first >>= fun value => pure (result value)) :=
  early.bind fun value _ => failsWithin_ok (result value)

end Steps

section Headers

variable {buffer : Bytes} {size : Nat} {header : Header}

/-- A position that a chunk does not have is refused within it. -/
theorem Header.failsWithin_absolute
    (inside : header.chunkEnd ≤ size)
    (relative : Nat) :
    FailsWithin size (header.absolute relative) := by
  rw [Header.absolute]
  split
  · exact failsWithin_ok _
  · apply failsWithin_error
    constructor <;> omega

/-- Bytes that a chunk does not have are refused within it. -/
theorem Header.failsWithin_bytes
    (inside : header.chunkEnd ≤ size)
    (relative length : Nat) :
    FailsWithin size (header.bytes buffer relative length) := by
  apply FailsWithin.bind (header.failsWithin_absolute inside relative)
  intro _ _
  exact (header.failsWithin_absolute inside (relative + length)).map _

/-- The header of a chunk is a place in the file. -/
theorem Header.failsWithin_malformed
    {Value : Type}
    (inside : header.chunkEnd ≤ size)
    (defect : Defect) :
    FailsWithin size (.error (.malformed defect header.offset) : Except DecodeError Value) := by
  apply failsWithin_error
  simp only [Header.chunkEnd] at inside
  exact ⟨by omega, by omega⟩

/-- Reading a header inside a buffer fails within it. -/
theorem failsWithin_readHeader
    {offset : Int}
    (lower : 0 ≤ offset)
    (upper : offset ≤ buffer.size) :
    FailsWithin buffer.size (readHeader buffer offset) := by
  have defect (found : Defect) :
      FailsWithin buffer.size (.error (.malformed found offset) : Except DecodeError Header) :=
    failsWithin_error ⟨lower, upper⟩
  rw [readHeader]
  split
  · exact defect _
  · simp only
    split
    · exact defect _
    · split
      · split
        · exact defect _
        · exact failsWithin_ok _
      · exact defect _

/-- The chunks of a walk are inside the file, and so is the error that stops it. -/
structure Walk.Inside (walked : Walk) (size : Nat) : Prop where
  headers : ∀ header ∈ walked.headers, header.chunkEnd ≤ size
  stop : ∀ error ∈ walked.stop, error.Within size

/-- All chunks of a walk over a buffer are inside, and so is what stops it. -/
theorem inside_walk
    {offset limit : Int}
    (lower : 0 ≤ offset)
    (upper : limit ≤ buffer.size) :
    (walk buffer offset limit).Inside buffer.size := by
  fun_induction walk buffer offset limit with
  | case1 offset starts error read =>
      refine ⟨by simp, ?_⟩
      intro found stopped
      cases stopped
      exact failsWithin_readHeader lower (by omega) error read
  | case2 offset starts header read overruns =>
      refine ⟨by simp, ?_⟩
      intro found stopped
      cases stopped
      exact ⟨lower, by omega⟩
  | case3 offset starts header read fits rest inductionHypothesis =>
      have later := inductionHypothesis (by omega)
      refine ⟨?_, later.stop⟩
      intro other member
      rcases List.mem_cons.mp member with rfl | inRest
      · omega
      · exact later.headers other inRest
  | case4 offset done =>
      exact ⟨by simp, by simp⟩

/-- All chunks in a chunk are inside of the buffer, if it is. -/
theorem Header.inside_children
    (inside : header.chunkEnd ≤ buffer.size) :
    (header.children buffer).Inside buffer.size :=
  inside_walk (by omega) (by omega)

end Headers

section Runs

variable {State : Type} {size : Nat}

/-- A walk fails within a size if each of its steps does. -/
theorem Walk.within_steps
    {Item : Type}
    {step : State → Item → Except DecodeError State}
    {items : List Item}
    (within : ∀ item ∈ items, ∀ state, FailsWithin size (step state item))
    (state : State) :
    ∀ error ∈ (Walk.steps step state items).2, error.Within size := by
  induction items generalizing state with
  | nil =>
      simp [Walk.steps]
  | cons item rest inductionHypothesis =>
      intro error stopped
      rw [Walk.steps] at stopped
      cases stepped : step state item with
      | error found =>
          rw [stepped] at stopped
          cases stopped
          exact within item List.mem_cons_self state _ stepped
      | ok next =>
          rw [stepped] at stopped
          exact
            inductionHypothesis (fun other member => within other (List.mem_cons_of_mem _ member))
              next error stopped

/-- A run over chunks inside the file fails within the file if each step does. -/
theorem Walk.Inside.within_run
    {walked : Walk}
    (inside : walked.Inside size)
    {step : State → Header → Except DecodeError State}
    (within : ∀ header, header.chunkEnd ≤ size → ∀ state, FailsWithin size (step state header))
    (initial : State) :
    ∀ error ∈ (walked.run step initial).2, error.Within size := by
  have steps :=
    Walk.within_steps (fun header member => within header (inside.headers header member)) initial
  intro error stopped
  rw [Walk.run] at stopped
  cases ran : Walk.steps step initial walked.headers with
  | mk state failed =>
      rw [ran] at stopped steps
      cases failed with
      | none =>
          exact inside.stop error stopped
      | some found =>
          exact steps error stopped

end Runs

end ApkAtlas.Chunk

namespace ApkAtlas.StringPool

open Chunk

variable {buffer : Bytes} {header : Header} {size : Nat}

/-- Reading a length of bytes fails within the buffer. -/
theorem failsWithin_shortLength
    (inside : header.chunkEnd ≤ size)
    (position : Nat) :
    FailsWithin size (shortLength buffer header position) := by
  apply FailsWithin.bind (header.failsWithin_bytes inside position 1)
  intro window _
  dsimp only
  split
  · exact failsWithin_ok _
  · exact (header.failsWithin_bytes inside (position + 1) 1).map _

/-- Reading a string of bytes fails within the buffer. -/
theorem failsWithin_utf8String
    (inside : header.chunkEnd ≤ size)
    (position : Nat) :
    FailsWithin size (utf8String buffer header position) := by
  apply FailsWithin.bind (failsWithin_shortLength inside position)
  rintro ⟨_, afterUnits⟩ _
  apply FailsWithin.bind (failsWithin_shortLength inside afterUnits)
  rintro ⟨length, start⟩ _
  exact (header.failsWithin_bytes inside start length).map _

/-- Reading a string of units fails within the buffer. -/
theorem failsWithin_utf16String
    (inside : header.chunkEnd ≤ size)
    (position : Nat) :
    FailsWithin size (utf16String buffer header position) := by
  apply FailsWithin.bind (header.failsWithin_bytes inside position 2)
  intro window _
  dsimp only
  split
  · exact (header.failsWithin_bytes inside (position + 2) (Bytes.u16 window 0 * 2)).map _
  · apply FailsWithin.bind (header.failsWithin_bytes inside (position + 2) 2)
    intro second _
    exact (header.failsWithin_bytes inside (position + 4) _).map _

/-- Reading the strings of a pool fails within the buffer. -/
theorem failsWithin_stringsFrom
    (inside : header.chunkEnd ≤ size)
    (isUtf8 : Bool)
    (stringsStart index count : Nat) :
    FailsWithin size (stringsFrom buffer header isUtf8 stringsStart index count) := by
  induction count generalizing index with
  | zero =>
      exact failsWithin_ok _
  | succ count inductionHypothesis =>
      apply FailsWithin.bind
      · apply FailsWithin.bind (header.failsWithin_bytes inside (header.headerSize + index * 4) 4)
        intro window _
        split
        · exact failsWithin_utf8String inside _
        · exact failsWithin_utf16String inside _
      · intro _ _
        exact (inductionHypothesis (index + 1)).map _

/-- Reading a string pool fails within the buffer. -/
theorem failsWithin_parse
    (inside : header.chunkEnd ≤ size) :
    FailsWithin size (parse buffer header) := by
  rw [parse]
  split
  · exact header.failsWithin_malformed inside _
  · dsimp only
    split
    · exact header.failsWithin_malformed inside _
    · apply FailsWithin.bind (header.failsWithin_bytes inside 8 20)
      intro fields _
      exact (failsWithin_stringsFrom inside _ _ _ _).map _

end ApkAtlas.StringPool
