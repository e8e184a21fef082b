import ApkAtlas.Proofs.Chunk.Composition
import ApkAtlas.Proofs.Chunk.Moved

namespace ApkAtlas

/-!
# Files with the same front

Readers of a chunk see nothing behind its end, so they give the same in two files that are
the same up to there. A walk checks a header against the whole file before it checks it
against its range: what is wrong with the header that stops it may differ between the files,
but not where that header is.
-/

open Chunk

/-- Byte strings that are the same up to a position that both reach. -/
structure Bytes.SameFront (bound : Nat) (first second : Bytes) : Prop where
  reachesFirst : bound ≤ first.size
  reachesSecond : bound ≤ second.size
  same : first.extract 0 bound = second.extract 0 bound

namespace Bytes.SameFront

variable {bound : Nat} {first second : Bytes}

theorem symm (front : SameFront bound first second) : SameFront bound second first :=
  ⟨front.reachesSecond, front.reachesFirst, front.same.symm⟩

/-- A buffer shares its front with a piece of it. -/
theorem of_extract
    {buffer : Bytes}
    (reaches : bound ≤ buffer.size) :
    SameFront bound buffer (buffer.extract 0 bound) where
  reachesFirst := reaches
  reachesSecond := by
    rw [Array.size_extract]
    omega
  same := by
    rw [Array.extract_extract, Nat.zero_add, Nat.zero_add, Nat.min_self]

/-- A document shares its front with itself and further bytes. -/
theorem of_append
    {document : Bytes}
    (reaches : bound ≤ document.size)
    (rest : Bytes) :
    SameFront bound (document ++ rest) document where
  reachesFirst := by
    rw [Array.size_append]
    omega
  reachesSecond := reaches
  same := by
    rw [Array.extract_append, Nat.zero_sub, Nat.sub_eq_zero_of_le reaches, Array.extract_zero,
      Array.append_empty]

/-- A part in front of the bound is the same in both. -/
theorem extract_eq
    (front : SameFront bound first second)
    {start stop : Nat}
    (inside : stop ≤ bound) :
    first.extract start stop = second.extract start stop := by
  have cut (buffer : Bytes) :
      (buffer.extract 0 bound).extract start stop = buffer.extract start stop := by
    rw [Array.extract_extract, Nat.zero_add, Nat.zero_add, Nat.min_eq_left inside]
  rw [← cut first, front.same, cut second]

/-- Numbers in the shared front are the same. -/
theorem word_eq
    (front : SameFront bound first second)
    {start width : Nat}
    (inside : start + width ≤ bound) :
    Bytes.word first start width = Bytes.word second start width := by
  rw [Bytes.word, Bytes.word, Bytes.slice, Bytes.slice, front.extract_eq inside]

end Bytes.SameFront

namespace Chunk

/-- Outcomes with the same value, or with failures of one kind at one place. -/
inductive Alike {Value : Type} : Except DecodeError Value → Except DecodeError Value → Prop where
  | value (value : Value) : Alike (.ok value) (.ok value)
  | failure {first second : DecodeError}
      (place : first.toFailure.detail = second.toFailure.detail) :
      Alike (.error first) (.error second)

section Outcomes

variable {Value Next : Type}

theorem Alike.refl (outcome : Except DecodeError Value) : Alike outcome outcome := by
  cases outcome with
  | ok value =>
      exact .value value
  | error _ =>
      exact .failure rfl

/-- Sequences are alike if their steps are. -/
theorem Alike.bind
    {first second : Except DecodeError Value}
    {next later : Value → Except DecodeError Next}
    (alike : Alike first second)
    (onward : ∀ value, Alike (next value) (later value)) :
    Alike (first >>= next) (second >>= later) := by
  cases alike with
  | value value =>
      exact onward value
  | failure place =>
      exact .failure place

end Outcomes

section Headers

variable {bound : Nat} {first second buffer : Bytes} {offset limit : Int}

/-- Only chunks with a defect at the very position have no header there. -/
theorem exists_defect_of_readHeader
    {error : DecodeError}
    (failed : readHeader buffer offset = .error error) :
    ∃ defect, error = .malformed defect offset := by
  rw [readHeader] at failed
  split at failed
  · exact ⟨_, (Except.error.inj failed).symm⟩
  · dsimp only at failed
    split at failed
    · exact ⟨_, (Except.error.inj failed).symm⟩
    · split at failed
      · split at failed
        · exact ⟨_, (Except.error.inj failed).symm⟩
        · cases failed
      · exact ⟨_, (Except.error.inj failed).symm⟩

/-- A header whose chunk ends in front of the bound is read in the other file too. -/
theorem readHeader_of_sameFront
    (front : Bytes.SameFront bound first second)
    {header : Header}
    (read : readHeader first offset = .ok header)
    (inside : header.chunkEnd ≤ bound) :
    readHeader second offset = .ok header := by
  obtain ⟨atOffset, covers, _⟩ := readHeader_sound read
  have covered := header.headerSize_le
  simp only [leastHeaderSize, Header.chunkEnd] at covers inside
  have reachesFirst := front.reachesFirst
  have reachesSecond := front.reachesSecond
  have token : Bytes.u16 first offset.toNat = Bytes.u16 second offset.toNat :=
    front.word_eq (by omega)
  have headerSize : Bytes.u16 first (offset.toNat + 2) = Bytes.u16 second (offset.toNat + 2) :=
    front.word_eq (by omega)
  have chunkSize : Bytes.u32 first (offset.toNat + 4) = Bytes.u32 second (offset.toNat + 4) :=
    front.word_eq (by omega)
  have complete (buffer : Bytes) (reaches : bound ≤ buffer.size) :
      ¬ (offset < 0 ∨ (buffer.size : Int) < offset + leastHeaderSize) := by
    simp only [leastHeaderSize]
    omega
  rw [readHeader, if_neg (complete first reachesFirst)] at read
  rw [readHeader, if_neg (complete second reachesSecond)]
  dsimp only at read ⊢
  rw [token, headerSize, chunkSize] at read
  split at read
  · cases read
  · rename_i large
    split at read
    · rename_i fits
      split at read
      · cases read
      · cases read
        dsimp only at inside
        rw [if_neg large, dif_pos fits, if_neg (by omega)]
    · cases read

/-- A walk stops where no header is read whose chunk ends inside the range. -/
theorem walk_of_no_header
    (starts : offset < limit)
    (outside : ∀ header, readHeader buffer offset = .ok header → limit < header.chunkEnd) :
    ∃ defect, walk buffer offset limit = ⟨[], some (.malformed defect offset)⟩ := by
  rw [walk, if_pos starts]
  split
  · rename_i failed
    obtain ⟨defect, rfl⟩ := exists_defect_of_readHeader failed
    exact ⟨defect, rfl⟩
  · rename_i header read
    rw [if_pos (outside header read)]
    exact ⟨_, rfl⟩

open Fallible (outcome run_cons)

/-- Runs over the chunks of the same range end alike if the steps do. -/
theorem alike_run
    {State : Type}
    {step other : State → Header → Except DecodeError State}
    (front : Bytes.SameFront bound first second)
    (inside : limit ≤ bound)
    (steps : ∀ header, header.chunkEnd ≤ bound →
      ∀ state, Alike (step state header) (other state header))
    (state : State) :
    Alike (outcome ((walk first offset limit).run step state))
      (outcome ((walk second offset limit).run other state)) := by
  -- By induction on the walk over the first file. Where it stops, the second one has no header
  -- inside the range either, since such a header would be read in the first file too.
  fun_induction walk first offset limit generalizing state with
  | case1 offset starts error read =>
      obtain ⟨defect, rfl⟩ := exists_defect_of_readHeader read
      have outside :
          ∀ header, readHeader second offset = .ok header → limit < header.chunkEnd := by
        intro header found
        by_contra within
        rw [readHeader_of_sameFront front.symm found (by omega)] at read
        cases read
      obtain ⟨found, stopped⟩ := walk_of_no_header starts outside
      rw [stopped]
      exact .failure rfl
  | case2 offset starts header read overruns =>
      have outside :
          ∀ header, readHeader second offset = .ok header → limit < header.chunkEnd := by
        intro found readFound
        by_contra within
        rw [readHeader_of_sameFront front.symm readFound (by omega)] at read
        cases read
        omega
      obtain ⟨found, stopped⟩ := walk_of_no_header starts outside
      rw [stopped]
      exact .failure rfl
  | case3 offset starts header read fits rest inductionHypothesis =>
      have within : header.chunkEnd ≤ bound := by
        omega
      have readSecond := readHeader_of_sameFront front read within
      rw [walk_of_ok starts readSecond (by omega), run_cons, run_cons]
      exact (steps header within state).bind inductionHypothesis
  | case4 offset done =>
      rw [walk, if_neg done]
      exact .value state

/-- A chunk in front of the bound is the same in both files. -/
theorem Header.moved_of_sameFront
    (front : Bytes.SameFront bound first second)
    {header : Header}
    (inside : header.chunkEnd ≤ bound) :
    header.Moved 0 first second header where
  offset := (Int.add_zero _).symm
  token := rfl
  headerSize := rfl
  chunkSize := rfl
  window := (front.extract_eq inside).symm

/-- The bytes of a chunk in the shared front are the same. -/
theorem Header.bytes_of_sameFront
    (front : Bytes.SameFront bound first second)
    {header : Header}
    (inside : header.chunkEnd ≤ bound)
    (relative length : Int) :
    header.bytes first relative length = header.bytes second relative length := by
  rw [(Header.moved_of_sameFront front inside).bytes_eq, mapError_moved_zero]

end Headers

end Chunk

end ApkAtlas
