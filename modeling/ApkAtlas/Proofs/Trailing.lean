import ApkAtlas.Proofs.Chunk.SharedFront
import ApkAtlas.Proofs.Untrusted
import ApkAtlas.Proofs.Chunk.Moved

namespace ApkAtlas

/-!
# Bytes behind a document

The outermost chunk says where a document ends. What follows it in the file changes neither
what the document is decoded into nor, if it is not decoded, the kind of the failure and its
place.
-/

open Chunk
open ApkAtlas.Fallible (outcome)

namespace Xml

/-- Documents with the same outermost chunk are decoded alike. -/
theorem Document.alike_decode
    {bound : Nat}
    {first second : Bytes}
    (front : Bytes.SameFront bound first second)
    {header : Header}
    (read : readHeader first 0 = .ok header)
    (inside : header.chunkEnd ≤ bound) :
    Alike (Document.decode first) (Document.decode second) := by
  rw [Document.decode_eq_bind, Document.decode_eq_bind, read,
    readHeader_of_sameFront front read inside]
  simp only [bind, Except.bind]
  split
  · apply Alike.bind
    · apply alike_run front (by omega)
      intro child within assembly
      rw [Assembly.advance, Assembly.advance,
        Part.read_moved (Header.moved_of_sameFront front within), mapError_moved_zero]
      exact Alike.refl _
    · intro assembly
      exact Alike.refl _
  · exact Alike.refl _

end Xml

namespace ResourceTable

section Steps

variable
  {bound : Nat}
  {first second : Bytes}
  {header : Header}

theorem Reading.alike_package
    (front : Bytes.SameFront bound first second)
    (inside : header.chunkEnd ≤ bound)
    (reading : Reading) :
    Alike (reading.package first header) (reading.package second header) := by
  have same := Header.bytes_of_sameFront front inside
  rw [Reading.package_eq, Reading.package_eq, same, same]
  apply (Alike.refl _).bind
  intro idField
  apply (Alike.refl _).bind
  intro nameField
  apply Alike.bind
  · apply alike_run front (by omega)
    intro child within state
    exact Alike.refl _
  · intro counted
    exact Alike.refl _

theorem Reading.alike_step
    (front : Bytes.SameFront bound first second)
    (inside : header.chunkEnd ≤ bound)
    (reading : Reading) :
    Alike (reading.step first header) (reading.step second header) := by
  rw [Reading.step, Reading.step,
    StringPool.parse_moved (Header.moved_of_sameFront front inside), mapError_moved_zero]
  split
  · exact Alike.refl _
  · split
    · exact Reading.alike_package front inside _
    · exact Alike.refl _

/-- Tables with the same outermost chunk are decoded alike. -/
theorem alike_decode
    (front : Bytes.SameFront bound first second)
    (read : readHeader first 0 = .ok header)
    (inside : header.chunkEnd ≤ bound) :
    Alike (decode first) (decode second) := by
  rw [decode_eq_bind, decode_eq_bind, read, readHeader_of_sameFront front read inside]
  simp only [bind, Except.bind]
  split
  · rw [Header.bytes_of_sameFront front inside]
    apply (Alike.refl _).bind
    intro countField
    apply Alike.bind
    · apply alike_run front (by omega)
      intro child within reading
      exact Reading.alike_step front within reading
    · intro reading
      exact Alike.refl _
  · exact Alike.refl _

end Steps

end ResourceTable

/-- A file is decoded like its outermost chunk alone, and that chunk like itself with
anything behind it. -/
theorem decoding_ends_with_document
    {buffer : Bytes}
    {header : Header}
    (read : readHeader buffer 0 = .ok header) :
    (Alike (Xml.Document.decode buffer)
        (Xml.Document.decode (buffer.extract 0 header.chunkSize)) ∧
      Alike (ResourceTable.decode buffer)
        (ResourceTable.decode (buffer.extract 0 header.chunkSize))) ∧
    ∀ rest : Bytes,
      Alike (Xml.Document.decode (buffer.extract 0 header.chunkSize ++ rest))
        (Xml.Document.decode (buffer.extract 0 header.chunkSize)) ∧
      Alike (ResourceTable.decode (buffer.extract 0 header.chunkSize ++ rest))
        (ResourceTable.decode (buffer.extract 0 header.chunkSize)) := by
  obtain ⟨atStart, _, reaches⟩ := readHeader_sound read
  have inside : header.chunkEnd ≤ header.chunkSize := by
    simp only [Header.chunkEnd]
    omega
  have long : header.chunkSize ≤ buffer.size := by
    simp only [Header.chunkEnd] at reaches
    omega
  have front := Bytes.SameFront.of_extract long
  refine ⟨⟨Xml.Document.alike_decode front read inside,
    ResourceTable.alike_decode front read inside⟩, ?_⟩
  intro rest
  have extended := Bytes.SameFront.of_append front.reachesSecond rest
  have readExtended :=
    readHeader_of_sameFront extended.symm (readHeader_of_sameFront front read inside) inside
  exact
    ⟨Xml.Document.alike_decode extended readExtended inside,
      ResourceTable.alike_decode extended readExtended inside⟩

/-- A document of 16 bytes whose only chunk, at 8, claims 12 bytes, with 8 more bytes behind it. -/
def straddlingChunk : Bytes :=
  #[3, 0, 8, 0, 16, 0, 0, 0, 1, 1, 8, 0, 12, 0, 0, 0, 7, 7, 7, 7, 7, 7, 7, 7]

/-- With the bytes behind it the chunk is inside the file and past its parent, without them
it is past the file. -/
theorem straddlingChunk_decoded_alike :
    readHeader straddlingChunk 0 = .ok ⟨0, 8, 16, 3, by decide⟩ ∧
      Xml.Document.decode straddlingChunk = .error (.malformed (.chunkPastParent 16) 8) ∧
      Xml.Document.decode (straddlingChunk.extract 0 16) =
        .error (.malformed (.chunkPastBuffer 12 16) 8) ∧
      Alike (Xml.Document.decode straddlingChunk)
        (Xml.Document.decode (straddlingChunk.extract 0 16)) := by
  have read : readHeader straddlingChunk 0 = .ok ⟨0, 8, 16, 3, by decide⟩ := by
    decide +kernel
  exact ⟨read, by cbv, by cbv, (decoding_ends_with_document read).1.1⟩

end ApkAtlas
