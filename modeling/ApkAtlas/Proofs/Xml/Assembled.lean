import ApkAtlas.Proofs.Xml.Parts

namespace ApkAtlas.Xml

/-!
# Documents are told by their parts

Where a part stands in the file plays no role for the document that the parts are put together
to: it only tells where an error is. So a document whose chunks can be read is a function of
their parts, and parts that are passed over change nothing.
-/

open Chunk

namespace Assembly

/-- A state without the chunks that were passed over. -/
def forget (assembly : Assembly) : Assembly :=
  { assembly with skipped := [] }

/-- A header to stand for that of any chunk. -/
def anyHeader : Header :=
  ⟨0, 0, 0, 0, le_rfl⟩

/-- What adding a part leads to, unless it cannot be added. -/
def add (assembly : Assembly) (part : Part) : Option Assembly :=
  ((assembly.step anyHeader part).toOption).map forget

/-- The state that parts lead to. -/
def ofParts? (parts : List Part) : Option Assembly :=
  parts.foldlM add {}

section Steps

variable {assembly : Assembly} {part : Part} {parts : List Part}

/-- A step does not depend on the place of the chunk or on what was passed over. -/
theorem map_forget_step
    (assembly : Assembly)
    (header : Header)
    (part : Part) :
    ((assembly.step header part).toOption).map forget = assembly.forget.add part := by
  cases part with
  | startElement line nameIndex attributes =>
      have sameTest :
          (assembly.forget.opened.isEmpty && assembly.forget.closed.isSome) =
            (assembly.opened.isEmpty && assembly.closed.isSome) :=
        rfl
      rw [add, step, step, sameTest]
      split <;> rfl
  | endElement =>
      rcases assembly with ⟨_, _, _, _, _ | ⟨_, _ | _⟩, _, _⟩ <;> rfl
  | text index =>
      rcases assembly with ⟨_, _, _, _, _ | _, _, _⟩ <;> rfl
  | strings _ | resourceIds _ | startNamespace _ _ | endNamespace _ | unknown =>
      rfl

/-- Adding a part counts no chunk. -/
theorem forget_of_add {next : Assembly} (added : assembly.add part = some next) :
    next.forget = next := by
  obtain ⟨_, _, rfl⟩ := Option.map_eq_some_iff.mp added
  rfl

/-- An unknown part changes nothing. -/
theorem add_unknown (assembly : Assembly) : assembly.add .unknown = some assembly.forget :=
  rfl

/-- One more part is added to what the others came to. -/
theorem ofParts?_append :
    ofParts? (parts ++ [part]) = (ofParts? parts).bind fun assembly => assembly.add part := by
  rw [ofParts?, List.foldlM_append]
  simp only [List.foldlM_cons, List.foldlM_nil, bind_pure]
  rfl

/-- Parts that are passed over change nothing. -/
theorem foldlM_add_filter
    (clean : assembly.forget = assembly) :
    (parts.filter (· ≠ .unknown)).foldlM add assembly = parts.foldlM add assembly := by
  induction parts generalizing assembly with
  | nil =>
      rfl
  | cons part rest inductionHypothesis =>
      by_cases isUnknown : part = .unknown
      · subst isUnknown
        rw [List.filter_cons_of_neg (by simp), inductionHypothesis clean,
          List.foldlM_cons, add_unknown, clean]
        rfl
      · rw [List.filter_cons_of_pos (by simpa using isUnknown), List.foldlM_cons,
          List.foldlM_cons]
        cases added : assembly.add part with
        | none =>
            rfl
        | some next =>
            exact inductionHypothesis (forget_of_add added)

/-- Unknown parts can be left out. -/
theorem ofParts?_filter (parts : List Part) :
    ofParts? (parts.filter (· ≠ .unknown)) = ofParts? parts :=
  foldlM_add_filter rfl

/-- A chunk that is read is taken in as its part. -/
theorem advance_of_read
    {buffer : Bytes}
    {header : Header}
    (read : Part.read buffer header = .ok part)
    (assembly : Assembly) :
    assembly.advance buffer header = assembly.step header part := by
  rw [advance, read]
  rfl

end Steps

end Assembly

namespace Document

open ApkAtlas.Fallible (outcome)

section Decoding

variable {buffer : Bytes} {header : Header} {parts : List Part}

/-- The document that parts are put together to. -/
def ofParts? (parts : List Part) : Option Document :=
  (Assembly.ofParts? parts).bind fun assembly => (ofAssembly assembly).toOption

/-- Chunks that can be read lead to the state that their parts lead to. -/
theorem map_forget_steps
    {headers : List Header}
    (read : headers.mapM (Part.read buffer) = .ok parts)
    (assembly : Assembly) :
    ((outcome (Walk.steps (Assembly.advance buffer) assembly headers)).toOption).map
        Assembly.forget =
      parts.foldlM Assembly.add assembly.forget := by
  replace read := forall₂_of_mapM read
  induction read generalizing assembly with
  | nil =>
      rfl
  | @cons child part rest others readPart _ inductionHypothesis =>
      rw [Walk.steps, Assembly.advance_of_read readPart, List.foldlM_cons,
        ← Assembly.map_forget_step assembly child part]
      cases assembly.step child part with
      | error _ =>
          rfl
      | ok next =>
          exact inductionHypothesis next

theorem toOption_ofAssembly_forget (assembly : Assembly) :
    (ofAssembly assembly.forget).toOption = (ofAssembly assembly).toOption :=
  rfl

/-- What is decoded is one chunk of compiled XML whose chunks can all be read. -/
theorem exists_header_of_decode
    {document : Document}
    (decoded : decode buffer = .ok document) :
    ∃ header parts,
      readHeader buffer 0 = .ok header ∧ header.token = Token.xml ∧
        readParts buffer = .ok parts := by
  obtain ⟨parts, _, parsed, _, _⟩ := exists_parts decoded
  rw [decode_eq_bind] at decoded
  obtain ⟨header, read, decoded⟩ := exists_of_bind_eq_ok decoded
  split at decoded
  · rename_i isXml
    exact ⟨header, parts, read, isXml, parsed⟩
  · cases decoded

/-- The chunks of a document whose parts are known are walked to the end and read. -/
theorem exists_children_of_readParts
    (read : readHeader buffer 0 = .ok header)
    (parsed : readParts buffer = .ok parts) :
    (header.children buffer).stop = none ∧
      (header.children buffer).headers.mapM (Part.read buffer) = .ok parts := by
  rw [readParts, read] at parsed
  simp only [bind, Except.bind] at parsed
  split at parsed
  · cases parsed
  · rename_i complete
    exact ⟨complete, parsed⟩

/-- A document whose chunks are read is what taking them in comes to. -/
theorem decode_of_readParts
    (read : readHeader buffer 0 = .ok header)
    (isXml : header.token = Token.xml)
    (parsed : readParts buffer = .ok parts) :
    decode buffer =
      outcome (Walk.steps (Assembly.advance buffer) {} (header.children buffer).headers) >>=
        ofAssembly := by
  have complete := (exists_children_of_readParts read parsed).1
  have ran :
      outcome ((header.children buffer).run (Assembly.advance buffer) {}) =
        outcome (Walk.steps (Assembly.advance buffer) {} (header.children buffer).headers) := by
    rw [Walk.run, complete]
    split <;> rename_i ended <;> rw [ended]
  rw [decode_eq_bind, read]
  simp only [bind, Except.bind, if_pos isXml, ran]

/-- A document whose chunks can be read is told by their parts. -/
theorem toOption_decode
    (read : readHeader buffer 0 = .ok header)
    (isXml : header.token = Token.xml)
    (parsed : readParts buffer = .ok parts) :
    (decode buffer).toOption = ofParts? parts := by
  have through :
      ((outcome (Walk.steps (Assembly.advance buffer) {}
        (header.children buffer).headers)).toOption).map Assembly.forget =
          Assembly.ofParts? parts :=
    map_forget_steps (exists_children_of_readParts read parsed).2 {}
  rw [decode_of_readParts read isXml parsed, ofParts?, ← through]
  cases outcome (Walk.steps (Assembly.advance buffer) {} (header.children buffer).headers) with
  | error _ =>
      rfl
  | ok assembly =>
      exact (toOption_ofAssembly_forget assembly).symm

end Decoding

end Document

end ApkAtlas.Xml
