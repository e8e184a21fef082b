import ApkAtlas.Proofs.Xml.Assembled
import ApkAtlas.Proofs.Xml.Nesting

namespace ApkAtlas.Xml

/-!
# Which chunks make up a document

Chunks that can be read make up a document exactly if the starts and ends of elements among
them are those of one tree, or the front of one: a root that is left open ends with the
document. All other arrangements are malformed.
-/

open Chunk
open ApkAtlas.Delimiter (level returns NeverBelow IsTree IsUnclosed IsFront)
open ApkAtlas.Delimiter (returns_append neverBelow_append_iff isTree_or_isUnclosed_iff)
open ApkAtlas.Xml.Part (delimiters delimiters_append)

section Tokens

/-- What a chunk with the token does: it starts an element, ends one, or neither. -/
def delimiterOf (token : Nat) : Delimiter :=
  if token = Token.startElement then .opening
  else if token = Token.endElement then .closing
  else .neutral

/-- The starts and ends of elements among the chunks of a document. -/
def Document.elementMarks (buffer : Bytes) (header : Header) : List Delimiter :=
  (header.children buffer).headers.map fun child => delimiterOf child.token

variable {buffer : Bytes} {header : Header} {part : Part} {parts : List Part}

/-- The kind of a chunk tells what delimiter its part is. -/
theorem Part.delimiter_of_read (read : Part.read buffer header = .ok part) :
    part.delimiter = delimiterOf header.token := by
  rw [Part.read] at read
  split_ifs at read with isPool isMap isStart isEnd isElement isElementEnd isText
  · obtain ⟨_, _, rfl⟩ := exists_of_map_eq_ok read
    rw [isPool]
    rfl
  · obtain ⟨_, _, rfl⟩ := exists_of_map_eq_ok read
    rw [isMap]
    rfl
  · obtain ⟨_, _, rfl⟩ := exists_of_map_eq_ok read
    rw [isStart]
    rfl
  · obtain ⟨_, _, rfl⟩ := exists_of_map_eq_ok read
    rw [isEnd]
    rfl
  · obtain ⟨_, _, read⟩ := exists_of_bind_eq_ok read
    obtain ⟨_, _, read⟩ := exists_of_bind_eq_ok read
    obtain ⟨_, _, rfl⟩ := exists_of_map_eq_ok read
    rw [isElement]
    rfl
  · cases read
    rw [isElementEnd]
    rfl
  · obtain ⟨_, _, rfl⟩ := exists_of_map_eq_ok read
    rw [isText]
    rfl
  · cases read
    rw [delimiterOf, if_neg isElement, if_neg isElementEnd]
    rfl

/-- Chunks that can be read do what their tokens say. -/
theorem Part.delimiters_of_mapM
    {headers : List Header}
    (read : headers.mapM (Part.read buffer) = .ok parts) :
    delimiters parts = headers.map fun child => delimiterOf child.token := by
  replace read := forall₂_of_mapM read
  induction read with
  | nil =>
      rfl
  | cons readPart _ inductionHypothesis =>
      rw [List.map_cons, ← inductionHypothesis, ← Part.delimiter_of_read readPart]
      rfl

end Tokens

namespace Assembly

/-- The elements that are open in a state are as many as delimiters leave open, and its root is
closed if the level came back to zero. -/
structure Tracks (assembly : Assembly) (marks : List Delimiter) : Prop where
  neverBelow : NeverBelow marks
  level : level marks = assembly.opened.length
  returned : (returns marks).length = assembly.closed.toList.length
  outermost : assembly.closed ≠ none → assembly.opened = []

namespace Tracks

variable {assembly next : Assembly} {marks : List Delimiter} {part : Part}

theorem empty : Tracks {} [] where
  neverBelow := by
    decide
  level := rfl
  returned := rfl
  outermost := fun closed => absurd rfl closed

/-- A part that neither starts nor ends an element leaves the elements open. -/
theorem keep
    (tracks : assembly.Tracks marks)
    (opened : next.opened.length = assembly.opened.length)
    (closed : next.closed = assembly.closed) :
    next.Tracks (marks ++ [.neutral]) where
  neverBelow := by
    rw [neverBelow_append_iff, Delimiter.level_append, Delimiter.level_neutral, tracks.level]
    exact ⟨tracks.neverBelow, by omega⟩
  level := by
    rw [Delimiter.level_append, Delimiter.level_neutral, tracks.level, opened, add_zero]
  returned := by
    rw [returns_append, if_neg (fun both => nomatch both.1), List.append_nil, tracks.returned,
      closed]
  outermost := by
    intro isClosed
    rw [closed] at isClosed
    rw [← List.length_eq_zero_iff, opened, tracks.outermost isClosed]
    rfl

/-- Only behind a closed root no element can be started. -/
theorem start
    (tracks : assembly.Tracks marks)
    {line nameIndex : Nat}
    {attributes : List RawAttribute}
    (added : assembly.add (.startElement line nameIndex attributes) = some next) :
    next.Tracks (marks ++ [.opening]) := by
  obtain ⟨stepped, taken, rfl⟩ := Option.map_eq_some_iff.mp added
  rw [step] at taken
  split at taken
  · cases taken
  rename_i placed
  cases taken
  have unclosed : assembly.closed = none := by
    by_contra closed
    have noneOpen := tracks.outermost closed
    rw [noneOpen] at placed
    exact placed (by simpa [Option.isSome_iff_ne_none] using closed)
  constructor
  · rw [neverBelow_append_iff, Delimiter.level_append, Delimiter.level_opening, tracks.level]
    exact ⟨tracks.neverBelow, by omega⟩
  · rw [Delimiter.level_append, Delimiter.level_opening, tracks.level]
    rfl
  · rw [returns_append, if_neg (by simp), List.append_nil]
    exact tracks.returned
  · intro closed
    exact absurd unclosed closed

/-- The end of the outermost element is the first return to zero. -/
theorem finish
    (tracks : assembly.Tracks marks)
    (added : assembly.add .endElement = some next) :
    next.Tracks (marks ++ [.closing]) := by
  obtain ⟨stepped, taken, rfl⟩ := Option.map_eq_some_iff.mp added
  rw [step] at taken
  split at taken
  · cases taken
  rename_i element outer opened
  cases taken
  have unclosed : assembly.closed = none := by
    by_contra closed
    rw [tracks.outermost closed] at opened
    cases opened
  have level : Delimiter.level (marks ++ [.closing]) = outer.length := by
    rw [Delimiter.level_append, Delimiter.level_closing, tracks.level, opened, List.length_cons]
    omega
  have neverBelow : NeverBelow (marks ++ [.closing]) := by
    rw [neverBelow_append_iff, level]
    exact ⟨tracks.neverBelow, by omega⟩
  have returned := tracks.returned
  rw [unclosed, Option.toList_none, List.length_nil] at returned
  cases outer with
  | nil =>
      refine ⟨neverBelow, level, ?_, fun _ => rfl⟩
      rw [returns_append, if_pos ⟨rfl, level⟩, List.length_append, returned]
      rfl
  | cons parent rest =>
      refine ⟨neverBelow, level, ?_, fun closed => absurd unclosed closed⟩
      have above : ¬ Delimiter.level (marks ++ [.closing]) = 0 := by
        rw [level, List.length_cons]
        omega
      rw [returns_append, if_neg (fun both => above both.2), List.append_nil, returned]
      exact (congrArg (fun closed => closed.toList.length) unclosed).symm

/-- One more part moves the stack as its delimiter does. -/
theorem add
    (tracks : assembly.Tracks marks)
    (added : assembly.add part = some next) :
    next.Tracks (marks ++ [part.delimiter]) := by
  cases part with
  | startElement _ _ _ =>
      exact tracks.start added
  | endElement =>
      exact tracks.finish added
  | text index =>
      obtain ⟨stepped, taken, rfl⟩ := Option.map_eq_some_iff.mp added
      rw [step] at taken
      split at taken
      · cases taken
        exact tracks.keep rfl rfl
      · rename_i opened
        cases taken
        exact tracks.keep (by rw [opened]; rfl) rfl
  | strings _ | resourceIds _ | startNamespace _ _ | endNamespace _ | unknown =>
      cases added
      exact tracks.keep rfl rfl

/-- A part is added unless it ends an element where none is open or starts one behind the
root. -/
theorem exists_add
    (tracks : assembly.Tracks marks)
    (front : IsFront (marks ++ [part.delimiter])) :
    ∃ next, assembly.add part = some next := by
  cases part with
  | startElement line nameIndex attributes =>
      have placed : ¬ (assembly.opened.isEmpty && assembly.closed.isSome) := by
        intro second
        obtain ⟨_, closed⟩ := Bool.and_eq_true_iff.mp second
        obtain ⟨root, isRoot⟩ := Option.isSome_iff_exists.mp closed
        have returned := tracks.returned
        have level := tracks.level
        rw [isRoot] at returned
        rw [tracks.outermost (by rw [isRoot]; exact Option.some_ne_none root)] at level
        have still : returns (marks ++ [.opening]) ≠ [] := by
          rw [returns_append]
          exact List.append_ne_nil_of_left_ne_nil
            (List.ne_nil_of_length_pos (by rw [returned]; exact Nat.one_pos)) _
        have zero := (front.returned still).2
        rw [Part.delimiter, Delimiter.level_append, Delimiter.level_opening, level] at zero
        cases zero
      exact ⟨_, by rw [Assembly.add, step, if_neg placed]; rfl⟩
  | endElement =>
      have above := (neverBelow_append_iff.mp front.neverBelow).2
      rw [Part.delimiter, Delimiter.level_append, Delimiter.level_closing, tracks.level] at above
      cases opened : assembly.opened with
      | nil =>
          rw [opened, List.length_nil] at above
          omega
      | cons element outer =>
          exact ⟨_, by simp only [Assembly.add, step, opened]; rfl⟩
  | text index =>
      cases opened : assembly.opened <;>
        exact ⟨_, by simp only [Assembly.add, step, opened]; rfl⟩
  | strings _ | resourceIds _ | startNamespace _ _ | endNamespace _ | unknown =>
      exact ⟨_, rfl⟩

/-- The delimiters of a document that is read are a front. -/
theorem isFront (tracks : assembly.Tracks marks) : IsFront marks := by
  refine ⟨tracks.neverBelow, ?_⟩
  intro returned
  have atLeastOne := List.length_pos_of_ne_nil returned
  rw [tracks.returned] at atLeastOne ⊢
  cases closed : assembly.closed with
  | none =>
      rw [closed] at atLeastOne
      cases atLeastOne
  | some root =>
      rw [tracks.level, tracks.outermost (by rw [closed]; exact Option.some_ne_none root)]
      exact ⟨rfl, rfl⟩

/-- There is a root once an element was started. -/
theorem root?_isSome_iff (tracks : assembly.Tracks marks) :
    assembly.root?.isSome ↔ 0 < Delimiter.level marks ∨ returns marks ≠ [] := by
  rw [← List.length_pos_iff, tracks.returned, tracks.level, root?]
  cases assembly.opened with
  | nil =>
      cases assembly.closed <;> simp
  | cons element outer =>
      simp

end Tracks

variable {parts : List Part}

/-- Parts lead to a state exactly if their delimiters are a tree or the front of one. -/
theorem exists_tracks_iff :
    (∃ assembly, ofParts? parts = some assembly ∧ assembly.Tracks (delimiters parts)) ↔
      IsFront (delimiters parts) := by
  constructor
  · rintro ⟨_, _, tracks⟩
    exact tracks.isFront
  · intro front
    induction parts using List.reverseRecOn with
    | nil =>
        exact ⟨{}, rfl, .empty⟩
    | append_singleton parts part inductionHypothesis =>
        rw [delimiters_append] at front ⊢
        obtain ⟨assembly, reached, tracks⟩ := inductionHypothesis front.of_append
        obtain ⟨next, added⟩ := tracks.exists_add front
        refine ⟨next, ?_, tracks.add added⟩
        rw [ofParts?_append, reached]
        exact added

/-- An assembly tracks the delimiters of its parts. -/
theorem tracks_of_ofParts?
    {assembly : Assembly}
    (reached : ofParts? parts = some assembly) :
    assembly.Tracks (delimiters parts) := by
  induction parts using List.reverseRecOn generalizing assembly with
  | nil =>
      cases reached
      exact .empty
  | append_singleton parts part inductionHypothesis =>
      rw [ofParts?_append] at reached
      obtain ⟨before, reachedBefore, added⟩ := Option.bind_eq_some_iff.mp reached
      rw [delimiters_append]
      exact (inductionHypothesis reachedBefore).add added

/-- A part that can be read is refused only for its place among the starts and ends. -/
theorem malformed_of_step
    {assembly : Assembly}
    {header : Header}
    {part : Part}
    {error : DecodeError}
    (failed : assembly.step header part = .error error) :
    ∃ defect ∈ [Defect.unbalancedEnd, .secondRootElement],
      error = .malformed defect header.offset := by
  cases part with
  | startElement _ _ _ =>
      rw [step] at failed
      split at failed <;> cases failed
      exact ⟨_, by simp, rfl⟩
  | endElement =>
      rw [step] at failed
      split at failed <;> cases failed
      exact ⟨_, by simp, rfl⟩
  | text _ =>
      rw [step] at failed
      split at failed <;> cases failed
  | strings _ | resourceIds _ | startNamespace _ _ | endNamespace _ | unknown =>
      cases failed

end Assembly

namespace Document

open ApkAtlas.Fallible (outcome)

section Acceptance

variable {buffer : Bytes} {header : Header} {parts : List Part} {error : DecodeError}

/-- Parts make up a document exactly if their delimiters are a tree or the front of one. -/
theorem isSome_ofParts?_iff (parts : List Part) :
    (ofParts? parts).isSome ↔ IsTree (delimiters parts) ∨ IsUnclosed (delimiters parts) := by
  have rooted (assembly : Assembly) :
      (ofAssembly assembly).toOption.isSome ↔ assembly.root?.isSome := by
    rw [ofAssembly]
    cases assembly.root? <;> simp [Except.toOption]
  rw [isTree_or_isUnclosed_iff, ← Assembly.exists_tracks_iff, ofParts?]
  cases reached : Assembly.ofParts? parts with
  | none =>
      simp
  | some assembly =>
      have tracks := Assembly.tracks_of_ofParts? reached
      rw [Option.bind_some, rooted, tracks.root?_isSome_iff]
      exact ⟨fun started => ⟨⟨assembly, rfl, tracks⟩, started⟩, And.right⟩

/-- Documents whose chunks are read are accepted if their elements nest or are left open. -/
theorem exists_decode_iff_of_readParts
    (read : readHeader buffer 0 = .ok header)
    (isXml : header.token = Token.xml)
    (parsed : readParts buffer = .ok parts) :
    (∃ document, decode buffer = .ok document) ↔
      IsTree (elementMarks buffer header) ∨ IsUnclosed (elementMarks buffer header) := by
  have children := (exists_children_of_readParts read parsed).2
  rw [elementMarks, ← Part.delimiters_of_mapM children, ← isSome_ofParts?_iff,
    ← toOption_decode read isXml parsed]
  cases decode buffer <;> simp [Except.toOption]

/-- Documents whose chunks are read are rejected for an end too many or a second root. -/
theorem malformed_of_steps
    {headers : List Header}
    (read : headers.mapM (Part.read buffer) = .ok parts)
    {assembly : Assembly}
    (failed : outcome (Walk.steps (Assembly.advance buffer) assembly headers) = .error error) :
    ∃ defect ∈ [Defect.unbalancedEnd, .secondRootElement],
      ∃ offset, error = .malformed defect offset := by
  replace read := forall₂_of_mapM read
  induction read generalizing assembly with
  | nil =>
      cases failed
  | @cons child part rest others readPart _ inductionHypothesis =>
      rw [Walk.steps, Assembly.advance_of_read readPart] at failed
      cases stepped : assembly.step child part with
      | error first =>
          rw [stepped] at failed
          cases failed
          obtain ⟨defect, listed, isMalformed⟩ := Assembly.malformed_of_step stepped
          exact ⟨defect, listed, child.offset, isMalformed⟩
      | ok next =>
          rw [stepped] at failed
          exact inductionHypothesis failed

/-- Chunks that can be read are refused for the arrangement of starts and ends only. -/
theorem malformed_of_readParts
    (read : readHeader buffer 0 = .ok header)
    (isXml : header.token = Token.xml)
    (parsed : readParts buffer = .ok parts)
    (failed : decode buffer = .error error) :
    ∃ defect ∈ [Defect.unbalancedEnd, .secondRootElement, .noRootElement],
      ∃ offset, error = .malformed defect offset := by
  rw [decode_of_readParts read isXml parsed, bind_eq_error_iff] at failed
  rcases failed with stepped | ⟨assembly, _, rootless⟩
  · obtain ⟨defect, listed, isMalformed⟩ :=
      malformed_of_steps (exists_children_of_readParts read parsed).2 stepped
    exact ⟨defect, List.mem_append_left [_] listed, isMalformed⟩
  · rw [ofAssembly] at rootless
    split at rootless
    · cases rootless
      exact ⟨_, by simp, _, rfl⟩
    · cases rootless

/-- A file is decoded exactly if it is one chunk of compiled XML whose chunks can all be read
and whose starts and ends of elements are those of one tree, or of a tree that is left open.
Where the chunks can be read, all other arrangements are malformed. -/
theorem decoded_iff_tree_or_unclosed (buffer : Bytes) :
    ((∃ document, decode buffer = .ok document) ↔
      ∃ header, readHeader buffer 0 = .ok header ∧ header.token = Token.xml ∧
        (∃ parts, readParts buffer = .ok parts) ∧
        (IsTree (elementMarks buffer header) ∨ IsUnclosed (elementMarks buffer header))) ∧
    ∀ header parts,
      readHeader buffer 0 = .ok header → header.token = Token.xml →
      readParts buffer = .ok parts →
      ¬ IsTree (elementMarks buffer header) → ¬ IsUnclosed (elementMarks buffer header) →
      ∃ defect ∈ [Defect.unbalancedEnd, .secondRootElement, .noRootElement],
        ∃ offset, decode buffer = .error (.malformed defect offset) := by
  constructor
  · constructor
    · rintro ⟨document, decoded⟩
      obtain ⟨header, parts, read, isXml, parsed⟩ := exists_header_of_decode decoded
      exact ⟨header, read, isXml, ⟨parts, parsed⟩,
        (exists_decode_iff_of_readParts read isXml parsed).mp ⟨document, decoded⟩⟩
    · rintro ⟨header, read, isXml, ⟨parts, parsed⟩, arranged⟩
      exact (exists_decode_iff_of_readParts read isXml parsed).mpr arranged
  · intro header parts read isXml parsed notTree notUnclosed
    cases decoded : decode buffer with
    | ok document =>
        have arranged := (exists_decode_iff_of_readParts read isXml parsed).mp ⟨document, decoded⟩
        exact absurd arranged (not_or.mpr ⟨notTree, notUnclosed⟩)
    | error error =>
        obtain ⟨defect, listed, offset, rfl⟩ :=
          malformed_of_readParts read isXml parsed decoded
        exact ⟨defect, listed, offset, rfl⟩

end Acceptance

section Arrangements

/-- The start of an element, the start and the end of one inside, and nothing more. -/
def leftOpen : Bytes :=
  let node := Node.compose ["a", "b"]
  layOut ["a", "b"]
    [node (.startElement 1 "a" []), node (.startElement 2 "b" []), node (.endElement 3 "b")]

/-- Two elements, one behind the other. -/
def twoRoots : Bytes :=
  let node := Node.compose ["a", "b"]
  layOut ["a", "b"]
    [ node (.startElement 1 "a" []), node (.endElement 2 "a"),
      node (.startElement 3 "b" []), node (.endElement 4 "b") ]

/-- A document with an element that is left open is accepted. -/
theorem leftOpen_is_accepted :
    ∃ document header,
      decode leftOpen = .ok document ∧ readHeader leftOpen 0 = .ok header ∧
        ¬ IsTree (elementMarks leftOpen header) := by
  have decoded : (decode leftOpen).toOption.isSome := by
    decide +kernel
  have marks :
      (readHeader leftOpen 0).toOption.map (elementMarks leftOpen) =
        some [.neutral, .opening, .opening, .closing] := by
    decide +kernel
  obtain ⟨document, isDocument⟩ := Option.isSome_iff_exists.mp decoded
  obtain ⟨header, read, marked⟩ := Option.map_eq_some_iff.mp marks
  refine ⟨document, header, eq_ok_of_toOption isDocument, eq_ok_of_toOption read, ?_⟩
  rw [marked]
  decide

/-- What is left open is a tree up to there, and two elements are none. -/
theorem arrangements_are_told_apart :
    (∃ header, readHeader leftOpen 0 = .ok header ∧
      (IsTree (elementMarks leftOpen header) ∨ IsUnclosed (elementMarks leftOpen header))) ∧
    ∃ defect ∈ [Defect.unbalancedEnd, .secondRootElement, .noRootElement],
      ∃ offset, decode twoRoots = .error (.malformed defect offset) := by
  obtain ⟨document, _, decoded, _, _⟩ := leftOpen_is_accepted
  obtain ⟨header, read, _, _, arranged⟩ :=
    (decoded_iff_tree_or_unclosed leftOpen).1.mp ⟨document, decoded⟩
  refine ⟨⟨header, read, arranged⟩, ?_⟩
  have marks :
      (readHeader twoRoots 0).toOption.map (fun header =>
          (header.token, elementMarks twoRoots header)) =
        some (Token.xml, [.neutral, .opening, .closing, .opening, .closing]) := by
    decide +kernel
  have readable : (readParts twoRoots).toOption.isSome := by
    decide +kernel
  obtain ⟨header, read, marked⟩ := Option.map_eq_some_iff.mp marks
  obtain ⟨isXml, marked⟩ := Prod.mk.inj marked
  obtain ⟨parts, parsed⟩ := Option.isSome_iff_exists.mp readable
  refine (decoded_iff_tree_or_unclosed twoRoots).2 header parts (eq_ok_of_toOption read) isXml
    (eq_ok_of_toOption parsed) ?_ ?_
  · rw [marked]
    decide
  · rw [marked]
    decide

end Arrangements

end Document

end ApkAtlas.Xml
