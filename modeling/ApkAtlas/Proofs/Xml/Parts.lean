import ApkAtlas.Proofs.Delimiter
import ApkAtlas.Proofs.Xml.Source
import ApkAtlas.Proofs.Xml.Untrusted

namespace ApkAtlas.Xml

/-!
# The parts of a document

What a chunk of a document refers to depends on the chunks in front of it: strings are those
of the pool that was read last, a nameless attribute goes by the resource numbers that were
read last, and a namespace by the last prefix that was declared for it and not taken back. A
document that is decoded has parts that can be added one by one, and the state that they
lead to holds just this.
-/

open Chunk

namespace Part

variable {Value : Type}

/-- What is picked from each part, given the parts in front of it. -/
def gather (pick : List Part → Part → Option Value) (parts : List Part) : List Value :=
  (List.range parts.length).filterMap fun position =>
    parts[position]?.bind (pick (parts.take position))

/-- The strings that parts lead to: those of the last pool. -/
def lastPool (parts : List Part) : StringPool :=
  parts.foldl (fun pool part => if let .strings next := part then next else pool) {}

/-- The resource numbers that parts lead to: the last ones. -/
def lastIds (parts : List Part) : List Nat :=
  parts.foldl (fun ids part => if let .resourceIds next := part then next else ids) []

/-- What a part behind the given ones refers to by index. -/
def known (parts : List Part) : Assembly :=
  { pool := lastPool parts, resourceIds := (lastIds parts).toArray }

/-- Whether a part opens an element or closes one. -/
def delimiter : Part → Delimiter
  | .startElement .. => .opening
  | .endElement => .closing
  | _ => .neutral

end Part

/-- What a part says about namespaces. -/
inductive NamespaceMark where
  | start (nsPrefix uri : String)
  | finish (uri : String)
deriving Repr, DecidableEq

namespace NamespaceMark

def uri : NamespaceMark → String
  | .start _ uri => uri
  | .finish uri => uri

/-- The prefix that a namespace goes by from the mark on. -/
def current? : NamespaceMark → Option String
  | .start nsPrefix _ => some nsPrefix
  | .finish _ => none

end NamespaceMark

/-- The prefix that a namespace goes by after marks: what the last mark about it says. -/
def currentPrefix? (uri : String) (marks : List NamespaceMark) : Option String :=
  (marks.filter (·.uri = uri)).getLast?.bind NamespaceMark.current?

namespace Part

/-- What a part says about namespaces, given the parts in front of it. -/
def namespaceMark? (front : List Part) : Part → Option NamespaceMark
  | .startNamespace prefixIndex uriIndex =>
      some (.start ((known front).string prefixIndex) ((known front).string uriIndex))
  | .endNamespace uriIndex => some (.finish ((known front).string uriIndex))
  | _ => none

def namespaceMarks (parts : List Part) : List NamespaceMark :=
  gather namespaceMark? parts

/-- The attribute that a record behind the given parts describes. -/
def attributeBehind (parts : List Part) (raw : RawAttribute) : Attribute :=
  { (known parts).toAttribute raw with
    nsPrefix :=
      (currentPrefix? ((known parts).string raw.namespaceIndex) (namespaceMarks parts)).getD "" }

variable {Value : Type} {parts : List Part} {part : Part}

/-- One more part adds what is picked of it. -/
theorem gather_append (pick : List Part → Part → Option Value) :
    gather pick (parts ++ [part]) = gather pick parts ++ (pick parts part).toList := by
  have earlier :
      ∀ position ∈ List.range parts.length,
        (parts ++ [part])[position]?.bind (pick ((parts ++ [part]).take position)) =
          parts[position]?.bind (pick (parts.take position)) := by
    intro position member
    have inside := List.mem_range.mp member
    rw [List.getElem?_append_left inside, List.take_append_of_le_length inside.le]
  rw [gather, List.length_append, List.length_singleton, List.range_succ, List.filterMap_append,
    List.filterMap_congr earlier, gather, List.filterMap_cons, List.getElem?_concat_length,
    List.take_left, Option.bind_some]
  cases pick parts part <;> rfl

/-- One more part adds its mark, if it is one of a namespace. -/
theorem namespaceMarks_append :
    namespaceMarks (parts ++ [part]) =
      namespaceMarks parts ++ (namespaceMark? parts part).toList :=
  gather_append namespaceMark?

end Part

/-- The last mark of a namespace counts. -/
theorem currentPrefix?_append
    (uri : String)
    (marks : List NamespaceMark)
    (mark : NamespaceMark) :
    currentPrefix? uri (marks ++ [mark]) =
      if mark.uri = uri then mark.current? else currentPrefix? uri marks := by
  rw [currentPrefix?, List.filter_append]
  by_cases same : mark.uri = uri
  · simp [same]
  · simp [same, currentPrefix?]

namespace Assembly

open ApkAtlas.Xml.Part (known namespaceMarks namespaceMark? namespaceMarks_append lastPool lastIds)

/-- The states that parts lead to, added one after the other. -/
inductive Reached : List Part → Assembly → Prop where
  | start : Reached [] {}
  | add {parts : List Part} {part : Part} {header : Header} {assembly next : Assembly}
      (reached : Reached parts assembly)
      (added : assembly.step header part = .ok next) :
      Reached (parts ++ [part]) next

/-- A state knows of the parts in front of it what later parts refer to. -/
structure Knows (assembly : Assembly) (parts : List Part) : Prop where
  pool : assembly.pool = lastPool parts
  resourceIds : assembly.resourceIds = (lastIds parts).toArray
  prefixes : ∀ uri,
    Table.get? uri assembly.prefixes = currentPrefix? uri (namespaceMarks parts)

variable {parts : List Part} {part : Part} {header : Header} {assembly next : Assembly}

theorem Knows.string_eq
    (knows : assembly.Knows parts)
    (index : Nat) :
    assembly.string index = (known parts).string index := by
  rw [string, string, knows.pool]
  rfl

/-- An attribute is what its record says, under the prefix that its namespace goes by. -/
theorem Knows.toAttribute_eq
    (knows : assembly.Knows parts)
    (raw : RawAttribute) :
    assembly.toAttribute raw = Part.attributeBehind parts raw := by
  have name : assembly.attributeName raw.nameIndex = (known parts).attributeName raw.nameIndex := by
    rw [attributeName, attributeName, knows.string_eq, knows.resourceIds]
    rfl
  have values : assembly.pool = (known parts).pool :=
    knows.pool
  simp only [toAttribute, Part.attributeBehind, name, values, knows.string_eq, knows.prefixes]

/-- Parts that say nothing of strings, resource numbers and namespaces leave what is known. -/
theorem Knows.of_silent
    (knows : assembly.Knows parts)
    (pool : next.pool = assembly.pool)
    (resourceIds : next.resourceIds = assembly.resourceIds)
    (prefixes : next.prefixes = assembly.prefixes)
    (samePool : lastPool (parts ++ [part]) = lastPool parts)
    (sameIds : lastIds (parts ++ [part]) = lastIds parts)
    (noMark : namespaceMark? parts part = none) :
    next.Knows (parts ++ [part]) where
  pool := by
    rw [pool, knows.pool, samePool]
  resourceIds := by
    rw [resourceIds, knows.resourceIds, sameIds]
  prefixes := by
    intro uri
    rw [prefixes, knows.prefixes, namespaceMarks_append, noMark, Option.toList_none,
      List.append_nil]

/-- A part that marks a namespace changes the prefix of that namespace only. -/
theorem Knows.of_mark
    (knows : assembly.Knows parts)
    {mark : NamespaceMark}
    (marks : namespaceMark? parts part = some mark)
    (pool : next.pool = assembly.pool)
    (resourceIds : next.resourceIds = assembly.resourceIds)
    (samePool : lastPool (parts ++ [part]) = lastPool parts)
    (sameIds : lastIds (parts ++ [part]) = lastIds parts)
    (changed : ∀ uri, Table.get? uri next.prefixes =
      if mark.uri = uri then mark.current? else Table.get? uri assembly.prefixes) :
    next.Knows (parts ++ [part]) where
  pool := by
    rw [pool, knows.pool, samePool]
  resourceIds := by
    rw [resourceIds, knows.resourceIds, sameIds]
  prefixes := by
    intro uri
    rw [changed, knows.prefixes, namespaceMarks_append, marks, Option.toList_some,
      currentPrefix?_append]

-- Pools, lists of identifiers and namespaces each change one of the three, other parts none.
/-- An assembly knows one more part when it is added. -/
theorem Knows.step
    (knows : assembly.Knows parts)
    (added : assembly.step header part = .ok next) :
    next.Knows (parts ++ [part]) := by
  cases part with
  | strings pool =>
      cases added
      refine ⟨by simp [lastPool], ?_, ?_⟩
      · simpa [lastIds] using knows.resourceIds
      · intro uri
        rw [namespaceMarks_append]
        simpa [namespaceMark?] using knows.prefixes uri
  | resourceIds ids =>
      cases added
      refine ⟨?_, by simp [lastIds], ?_⟩
      · simpa [lastPool] using knows.pool
      · intro uri
        rw [namespaceMarks_append]
        simpa [namespaceMark?] using knows.prefixes uri
  | startNamespace prefixIndex uriIndex =>
      cases added
      refine knows.of_mark rfl rfl rfl (by simp [lastPool]) (by simp [lastIds]) ?_
      intro uri
      rw [← knows.string_eq, ← knows.string_eq, NamespaceMark.uri]
      split
      · rename_i same
        subst same
        exact Table.get?_put_self _ _ _
      · rename_i other
        exact Table.get?_put_of_ne (Ne.symm other) _ _
  | endNamespace uriIndex =>
      cases added
      refine knows.of_mark rfl rfl rfl (by simp [lastPool]) (by simp [lastIds]) ?_
      intro uri
      rw [← knows.string_eq, NamespaceMark.uri]
      split
      · rename_i same
        subst same
        exact Table.get?_erase_self _ _
      · rename_i other
        exact Table.get?_erase_of_ne (Ne.symm other) _
  | startElement line nameIndex attributes =>
      rw [Assembly.step] at added
      split at added <;> cases added
      exact knows.of_silent rfl rfl rfl (by simp [lastPool]) (by simp [lastIds]) rfl
  | endElement =>
      rw [Assembly.step] at added
      split at added <;> cases added
      refine knows.of_silent ?_ ?_ ?_ (by simp [lastPool]) (by simp [lastIds]) rfl <;>
        simp only [attach] <;> split <;> rfl
  | text index =>
      rw [Assembly.step] at added
      split at added <;> cases added <;>
        exact knows.of_silent rfl rfl rfl (by simp [lastPool]) (by simp [lastIds]) rfl
  | unknown =>
      cases added
      exact knows.of_silent rfl rfl rfl (by simp [lastPool]) (by simp [lastIds]) rfl

/-- An assembly knows the parts that it was reached by. -/
theorem Reached.knows (reached : Reached parts assembly) : assembly.Knows parts := by
  induction reached with
  | start =>
      exact ⟨rfl, rfl, fun _ => rfl⟩
  | add _ added inductionHypothesis =>
      exact inductionHypothesis.step added

end Assembly

section Decoding

/-- The bytes of a document that holds a pool and the given chunks behind it. -/
def Document.layOut (pool : List String) (chunks : List Composed) : Bytes :=
  let whole : Composed :=
    { token := Token.xml
      extension := []
      payload := (StringPool.compose pool :: chunks).flatMap Composed.bytes }
  whole.bytes.toArray

/-- What the chunks inside the chunk of a document say, in their order. -/
def Document.readParts (buffer : Bytes) : Except DecodeError (List Part) := do
  let header ← readHeader buffer 0
  let walked := header.children buffer
  match walked.stop with
  | some error => .error error
  | none => walked.headers.mapM (Part.read buffer)

open ApkAtlas.Fallible (steps_of_outcome_run)

/-- Chunks that are read and added one after the other are the parts that lead to the state
at the end. -/
theorem Assembly.Reached.of_steps
    {buffer : Bytes}
    {headers : List Header}
    {front : List Part}
    {assembly final : Assembly}
    (reached : Reached front assembly)
    (through : Walk.steps (Assembly.advance buffer) assembly headers = (final, none)) :
    ∃ parts, headers.mapM (Part.read buffer) = .ok parts ∧ Reached (front ++ parts) final := by
  induction headers generalizing front assembly with
  | nil =>
      cases through
      exact ⟨[], rfl, by rwa [List.append_nil]⟩
  | cons header rest inductionHypothesis =>
      rw [Walk.steps] at through
      cases advanced : Assembly.advance buffer assembly header with
      | error _ =>
          rw [advanced] at through
          cases through
      | ok next =>
          rw [advanced] at through
          obtain ⟨part, read, added⟩ := exists_of_bind_eq_ok advanced
          obtain ⟨parts, others, final⟩ := inductionHypothesis (reached.add added) through
          refine ⟨part :: parts, ?_, by simpa using final⟩
          rw [List.mapM_cons, read, others]
          rfl

/-- A document that is decoded is what its parts lead to. -/
theorem Document.exists_parts
    {buffer : Bytes}
    {document : Document}
    (decoded : Document.decode buffer = .ok document) :
    ∃ parts assembly,
      readParts buffer = .ok parts ∧
        Assembly.Reached parts assembly ∧ Document.ofAssembly assembly = .ok document := by
  rw [Document.decode_eq_bind] at decoded
  obtain ⟨header, read, decoded⟩ := exists_of_bind_eq_ok decoded
  split at decoded
  · obtain ⟨assembly, ran, finished⟩ := exists_of_bind_eq_ok decoded
    obtain ⟨through, complete⟩ := steps_of_outcome_run ran
    obtain ⟨parts, parsed, reached⟩ := Assembly.Reached.start.of_steps through
    refine ⟨parts, assembly, ?_, reached, finished⟩
    simp only [readParts, read, bind, Except.bind, complete, parsed]
  · cases decoded

end Decoding

end ApkAtlas.Xml
