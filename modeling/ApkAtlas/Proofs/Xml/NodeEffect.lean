import ApkAtlas.Proofs.Xml.NodeReading

namespace ApkAtlas.Xml

/-!
# What compiled nodes do

Once the pool is read, the chunk of a node does to an assembly what the node says, and the
nodes of an element put the whole element into the innermost open one. This carries over
from the children of an element to the element.
-/

open Chunk

/-- The text that a value is decoded into. -/
def SourceValue.shown : SourceValue → String
  | .text content => content
  | .flag value => if value then "true" else "false"
  | .number word => toString word.toBitVec.toInt

/-- The attribute after decoding, with the prefix that its namespace goes by. -/
def SourceAttribute.decoded
    (prefixOf : String → Option String)
    (source : SourceAttribute) :
    Attribute :=
  { name := source.name
    value := source.value.shown
    namespaceUri := source.namespaceUri.getD ""
    nsPrefix := (source.namespaceUri.bind prefixOf).getD "" }

namespace SourceElement

mutual

/-- The element after decoding, which declares no namespaces itself. -/
def decoded (prefixOf : String → Option String) (line : Nat) (element : SourceElement) :
    Element :=
  match element with
  | ⟨name, attributes, children⟩ =>
      { name
        attributes := attributes.map (SourceAttribute.decoded prefixOf)
        children := decodedAll prefixOf (line + 1) children
        line := line }

def decodedAll (prefixOf : String → Option String) (line : Nat) :
    List SourceElement → List Element
  | [] => []
  | element :: rest => decoded prefixOf line element :: decodedAll prefixOf line rest

end

theorem decoded_undeclared
    (prefixOf : String → Option String)
    (line : Nat)
    (element : SourceElement) :
    { element.decoded prefixOf line with namespaces := [] } = element.decoded prefixOf line := by
  rcases element with ⟨name, attributes, children⟩
  rfl

end SourceElement

namespace Assembly

/-- What a node does to an assembly, unless it is out of place. -/
def enter (assembly : Assembly) : Node → Option Assembly
  | .startNamespace nsPrefix uri =>
      some { assembly with
        prefixes := Table.put uri nsPrefix assembly.prefixes
        pending := Table.put nsPrefix uri assembly.pending }
  | .startElement line name attributes =>
      if assembly.opened.isEmpty && assembly.closed.isSome then
        none
      else
        let element : Element :=
          { name
            attributes :=
              attributes.map (SourceAttribute.decoded fun uri => Table.get? uri assembly.prefixes)
            namespaces := assembly.pending
            line := line }
        some { assembly with pending := [], opened := element :: assembly.opened }
  | .endElement .. =>
      match assembly.opened with
      | [] => none
      | element :: outer => some (assembly.attach element outer)
  | .endNamespace _ uri =>
      some { assembly with prefixes := Table.erase uri assembly.prefixes }

/-- The strings of an assembly are the given ones, and attributes go by name only. -/
structure Reads (assembly : Assembly) (pool : List String) : Prop where
  strings : assembly.pool.strings = pool.toArray
  resourceIds : assembly.resourceIds = #[]
  unnamed : Table.get? "" assembly.prefixes = none

variable {assembly next : Assembly} {pool : List String}

theorem string_noIndex (assembly : Assembly) : assembly.string noIndex = "" := by
  rw [string, if_pos rfl]

/-- A string of the pool is found by its index. -/
theorem Reads.string_idxOf
    (reads : assembly.Reads pool)
    (small : pool.length < noIndex)
    {text : String}
    (known : text ∈ pool) :
    assembly.string (pool.idxOf text) = text := by
  have found := List.idxOf_lt_length_of_mem known
  have notNone : pool.idxOf text ≠ noIndex := by
    omega
  rw [string, if_neg notNone, StringPool.text, StringPool.get?, if_pos (by omega),
    Int.toNat_natCast, reads.strings, List.getElem?_toArray, List.getElem?_idxOf known]
  rfl

/-- A string that may be missing is found by its index, or empty. -/
theorem Reads.string_indexOf
    (reads : assembly.Reads pool)
    (small : pool.length < noIndex)
    {text? : Option String}
    (known : ∀ text ∈ text?, text ∈ pool) :
    assembly.string (indexOf pool text?) = text?.getD "" := by
  cases text? with
  | none =>
      exact assembly.string_noIndex
  | some text =>
      exact reads.string_idxOf small (known text rfl)

/-- The name of an attribute is found by its index. -/
theorem Reads.attributeName_idxOf
    (reads : assembly.Reads pool)
    (small : pool.length < noIndex)
    {text : String}
    (known : text ∈ pool) :
    assembly.attributeName (pool.idxOf text) = text := by
  rw [attributeName, reads.string_idxOf small known]
  split
  · rename_i empty
    have isEmpty : text = "" := by
      simpa using empty
    simp [reads.resourceIds, isEmpty]
  · rfl

/-- A word in decimal is the signed number in its bits. -/
theorem decimal_text (pool : StringPool) (word : UInt32) :
    ResourceValue.text pool 0x10 word.toNat = toString word.toBitVec.toInt := by
  have bound := word.toNat_lt
  have signed :
      word.toBitVec.toInt =
        if (word.toNat : Int) / ResourceValue.halfWord % 2 = 1 then
          word.toNat - ResourceValue.wordBound
        else
          word.toNat := by
    rw [BitVec.toInt_eq_toNat_cond, UInt32.toNat_toBitVec, ResourceValue.halfWord,
      ResourceValue.wordBound]
    split <;> split <;> omega
  rw [signed]
  rfl

/-- A value is shown as its source says. -/
theorem Reads.value_eq
    (reads : assembly.Reads pool)
    (small : pool.length < noIndex)
    {value : SourceValue}
    (known : ∀ text ∈ value.texts, text ∈ pool) :
    (if value.rawIndex pool = noIndex then
        ResourceValue.text assembly.pool value.kind (value.data pool)
      else
        assembly.string (value.rawIndex pool)) =
      value.shown := by
  cases value with
  | text content =>
      have inPool := known content List.mem_cons_self
      have found := List.idxOf_lt_length_of_mem inPool
      have notNone : (SourceValue.text content).rawIndex pool ≠ noIndex := by
        simp only [SourceValue.rawIndex]
        omega
      rw [if_neg notNone]
      exact reads.string_idxOf small inPool
  | flag value =>
      cases value <;> rfl
  | number word =>
      exact decimal_text _ word

/-- An attribute is made of its record as its source says. -/
theorem Reads.toAttribute_raw
    (reads : assembly.Reads pool)
    (small : pool.length < noIndex)
    {source : SourceAttribute}
    (known : ∀ text ∈ source.texts, text ∈ pool) :
    assembly.toAttribute (source.raw pool) =
      source.decoded fun uri => Table.get? uri assembly.prefixes := by
  rcases source with ⟨namespaceUri, name, value⟩
  simp only [SourceAttribute.texts, List.mem_append, Option.mem_toList, List.mem_cons] at known
  have uri := reads.string_indexOf small fun text member => known text (.inl member)
  have attributeName := reads.attributeName_idxOf small (known name (.inr (.inl rfl)))
  have shown := reads.value_eq small fun text member => known text (.inr (.inr member))
  have nsPrefix :
      (Table.get? (namespaceUri.getD "") assembly.prefixes).getD "" =
        (namespaceUri.bind fun uri => Table.get? uri assembly.prefixes).getD "" := by
    cases namespaceUri with
    | none =>
        exact congrArg (Option.getD · "") reads.unnamed
    | some uri =>
        rfl
  calc
    assembly.toAttribute (SourceAttribute.raw pool ⟨namespaceUri, name, value⟩) =
        { name := assembly.attributeName (pool.idxOf name)
          value :=
            if value.rawIndex pool = noIndex then
              ResourceValue.text assembly.pool value.kind (value.data pool)
            else
              assembly.string (value.rawIndex pool)
          namespaceUri := assembly.string (indexOf pool namespaceUri)
          nsPrefix :=
            (Table.get? (assembly.string (indexOf pool namespaceUri))
              assembly.prefixes).getD "" } :=
      rfl
    _ = _ := by
      rw [uri, attributeName, shown, nsPrefix]
      rfl

/-- Once the pool is read, the chunk of a node does what the node says. -/
theorem Reads.advance_eq
    (reads : assembly.Reads pool)
    {buffer : Bytes}
    {header : Header}
    {node : Node}
    (covers : header.Covers buffer (node.compose pool))
    (fits : node.Fits pool)
    (enters : assembly.enter node = some next) :
    Assembly.advance buffer assembly header = .ok next := by
  rw [advance, node.read_eq covers fits]
  simp only [bind, Except.bind]
  cases node with
  | startNamespace nsPrefix uri =>
      have prefixRead := reads.string_idxOf fits.small (fits.known nsPrefix (by simp [Node.texts]))
      have uriRead := reads.string_idxOf fits.small (fits.known uri (by simp [Node.texts]))
      cases enters
      simp only [Node.part, step, prefixRead, uriRead]
  | endNamespace nsPrefix uri =>
      have uriRead := reads.string_idxOf fits.small (fits.known uri (by simp [Node.texts]))
      cases enters
      simp only [Node.part, step, uriRead]
  | startElement line name attributes =>
      have nameRead := reads.string_idxOf fits.small (fits.known name (by simp [Node.texts]))
      have attributesRead :
          (attributes.map (SourceAttribute.raw pool)).map assembly.toAttribute =
            attributes.map
              (SourceAttribute.decoded fun uri => Table.get? uri assembly.prefixes) := by
        rw [List.map_map]
        apply List.map_congr_left
        intro source present
        exact reads.toAttribute_raw fits.small (fits.known_attribute present)
      rw [enter] at enters
      simp only [Node.part, step, nameRead, attributesRead]
      split at enters
      · cases enters
      · rename_i placed
        cases enters
        rw [if_neg placed]
  | endElement line name =>
      rw [enter] at enters
      simp only [Node.part, step]
      cases opened : assembly.opened with
      | nil =>
          rw [opened] at enters
          cases enters
      | cons element outer =>
          rw [opened] at enters
          cases enters
          rfl

/-- Nodes leave the pool as it is. -/
theorem Reads.of_enter
    (reads : assembly.Reads pool)
    {node : Node}
    (named : ∀ nsPrefix, node ≠ .startNamespace nsPrefix "")
    (enters : assembly.enter node = some next) :
    next.Reads pool := by
  cases node with
  | startNamespace nsPrefix uri =>
      cases enters
      have nonempty : "" ≠ uri := by
        rintro rfl
        exact named nsPrefix rfl
      exact
        ⟨reads.strings, reads.resourceIds,
          (Table.get?_put_of_ne nonempty _ _).trans reads.unnamed⟩
  | endNamespace nsPrefix uri =>
      cases enters
      refine ⟨reads.strings, reads.resourceIds, ?_⟩
      by_cases same : "" = uri
      · rw [← same]
        exact Table.get?_erase_self _ _
      · exact (Table.get?_erase_of_ne same _).trans reads.unnamed
  | startElement line name attributes =>
      rw [Assembly.enter] at enters
      split at enters <;> cases enters
      exact ⟨reads.strings, reads.resourceIds, reads.unnamed⟩
  | endElement line name =>
      rw [Assembly.enter] at enters
      split at enters
      · cases enters
      · cases enters
        unfold attach
        split <;> exact ⟨reads.strings, reads.resourceIds, reads.unnamed⟩

/-- The chunks of nodes do one after the other what the nodes say. -/
theorem Reads.steps_eq
    (reads : assembly.Reads pool)
    {buffer : Bytes}
    {headers : List Header}
    {nodes : List Node}
    (covers : List.Forall₂ (fun header node => header.Covers buffer (node.compose pool))
      headers nodes)
    (fits : ∀ node ∈ nodes, node.Fits pool)
    (named : ∀ nsPrefix, Node.startNamespace nsPrefix "" ∉ nodes)
    (enters : nodes.foldlM enter assembly = some next) :
    Walk.steps (advance buffer) assembly headers = (next, none) := by
  induction covers generalizing assembly with
  | nil =>
      cases enters
      rfl
  | cons first _ inductionHypothesis =>
      rename_i header node headers rest _
      rw [List.foldlM_cons, Option.bind_eq_bind, Option.bind_eq_some_iff] at enters
      obtain ⟨later, entered, others⟩ := enters
      have advanced := reads.advance_eq first (fits node List.mem_cons_self) entered
      have stillReads : later.Reads pool := by
        refine reads.of_enter ?_ entered
        rintro nsPrefix rfl
        exact named nsPrefix List.mem_cons_self
      rw [Walk.steps, advanced]
      exact
        inductionHypothesis stillReads
          (fun other member => fits other (List.mem_cons_of_mem _ member))
          (fun nsPrefix member => named nsPrefix (List.mem_cons_of_mem _ member)) others

section Trees

mutual

/-- The nodes of an element put it where the innermost open element continues. -/
theorem enter_nodes
    (element : SourceElement)
    (line : Nat)
    (assembly : Assembly)
    (placed : ¬ (assembly.opened.isEmpty && assembly.closed.isSome)) :
    (element.nodes line).foldlM enter assembly =
      some (attach { assembly with pending := [] }
        { element.decoded (fun uri => Table.get? uri assembly.prefixes) line with
          namespaces := assembly.pending }
        assembly.opened) := by
  rcases element with ⟨name, attributes, children⟩
  rw [SourceElement.nodes, List.foldlM_cons, enter, if_neg placed]
  simp only [Option.bind_eq_bind, Option.bind_some, List.foldlM_append]
  rw [enter_nodesOfAll children (line + 1) assembly]
  rfl

theorem enter_nodesOfAll
    (children : List SourceElement)
    (line : Nat)
    (assembly : Assembly)
    (parent : Element)
    (outer : List Element) :
    (SourceElement.nodesOfAll line children).foldlM enter
        { assembly with pending := [], opened := parent :: outer } =
      some { assembly with
        pending := []
        opened :=
          { parent with
            children :=
              parent.children ++
                SourceElement.decodedAll (fun uri => Table.get? uri assembly.prefixes) line
                  children } ::
          outer } := by
  cases children with
  | nil =>
      rcases parent with ⟨_, _, _, _, _, _⟩
      rw [SourceElement.nodesOfAll, SourceElement.decodedAll, List.append_nil, List.foldlM_nil]
      rfl
  | cons element rest =>
      rw [SourceElement.nodesOfAll, List.foldlM_append, enter_nodes element line _ (by simp)]
      simp only [Option.bind_eq_bind, Option.bind_some, attach, SourceElement.decoded_undeclared]
      rw [enter_nodesOfAll rest line assembly, SourceElement.decodedAll, List.append_assoc]
      rfl

end

end Trees

end Assembly

end ApkAtlas.Xml
