import ApkAtlas.Proofs.Table
import ApkAtlas.Proofs.Xml.NodeEffect

namespace ApkAtlas.Xml

/-!
# Decoding undoes compiling

A document whose strings, attribute counts and size fit the format is decoded into the tree
that it was compiled from: the nodes of its namespaces declare them for the root, and the
nodes of the root build the tree.
-/

open Chunk
open Text (Utf16.encodeUnits)

namespace Assembly

section Namespaces

/-- A namespace whose prefix and name are new is declared behind the others. -/
theorem enter_startNamespace
    (assembly : Assembly)
    {done : List (String × String)}
    {nsPrefix uri : String}
    (newPrefix : nsPrefix ∉ done.map Prod.fst)
    (newUri : uri ∉ done.map Prod.snd) :
    enter { assembly with pending := done, prefixes := done.map Prod.swap }
        (.startNamespace nsPrefix uri) =
      some { assembly with
        pending := done ++ [(nsPrefix, uri)]
        prefixes := (done ++ [(nsPrefix, uri)]).map Prod.swap } := by
  have swapped : uri ∉ (done.map Prod.swap).map Prod.fst := by
    rwa [List.map_map]
  have declared :
      Table.put nsPrefix uri done = done ++ [(nsPrefix, uri)] :=
    Table.put_of_get?_eq_none (Table.get?_eq_none_of_not_mem newPrefix) uri
  have named :
      Table.put uri nsPrefix (done.map Prod.swap) =
        (done ++ [(nsPrefix, uri)]).map Prod.swap := by
    rw [Table.put_of_get?_eq_none (Table.get?_eq_none_of_not_mem swapped), List.map_append]
    rfl
  simp only [enter, declared, named]

/-- Namespaces that start, with different prefixes and for different names, are declared
for the next element in their order. -/
theorem enter_startNamespaces
    (assembly : Assembly)
    {done namespaces : List (String × String)}
    (prefixes : ((done ++ namespaces).map Prod.fst).Nodup)
    (uris : ((done ++ namespaces).map Prod.snd).Nodup) :
    (namespaces.map fun (nsPrefix, uri) => Node.startNamespace nsPrefix uri).foldlM enter
        { assembly with pending := done, prefixes := done.map Prod.swap } =
      some { assembly with
        pending := done ++ namespaces
        prefixes := (done ++ namespaces).map Prod.swap } := by
  induction namespaces generalizing done with
  | nil =>
      rw [List.append_nil]
      rfl
  | cons first rest inductionHypothesis =>
      rcases first with ⟨nsPrefix, uri⟩
      have together : done ++ (nsPrefix, uri) :: rest = (done ++ [(nsPrefix, uri)]) ++ rest := by
        simp
      have newPrefix : nsPrefix ∉ done.map Prod.fst := by
        simp only [List.map_append, List.map_cons, List.nodup_append] at prefixes
        intro member
        exact prefixes.2.2 nsPrefix member nsPrefix List.mem_cons_self rfl
      have newUri : uri ∉ done.map Prod.snd := by
        simp only [List.map_append, List.map_cons, List.nodup_append] at uris
        intro member
        exact uris.2.2 uri member uri List.mem_cons_self rfl
      rw [together] at prefixes uris ⊢
      rw [List.map_cons, List.foldlM_cons]
      simp only [enter_startNamespace assembly newPrefix newUri]
      exact inductionHypothesis prefixes uris

/-- The ends of declarations change nothing but the prefixes. -/
theorem enter_endNamespaces
    (assembly : Assembly)
    (namespaces : List (String × String)) :
    ∃ prefixes,
      (namespaces.map fun (nsPrefix, uri) => Node.endNamespace nsPrefix uri).foldlM enter assembly =
        some { assembly with prefixes } := by
  induction namespaces generalizing assembly with
  | nil =>
      exact ⟨assembly.prefixes, rfl⟩
  | cons first rest inductionHypothesis =>
      rcases first with ⟨nsPrefix, uri⟩
      exact inductionHypothesis { assembly with prefixes := Table.erase uri assembly.prefixes }

end Namespaces

end Assembly

namespace SourceDocument

/-- The prefix that a namespace is declared under. -/
def prefixOf (document : SourceDocument) (uri : String) : Option String :=
  (document.namespaces.find? fun declared => declared.2 == uri).map Prod.fst

/-- The document after decoding: the root declares the namespaces. -/
def decoded (document : SourceDocument) : Document :=
  { root :=
      { document.root.decoded document.prefixOf rootLine with namespaces := document.namespaces }
    pool := ⟨document.pool.toArray, 0, false⟩
    resourceIds := [] }

/-- A document that the format has room for. -/
structure Compilable (document : SourceDocument) : Prop where
  attributes : ∀ element ∈ document.root.subtree, element.attributes.length ≤ 65535
  texts : ∀ node ∈ document.nodes, ∀ text ∈ node.texts,
    (Utf16.encodeUnits text).length < 0x8000
  prefixes : (document.namespaces.map Prod.fst).Nodup
  uris : (document.namespaces.map Prod.snd).Nodup
  named : "" ∉ document.namespaces.map Prod.snd
  size : document.compile.size < 4294967296

section Fits

mutual

/-- Every node of an element is the start or the end of an element inside it, on a line that
is at most as far down as there are nodes. -/
theorem exists_element_of_mem_nodes
    (element : SourceElement)
    (line : Nat)
    {node : Node}
    (member : node ∈ element.nodes line) :
    ∃ inner ∈ element.subtree, ∃ start < line + (element.nodes line).length,
      node = .startElement start inner.name inner.attributes ∨
        node = .endElement start inner.name := by
  rcases element with ⟨name, attributes, children⟩
  rw [SourceElement.nodes] at member ⊢
  rw [SourceElement.subtree]
  simp only [List.mem_cons, List.mem_append, List.not_mem_nil, or_false] at member
  simp only [List.length_cons, List.length_append, List.length_nil]
  rcases member with rfl | inside | rfl
  · exact ⟨_, List.mem_cons_self, line, by omega, .inl rfl⟩
  · obtain ⟨inner, inChildren, start, within, shape⟩ :=
      exists_element_of_mem_nodesOfAll children (line + 1) inside
    exact ⟨inner, List.mem_cons_of_mem _ inChildren, start, by omega, shape⟩
  · exact ⟨_, List.mem_cons_self, line, by omega, .inr rfl⟩

/-- A node of some elements starts or ends one of those in them. -/
theorem exists_element_of_mem_nodesOfAll
    (elements : List SourceElement)
    (line : Nat)
    {node : Node}
    (member : node ∈ SourceElement.nodesOfAll line elements) :
    ∃ inner ∈ SourceElement.subtrees elements,
      ∃ start < line + (SourceElement.nodesOfAll line elements).length,
        node = .startElement start inner.name inner.attributes ∨
          node = .endElement start inner.name := by
  cases elements with
  | nil =>
      cases member
  | cons element rest =>
      rw [SourceElement.nodesOfAll] at member ⊢
      rw [SourceElement.subtrees, List.length_append]
      rcases List.mem_append.mp member with inFirst | inRest
      · obtain ⟨inner, inSubtree, start, within, shape⟩ :=
          exists_element_of_mem_nodes element line inFirst
        exact ⟨inner, List.mem_append_left _ inSubtree, start, by omega, shape⟩
      · obtain ⟨inner, inSubtrees, start, within, shape⟩ :=
          exists_element_of_mem_nodesOfAll rest line inRest
        exact ⟨inner, List.mem_append_right _ inSubtrees, start, by omega, shape⟩

end

variable {document : SourceDocument}

theorem length_le_length_flatMap_bytes (chunks : List Composed) :
    chunks.length ≤ (chunks.flatMap Composed.bytes).length := by
  induction chunks with
  | nil =>
      exact Nat.le_refl _
  | cons chunk rest inductionHypothesis =>
      have atLeast : leastHeaderSize ≤ chunk.headerSize :=
        Nat.le_add_right _ _
      rw [leastHeaderSize] at atLeast
      rw [List.flatMap_cons, List.length_append, List.length_cons, Composed.length_bytes]
      omega

theorem length_bytes_le
    {chunk : Composed}
    (member : chunk ∈ document.chunks) :
    chunk.bytes.length ≤ document.compose.payload.length :=
  Composed.length_bytes_le member

/-- A compiled document is its payload behind a header of eight bytes. -/
theorem size_compile (document : SourceDocument) :
    document.compile.size = document.compose.payload.length + 8 := by
  simp [compile, Composed.headerSize, compose, leastHeaderSize, Nat.add_comm]

/-- The payload of a document leaves room for its header. -/
theorem Compilable.payload_fits
    (compilable : document.Compilable) :
    document.compose.payload.length + 8 < 4294967296 := by
  rw [← size_compile]
  exact compilable.size

/-- The nodes of a document: its declarations, those of its root, and the ends of its declarations.
-/
theorem mem_nodes {node : Node} :
    node ∈ document.nodes ↔
      (∃ declared ∈ document.namespaces, node = .startNamespace declared.1 declared.2) ∨
        node ∈ document.root.nodes rootLine ∨
        ∃ declared ∈ document.namespaces, node = .endNamespace declared.1 declared.2 := by
  simp [nodes, eq_comm]

theorem Compilable.line_fits
    (compilable : document.Compilable)
    {node : Node}
    (member : node ∈ document.nodes) :
    node.line < Bytes.limit 4 := by
  rw [Bytes.limit_four]
  rcases mem_nodes.mp member with ⟨_, _, rfl⟩ | inRoot | ⟨_, _, rfl⟩
  · simp [Node.line]
  · obtain ⟨inner, _, start, within, shape⟩ := exists_element_of_mem_nodes _ _ inRoot
    have count : document.chunks.length ≤ document.compose.payload.length :=
      length_le_length_flatMap_bytes document.chunks
    have chunkCount : document.chunks.length = document.nodes.length + 1 := by
      simp [chunks]
    have nodeCount : (document.root.nodes rootLine).length ≤ document.nodes.length := by
      simp only [nodes, List.length_append]
      omega
    have size := compilable.payload_fits
    have onLine : node.line = start := by
      rcases shape with rfl | rfl <;> rfl
    have second : rootLine = 2 := rfl
    omega
  · simp [Node.line]

/-- Every node of a document that the format has room for fits. -/
theorem Compilable.fits
    (compilable : document.Compilable)
    {node : Node}
    (member : node ∈ document.nodes) :
    node.Fits document.pool where
  small := by
    have table := StringPool.length_payload document.pool
    have inside :
        (StringPool.compose document.pool).bytes.length ≤ document.compose.payload.length :=
      length_bytes_le List.mem_cons_self
    have size := compilable.payload_fits
    rw [Composed.length_bytes] at inside
    rw [noIndex]
    omega
  known := by
    intro text inNode
    exact mem_poolOf.mpr (List.mem_flatMap.mpr ⟨node, member, inNode⟩)
  line := compilable.line_fits member
  attributes := by
    rintro line name attributes rfl
    rcases mem_nodes.mp member with ⟨_, _, other⟩ | inRoot | ⟨_, _, other⟩
    · cases other
    · obtain ⟨inner, inSubtree, start, _, same | other⟩ := exists_element_of_mem_nodes _ _ inRoot
      · cases same
        exact Nat.lt_succ_of_le (compilable.attributes inner inSubtree)
      · cases other
    · cases other

/-- A compilable document declares no empty namespace. -/
theorem Compilable.named_nodes
    (compilable : document.Compilable)
    (nsPrefix : String) :
    Node.startNamespace nsPrefix "" ∉ document.nodes := by
  intro member
  rcases mem_nodes.mp member with ⟨declared, inNamespaces, same⟩ | inRoot | ⟨_, _, other⟩
  · cases declared
    cases same
    exact compilable.named (List.mem_map_of_mem inNamespaces)
  · obtain ⟨_, _, _, _, other | other⟩ := exists_element_of_mem_nodes _ _ inRoot <;> cases other
  · cases other

/-- The chunks of a document that the format has room for fit. -/
theorem Compilable.chunk_fits
    (compilable : document.Compilable)
    {chunk : Composed}
    (member : chunk ∈ document.chunks) :
    chunk.Fits := by
  have inside := length_bytes_le member
  have size := compilable.payload_fits
  refine ⟨?_, ?_, by rw [Bytes.limit_four]; omega⟩
  · rcases List.mem_cons.mp member with rfl | inNodes
    · simp [StringPool.compose, Token.stringPool, Bytes.limit_two]
    · obtain ⟨node, _, rfl⟩ := List.mem_map.mp inNodes
      cases node <;>
        simp [Node.compose, Node.token, Token.startNamespace, Token.endNamespace,
          Token.startElement, Token.endElement, Bytes.limit_two]
  · rcases List.mem_cons.mp member with rfl | inNodes
    · rw [StringPool.headerSize_compose]
      decide
    · obtain ⟨node, _, rfl⟩ := List.mem_map.mp inNodes
      simp [Node.compose, Composed.headerSize, leastHeaderSize, Bytes.limit_two]

end Fits

section Decoding

variable {document : SourceDocument}

/-- A namespace is looked up with the prefix that was declared for it. -/
theorem get?_swap (document : SourceDocument) :
    (fun uri => Table.get? uri (document.namespaces.map Prod.swap)) = document.prefixOf := by
  funext uri
  rw [prefixOf]
  induction document.namespaces with
  | nil =>
      rfl
  | cons first rest inductionHypothesis =>
      rcases first with ⟨nsPrefix, known⟩
      by_cases same : known = uri
      · simp [Table.get?, same]
      · simpa [Table.get?, same] using inductionHypothesis

/-- The nodes of a document leave its root closed. -/
theorem Compilable.enter_nodes
    (compilable : document.Compilable)
    (pool : StringPool) :
    ∃ prefixes,
      document.nodes.foldlM Assembly.enter { pool } =
        some { pool, prefixes, closed := some document.decoded.root } := by
  let declared : Assembly :=
    { pool
      prefixes := document.namespaces.map Prod.swap
      pending := document.namespaces }
  let built : Assembly :=
    { pool
      prefixes := document.namespaces.map Prod.swap
      closed := some document.decoded.root }
  have started :
      (document.namespaces.map fun (nsPrefix, uri) =>
          Node.startNamespace nsPrefix uri).foldlM Assembly.enter { pool } =
        some declared :=
    @Assembly.enter_startNamespaces { pool } [] _ compilable.prefixes compilable.uris
  have entered :
      (document.root.nodes rootLine).foldlM Assembly.enter declared = some built := by
    rw [Assembly.enter_nodes _ _ declared Bool.false_ne_true, get?_swap]
    rfl
  obtain ⟨prefixes, ended⟩ := built.enter_endNamespaces document.namespaces.reverse
  refine ⟨prefixes, ?_⟩
  rw [nodes, List.foldlM_append, List.foldlM_append, started]
  simp only [Option.bind_eq_bind, Option.bind_some, entered, ended]
  rfl

/-- The chunks of a compilable document fit. -/
theorem Compilable.compose_fits
    (compilable : document.Compilable) :
    document.compose.Fits := by
  have size := compilable.size
  refine ⟨?_, ?_, ?_⟩
  · simp [compose, Token.xml, Bytes.limit_two]
  · simp [compose, Composed.headerSize, leastHeaderSize, Bytes.limit_two]
  · simpa [compile, Bytes.limit_four] using size

/-- The chunk of the pool is read as the strings of the document. -/
theorem Compilable.read_pool
    (compilable : document.Compilable)
    {buffer : Bytes}
    {header : Header}
    (covers : header.Covers buffer (StringPool.compose document.pool)) :
    Part.read buffer header = .ok (.strings document.decoded.pool) := by
  have token : header.token = Token.stringPool := covers.token
  have poolFits : (StringPool.compose document.pool).Fits :=
    compilable.chunk_fits List.mem_cons_self
  have short : ∀ text ∈ document.pool, (Utf16.encodeUnits text).length < 0x8000 := by
    intro text member
    obtain ⟨node, inNodes, inNode⟩ := List.mem_flatMap.mp (mem_poolOf.mp member)
    exact compilable.texts node inNodes text inNode
  rw [Part.read, if_pos token, StringPool.parse_compose covers poolFits.size short]
  rfl

/-- The chunk of the pool is read into an assembly that knows the strings of the document. -/
theorem Compilable.advance_pool
    (compilable : document.Compilable)
    {buffer : Bytes}
    {header : Header}
    (covers : header.Covers buffer (StringPool.compose document.pool)) :
    Assembly.advance buffer {} header = .ok { pool := document.decoded.pool } := by
  rw [Assembly.advance, compilable.read_pool covers]
  rfl

/-- The chunks of a document lead to its root and its strings. -/
theorem Compilable.run_eq
    (compilable : document.Compilable)
    {buffer : Bytes}
    {headers : List Header}
    (covers : List.Forall₂ (fun header chunk => header.Covers buffer chunk)
      headers document.chunks) :
    ∃ prefixes,
      Walk.run ⟨headers, none⟩ (Assembly.advance buffer) {} =
        ({ pool := document.decoded.pool, prefixes, closed := some document.decoded.root },
          none) := by
  obtain ⟨poolHeader, nodeHeaders, poolCovers, nodeCovers, rfl⟩ :=
    List.forall₂_cons_right_iff.mp covers
  obtain ⟨prefixes, entered⟩ := compilable.enter_nodes document.decoded.pool
  refine ⟨prefixes, ?_⟩
  have reads :
      Assembly.Reads { pool := document.decoded.pool } document.pool :=
    ⟨rfl, rfl, rfl⟩
  have steps :=
    reads.steps_eq (List.forall₂_map_right_iff.mp nodeCovers)
      (fun _ member => compilable.fits member) compilable.named_nodes entered
  simp only [Walk.run, Walk.steps, compilable.advance_pool poolCovers, steps]

/-- A compilable document is decoded as it was before it was compiled. -/
theorem decode_compile (compilable : document.Compilable) :
    Document.decode document.compile = .ok document.decoded := by
  have whole :
      document.compile.toList = [] ++ document.compose.bytes ++ [] := by
    simp [compile]
  obtain ⟨header, read, _, covers⟩ := readHeader_composed compilable.compose_fits whole
  replace read : readHeader document.compile 0 = .ok header := read
  have token : header.token = Token.xml := covers.token
  obtain ⟨headers, children, placed⟩ :=
    covers.exists_children rfl fun _ member => compilable.chunk_fits member
  obtain ⟨prefixes, ran⟩ := compilable.run_eq placed
  rw [Document.decode_eq_bind, read]
  simp only [bind, Except.bind, if_pos token, children, ran, Fallible.outcome]
  rfl

end Decoding

section Declarations

mutual

/-- No element below the root has declarations. -/
theorem undeclared_of_mem_decoded
    (prefixOf : String → Option String)
    (line : Nat)
    (element : SourceElement) :
    ∀ inner ∈ (element.decoded prefixOf line).subtree, inner.namespaces = [] := by
  rcases element with ⟨name, attributes, children⟩
  rw [SourceElement.decoded, Element.subtree]
  intro inner member
  rcases List.mem_cons.mp member with rfl | inChildren
  · rfl
  · exact undeclared_of_mem_decodedAll prefixOf (line + 1) children inner inChildren

theorem undeclared_of_mem_decodedAll
    (prefixOf : String → Option String)
    (line : Nat)
    (elements : List SourceElement) :
    ∀ inner ∈ Element.subtrees (SourceElement.decodedAll prefixOf line elements),
      inner.namespaces = [] := by
  cases elements with
  | nil =>
      intro inner member
      cases member
  | cons element rest =>
      rw [SourceElement.decodedAll, Element.subtrees]
      intro inner member
      rcases List.mem_append.mp member with inFirst | inRest
      · exact undeclared_of_mem_decoded prefixOf line element inner inFirst
      · exact undeclared_of_mem_decodedAll prefixOf line rest inner inRest

end

/-- Decoding undoes compiling, and of the decoded elements exactly the root declares the
namespaces. -/
theorem decoding_undoes_compiling
    (document : SourceDocument)
    (compilable : document.Compilable) :
    Document.decode document.compile = .ok document.decoded ∧
      document.decoded.root.namespaces = document.namespaces ∧
      ∀ inner ∈ Element.subtrees document.decoded.root.children, inner.namespaces = [] := by
  refine ⟨decode_compile compilable, rfl, ?_⟩
  rcases document with ⟨⟨name, attributes, children⟩, namespaces⟩
  exact undeclared_of_mem_decodedAll _ (rootLine + 1) children

/-- A document with nested elements of one name, a name that is empty, every kind of value,
and namespaces with an empty prefix and with none. -/
def sampleDocument : SourceDocument :=
  { root :=
      { name := "manifest"
        attributes :=
          [ ⟨none, "package", .text "com.example.😀"⟩,
            ⟨some "urn:a", "versionCode", .number 4294967295⟩,
            ⟨some "urn:b", "debuggable", .flag true⟩,
            ⟨some "urn:c", "", .text ""⟩ ]
        children :=
          [ ⟨"application", [⟨some "urn:a", "name", .flag false⟩],
              [⟨"activity", [⟨some "urn:a", "name", .text "manifest"⟩], []⟩]⟩,
            ⟨"manifest", [], []⟩ ] }
    namespaces := [("android", "urn:a"), ("", "urn:b")] }

/-- A document with characters beyond 16 bits, numbers, and attributes of several namespaces. -/
theorem sampleDocument_decodes :
    sampleDocument.Compilable ∧
      Document.decode sampleDocument.compile = .ok sampleDocument.decoded ∧
      sampleDocument.decoded.root.attributes =
        [ ⟨"package", "com.example.😀", "", ""⟩,
          ⟨"versionCode", "-1", "urn:a", "android"⟩,
          ⟨"debuggable", "true", "urn:b", ""⟩,
          ⟨"", "", "urn:c", ""⟩ ] := by
  have compilable : sampleDocument.Compilable :=
    { attributes := by decide +kernel
      texts := by decide +kernel
      prefixes := by decide +kernel
      uris := by decide +kernel
      named := by decide +kernel
      size := by decide +kernel }
  exact ⟨compilable, (decoding_undoes_compiling sampleDocument compilable).1, by decide +kernel⟩

end Declarations

end SourceDocument

end ApkAtlas.Xml
