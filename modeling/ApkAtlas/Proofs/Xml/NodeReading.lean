import ApkAtlas.Proofs.Xml.Source
import ApkAtlas.Proofs.Xml.Untrusted

namespace ApkAtlas.Xml

/-!
# Reading compiled nodes

The chunk of each node is read as the part that names the same strings by index, as long as
the indices, the line and the count of attributes fit their fields.
-/

open Chunk
open ApkAtlas.Fallible (windowWords u8_eq_word)

/-- What the chunk of a node says. -/
def Node.part (pool : List String) : Node → Part
  | .startNamespace nsPrefix uri => .startNamespace (pool.idxOf nsPrefix) (pool.idxOf uri)
  | .startElement line name attributes =>
      .startElement line (pool.idxOf name) (attributes.map (SourceAttribute.raw pool))
  | .endElement .. => .endElement
  | .endNamespace _ uri => .endNamespace (pool.idxOf uri)

section Fits

variable {pool : List String}

theorem idxOf_fits
    (small : pool.length < noIndex)
    {text : String}
    (known : text ∈ pool) :
    pool.idxOf text < Bytes.limit 4 := by
  have found := List.idxOf_lt_length_of_mem known
  rw [noIndex] at small
  rw [Bytes.limit_four]
  omega

theorem noIndex_fits : noIndex < Bytes.limit 4 := by
  decide

theorem indexOf_fits
    (small : pool.length < noIndex)
    {text? : Option String}
    (known : ∀ text ∈ text?, text ∈ pool) :
    indexOf pool text? < Bytes.limit 4 := by
  cases text? with
  | none =>
      exact noIndex_fits
  | some text =>
      exact idxOf_fits small (known text rfl)

theorem SourceValue.rawIndex_fits
    (small : pool.length < noIndex)
    {value : SourceValue}
    (known : ∀ text ∈ value.texts, text ∈ pool) :
    value.rawIndex pool < Bytes.limit 4 := by
  cases value with
  | text content =>
      exact idxOf_fits small (known content List.mem_cons_self)
  | flag _ | number _ =>
      exact noIndex_fits

theorem SourceValue.data_fits
    (small : pool.length < noIndex)
    {value : SourceValue}
    (known : ∀ text ∈ value.texts, text ∈ pool) :
    value.data pool < Bytes.limit 4 := by
  cases value with
  | text content =>
      exact idxOf_fits small (known content List.mem_cons_self)
  | flag value =>
      cases value <;> simp [data, Bytes.limit_four]
  | number word =>
      exact word.toNat_lt

theorem SourceValue.kind_fits (value : SourceValue) : value.kind < Bytes.limit 1 := by
  cases value <;> simp [kind, Bytes.limit_one]

/-- The numbers of a record fit their fields. -/
structure RawAttribute.Fits (raw : RawAttribute) : Prop where
  namespaceIndex : raw.namespaceIndex < Bytes.limit 4
  nameIndex : raw.nameIndex < Bytes.limit 4
  rawIndex : raw.rawIndex < Bytes.limit 4
  kind : raw.kind < Bytes.limit 1
  data : raw.data < Bytes.limit 4

/-- The record of an attribute fits, if its strings are in the pool. -/
theorem SourceAttribute.raw_fits
    (small : pool.length < noIndex)
    {source : SourceAttribute}
    (known : ∀ text ∈ source.texts, text ∈ pool) :
    (source.raw pool).Fits := by
  rcases source with ⟨namespaceUri, name, value⟩
  simp only [texts, List.mem_append, Option.mem_toList, List.mem_cons] at known
  have valueKnown : ∀ text ∈ value.texts, text ∈ pool :=
    fun text member => known text (.inr (.inr member))
  exact
    { namespaceIndex := indexOf_fits small fun text member => known text (.inl member)
      nameIndex := idxOf_fits small (known name (.inr (.inl rfl)))
      rawIndex := SourceValue.rawIndex_fits small valueKnown
      kind := value.kind_fits
      data := SourceValue.data_fits small valueKnown }

/-- The numbers of a node fit their fields. -/
structure Node.Fits (pool : List String) (node : Node) : Prop where
  small : pool.length < noIndex
  known : ∀ text ∈ node.texts, text ∈ pool
  line : node.line < Bytes.limit 4
  attributes : ∀ line name attributes, node = .startElement line name attributes →
    attributes.length < Bytes.limit 2

/-- The strings of an attribute are strings of the node it is on. -/
theorem Node.Fits.known_attribute
    {line : Nat}
    {name : String}
    {attributes : List SourceAttribute}
    (fits : (Node.startElement line name attributes).Fits pool)
    {source : SourceAttribute}
    (present : source ∈ attributes) :
    ∀ text ∈ source.texts, text ∈ pool := by
  intro text inSource
  apply fits.known
  exact List.mem_append_left _ (List.mem_flatMap.mpr ⟨source, present, inSource⟩)

end Fits

section Reading

variable
  {buffer : Bytes}
  {header : Header}
  {chunk : Composed}
  {pool : List String}
  {before after : List UInt8}

/-- The record of an attribute is read back where it is placed. -/
theorem readAttribute_eq
    {raw : RawAttribute}
    {position : Nat}
    (covers : header.Covers buffer chunk)
    (split : chunk.payload = before ++ raw.bytes ++ after)
    (start : chunk.headerSize + before.length = position)
    (fits : raw.Fits) :
    Part.readAttribute buffer header position = .ok raw := by
  have numbers :
      windowWords raw.bytes.toArray 0 [4, 4, 4, 2, 1, 1, 4] =
        [raw.namespaceIndex, raw.nameIndex, raw.rawIndex, typedSize, 0, raw.kind, raw.data] := by
    have sizeFits : typedSize % Bytes.limit 2 = typedSize := rfl
    have reserved : 0 % Bytes.limit 1 = 0 := rfl
    refine (windowWords_record _).trans ?_
    simp only [List.map_cons, List.map_nil, Nat.mod_eq_of_lt fits.namespaceIndex,
      Nat.mod_eq_of_lt fits.nameIndex, Nat.mod_eq_of_lt fits.rawIndex,
      Nat.mod_eq_of_lt fits.kind, Nat.mod_eq_of_lt fits.data, sizeFits, reserved]
  have found :
      header.bytes buffer position Part.attributeSize = .ok raw.bytes.toArray :=
    covers.payload_eq split start (length_record _)
  simp only [windowWords, Nat.reduceAdd, List.cons.injEq, and_true] at numbers
  obtain ⟨namespaceIndex, nameIndex, rawIndex, _, _, kind, data⟩ := numbers
  rw [Part.readAttribute, found]
  simp only [bind, Except.bind, Bytes.u32, u8_eq_word, namespaceIndex, nameIndex, rawIndex, kind,
    data]
  rfl

/-- The records of attributes are read back one behind the other. -/
theorem readAttributes_eq
    {raws : List RawAttribute}
    {position : Nat}
    (covers : header.Covers buffer chunk)
    (split : chunk.payload = before ++ raws.flatMap RawAttribute.bytes ++ after)
    (start : chunk.headerSize + before.length = position)
    (fits : ∀ raw ∈ raws, raw.Fits) :
    Part.readAttributes buffer header position Part.attributeSize raws.length = .ok raws := by
  induction raws generalizing before position with
  | nil =>
      rfl
  | cons raw rest inductionHypothesis =>
      have here :
          chunk.payload = before ++ raw.bytes ++ (rest.flatMap RawAttribute.bytes ++ after) := by
        simpa using split
      have behind :
          chunk.payload = (before ++ raw.bytes) ++ rest.flatMap RawAttribute.bytes ++ after := by
        simpa using split
      have long : raw.bytes.length = Part.attributeSize :=
        length_record _
      have first := readAttribute_eq covers here start (fits raw List.mem_cons_self)
      have others :=
        inductionHypothesis behind (by rw [List.length_append, ← Nat.add_assoc, start, long])
          fun other member => fits other (List.mem_cons_of_mem _ member)
      rw [List.length_cons, Part.readAttributes, first]
      simp only [bind, Except.bind, others]
      rfl

/-- Two numbers at the start of a payload are read back. -/
theorem exists_pair
    {first second : Nat}
    (covers : header.Covers buffer chunk)
    (split : chunk.payload = record [(4, first), (4, second)])
    (firstFits : first < Bytes.limit 4)
    (secondFits : second < Bytes.limit 4) :
    ∃ window,
      header.bytes buffer header.headerSize 8 = .ok window ∧
        Bytes.u32 window 0 = first ∧ Bytes.u32 window 4 = second := by
  have numbers := windowWords_record [(4, first), (4, second)]
  simp only [List.map_cons, List.map_nil, windowWords, Nat.mod_eq_of_lt firstFits,
    Nat.mod_eq_of_lt secondFits, Nat.reduceAdd, List.cons.injEq, and_true] at numbers
  have whole : chunk.payload = [] ++ record [(4, first), (4, second)] ++ [] := by
    rw [split, List.nil_append, List.append_nil]
  exact
    ⟨_, covers.payload_eq whole covers.headerSize.symm (length_record _), numbers.1, numbers.2⟩

/-- The line of a node is read back. -/
theorem Node.exists_line
    {node : Node}
    (covers : header.Covers buffer (node.compose pool))
    (fits : node.line < Bytes.limit 4) :
    ∃ window, header.bytes buffer 8 4 = .ok window ∧ Bytes.u32 window 0 = node.line := by
  have split :
      (node.compose pool).extension =
        [] ++ Bytes.ofNumber 4 node.line ++ Bytes.ofNumber 4 noIndex := by
    simp [compose, record]
  refine ⟨_, covers.extension_eq split rfl (Bytes.length_ofNumber 4 _), ?_⟩
  rw [Bytes.u32, word_ofNumber]
  exact Nat.mod_eq_of_lt fits

section Elements

variable
  {line : Nat}
  {name : String}
  {attributes : List SourceAttribute}

/-- The numbers in front of the attributes are read back. -/
theorem Node.exists_front
    (covers : header.Covers buffer ((Node.startElement line name attributes).compose pool))
    (fits : (Node.startElement line name attributes).Fits pool) :
    ∃ window,
      header.bytes buffer header.headerSize 14 = .ok window ∧
        Bytes.u32 window 4 = pool.idxOf name ∧
        Bytes.u16 window 8 = attributesStart ∧
        Bytes.u16 window 10 = Part.attributeSize ∧
        Bytes.u16 window 12 = attributes.length := by
  let fields : List (Nat × Nat) :=
    [(4, noIndex), (4, pool.idxOf name), (2, attributesStart), (2, Part.attributeSize),
      (2, attributes.length)]
  have nameFits := idxOf_fits fits.small (fits.known name (by simp [texts]))
  have countFits := fits.attributes line name attributes rfl
  have split :
      ((Node.startElement line name attributes).compose pool).payload =
        [] ++ record fields ++
          (record [(2, 0), (2, 0), (2, 0)] ++
            attributes.flatMap fun source => (source.raw pool).bytes) := by
    rw [List.nil_append, ← List.append_assoc, ← record_append]
    rfl
  have numbers :
      windowWords (record fields).toArray 0 [4, 4, 2, 2, 2] =
        [noIndex, pool.idxOf name, attributesStart, Part.attributeSize, attributes.length] := by
    refine (windowWords_record fields).trans ?_
    simp only [fields, List.map_cons, List.map_nil, Nat.mod_eq_of_lt noIndex_fits,
      Nat.mod_eq_of_lt nameFits, Nat.mod_eq_of_lt countFits]
    rfl
  simp only [windowWords, Nat.reduceAdd, List.cons.injEq, and_true] at numbers
  exact ⟨_, covers.payload_eq split covers.headerSize.symm (length_record _), numbers.2⟩

/-- The attributes of an element are read back from its chunk. -/
theorem Node.readAttributes_compose
    (covers : header.Covers buffer ((Node.startElement line name attributes).compose pool))
    (fits : (Node.startElement line name attributes).Fits pool) :
    Part.readAttributes buffer header (header.headerSize + attributesStart) Part.attributeSize
        attributes.length =
      .ok (attributes.map (SourceAttribute.raw pool)) := by
  let front : List (Nat × Nat) :=
    [(4, noIndex), (4, pool.idxOf name), (2, attributesStart), (2, Part.attributeSize),
      (2, attributes.length), (2, 0), (2, 0), (2, 0)]
  have split :
      ((Node.startElement line name attributes).compose pool).payload =
        record front ++
          (attributes.map (SourceAttribute.raw pool)).flatMap RawAttribute.bytes ++ [] := by
    simp [compose, Node.payload, front, List.flatMap_map]
  have start :
      ((Node.startElement line name attributes).compose pool).headerSize +
          (record front).length =
        header.headerSize + attributesStart := by
    rw [length_record, covers.headerSize]
    rfl
  have rawFits : ∀ raw ∈ attributes.map (SourceAttribute.raw pool), raw.Fits := by
    intro raw member
    obtain ⟨source, present, rfl⟩ := List.mem_map.mp member
    exact SourceAttribute.raw_fits fits.small (fits.known_attribute present)
  have read := readAttributes_eq covers split start rawFits
  rwa [List.length_map] at read

/-- The start of an element is read back from its chunk. -/
theorem Node.readStartElement_eq
    (covers : header.Covers buffer ((Node.startElement line name attributes).compose pool))
    (fits : (Node.startElement line name attributes).Fits pool) :
    Part.readStartElement buffer header =
      .ok ((Node.startElement line name attributes).part pool) := by
  obtain ⟨lineField, lineFound, lineRead⟩ := Node.exists_line covers fits.line
  obtain ⟨front, frontFound, nameIndex, start, stride, count⟩ := Node.exists_front covers fits
  have attributesRead := Node.readAttributes_compose covers fits
  rw [Part.readStartElement, lineFound, frontFound]
  simp only [bind, Except.bind, start, stride, count, attributesRead, lineRead, nameIndex]
  rfl

end Elements

/-- The chunk of a node is read as what it says. -/
theorem Node.read_eq
    {node : Node}
    (covers : header.Covers buffer (node.compose pool))
    (fits : node.Fits pool) :
    Part.read buffer header = .ok (node.part pool) := by
  have token := covers.token
  cases node with
  | startNamespace nsPrefix uri =>
      obtain ⟨window, found, first, second⟩ :=
        exists_pair covers rfl (idxOf_fits fits.small (fits.known nsPrefix (by simp [texts])))
          (idxOf_fits fits.small (fits.known uri (by simp [texts])))
      replace token : header.token = Token.startNamespace := token
      rw [Part.read, token, if_neg (by decide), if_neg (by decide), if_pos rfl, found]
      simp only [bind, Except.bind, first, second]
      rfl
  | endNamespace nsPrefix uri =>
      obtain ⟨window, found, first, second⟩ :=
        exists_pair covers rfl (idxOf_fits fits.small (fits.known nsPrefix (by simp [texts])))
          (idxOf_fits fits.small (fits.known uri (by simp [texts])))
      replace token : header.token = Token.endNamespace := token
      rw [Part.read, token, if_neg (by decide), if_neg (by decide), if_neg (by decide),
        if_pos rfl, found]
      simp only [bind, Except.bind, second]
      rfl
  | startElement line name attributes =>
      replace token : header.token = Token.startElement := token
      rw [Part.read, token, if_neg (by decide), if_neg (by decide), if_neg (by decide),
        if_neg (by decide), if_pos rfl]
      exact readStartElement_eq covers fits
  | endElement line name =>
      replace token : header.token = Token.endElement := token
      rw [Part.read, token, if_neg (by decide), if_neg (by decide), if_neg (by decide),
        if_neg (by decide), if_neg (by decide), if_pos rfl]
      rfl

end Reading

end ApkAtlas.Xml
