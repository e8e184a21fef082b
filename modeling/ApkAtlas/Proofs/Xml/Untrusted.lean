import ApkAtlas.Proofs.Chunk.Fallible
import ApkAtlas.Xml.Compiled

namespace ApkAtlas.Xml

/-!
# Compiled XML from untrusted bytes

Whatever the bytes are, decoding them ends with a document or with a declared error that
points into them. The decoder is written once more with every operation that could fail
otherwise: records, list indices, the packing of floats. Both come to the same.
-/

open Chunk
open ResourceValue (Kind checkedText wordBound)
open ApkAtlas.Fallible (failsWithin_outcome outcome)

section ErrorPlace

variable {buffer : Bytes} {header : Header} {size : Nat}

/-- Reading identifiers fails within the buffer. -/
theorem Part.failsWithin_readIds
    (inside : header.chunkEnd ≤ size)
    (index count : Nat) :
    FailsWithin size (Part.readIds buffer header index count) := by
  induction count generalizing index with
  | zero =>
      exact failsWithin_ok _
  | succ count inductionHypothesis =>
      apply FailsWithin.bind (header.failsWithin_bytes inside (header.headerSize + index * 4) 4)
      intro _ _
      exact (inductionHypothesis (index + 1)).map _

/-- Reading attributes fails within the buffer. -/
theorem Part.failsWithin_readAttributes
    (inside : header.chunkEnd ≤ size)
    (position stride count : Nat) :
    FailsWithin size (Part.readAttributes buffer header position stride count) := by
  induction count generalizing position with
  | zero =>
      exact failsWithin_ok _
  | succ count inductionHypothesis =>
      apply FailsWithin.bind
      · exact (header.failsWithin_bytes inside position Part.attributeSize).map _
      · intro _ _
        exact (inductionHypothesis (position + stride)).map _

/-- Reading the start of an element fails within the buffer. -/
theorem Part.failsWithin_readStartElement (inside : header.chunkEnd ≤ size) :
    FailsWithin size (Part.readStartElement buffer header) := by
  apply FailsWithin.bind (header.failsWithin_bytes inside 8 4)
  intro _ _
  apply FailsWithin.bind (header.failsWithin_bytes inside header.headerSize 14)
  intro _ _
  exact (Part.failsWithin_readAttributes inside _ _ _).map _

/-- Reading a part fails within the buffer. -/
theorem Part.failsWithin_read (inside : header.chunkEnd ≤ size) :
    FailsWithin size (Part.read buffer header) := by
  rw [Part.read]
  split_ifs
  · exact (StringPool.failsWithin_parse inside).map _
  · exact (Part.failsWithin_readIds inside 0 _).map _
  · exact (header.failsWithin_bytes inside header.headerSize 8).map _
  · exact (header.failsWithin_bytes inside header.headerSize 8).map _
  · exact Part.failsWithin_readStartElement inside
  · exact failsWithin_ok _
  · exact (header.failsWithin_bytes inside header.headerSize 4).map _
  · exact failsWithin_ok _

/-- Adding a part to a document fails within the buffer. -/
theorem Assembly.failsWithin_step
    (inside : header.chunkEnd ≤ size)
    (assembly : Assembly)
    (part : Part) :
    FailsWithin size (assembly.step header part) := by
  cases part with
  | startElement line nameIndex attributes =>
      rw [Assembly.step]
      split
      · exact header.failsWithin_malformed inside _
      · exact failsWithin_ok _
  | endElement =>
      rw [Assembly.step]
      split
      · exact header.failsWithin_malformed inside _
      · exact failsWithin_ok _
  | text index =>
      rw [Assembly.step]
      split <;> exact failsWithin_ok _
  | strings _ | resourceIds _ | startNamespace _ _ | endNamespace _ | unknown =>
      exact failsWithin_ok _

/-- Each chunk is taken in or fails within the buffer. -/
theorem Assembly.failsWithin_advance
    (inside : header.chunkEnd ≤ size)
    (assembly : Assembly) :
    FailsWithin size (Assembly.advance buffer assembly header) := by
  apply FailsWithin.bind (Part.failsWithin_read inside)
  intro part _
  exact assembly.failsWithin_step inside part

/-- Decoding reads the header, and then the chunks in it one after the other. -/
theorem Document.decode_eq_bind (buffer : Bytes) :
    Document.decode buffer = (do
      let header ← readHeader buffer 0
      if header.token = Token.xml then
        let assembly ← outcome ((header.children buffer).run (Assembly.advance buffer) {})
        Document.ofAssembly assembly
      else
        throw (.malformed (.notXml header.token) 0)) := by
  rw [Document.decode, Document.assemble]
  cases readHeader buffer 0 with
  | error _ =>
      rfl
  | ok header =>
      simp only [bind, Except.bind]
      by_cases isXml : header.token = Token.xml
      · simp only [if_pos isXml]
        rcases (header.children buffer).run _ _ with ⟨_, _ | _⟩ <;> rfl
      · simp only [if_neg isXml]
        rfl

/-- A document fails to be decoded at a place in its bytes. -/
theorem Document.failsWithin_decode (buffer : Bytes) :
    FailsWithin buffer.size (Document.decode buffer) := by
  rw [Document.decode_eq_bind]
  apply FailsWithin.bind (failsWithin_readHeader (by omega) (by omega))
  intro header read
  have inside := (readHeader_sound read).2.2
  split
  · apply FailsWithin.bind
    · apply failsWithin_outcome
      exact
        (Header.inside_children inside).within_run
          (fun _ within assembly => Assembly.failsWithin_advance within assembly) _
    · intro assembly _
      rw [Document.ofAssembly]
      split
      · exact failsWithin_error ⟨by omega, by omega⟩
      · exact failsWithin_ok _
  · exact failsWithin_error ⟨by omega, by omega⟩

end ErrorPlace

namespace Fallible

open ApkAtlas.Fallible hiding failsWithin_outcome outcome

section Values

/-- The string at an index that the pool is asked for only if it has it. -/
def poolText (pool : StringPool) (index : Nat) : Except ReadFault String :=
  if index < pool.strings.size then
    match pool.strings[index]? with
    | some text => .ok text
    | none => .error .index
  else
    .ok ""

/-- The packed number in a word; the place of its point is looked up. -/
def complex (data : Nat) : Except ReadFault ResourceValue.Complex :=
  match [0, 7, 15, 23][data / 16 % 4]? with
  | some fractionBits => .ok ⟨Bytes.signed 24 (data / 256), fractionBits, data % 16⟩
  | none => .error .index

/-- The text of a typed value. -/
def valueText (pool : StringPool) (code data : Nat) : Except ReadFault String :=
  match Kind.ofCode code with
  | .string => poolText pool data
  | .float => (checkedText pool code data).mapError .word
  | .dimension => do return (← complex data).dimensionText
  | .fraction => do return (← complex data).fractionText
  | _ => .ok (ResourceValue.text pool code data)

/-- Looking up a text never fails. -/
theorem poolText_eq (pool : StringPool) (index : Nat) :
    poolText pool index = .ok (pool.text index) := by
  rw [poolText, StringPool.text, StringPool.get?]
  split
  · rename_i known
    simp [Array.getElem?_eq_getElem known]
  · rename_i unknown
    simp [Array.getElem?_eq_none (Nat.not_lt.mp unknown)]

/-- Splitting a word of 32 bits never fails. -/
theorem complex_eq
    {data : Nat}
    (inWord : data < 4294967296) :
    complex data = .ok (ResourceValue.Complex.ofWord data) := by
  have bits : ((data : Int) % wordBound).toNat = data := by
    simp only [wordBound]
    omega
  have radix : data / 16 % 4 < 4 := Nat.mod_lt _ (by decide)
  rw [complex, ResourceValue.Complex.ofWord, bits]
  generalize data / 16 % 4 = place at radix ⊢
  match place, radix with
  | 0, _ | 1, _ | 2, _ | 3, _ => rfl

/-- The text of a typed value never fails. -/
theorem valueText_eq
    (pool : StringPool)
    (code : Nat)
    {data : Nat}
    (inWord : data < 4294967296) :
    valueText pool code data = .ok (ResourceValue.text pool code data) := by
  rw [valueText]
  split <;> rename_i kind
  · rw [poolText_eq, ResourceValue.text, kind]
    rfl
  · have notNegative : ¬ (data : Int) < 0 := by
      omega
    have notTooLarge : ¬ wordBound ≤ (data : Int) := by
      simp only [wordBound]
      omega
    rw [checkedText, if_neg (fun both => notNegative both.2),
      if_neg (fun both => notTooLarge both.2)]
    rfl
  · rw [complex_eq inWord, ResourceValue.text, kind]
    rfl
  · rw [complex_eq inWord, ResourceValue.text, kind]
    rfl
  · rfl

end Values

section Attributes

/-- The string at an index of the pool that was read last. -/
def string (assembly : Assembly) (index : Nat) : Except ReadFault String :=
  if index = noIndex then .ok "" else poolText assembly.pool index

def attributeName (assembly : Assembly) (index : Nat) : Except ReadFault String := do
  let name ← string assembly index
  if name.isEmpty && index < assembly.resourceIds.size then
    match assembly.resourceIds[index]? with
    | some id => return Text.markedHex 8 id
    | none => throw .index
  else
    return name

def toAttribute (assembly : Assembly) (raw : RawAttribute) : Except ReadFault Attribute := do
  let namespaceUri ← string assembly raw.namespaceIndex
  let name ← attributeName assembly raw.nameIndex
  let value ←
    if raw.rawIndex = noIndex then
      valueText assembly.pool raw.kind raw.data
    else
      string assembly raw.rawIndex
  let nsPrefix := (Table.get? namespaceUri assembly.prefixes).getD ""
  return { name, value, namespaceUri, nsPrefix }

/-- The next `count` attributes: each record is read and its texts are looked up before the
next one is. -/
def attributes
    (buffer : Bytes)
    (header : Header)
    (assembly : Assembly)
    (position stride : Nat) :
    Nat → Except ReadFault (List Attribute)
  | 0 => .ok []
  | count + 1 => do
      match ← words buffer header position "<IIIHBBI" with
      | [namespaceIndex, nameIndex, rawIndex, _, _, kind, data] =>
          let first ← toAttribute assembly ⟨namespaceIndex, nameIndex, rawIndex, kind, data⟩
          let rest ← attributes buffer header assembly (position + stride) stride count
          return first :: rest
      | _ => throw .fields

variable {buffer : Bytes} {header : Header}

/-- Looking up a string of a document never fails. -/
theorem string_eq (assembly : Assembly) (index : Nat) :
    string assembly index = .ok (assembly.string index) := by
  rw [string, Assembly.string]
  split
  · rfl
  · exact poolText_eq _ _

/-- Looking up the name of an attribute never fails. -/
theorem attributeName_eq (assembly : Assembly) (index : Nat) :
    attributeName assembly index = .ok (assembly.attributeName index) := by
  rw [attributeName, string_eq, Assembly.attributeName]
  simp only [bind, Except.bind, Bool.and_eq_true, decide_eq_true_eq]
  by_cases known : index < assembly.resourceIds.size
  · by_cases unnamed : (assembly.string index).isEmpty
    · simp [known, unnamed, pure, Except.pure]
    · simp [unnamed, pure, Except.pure]
  · by_cases unnamed : (assembly.string index).isEmpty
    · have empty : assembly.string index = "" := by
        simpa using unnamed
      simp [known, empty, pure, Except.pure]
    · simp [unnamed, pure, Except.pure]

/-- Making an attribute of its record never fails. -/
theorem toAttribute_eq
    (assembly : Assembly)
    {raw : RawAttribute}
    (inWord : raw.data < 4294967296) :
    toAttribute assembly raw = .ok (assembly.toAttribute raw) := by
  rw [toAttribute, string_eq, attributeName_eq, Assembly.toAttribute]
  simp only [bind, Except.bind]
  split
  · rw [valueText_eq _ _ inWord]
    rfl
  · rw [string_eq]
    rfl

theorem u32_lt (window : Bytes) (start : Nat) : Bytes.u32 window start < 4294967296 := by
  have bound := Bytes.littleEndian_lt (Bytes.slice window start 4).toList
  have short : (Bytes.slice window start 4).toList.length ≤ 4 := by
    simp only [Bytes.slice, Array.length_toList, Array.size_extract]
    omega
  have most : Nat.pow 256 (Bytes.slice window start 4).toList.length ≤ Nat.pow 256 4 :=
    Nat.pow_le_pow_right (by decide) short
  exact Nat.lt_of_lt_of_le bound most

/-- Attributes are read alike with every operation checked. -/
theorem attributes_eq
    (inside : header.chunkEnd ≤ buffer.size)
    (assembly : Assembly)
    (position stride count : Nat) :
    attributes buffer header assembly position stride count =
      declared (Part.readAttributes buffer header position stride count >>= fun records =>
        .ok (records.map assembly.toAttribute)) := by
  induction count generalizing position with
  | zero =>
      rfl
  | succ count inductionHypothesis =>
      rw [attributes, Part.readAttributes, Part.readAttribute]
      simp only [bind_assoc, pure_bind, List.map_cons]
      apply @words_bind_congr _ _ _ [4, 4, 4, 2, 1, 1, 4] _ inside (by rfl) position
      intro window
      dsimp only [windowWords]
      rw [toAttribute_eq assembly (u32_lt window 16), inductionHypothesis, ← u8_eq_word]
      cases Part.readAttributes buffer header (position + stride) stride count <;> rfl

end Attributes

section Parts

def resourceIds (buffer : Bytes) (header : Header) (index : Nat) :
    Nat → Except ReadFault (List Nat)
  | 0 => .ok []
  | count + 1 => do
      let first ← word buffer header (header.headerSize + index * 4) "<I"
      let rest ← resourceIds buffer header (index + 1) count
      return first :: rest

def startNamespace (buffer : Bytes) (header : Header) (assembly : Assembly) :
    Except ReadFault Assembly := do
  match ← words buffer header header.headerSize "<II" with
  | [prefixIndex, uriIndex] =>
      let nsPrefix ← string assembly prefixIndex
      let uri ← string assembly uriIndex
      return { assembly with
        prefixes := Table.put uri nsPrefix assembly.prefixes
        pending := Table.put nsPrefix uri assembly.pending }
  | _ => throw .fields

def endNamespace (buffer : Bytes) (header : Header) (assembly : Assembly) :
    Except ReadFault Assembly := do
  match ← words buffer header header.headerSize "<II" with
  | [_, uriIndex] =>
      let uri ← string assembly uriIndex
      return { assembly with prefixes := Table.erase uri assembly.prefixes }
  | _ => throw .fields

def startElement (buffer : Bytes) (header : Header) (assembly : Assembly) :
    Except ReadFault Assembly := do
  let line ← word buffer header 8 "<I"
  match ← words buffer header header.headerSize "<IIHHH" with
  | [_, nameIndex, start, stride, count] =>
      let name ← string assembly nameIndex
      let attributes ←
        attributes buffer header assembly (header.headerSize + start) stride count
      if assembly.opened.isEmpty && assembly.closed.isSome then
        throw (.declared (.malformed .secondRootElement header.offset))
      let element : Element := { name, attributes, namespaces := assembly.pending, line := line }
      return { assembly with pending := [], opened := element :: assembly.opened }
  | _ => throw .fields

def text (buffer : Bytes) (header : Header) (assembly : Assembly) :
    Except ReadFault Assembly := do
  let index ← word buffer header header.headerSize "<I"
  match assembly.opened with
  | [] => return assembly
  | element :: outer =>
      let more ← string assembly index
      return { assembly with opened := { element with text := element.text ++ more } :: outer }

/-- Reads a chunk and adds what it says. -/
def advance (buffer : Bytes) (assembly : Assembly) (header : Header) :
    Except ReadFault Assembly :=
  if header.token = Token.stringPool then do
    return { assembly with pool := ← pool buffer header }
  else if header.token = Token.resourceMap then do
    let ids ← resourceIds buffer header 0 (header.payloadSize / 4)
    return { assembly with resourceIds := ids.toArray }
  else if header.token = Token.startNamespace then
    startNamespace buffer header assembly
  else if header.token = Token.endNamespace then
    endNamespace buffer header assembly
  else if header.token = Token.startElement then
    startElement buffer header assembly
  else if header.token = Token.endElement then
    declared (assembly.step header .endElement)
  else if header.token = Token.characterData then
    text buffer header assembly
  else
    declared (assembly.step header .unknown)

variable {buffer : Bytes} {header : Header}

/-- Resource identifiers are read alike with every operation checked. -/
theorem resourceIds_eq
    (inside : header.chunkEnd ≤ buffer.size)
    (index count : Nat) :
    resourceIds buffer header index count =
      declared (Part.readIds buffer header index count) := by
  induction count generalizing index with
  | zero =>
      rfl
  | succ count inductionHypothesis =>
      rw [resourceIds, Part.readIds]
      apply u32_bind_congr inside
      intro _
      rw [inductionHypothesis]
      exact declared_map _ _

/-- The start of an element is read alike with every operation checked. -/
theorem startElement_eq
    (inside : header.chunkEnd ≤ buffer.size)
    (assembly : Assembly) :
    startElement buffer header assembly =
      declared (Part.readStartElement buffer header >>= assembly.step header) := by
  rw [startElement, Part.readStartElement]
  simp only [bind_assoc, pure_bind]
  apply u32_bind_congr inside
  intro lineWindow
  apply @words_bind_congr _ _ _ [4, 4, 2, 2, 2] _ inside (by rfl) header.headerSize
  intro window
  simp only [windowWords, Bytes.u16, Bytes.u32, Nat.zero_add, Nat.reduceAdd, string_eq,
    attributes_eq inside]
  cases Part.readAttributes buffer header _ _ _ with
  | error _ =>
      rfl
  | ok records =>
      simp only [Assembly.step, bind, Except.bind, declared_ok]
      split <;> rfl

/-- A chunk is taken in alike with every operation checked. -/
theorem advance_eq
    (inside : header.chunkEnd ≤ buffer.size)
    (assembly : Assembly) :
    advance buffer assembly header = declared (Assembly.advance buffer assembly header) := by
  rw [advance, Assembly.advance, Part.read]
  split_ifs
  · rw [pool_eq inside, bind_assoc]
    exact declared_map _ _
  · rw [resourceIds_eq inside, bind_assoc]
    exact declared_map _ _
  · simp only [bind_assoc, pure_bind]
    apply @words_bind_congr _ _ _ [4, 4] _ inside (by rfl) header.headerSize
    intro window
    dsimp only [windowWords]
    simp only [string_eq]
    rfl
  · simp only [bind_assoc, pure_bind]
    apply @words_bind_congr _ _ _ [4, 4] _ inside (by rfl) header.headerSize
    intro window
    dsimp only [windowWords]
    simp only [string_eq]
    rfl
  · exact startElement_eq inside assembly
  · rfl
  · simp only [bind_assoc, pure_bind]
    apply u32_bind_congr inside
    intro window
    rw [Assembly.step]
    cases assembly.opened with
    | nil =>
        rfl
    | cons element outer =>
        simp only [string_eq]
        rfl
  · rfl

end Parts

section Decode

/-- The document of a byte string. -/
def decode (buffer : Bytes) : Except ReadFault Document := do
  let header ← readHeader buffer 0
  if header.token = Token.xml then
    let assembly ← foldChunks buffer (advance buffer) {} header.dataOffset header.chunkEnd
    declared (Document.ofAssembly assembly)
  else
    throw (.declared (.malformed (.notXml header.token) 0))

/-- With every operation that could fail checked, decoding a document comes to the same. -/
theorem decode_eq (buffer : Bytes) : decode buffer = declared (Document.decode buffer) := by
  rw [decode, Document.decode_eq_bind, readHeader_eq]
  apply declared_bind_congr
  intro header _
  split
  · have walked :
        foldChunks buffer (advance buffer) {} header.dataOffset header.chunkEnd =
          declared (outcome ((header.children buffer).run (Assembly.advance buffer) {})) :=
      foldChunks_eq (fun _ inside assembly => advance_eq inside assembly) _
    rw [walked]
    exact (declared_bind _ _).symm
  · rfl

end Decode

end Fallible

end ApkAtlas.Xml
