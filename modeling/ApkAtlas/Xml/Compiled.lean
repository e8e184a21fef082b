import ApkAtlas.Log
import ApkAtlas.ResourceValue
import ApkAtlas.Xml.Element

namespace ApkAtlas.Xml

/-!
# Compiled XML

A compiled document is a chunk whose payload is a sequence of chunks: a string pool, the
resource numbers of attribute names, and the starts and ends of namespaces and elements.
Each chunk is read on its own as a `Part`; `Assembly.step` puts the parts together. Bytes
can only fail to be read with a `DecodeError`.
-/

open Chunk

/-- The index that stands for no string. -/
def noIndex : Nat := 0xFFFFFFFF

/-- An attribute as its record holds it, with indices into the string pool. -/
structure RawAttribute where
  namespaceIndex : Nat
  nameIndex : Nat
  rawIndex : Nat
  kind : Nat
  data : Nat
deriving Repr, DecidableEq

/-- What one chunk of a document says. -/
inductive Part where
  | strings (pool : StringPool)
  | resourceIds (ids : List Nat)
  | startNamespace (prefixIndex uriIndex : Nat)
  | endNamespace (uriIndex : Nat)
  | startElement (line nameIndex : Nat) (attributes : List RawAttribute)
  | endElement
  | text (index : Nat)
  | unknown
deriving Repr, DecidableEq

namespace Part

/-- The numbers of a resource map from an index on. -/
def readIds
    (buffer : Bytes)
    (header : Header)
    (index : Nat) :
    Nat → Except DecodeError (List Nat)
  | 0 => .ok []
  | count + 1 => do
      let window ← header.bytes buffer (header.headerSize + index * 4) 4
      let rest ← readIds buffer header (index + 1) count
      return Bytes.u32 window 0 :: rest

/-- The size of an attribute record as far as it is read. -/
def attributeSize : Nat := 20

/-- The attribute record at a position. -/
def readAttribute
    (buffer : Bytes)
    (header : Header)
    (position : Nat) :
    Except DecodeError RawAttribute := do
  let window ← header.bytes buffer position attributeSize
  return {
    namespaceIndex := Bytes.u32 window 0
    nameIndex := Bytes.u32 window 4
    rawIndex := Bytes.u32 window 8
    kind := Bytes.u8 window 15
    data := Bytes.u32 window 16 }

/-- The next `count` attribute records, `stride` bytes apart. -/
def readAttributes
    (buffer : Bytes)
    (header : Header)
    (position stride : Nat) :
    Nat → Except DecodeError (List RawAttribute)
  | 0 => .ok []
  | count + 1 => do
      let first ← readAttribute buffer header position
      let rest ← readAttributes buffer header (position + stride) stride count
      return first :: rest

/-- The start of an element: its line, its name and its attribute records. -/
def readStartElement (buffer : Bytes) (header : Header) : Except DecodeError Part := do
  let line := Bytes.u32 (← header.bytes buffer 8 4) 0
  let window ← header.bytes buffer header.headerSize 14
  let attributes ←
    readAttributes buffer header
      (header.headerSize + Bytes.u16 window 8) (Bytes.u16 window 10) (Bytes.u16 window 12)
  return .startElement line (Bytes.u32 window 4) attributes

/-- The part that a chunk holds. -/
def read (buffer : Bytes) (header : Header) : Except DecodeError Part :=
  if header.token = Token.stringPool then
    return .strings (← StringPool.parse buffer header)
  else if header.token = Token.resourceMap then
    return .resourceIds (← readIds buffer header 0 (header.payloadSize / 4))
  else if header.token = Token.startNamespace then do
    let window ← header.bytes buffer header.headerSize 8
    return .startNamespace (Bytes.u32 window 0) (Bytes.u32 window 4)
  else if header.token = Token.endNamespace then do
    let window ← header.bytes buffer header.headerSize 8
    return .endNamespace (Bytes.u32 window 4)
  else if header.token = Token.startElement then
    readStartElement buffer header
  else if header.token = Token.endElement then
    return .endElement
  else if header.token = Token.characterData then do
    let window ← header.bytes buffer header.headerSize 4
    return .text (Bytes.u32 window 0)
  else
    return .unknown

end Part

/-- A document while its parts are put together. -/
structure Assembly where
  pool : StringPool := {}
  resourceIds : Array Nat := #[]
  /-- Namespaces with the prefixes that name them. -/
  prefixes : List (String × String) := []
  /-- Prefixes with their namespaces, declared since the last start of an element. -/
  pending : List (String × String) := []
  /-- The elements that are open, the innermost first. -/
  opened : List Element := []
  /-- The outermost element once it is closed. -/
  closed : Option Element := none
  /-- The chunks that were passed over. -/
  skipped : List Header := []
deriving Repr, Inhabited

namespace Assembly

/-- The string at an index; the index that stands for none gives the empty text. -/
def string (assembly : Assembly) (index : Nat) : String :=
  if index = noIndex then "" else assembly.pool.text index

/-- The name at an index; an attribute without one goes by its resource number. -/
def attributeName (assembly : Assembly) (index : Nat) : String :=
  let name := assembly.string index
  if name.isEmpty then
    match assembly.resourceIds[index]? with
    | some id => Text.markedHex 8 id
    | none => ""
  else
    name

/-- The attribute that a record describes. -/
def toAttribute (assembly : Assembly) (raw : RawAttribute) : Attribute :=
  let namespaceUri := assembly.string raw.namespaceIndex
  { name := assembly.attributeName raw.nameIndex
    value :=
      if raw.rawIndex = noIndex then
        ResourceValue.text assembly.pool raw.kind raw.data
      else
        assembly.string raw.rawIndex
    namespaceUri
    nsPrefix := (Table.get? namespaceUri assembly.prefixes).getD "" }

/-- Puts a closed element into the innermost open one, or makes it the root. -/
def attach (assembly : Assembly) (element : Element) (outer : List Element) : Assembly :=
  match outer with
  | [] => { assembly with opened := [], closed := some element }
  | parent :: rest =>
      { assembly with
        opened := { parent with children := parent.children ++ [element] } :: rest }

/-- Adds what one chunk says. -/
def step (assembly : Assembly) (header : Header) : Part → Except DecodeError Assembly
  | .strings pool => .ok { assembly with pool }
  | .resourceIds ids => .ok { assembly with resourceIds := ids.toArray }
  | .startNamespace prefixIndex uriIndex =>
      let nsPrefix := assembly.string prefixIndex
      let uri := assembly.string uriIndex
      .ok { assembly with
        prefixes := Table.put uri nsPrefix assembly.prefixes
        pending := Table.put nsPrefix uri assembly.pending }
  | .endNamespace uriIndex =>
      .ok { assembly with
        prefixes := Table.erase (assembly.string uriIndex) assembly.prefixes }
  | .startElement line nameIndex attributes =>
      if assembly.opened.isEmpty && assembly.closed.isSome then
        .error (.malformed .secondRootElement header.offset)
      else
        let element : Element :=
          { name := assembly.string nameIndex
            attributes := attributes.map assembly.toAttribute
            namespaces := assembly.pending
            line := line }
        .ok { assembly with pending := [], opened := element :: assembly.opened }
  | .endElement =>
      match assembly.opened with
      | [] => .error (.malformed .unbalancedEnd header.offset)
      | element :: outer => .ok (assembly.attach element outer)
  | .text index =>
      match assembly.opened with
      | [] => .ok assembly
      | element :: outer =>
          let longer := { element with text := element.text ++ assembly.string index }
          .ok { assembly with opened := longer :: outer }
  | .unknown => .ok { assembly with skipped := assembly.skipped ++ [header] }

/-- Reads a chunk and adds what it says. -/
def advance (buffer : Bytes) (assembly : Assembly) (header : Header) :
    Except DecodeError Assembly := do
  assembly.step header (← Part.read buffer header)

/-- The outermost of elements that are open, with the inner ones put into it. -/
def closeAll : Element → List Element → Element
  | element, [] => element
  | element, parent :: outer =>
      closeAll { parent with children := parent.children ++ [element] } outer

/-- The root element: elements left open end with the document. -/
def root? (assembly : Assembly) : Option Element :=
  match assembly.opened with
  | [] => assembly.closed
  | element :: outer => some (closeAll element outer)

end Assembly

/-- A decoded document. -/
structure Document where
  root : Element
  pool : StringPool
  resourceIds : List Nat
deriving Repr, Inhabited

namespace Document

/-- The state that the chunks of a document lead to, and the error that stopped early. -/
def assemble (buffer : Bytes) : Assembly × Option DecodeError :=
  match readHeader buffer 0 with
  | .error error => ({}, some error)
  | .ok header =>
      if header.token = Token.xml then
        (header.children buffer).run (Assembly.advance buffer) {}
      else
        ({}, some (.malformed (.notXml header.token) 0))

/-- The document that an assembly holds at its end. -/
def ofAssembly (assembly : Assembly) : Except DecodeError Document :=
  match assembly.root? with
  | none => .error (.malformed .noRootElement 0)
  | some root => .ok ⟨root, assembly.pool, assembly.resourceIds.toList⟩

/-- The document of a byte string. -/
def decode (buffer : Bytes) : Except DecodeError Document :=
  match assemble buffer with
  | (_, some error) => .error error
  | (assembly, none) => ofAssembly assembly

/-- The log record of a chunk that was passed over. -/
def logSkipped (header : Header) : LoggedExcept DecodeError Unit :=
  Logged.log .debug "Skipping unknown XML chunk"
    [("token", .text (Token.text header.token)), ("offset", .nat header.offset)]

/-- The document of a byte string, with log records of what was passed over and of the
result. -/
def decodeLogged (buffer : Bytes) : LoggedExcept DecodeError Document := do
  let (assembly, _) := assemble buffer
  assembly.skipped.forM logSkipped
  let document ← Logged.ofExcept (decode buffer)
  Logged.log .debug "Decoded binary XML"
    [ ("root", .text document.root.name),
      ("strings", .nat document.pool.strings.size),
      ("resource_ids", .nat document.resourceIds.length) ]
  return document

end Document

end ApkAtlas.Xml
