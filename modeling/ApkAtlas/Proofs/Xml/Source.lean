import ApkAtlas.Proofs.Chunk.PoolComposition
import ApkAtlas.Xml.Compiled

namespace ApkAtlas.Xml

/-!
# Compiling documents

A document before it is compiled is a tree of elements, whose attribute values are texts,
truth values or words, and a table of namespace prefixes. It is compiled node by node: the
namespaces start, each element starts before its children and ends behind them, the
namespaces end. The strings of all nodes go into one pool, each once and in the order in
which they come up; nodes refer to them by index.
-/

open Chunk

inductive SourceValue where
  | text (text : String)
  | flag (value : Bool)
  | number (word : UInt32)
deriving Repr, DecidableEq

structure SourceAttribute where
  namespaceUri : Option String
  name : String
  value : SourceValue
deriving Repr, DecidableEq

structure SourceElement where
  name : String
  attributes : List SourceAttribute
  children : List SourceElement
deriving Repr

/-- What a document is compiled into, one chunk each. -/
inductive Node where
  | startNamespace (nsPrefix uri : String)
  | startElement (line : Nat) (name : String) (attributes : List SourceAttribute)
  | endElement (line : Nat) (name : String)
  | endNamespace (nsPrefix uri : String)
deriving Repr, DecidableEq

section Strings

def SourceValue.texts : SourceValue → List String
  | .text content => [content]
  | _ => []

def SourceAttribute.texts (source : SourceAttribute) : List String :=
  source.namespaceUri.toList ++ source.name :: source.value.texts

/-- The strings of a node in the order in which they come up. -/
def Node.texts : Node → List String
  | .startNamespace nsPrefix uri => [nsPrefix, uri]
  | .startElement _ name attributes => attributes.flatMap SourceAttribute.texts ++ [name]
  | .endElement _ name => [name]
  | .endNamespace nsPrefix uri => [nsPrefix, uri]

/-- A string that is new to a pool is added at its end. -/
def intern (pool : List String) (text : String) : List String :=
  if text ∈ pool then pool else pool ++ [text]

/-- The pool that strings go into one after the other. -/
def poolOf (texts : List String) : List String :=
  texts.foldl intern []

theorem mem_intern
    {pool : List String}
    {text other : String} :
    other ∈ intern pool text ↔ other ∈ pool ∨ other = text := by
  rw [intern]
  split
  · rename_i known
    constructor
    · exact Or.inl
    · rintro (member | rfl)
      · exact member
      · exact known
  · simp

theorem mem_foldl_intern
    {texts pool : List String}
    {text : String} :
    text ∈ texts.foldl intern pool ↔ text ∈ pool ∨ text ∈ texts := by
  induction texts generalizing pool with
  | nil =>
      simp
  | cons first rest inductionHypothesis =>
      rw [List.foldl_cons, inductionHypothesis, mem_intern, List.mem_cons, or_assoc]

/-- A pool holds no string more often than it came up. -/
theorem foldl_intern_sublist (pool texts : List String) :
    (texts.foldl intern pool).Sublist (pool ++ texts) := by
  induction texts generalizing pool with
  | nil =>
      rw [List.append_nil]
      exact List.Sublist.refl pool
  | cons text rest inductionHypothesis =>
      have first : (intern pool text).Sublist (pool ++ [text]) := by
        rw [intern]
        split
        · exact List.sublist_append_left pool [text]
        · exact List.Sublist.refl _
      have longer := (inductionHypothesis (intern pool text)).trans (first.append_right rest)
      rwa [List.append_assoc] at longer

@[simp] theorem mem_poolOf
    {texts : List String}
    {text : String} :
    text ∈ poolOf texts ↔ text ∈ texts := by
  rw [poolOf, mem_foldl_intern]
  simp

end Strings

section Records

/-- The index of a string, or the index that stands for none. -/
def indexOf (pool : List String) : Option String → Nat
  | none => noIndex
  | some text => pool.idxOf text

/-- The index of the text that a value was written as; only a text has one. -/
def SourceValue.rawIndex (pool : List String) : SourceValue → Nat
  | .text content => pool.idxOf content
  | _ => noIndex

def SourceValue.kind : SourceValue → Nat
  | .text _ => 0x03
  | .flag _ => 0x12
  | .number _ => 0x10

def SourceValue.data (pool : List String) : SourceValue → Nat
  | .text content => pool.idxOf content
  | .flag value => if value then 0xFFFFFFFF else 0
  | .number word => word.toNat

def SourceAttribute.raw (pool : List String) (source : SourceAttribute) : RawAttribute :=
  { namespaceIndex := indexOf pool source.namespaceUri
    nameIndex := pool.idxOf source.name
    rawIndex := source.value.rawIndex pool
    kind := source.value.kind
    data := source.value.data pool }

/-- The size of a typed value: eight bytes, of which the size itself takes two. -/
def typedSize : Nat := 8

def RawAttribute.bytes (raw : RawAttribute) : List UInt8 :=
  record
    [ (4, raw.namespaceIndex), (4, raw.nameIndex), (4, raw.rawIndex), (2, typedSize), (1, 0),
      (1, raw.kind), (4, raw.data) ]

namespace Node

def token : Node → Nat
  | .startNamespace .. => Token.startNamespace
  | .startElement .. => Token.startElement
  | .endElement .. => Token.endElement
  | .endNamespace .. => Token.endNamespace

/-- The source line of a node; namespaces are on the first one. -/
def line : Node → Nat
  | .startElement line _ _ => line
  | .endElement line _ => line
  | _ => 1

/-- How far into the payload the attributes start. -/
def attributesStart : Nat := 20

def payload (pool : List String) : Node → List UInt8
  | .startNamespace nsPrefix uri => record [(4, pool.idxOf nsPrefix), (4, pool.idxOf uri)]
  | .startElement _ name attributes =>
      record
          [ (4, noIndex), (4, pool.idxOf name), (2, attributesStart), (2, Part.attributeSize),
            (2, attributes.length), (2, 0), (2, 0), (2, 0) ] ++
        attributes.flatMap fun source => (source.raw pool).bytes
  | .endElement _ name => record [(4, noIndex), (4, pool.idxOf name)]
  | .endNamespace nsPrefix uri => record [(4, pool.idxOf nsPrefix), (4, pool.idxOf uri)]

/-- The chunk of a node: its line and no comment, then what is its own. -/
def compose (pool : List String) (node : Node) : Composed :=
  { token := node.token
    extension := record [(4, node.line), (4, noIndex)]
    payload := node.payload pool }

end Node

end Records

namespace SourceElement

mutual

/-- The nodes of an element whose start is on the given line. -/
def nodes (line : Nat) (element : SourceElement) : List Node :=
  match element with
  | ⟨name, attributes, children⟩ =>
      .startElement line name attributes ::
        (nodesOfAll (line + 1) children ++ [.endElement line name])

def nodesOfAll (line : Nat) : List SourceElement → List Node
  | [] => []
  | element :: rest => nodes line element ++ nodesOfAll line rest

end

mutual

/-- The element and all elements inside it. -/
def subtree (element : SourceElement) : List SourceElement :=
  match element with
  | ⟨name, attributes, children⟩ => ⟨name, attributes, children⟩ :: subtrees children

def subtrees : List SourceElement → List SourceElement
  | [] => []
  | element :: rest => subtree element ++ subtrees rest

end

end SourceElement

/-- A document before it is compiled. -/
structure SourceDocument where
  root : SourceElement
  /-- Prefixes with the namespaces they name. -/
  namespaces : List (String × String)
deriving Repr

namespace SourceDocument

/-- The line that the root is on. -/
def rootLine : Nat := 2

def nodes (document : SourceDocument) : List Node :=
  document.namespaces.map (fun (nsPrefix, uri) => .startNamespace nsPrefix uri) ++
    document.root.nodes rootLine ++
    document.namespaces.reverse.map fun (nsPrefix, uri) => .endNamespace nsPrefix uri

def pool (document : SourceDocument) : List String :=
  poolOf (document.nodes.flatMap Node.texts)

/-- The chunks of a document: the pool, then the nodes. -/
def chunks (document : SourceDocument) : List Composed :=
  StringPool.compose document.pool :: document.nodes.map (Node.compose document.pool)

def compose (document : SourceDocument) : Composed :=
  { token := Token.xml
    extension := []
    payload := document.chunks.flatMap Composed.bytes }

/-- The bytes of a compiled document. -/
def compile (document : SourceDocument) : Bytes :=
  document.compose.bytes.toArray

end SourceDocument

end ApkAtlas.Xml
