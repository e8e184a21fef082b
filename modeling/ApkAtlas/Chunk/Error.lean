import ApkAtlas.Failure
import ApkAtlas.Text.Hex

namespace ApkAtlas.Chunk

/-!
# Chunk tokens

The numbers that tell the kinds of chunk apart in compiled XML files and resource
tables, and the names under which chunks are counted.
-/

namespace Token

def null : Nat := 0x0000
def stringPool : Nat := 0x0001
def table : Nat := 0x0002
def xml : Nat := 0x0003
def startNamespace : Nat := 0x0100
def endNamespace : Nat := 0x0101
def startElement : Nat := 0x0102
def endElement : Nat := 0x0103
def characterData : Nat := 0x0104
def resourceMap : Nat := 0x0180
def tablePackage : Nat := 0x0200
def tableType : Nat := 0x0201
def tableTypeSpec : Nat := 0x0202

/-- The known tokens with the names of their chunks. -/
def names : List (Nat × String) :=
  [ (null, "null"),
    (stringPool, "string_pool"),
    (table, "table"),
    (xml, "xml"),
    (startNamespace, "xml_start_namespace"),
    (endNamespace, "xml_end_namespace"),
    (startElement, "xml_start_element"),
    (endElement, "xml_end_element"),
    (characterData, "xml_cdata"),
    (resourceMap, "xml_resource_map"),
    (tablePackage, "table_package"),
    (tableType, "table_type"),
    (tableTypeSpec, "table_type_spec"),
    (0x0203, "table_library"),
    (0x0204, "table_overlayable"),
    (0x0205, "table_overlayable_policy"),
    (0x0206, "table_staged_alias") ]

/-- A token as diagnostics show it. -/
def text (token : Nat) : String :=
  Text.markedHex 4 token

/-- The name of a token; an unknown one goes by its number. -/
def name (token : Nat) : String :=
  match names.find? (·.1 == token) with
  | some (_, name) => name
  | none => text token

end Token

/-!
## Errors of chunked files

A decoder of a chunked file fails in one of two ways: a header or the order of chunks is
malformed, or a position inside a chunk falls beyond its end. Both name where in the file
this is.
-/

/-- What is wrong with a header or with the order of chunks. -/
inductive Defect where
  | incompleteHeader (bufferSize : Nat)
  | headerTooSmall (headerSize : Nat)
  | headerExceedsChunk (headerSize chunkSize : Int)
  | chunkPastBuffer (chunkSize bufferSize : Nat)
  | chunkPastParent (parentEnd : Int)
  | notStringPool (token : Nat)
  | stringPoolHeaderTooSmall (headerSize : Nat)
  | notXml (token : Nat)
  | noRootElement
  | unbalancedEnd
  | secondRootElement
  | notResourceTable (token : Nat)
deriving Repr, DecidableEq

namespace Defect

/-- The defect in words. -/
def text : Defect → String
  | .incompleteHeader _ => "Incomplete chunk header"
  | .headerTooSmall headerSize =>
      s!"Header size {headerSize} is smaller than the chunk header itself"
  | .headerExceedsChunk headerSize chunkSize =>
      s!"Header size {headerSize} exceeds chunk size {chunkSize}"
  | .chunkPastBuffer chunkSize _ =>
      s!"Chunk size {chunkSize} runs past the end of the buffer"
  | .chunkPastParent parentEnd => s!"Chunk overruns its parent ending at {parentEnd}"
  | .notStringPool token => "Expected a string pool chunk, found " ++ Token.text token
  | .stringPoolHeaderTooSmall headerSize => s!"String pool header too small: {headerSize}"
  | .notXml token => "Not a compiled XML document (token " ++ Token.text token ++ ")"
  | .noRootElement => "Compiled XML has no root element"
  | .unbalancedEnd => "Unbalanced end element"
  | .secondRootElement => "Second root element"
  | .notResourceTable token => "Not a resource table (token " ++ Token.text token ++ ")"

/-- The size of the buffer where it explains the defect. -/
def context : Defect → List (String × Datum)
  | .incompleteHeader bufferSize => [("buffer_size", .nat bufferSize)]
  | .chunkPastBuffer _ bufferSize => [("buffer_size", .nat bufferSize)]
  | _ => []

end Defect

/-- Why a chunked file could not be decoded. -/
inductive DecodeError where
  /-- A defect of the chunk at `offset`. -/
  | malformed (defect : Defect) (offset : Int)
  /-- The position `relative` to a chunk, at `offset` in the file, lies outside the chunk
  that ends at `limit`. -/
  | outOfBounds (token : Nat) (relative offset limit : Int)
deriving Repr, DecidableEq

namespace DecodeError

/-- Where in the file the error is. -/
def offset : DecodeError → Int
  | .malformed _ offset => offset
  | .outOfBounds _ _ offset _ => offset

/-- The error as a failure. -/
def toFailure : DecodeError → Failure
  | .malformed defect offset =>
      { text := defect.text
        context := defect.context
        detail := .malformedHeader offset }
  | .outOfBounds token relative offset limit =>
      { text := "Requested a relative value out of bounds"
        context := [("chunk_type", .text (Token.text token)), ("relative", .int relative)]
        detail := .outOfBoundsRead offset limit }

/-- The error as a fault. -/
def toFault (error : DecodeError) : Fault :=
  .failure error.toFailure

/-- The full text of the error. -/
def message (error : DecodeError) : String :=
  error.toFailure.message

end DecodeError

end ApkAtlas.Chunk
