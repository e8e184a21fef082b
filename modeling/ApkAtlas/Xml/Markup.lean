import ApkAtlas.Bytes
import ApkAtlas.Xml.Markup.Assembly
import ApkAtlas.Xml.Markup.Declaration
import ApkAtlas.Xml.Markup.Encoding
import ApkAtlas.Xml.Markup.Tree

namespace ApkAtlas.Xml.Markup

/-!
# XML texts

A byte string that is a well-formed XML document gives its root element. Namespaces are
resolved, entities are replaced and attribute values are normalised; comments and
processing instructions vanish.
-/

/-- The root element of a text without its declaration. -/
def ofText? (standalone : Bool) (text : List Char) : Option Element := do
  if !text.all isXmlChar then none
  let (doctype, start) ← prolog? standalone none (normalizeBreaks text)
  let tokens ← tokens? start
  root? doctype (← doctype.expandTokens doctype.depth [] tokens)

/-- The root element of a document. -/
def decode (charsets : Charsets) (bytes : Bytes) : Except DocumentError Element := do
  let (header, length) ← orMalformed (header? (headerChars bytes.toList))
  let text ← header.decode charsets bytes.toList
  orMalformed (ofText? header.standalone (text.drop length))

/-- The key of an attribute. -/
def keyOf (attr : Attribute) : String :=
  if attr.namespaceUri.isEmpty then attr.name
  else "\x7b" ++ attr.namespaceUri ++ "\x7d" ++ attr.name

namespace Tree

mutual

/-- The tree of an element, whose own namespace is not known. -/
def ofElement (element : Element) : Tree :=
  match element with
  | ⟨name, attributes, children, _, text, _⟩ =>
      { tag := name
        text := some text
        attributes := attributes.map fun attr => (keyOf attr, attr.value)
        children := ofElements children }

/-- The trees of some elements. -/
def ofElements : List Element → List Tree
  | [] => []
  | element :: rest => ofElement element :: ofElements rest

end

end Tree

/-- The problem that an error stands for; `message` tells why a text is not well-formed. -/
def DocumentError.toProblem (message : String) : DocumentError → Problem
  | .malformed => .malformed message
  | .unknownEncoding name => .unreadable ⟨.unknownName, "unknown encoding: " ++ name⟩
  | .multiByteEncoding => .unreadable ⟨.badValue, "multi-byte encodings are not supported"⟩

/-- The parser that knows some encodings. It leaves out the namespaces of elements, and the
blanks at the ends of texts; `complaint` is what it has to say of a text that is not
well-formed. -/
def reader (charsets : Charsets) (complaint : Bytes → String) : Parser := fun bytes =>
  ((decode charsets bytes).map Tree.ofElement).mapError (DocumentError.toProblem (complaint bytes))

end ApkAtlas.Xml.Markup
