namespace ApkAtlas.Xml

/-!
# XML elements

The tree that both forms of XML are decoded into, and its text as indented lines. Text
content is kept only as far as documents of this kind use it: one text for each element.
-/

/-- An attribute with the namespace it is in and the prefix that names the namespace. -/
structure Attribute where
  name : String
  value : String
  namespaceUri : String := ""
  nsPrefix : String := ""
deriving Repr, DecidableEq, Inhabited

namespace Attribute

/-- The name with its prefix. -/
def qualifiedName (attr : Attribute) : String :=
  if attr.nsPrefix.isEmpty then attr.name
  else attr.nsPrefix ++ ":" ++ attr.name

end Attribute

/-- An element with everything inside it. -/
structure Element where
  name : String
  attributes : List Attribute := []
  children : List Element := []
  /-- Prefixes and the namespaces they name from this element on. -/
  namespaces : List (String × String) := []
  text : String := ""
  /-- The source line, or zero where it is not known. -/
  line : Int := 0
deriving Repr, BEq, Inhabited

/-- The namespace of the attributes that the platform defines. -/
def androidNamespace : String :=
  "http://schemas.android.com/apk/res/android"

namespace Element

/-- The value of the first attribute of the given name, in any namespace. -/
def anyAttribute? (element : Element) (name : String) : Option String :=
  (element.attributes.find? (·.name == name)).map Attribute.value

/-- The value of the first attribute of the given name in a namespace. -/
def attributeIn? (element : Element) (name namespaceUri : String) : Option String :=
  (element.attributes.find? fun attr =>
    attr.name == name && attr.namespaceUri == namespaceUri).map Attribute.value

/-- The value of a platform attribute. -/
def attribute? (element : Element) (name : String) : Option String :=
  element.attributeIn? name androidNamespace

/-- The children of the given name. -/
def childrenNamed (element : Element) (name : String) : List Element :=
  element.children.filter (·.name == name)

mutual

/-- The element and all elements inside it, in document order. -/
def subtree (element : Element) : List Element :=
  match element with
  | ⟨name, attributes, children, namespaces, text, line⟩ =>
      ⟨name, attributes, children, namespaces, text, line⟩ :: subtrees children

/-- The subtrees of a list of elements, one after the other. -/
def subtrees : List Element → List Element
  | [] => []
  | element :: rest => subtree element ++ subtrees rest

end

/-- The elements of the given name in a subtree, in document order. -/
def subtreeNamed (element : Element) (name : String) : List Element :=
  element.subtree.filter (·.name == name)

/-- The element reached from another one by child positions. -/
def descend? (element : Element) : List Nat → Option Element
  | [] => some element
  | position :: rest =>
      match element.children[position]? with
      | none => none
      | some child => descend? child rest

end Element

/-!
## Elements as text

An element is written on a line of its own; with children inside, its text and its
children follow on lines of their own, one level further in, and an end tag closes it.
-/

/-- The first line of a document. -/
def declaration : String :=
  "<?xml version=\"1.0\" encoding=\"utf-8\"?>"

/-- A character of a text, escaped where it would be taken for markup. -/
def escapeChar (c : Char) : String :=
  if c = '&' then "&amp;"
  else if c = '<' then "&lt;"
  else if c = '>' then "&gt;"
  else String.singleton c

/-- A text between tags. -/
def escapeText (text : String) : String :=
  String.join (text.toList.map escapeChar)

/-- A character of a value between double quotes. -/
def escapeValueChar (c : Char) : String :=
  if c = '"' then "&quot;" else escapeChar c

/-- A value between double quotes. -/
def escapeValue (value : String) : String :=
  String.join (value.toList.map escapeValueChar)

/-- A name with its value, behind a space. -/
def assignment (name value : String) : String :=
  " " ++ name ++ "=\"" ++ escapeValue value ++ "\""

/-- The margin of a line. -/
def margin (indent : String) (depth : Nat) : String :=
  String.join (List.replicate depth indent)

namespace Element

/-- A start tag without its end: the name, the declared namespaces, the attributes. -/
def opening (element : Element) : String :=
  "<" ++ element.name ++
    String.join (element.namespaces.map fun (nsPrefix, uri) =>
      assignment ("xmlns:" ++ nsPrefix) uri) ++
    String.join (element.attributes.map fun attr =>
      assignment attr.qualifiedName attr.value)

mutual

/-- The lines of an element at a depth. -/
def renderLines (indent : String) (depth : Nat) (element : Element) : List String :=
  match element with
  | ⟨name, attributes, children, namespaces, text, line⟩ =>
      let pad := margin indent depth
      let tag := opening ⟨name, attributes, children, namespaces, text, line⟩
      if children.isEmpty then
        if text.isEmpty then
          [pad ++ tag ++ " />"]
        else
          [pad ++ tag ++ ">" ++ escapeText text ++ "</" ++ name ++ ">"]
      else
        [pad ++ tag ++ ">"] ++
          (if text.isEmpty then [] else [pad ++ indent ++ escapeText text]) ++
          childLines indent (depth + 1) children ++
          [pad ++ "</" ++ name ++ ">"]

/-- The lines of elements that follow each other. -/
def childLines (indent : String) (depth : Nat) : List Element → List String
  | [] => []
  | element :: rest => renderLines indent depth element ++ childLines indent depth rest

end

/-- The document of an element, with the given margin for each level. -/
def renderWith (element : Element) (indent : String) : String :=
  "\n".intercalate (declaration :: element.renderLines indent 0)

/-- The document of an element. -/
def render (element : Element) : String :=
  element.renderWith "  "

end Element

end ApkAtlas.Xml
