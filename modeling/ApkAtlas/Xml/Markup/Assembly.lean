import ApkAtlas.Text.Blank
import ApkAtlas.Xml.Element
import ApkAtlas.Xml.Markup.Content

namespace ApkAtlas.Xml.Markup

/-!
# Elements from tokens

Tokens are put together to a tree of elements. Prefixes stand for the namespaces that the
innermost open element gives them; each prefix in use must have one. Of the text of an
element, what comes before its first child counts.
-/

/-- The namespace of the prefix `xml`. -/
def xmlNamespace : String :=
  "http://www.w3.org/XML/1998/namespace"

/-- The namespace of namespace declarations. -/
def declarationNamespace : String :=
  "http://www.w3.org/2000/xmlns/"

/-- Prefixes with their namespaces, the innermost first. -/
abbrev Scope := List (String × String)

/-- The scope outside of all elements. -/
def outerScope : Scope :=
  [("xml", xmlNamespace)]

/-- Whether a prefix may stand for a namespace. The empty prefix is that of names
without one. -/
def canBind (nsPrefix uri : String) : Bool :=
  !(uri.isEmpty && !nsPrefix.isEmpty) && nsPrefix != "xmlns" &&
    (nsPrefix == "xml") == (uri == xmlNamespace) && uri != declarationNamespace &&
    !uri.toList.contains '}'

/-- The prefix that an attribute declares, if it declares one. -/
def declaredPrefix? (name : Name) : Option String :=
  if name.nsPrefix = "xmlns" then some name.localName
  else if name.nsPrefix.isEmpty && name.localName == "xmlns" then some ""
  else none

/-- The namespace of a prefix in use. -/
def namespaceOf? (scope : Scope) (nsPrefix : String) : Option String :=
  (Table.get? nsPrefix scope).filter (!·.isEmpty)

/-- The specified values of a start tag and the default values behind them. -/
def attributeValues? (doctype : Doctype) (tag : StartTag) : Option (List (Name × String)) := do
  let element := tag.name.raw
  let names := tag.attributes.map Prod.fst
  if !decide names.Nodup then none
  let specified ← tag.attributes.mapM fun (name, pieces) => do
    let isText := ((doctype.rule? element name).map AttributeRule.isText).getD true
    return (name, ← attributeValue? doctype isText pieces)
  let defaults := doctype.rules.filterMap fun rule =>
    if rule.element == element && !names.contains rule.name then
      rule.default.map fun value => (rule.name, value)
    else
      none
  return specified ++ defaults

/-- The attribute of a name and value in a scope. -/
def attribute? (scope : Scope) (name : Name) (value : String) : Option Attribute :=
  if name.nsPrefix.isEmpty then
    some { name := name.localName, value }
  else
    (namespaceOf? scope name.nsPrefix).map fun uri =>
      { name := name.localName, value, namespaceUri := uri }

/-- The element of a start tag and the scope inside it. -/
def startElement? (doctype : Doctype) (scope : Scope) (tag : StartTag) :
    Option (Element × Scope) := do
  let values ← attributeValues? doctype tag
  let declared := values.filterMap fun (name, value) =>
    (declaredPrefix? name).map fun nsPrefix => (nsPrefix, value)
  if !(declared.all fun (nsPrefix, uri) => canBind nsPrefix uri) then none
  let inner := declared.reverse ++ scope
  let attributes ←
    (values.filter fun (name, _) => (declaredPrefix? name).isNone).mapM fun (name, value) =>
      attribute? inner name value
  if !decide (attributes.map fun attr => (attr.namespaceUri, attr.name)).Nodup then none
  if !tag.name.nsPrefix.isEmpty && (namespaceOf? inner tag.name.nsPrefix).isNone then none
  return ({ name := tag.name.localName, attributes }, inner)

/-- An element whose end is still to come. -/
structure OpenElement where
  element : Element
  name : Name
  /-- The scope inside the element. -/
  scope : Scope
  /-- The text before the first child, last character first. -/
  text : List Char := []
deriving Inhabited

namespace OpenElement

/-- Adds text, which counts before the first child only. -/
def addText (opened : OpenElement) (text : List Char) : OpenElement :=
  if opened.element.children.isEmpty then
    { opened with text := text.reverse ++ opened.text }
  else
    opened

/-- The element at its end: its text has no blanks at its ends. -/
def finish (opened : OpenElement) : Element :=
  { opened.element with text := String.ofList (Text.strip opened.text.reverse) }

/-- Adds a child. -/
def addChild (opened : OpenElement) (child : Element) : OpenElement :=
  { opened with
    element := { opened.element with children := opened.element.children ++ [child] } }

end OpenElement

/-- A tree while its tokens are put together. -/
structure Assembly where
  /-- The open elements, the innermost first. -/
  opened : List OpenElement := []
  root : Option Element := none
deriving Inhabited

namespace Assembly

/-- The scope of what comes next. -/
def scope (assembly : Assembly) : Scope :=
  match assembly.opened with
  | [] => outerScope
  | inner :: _ => inner.scope

/-- Closes the innermost open element. -/
def close (assembly : Assembly) : Assembly :=
  match assembly.opened with
  | [] => assembly
  | [outermost] => { opened := [], root := some outermost.finish }
  | inner :: parent :: rest =>
      { assembly with opened := parent.addChild inner.finish :: rest }

/-- Adds a token. Outside of the root element, only space may stand. -/
def step? (doctype : Doctype) (assembly : Assembly) (token : Token) : Option Assembly :=
  match token, assembly.opened with
  | .char c, [] => if isSpace c then some assembly else none
  | .char c, inner :: rest => some { assembly with opened := inner.addText [c] :: rest }
  | .data _, [] => none
  | .data text, inner :: rest => some { assembly with opened := inner.addText text :: rest }
  | .entity _, _ => none
  | .close _, [] => none
  | .close name, inner :: _ => if inner.name = name then some assembly.close else none
  | .start tag closed, opened => do
      if opened.isEmpty && assembly.root.isSome then none
      let (element, inner) ← startElement? doctype assembly.scope tag
      let entered := { assembly with opened := ⟨element, tag.name, inner, []⟩ :: opened }
      return if closed then entered.close else entered

end Assembly

/-- The root element of tokens. -/
def root? (doctype : Doctype) (tokens : List Token) : Option Element := do
  let assembly ← tokens.foldlM (Assembly.step? doctype) {}
  if assembly.opened.isEmpty then assembly.root else none

end ApkAtlas.Xml.Markup
