import ApkAtlas.Bytes
import ApkAtlas.Failure
import ApkAtlas.Text.Blank
import ApkAtlas.Text.Segment
import ApkAtlas.Xml.Element

namespace ApkAtlas.Xml.Markup

/-!
# Trees of markup

What is asked of a parser of markup: the tree of a document, in which names in a namespace
are written behind the namespace in braces. Which texts it refuses, and with which errors,
is its own matter. Elements that come from such a tree have namespaces, but neither
prefixes nor declarations.
-/

/-- An element as parsers of markup give it. -/
structure Tree where
  /-- The name, behind its namespace in braces if it is in one. -/
  tag : String
  /-- What stands before the first child, if anything does. -/
  text : Option String := none
  /-- Names, written like tags, with their values. -/
  attributes : List (String × String) := []
  children : List Tree := []
deriving Repr, Inhabited

/-- Why a parser gives no tree. -/
inductive Problem where
  /-- The text is not well-formed. -/
  | malformed (message : String)
  /-- The text cannot be read at all. -/
  | unreadable (error : ExternalError)
deriving Repr, DecidableEq

/-- A parser of markup. -/
abbrev Parser := Bytes → Except Problem Tree

/-- The error of a key that opens a brace and does not close it. -/
def openBrace : ExternalError :=
  ⟨.badValue, "not enough values to unpack (expected 2, got 1)"⟩

/-- The attribute of a key and a value. -/
def attributeOfKey (key value : String) : Except ExternalError Attribute :=
  match key.toList with
  | '{' :: rest =>
      match Text.cutFirst '}' rest with
      | (uri, some name) =>
          .ok { name := String.ofList name, value, namespaceUri := String.ofList uri }
      | (_, none) => .error openBrace
  | _ => .ok { name := key, value }

namespace Tree

mutual

/-- The element of a tree, with its name without namespace and its text without blanks at
the ends. -/
def element (tree : Tree) : Except ExternalError Element :=
  match tree with
  | ⟨tag, text, attributes, children⟩ => do
      let attributes ← attributes.mapM fun (key, value) => attributeOfKey key value
      let children ← elements children
      return {
        name := String.ofList (Text.afterLast '}' tag.toList)
        text := String.ofList (Text.strip (text.getD "").toList)
        attributes, children }

/-- The elements of some trees. -/
def elements : List Tree → Except ExternalError (List Element)
  | [] => .ok []
  | tree :: rest => do
      let first ← element tree
      let others ← elements rest
      return first :: others

end

end Tree

end ApkAtlas.Xml.Markup
