import ApkAtlas.Table
import ApkAtlas.Xml.Markup.Scan

namespace ApkAtlas.Xml.Markup

/-!
# Entities and attribute values

What a document type says about entities and attributes, how references to entities are
replaced by their texts, and how an attribute value is normalised: line breaks and tabs
are spaces, and in values that are tokens, so is any run of spaces. An entity cannot
refer to itself.
-/

/-- What a document type says of an attribute. -/
structure AttributeRule where
  /-- The name of the element as it is written. -/
  element : String
  name : Name
  /-- Whether values are texts; otherwise they are tokens. -/
  isText : Bool
  default : Option String
deriving Repr, DecidableEq

/-- What a document type says. -/
structure Doctype where
  /-- Entities with their texts; one whose text lies elsewhere has none. -/
  entities : List (String × Option (List Char)) := []
  rules : List AttributeRule := []
  /-- Whether declarations may lie elsewhere, so that an entity may be unknown. -/
  isPartial : Bool := false
  /-- Whether declarations still count. -/
  isActive : Bool := true
deriving Repr, DecidableEq, Inhabited

namespace Doctype

/-- The rule of an attribute of an element. -/
def rule? (doctype : Doctype) (element : String) (name : Name) : Option AttributeRule :=
  doctype.rules.find? fun rule => rule.element == element && rule.name == name

/-- The greatest depth to which entities can be replaced. -/
def depth (doctype : Doctype) : Nat :=
  doctype.entities.length + 1

/-- The parts of a value with entities replaced by their texts, as `fuel` levels deep as
it takes; `opened` are the entities that are being replaced. -/
def expandPieces (doctype : Doctype) :
    Nat → List String → List Piece → Option (List Piece)
  | 0, _, pieces => if pieces.all fun piece => !(piece matches .entity _) then some pieces else none
  | fuel + 1, opened, pieces =>
      let expand (piece : Piece) : Option (List Piece) :=
        match piece with
        | .entity name =>
            if opened.contains name then
              none
            else
              match Table.get? name doctype.entities with
              | none => if doctype.isPartial then some [] else none
              | some none => none
              | some (some text) => do
                  doctype.expandPieces fuel (name :: opened) (← pieces? (normalizeBreaks text))
        | plain => some [plain]
      (pieces.mapM expand).map List.flatten

end Doctype

/-- The character of a part of a value without entities. -/
def Piece.value : Piece → Char
  | .char c => if isSpace c then ' ' else c
  | .reference c => c
  | .entity _ => ' '

/-- A text without spaces at its ends and with single spaces inside. -/
def collapseSpaces (text : List Char) : List Char :=
  [' '].intercalate ((Text.segments ' ' text).filter (!·.isEmpty))

/-- The value of an attribute from its parts. -/
def attributeValue? (doctype : Doctype) (isText : Bool) (pieces : List Piece) :
    Option String := do
  let plain := (← doctype.expandPieces doctype.depth [] pieces).map Piece.value
  return String.ofList (if isText then plain else collapseSpaces plain)

end ApkAtlas.Xml.Markup
