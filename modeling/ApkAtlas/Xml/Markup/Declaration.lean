import ApkAtlas.Xml.Markup.Entity

namespace ApkAtlas.Xml.Markup

/-!
# Document type declarations

The declarations inside a document are read for what they say about entities and
attributes; element and notation declarations are only checked for their form. Parts of a
document type that lie in other files are not read.
-/

/-- Whether a public identifier may hold the character. -/
def isPublicChar (c : Char) : Bool :=
  c.isAlphanum || " \n-'()+,./:=?;!*#@$_%".toList.contains c

/-- A system identifier, with a public one in front if the keyword says so, behind which
the text goes on; `needsSystem` tells whether a public identifier may stand alone. -/
def externalId? (needsSystem : Bool) (text : List Char) : Option (List Char) :=
  match after? "SYSTEM".toList text with
  | some rest => do
      let (_, after) ← quoted? (← space? rest)
      return after
  | none => do
      let (literal, after) ← quoted? (← space? (← after? "PUBLIC".toList text))
      if !literal.all isPublicChar then none
      match (space? after).bind quoted? with
      | some (_, more) => return more
      | none => if needsSystem then none else return after

/-- The end of a declaration. -/
def declarationEnd? (text : List Char) : Option (List Char) :=
  after? ['>'] (skipSpace text)

/-- What a reference, written behind the ampersand as given, leaves in the text of an
entity: a character by its number stands for itself, and a name stays a reference. -/
def referenceText (written : List Char) (piece : Piece) : List Char :=
  match written, piece with
  | '#' :: _, .reference d => [d]
  | _, _ => '&' :: written

/-- The replacement text of an entity from its literal: references to characters are
replaced, references to entities stay. -/
def entityText? (literal : List Char) : Option (List Char) :=
  match literal with
  | [] => some []
  | c :: rest =>
      if c = '%' then
        none
      else if c = '&' then
        match reference? rest with
        | none => none
        | some (piece, more) =>
            if _shorter : more.length < rest.length + 1 then
              let written := rest.take (rest.length - more.length)
              (entityText? more).map (referenceText written piece ++ ·)
            else
              none
      else
        (entityText? rest).map (c :: ·)
termination_by literal.length

namespace Doctype

/-- Declares an entity; the first declaration of a name counts. -/
def declare (doctype : Doctype) (name : String) (text : Option (List Char)) : Doctype :=
  if !doctype.isActive || (predefined? name).isSome ||
      (Table.get? name doctype.entities).isSome then
    doctype
  else
    { doctype with entities := doctype.entities ++ [(name, text)] }

/-- Adds a rule for an attribute; the first one counts. -/
def addRule (doctype : Doctype) (rule : AttributeRule) : Doctype :=
  if !doctype.isActive || (doctype.rule? rule.element rule.name).isSome then
    doctype
  else
    { doctype with rules := doctype.rules ++ [rule] }

end Doctype

/-- An entity declaration behind its keyword. -/
def entityDeclaration? (doctype : Doctype) (text : List Char) :
    Option (Doctype × List Char) := do
  let start ← space? text
  let (isParameter, start) ←
    match start with
    | '%' :: rest => (space? rest).map fun rest => (true, rest)
    | _ => some (false, start)
  let (name, rest) ← plainName? start
  let rest ← space? rest
  match quoted? rest with
  | some (literal, after) => do
      let after ← declarationEnd? after
      if doctype.isActive then
        let text ← entityText? literal
        return (if isParameter then doctype else doctype.declare name (some text), after)
      else
        return (doctype, after)
  | none => do
      let after ← externalId? true rest
      let doctype := if isParameter then doctype else doctype.declare name none
      match (space? after).bind (after? "NDATA".toList) with
      | some more => do
          if isParameter then none
          let (_, more) ← plainName? (← space? more)
          return (doctype, ← declarationEnd? more)
      | none => return (doctype, ← declarationEnd? after)

/-- A notation declaration behind its keyword. -/
def notationDeclaration? (text : List Char) : Option (List Char) := do
  let (_, rest) ← plainName? (← space? text)
  declarationEnd? (← externalId? false (← space? rest))

/-- A token made of name characters and colons. -/
def nameToken? (text : List Char) : Option (List Char) :=
  let isTokenChar (c : Char) : Bool := isNameChar c || c == ':'
  if (text.takeWhile isTokenChar).isEmpty then none else some (text.dropWhile isTokenChar)

/-- Alternatives behind an opening parenthesis: items with bars between them. -/
def alternatives? (item : List Char → Option (List Char)) (text : List Char) :
    Option (List Char) := do
  let rest := skipSpace (← item (skipSpace text))
  match rest with
  | ')' :: after => return after
  | '|' :: more =>
      if _shorter : more.length < text.length then alternatives? item more else none
  | _ => none
termination_by text.length

/-- The types of attribute that are tokens, longer words before their beginnings. -/
def tokenTypes : List String :=
  ["IDREFS", "IDREF", "ID", "ENTITIES", "ENTITY", "NMTOKENS", "NMTOKEN"]

/-- The type of an attribute: whether its values are texts. -/
def attributeType? (text : List Char) : Option (Bool × List Char) :=
  match text with
  | '(' :: rest => (alternatives? nameToken? rest).map fun after => (false, after)
  | _ =>
      match after? "CDATA".toList text with
      | some after => some (true, after)
      | none =>
          match after? "NOTATION".toList text with
          | some rest => do
              let rest ← after? ['('] (← space? rest)
              let item (text : List Char) := (plainName? text).map Prod.snd
              return (false, ← alternatives? item rest)
          | none => (tokenTypes.findSome? (after? ·.toList text)).map fun after => (false, after)

/-- What an attribute is without a value: its default if there is one. -/
def attributeDefault? (doctype : Doctype) (isText : Bool) (text : List Char) :
    Option (Option String × List Char) :=
  match after? "#REQUIRED".toList text with
  | some after => some (none, after)
  | none =>
      match after? "#IMPLIED".toList text with
      | some after => some (none, after)
      | none => do
          let start ←
            match after? "#FIXED".toList text with
            | some rest => space? rest
            | none => some text
          let (literal, after) ← quoted? start
          if doctype.isActive then
            let value ← attributeValue? doctype isText (← pieces? literal)
            return (some value, after)
          else
            return (none, after)

/-- The attributes of an attribute-list declaration behind the name of its element. -/
def attributeList? (element : String) (doctype : Doctype) (text : List Char) :
    Option (Doctype × List Char) :=
  match after? ['>'] (skipSpace text) with
  | some after => some (doctype, after)
  | none => do
      let (name, rest) ← name? (← space? text)
      let (isText, rest) ← attributeType? (← space? rest)
      let (default, rest) ← attributeDefault? doctype isText (← space? rest)
      if _shorter : rest.length < text.length then
        attributeList? element (doctype.addRule ⟨element, name, isText, default⟩) rest
      else
        none
termination_by text.length

/-- An attribute-list declaration behind its keyword. -/
def attributeDeclaration? (doctype : Doctype) (text : List Char) :
    Option (Doctype × List Char) := do
  let (element, rest) ← name? (← space? text)
  attributeList? element.raw doctype rest

/-- The text behind a mark of repetition, if any. -/
def afterRepetition (text : List Char) : List Char :=
  match text with
  | c :: rest => if c = '?' ∨ c = '*' ∨ c = '+' then rest else text
  | [] => []

/-- The text behind a group of a content model whose parenthesis was read, `fuel` levels
deep at most; `separator` is the mark between its parts once one was seen. -/
def afterGroup? : Nat → Option Char → List Char → Option (List Char)
  | 0, _, _ => none
  | fuel + 1, separator, text => do
      let rest ←
        match skipSpace text with
        | '(' :: inner => afterGroup? fuel none inner
        | item => (name? item).map fun found => afterRepetition found.2
      match skipSpace rest with
      | ')' :: after => return afterRepetition after
      | c :: more =>
          if (c = '|' ∨ c = ',') ∧ separator.getD c = c then afterGroup? fuel (some c) more
          else none
      | [] => none

/-- The text behind mixed content whose first word was read. -/
def afterMixed? (text : List Char) : Option (List Char) :=
  match skipSpace text with
  | ')' :: '*' :: after => some after
  | ')' :: after => some after
  | '|' :: rest => do
      let item (text : List Char) := (name? text).map Prod.snd
      after? ['*'] (← alternatives? item rest)
  | _ => none

/-- The text behind a content model. -/
def afterContentModel? (text : List Char) : Option (List Char) :=
  match text with
  | '(' :: rest =>
      match after? "#PCDATA".toList (skipSpace rest) with
      | some mixed => afterMixed? mixed
      | none => afterGroup? text.length none rest
  | _ =>
      match after? "EMPTY".toList text with
      | some after => some after
      | none => after? "ANY".toList text

/-- An element declaration behind its keyword. -/
def elementDeclaration? (text : List Char) : Option (List Char) := do
  let (_, rest) ← name? (← space? text)
  declarationEnd? (← afterContentModel? (← space? rest))

/-- A declaration behind its opening. -/
def declaration? (doctype : Doctype) (text : List Char) : Option (Doctype × List Char) :=
  match after? "ENTITY".toList text with
  | some rest => entityDeclaration? doctype rest
  | none =>
      match after? "ATTLIST".toList text with
      | some rest => attributeDeclaration? doctype rest
      | none =>
          match after? "ELEMENT".toList text with
          | some rest => (elementDeclaration? rest).map fun after => (doctype, after)
          | none => do
              let rest ← after? "NOTATION".toList text
              return (doctype, ← notationDeclaration? rest)

/-- One part of the declarations between brackets: a comment, a processing instruction, a
declaration, or a reference to a parameter entity, behind which declarations count no
more unless the document stands alone. -/
def subsetPart? (standalone : Bool) (doctype : Doctype) (text : List Char) :
    Option (Doctype × List Char) := do
  match ← afterAside? text with
  | some after => return (doctype, after)
  | none =>
      match text with
      | '<' :: '!' :: rest => declaration? doctype rest
      | '%' :: rest => do
          let (_, rest) ← plainName? rest
          let after ← after? [';'] rest
          return ({ doctype with isPartial := !standalone, isActive := standalone }, after)
      | _ => none

/-- The declarations between brackets, behind the opening one. -/
def subset? (standalone : Bool) (doctype : Doctype) (text : List Char) :
    Option (Doctype × List Char) :=
  match skipSpace text with
  | ']' :: after => some (doctype, after)
  | start =>
      match subsetPart? standalone doctype start with
      | none => none
      | some (doctype, rest) =>
          if _shorter : rest.length < text.length then subset? standalone doctype rest else none
termination_by text.length

/-- A document type declaration behind its keyword. -/
def doctype? (standalone : Bool) (text : List Char) : Option (Doctype × List Char) := do
  let (_, rest) ← name? (← space? text)
  let (doctype, rest) :=
    match (space? rest).bind (externalId? true) with
    | some after => (({ isPartial := !standalone } : Doctype), after)
    | none => ({}, rest)
  match skipSpace rest with
  | '[' :: start => do
      let (doctype, after) ← subset? standalone doctype start
      return (doctype, ← declarationEnd? after)
  | finish => return (doctype, ← after? ['>'] finish)

/-- What stands in front of the root element: asides, and at most one document type. -/
def prolog? (standalone : Bool) (doctype : Option Doctype) (text : List Char) :
    Option (Doctype × List Char) :=
  let start := skipSpace text
  match afterAside? start with
  | none => none
  | some (some rest) =>
      if _shorter : rest.length < text.length then prolog? standalone doctype rest else none
  | some none =>
      match after? "<!DOCTYPE".toList start with
      | none => some (doctype.getD {}, start)
      | some rest =>
          if doctype.isSome then
            none
          else
            match doctype? standalone rest with
            | none => none
            | some (found, rest) =>
                if _shorter : rest.length < text.length then prolog? standalone (some found) rest
                else none
termination_by text.length

end ApkAtlas.Xml.Markup
