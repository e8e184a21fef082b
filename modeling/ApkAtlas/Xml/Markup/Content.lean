import ApkAtlas.Xml.Markup.Entity

namespace ApkAtlas.Xml.Markup

/-!
# Content as tokens

The text from the root element on is a sequence of tokens: characters, tags, references
to entities. Comments and processing instructions leave no token. Entities are replaced by
the tokens of their texts, which must close every element they open.
-/

/-- A start tag. -/
structure StartTag where
  name : Name
  /-- Attributes with the parts of their values. -/
  attributes : List (Name × List Piece)
deriving Repr, DecidableEq

/-- A token of content. -/
inductive Token where
  | char (c : Char)
  /-- Characters that are content whatever they are. -/
  | data (text : List Char)
  | entity (name : String)
  | start (tag : StartTag) (closed : Bool)
  | close (name : Name)
deriving Repr, DecidableEq

/-- The attributes of a start tag, whether the tag closes itself, and the rest of the
text. -/
def tagAttributes? (text : List Char) :
    Option (List (Name × List Piece) × Bool × List Char) :=
  match skipSpace text with
  | '>' :: after => some ([], false, after)
  | '/' :: '>' :: after => some ([], true, after)
  | _ => do
      let (name, rest) ← name? (← space? text)
      let rest ← after? ['='] (skipSpace rest)
      let (literal, rest) ← quoted? (skipSpace rest)
      let value ← pieces? literal
      if _shorter : rest.length < text.length then
        let (attributes, closed, after) ← tagAttributes? rest
        return ((name, value) :: attributes, closed, after)
      else
        none
termination_by text.length

/-- The token of markup behind its opening angle bracket, if it leaves one, and the rest
of the text. -/
def markup? (text : List Char) : Option (Option Token × List Char) :=
  match after? "![CDATA[".toList text with
  | some rest =>
      (Text.cutAt? "]]>".toList rest).map fun (data, after) => (some (.data data), after)
  | none => do
      match ← afterAside? ('<' :: text) with
      | some after => return (none, after)
      | none =>
          match text with
          | '/' :: rest => do
              let (name, rest) ← name? rest
              return (some (.close name), ← after? ['>'] (skipSpace rest))
          | _ => do
              let (name, rest) ← name? text
              let (attributes, closed, after) ← tagAttributes? rest
              return (some (.start ⟨name, attributes⟩ closed), after)

/-- The token of a reference behind its ampersand, and the rest of the text. -/
def referenceToken? (text : List Char) : Option (Token × List Char) := do
  let (piece, rest) ← reference? text
  match piece with
  | .entity name => return (.entity name, rest)
  | .reference c => return (.data [c], rest)
  | .char c => return (.char c, rest)

/-- The first token of a nonempty text, if it leaves one, and the rest. Characters cannot
be the end of a data section. -/
def firstToken? (c : Char) (rest : List Char) : Option (Option Token × List Char) :=
  if c = '<' then
    markup? rest
  else if c = '&' then
    (referenceToken? rest).map fun (token, after) => (some token, after)
  else if "]]>".toList.isPrefixOf (c :: rest) then
    none
  else
    some (some (.char c), rest)

/-- The tokens of a text. -/
def tokens? (text : List Char) : Option (List Token) :=
  match text with
  | [] => some []
  | c :: rest =>
      match firstToken? c rest with
      | none => none
      | some (token, after) =>
          if _shorter : after.length < rest.length + 1 then
            (tokens? after).map fun more => token.toList ++ more
          else
            none
termination_by text.length

/-- Whether tokens close as many elements as they open, never more than were opened, with
`depth` open before them. -/
def isBalanced (depth : Nat) : List Token → Bool
  | [] => depth == 0
  | .start _ false :: rest => isBalanced (depth + 1) rest
  | .close _ :: rest => depth != 0 && isBalanced (depth - 1) rest
  | _ :: rest => isBalanced depth rest

/-- Tokens with entities replaced by their texts, as `fuel` levels deep as it takes;
`opened` are the entities that are being replaced. -/
def Doctype.expandTokens (doctype : Doctype) :
    Nat → List String → List Token → Option (List Token)
  | 0, _, tokens => if tokens.all fun token => !(token matches .entity _) then some tokens else none
  | fuel + 1, opened, tokens =>
      let expand (token : Token) : Option (List Token) :=
        match token with
        | .entity name =>
            if opened.contains name then
              none
            else
              match Table.get? name doctype.entities with
              | some (some text) => do
                  let inner ← tokens? (normalizeBreaks text)
                  if isBalanced 0 inner then
                    doctype.expandTokens fuel (name :: opened) inner
                  else
                    none
              | _ => none
        | plain => some [plain]
      (tokens.mapM expand).map List.flatten

end ApkAtlas.Xml.Markup
