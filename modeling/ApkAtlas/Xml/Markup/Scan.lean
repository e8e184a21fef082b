import ApkAtlas.Text.Segment
import ApkAtlas.Xml.Character

namespace ApkAtlas.Xml.Markup

/-!
# Scanning XML texts

The smallest parts of an XML text: space, names, quoted literals, references, comments
and processing instructions. Each scanner gives what it found and the rest of the text,
or nothing where the text is not well-formed. Line breaks are single line feeds here.
-/

/-- The rest of a text behind the given beginning. -/
def after? (beginning text : List Char) : Option (List Char) :=
  if beginning.isPrefixOf text then some (text.drop beginning.length) else none

/-- The rest of a text behind space, if any. -/
def skipSpace (text : List Char) : List Char :=
  text.dropWhile isSpace

/-- The rest of a text behind space, which must be there. -/
def space? (text : List Char) : Option (List Char) :=
  match text with
  | c :: rest => if isSpace c then some (skipSpace rest) else none
  | [] => none

/-- A name with the prefix that stands for its namespace. -/
structure Name where
  nsPrefix : String
  localName : String
deriving Repr, DecidableEq, Inhabited

namespace Name

/-- The name as it is written. -/
def raw (name : Name) : String :=
  if name.nsPrefix.isEmpty then name.localName else name.nsPrefix ++ ":" ++ name.localName

end Name

/-- A name without colon. -/
def plainName? (text : List Char) : Option (String × List Char) :=
  match text with
  | c :: _ =>
      if isNameStart c then
        some (String.ofList (text.takeWhile isNameChar), text.dropWhile isNameChar)
      else
        none
  | [] => none

/-- A name with at most one colon, which has a name on both sides. -/
def name? (text : List Char) : Option (Name × List Char) := do
  let (first, rest) ← plainName? text
  match rest with
  | ':' :: more => do
      let (second, rest) ← plainName? more
      match rest with
      | ':' :: _ => none
      | _ => return (⟨first, second⟩, rest)
  | _ => return (⟨"", first⟩, rest)

/-- A literal between two equal quotes. -/
def quoted? (text : List Char) : Option (List Char × List Char) :=
  match text with
  | c :: rest =>
      if c = '"' ∨ c = '\'' then
        match Text.cutFirst c rest with
        | (literal, some after) => some (literal, after)
        | (_, none) => none
      else
        none
  | [] => none

/-- A part of a value: a character that stands for itself, one that a reference stands
for, or a reference to an entity. -/
inductive Piece where
  | char (c : Char)
  | reference (c : Char)
  | entity (name : String)
deriving Repr, DecidableEq

/-- The character of an entity that needs no declaration. -/
def predefined? : String → Option Char
  | "lt" => some '<'
  | "gt" => some '>'
  | "amp" => some '&'
  | "quot" => some '"'
  | "apos" => some '\''
  | _ => none

/-- The value of a digit in the given base. -/
def digit? (base : Nat) (c : Char) : Option Nat :=
  let value? :=
    if c.isDigit then some (c.toNat - 0x30)
    else if 'a' ≤ c ∧ c ≤ 'f' then some (c.toNat - 0x61 + 10)
    else if 'A' ≤ c ∧ c ≤ 'F' then some (c.toNat - 0x41 + 10)
    else none
  value?.filter (· < base)

/-- The character of a code point, if XML texts may hold it. -/
def charOfCode? (code : Nat) : Option Char :=
  if code.isValidChar then
    let c := Char.ofNat code
    if isXmlChar c then some c else none
  else
    none

/-- The character that digits in a base stand for. -/
def charOfDigits? (base : Nat) (digits : List Char) : Option Char := do
  if digits.isEmpty then none
  let values ← digits.mapM (digit? base)
  charOfCode? (values.foldl (fun code value => code * base + value) 0)

/-- A reference behind its ampersand. -/
def reference? (text : List Char) : Option (Piece × List Char) := do
  match text with
  | '#' :: 'x' :: rest => do
      let (digits, after) := Text.cutFirst ';' rest
      return (.reference (← charOfDigits? 16 digits), ← after)
  | '#' :: rest => do
      let (digits, after) := Text.cutFirst ';' rest
      return (.reference (← charOfDigits? 10 digits), ← after)
  | _ => do
      let (name, rest) ← plainName? text
      let after ← after? [';'] rest
      match predefined? name with
      | some c => return (.reference c, after)
      | none => return (.entity name, after)

/-- The parts of a value; an opening angle bracket cannot be one. -/
def pieces? (text : List Char) : Option (List Piece) :=
  match text with
  | [] => some []
  | c :: rest =>
      if c = '<' then
        none
      else if c = '&' then
        match reference? rest with
        | none => none
        | some (piece, more) =>
            if _shorter : more.length < rest.length + 1 then
              (pieces? more).map (piece :: ·)
            else
              none
      else
        (pieces? rest).map (.char c :: ·)
termination_by text.length

/-- The rest of a text behind a comment whose opening was read. -/
def afterComment? (text : List Char) : Option (List Char) := do
  let (_, after) ← Text.cutAt? ['-', '-'] text
  after? ['>'] after

/-- The rest of a text behind a processing instruction whose opening was read. Its name
cannot be that of the XML declaration. -/
def afterInstruction? (text : List Char) : Option (List Char) := do
  let (target, rest) ← plainName? text
  if target.toLower = "xml" then none
  match after? ['?', '>'] rest with
  | some after => return after
  | none => do
      let (_, after) ← Text.cutAt? ['?', '>'] (← space? rest)
      return after

/-- Whether a text that opens a comment or a processing instruction goes on behind it;
any other text is left alone. -/
def afterAside? (text : List Char) : Option (Option (List Char)) :=
  match text with
  | '<' :: '!' :: '-' :: '-' :: rest => (afterComment? rest).map some
  | '<' :: '?' :: rest => (afterInstruction? rest).map some
  | _ => some none

/-- The text with each line break written as one line feed. -/
def normalizeBreaks : List Char → List Char
  | [] => []
  | '\r' :: '\n' :: rest => '\n' :: normalizeBreaks rest
  | c :: rest => (if c = '\r' then '\n' else c) :: normalizeBreaks rest

end ApkAtlas.Xml.Markup
