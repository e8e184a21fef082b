import ApkAtlas.Failure
import ApkAtlas.Symbols.SymbolMap
import ApkAtlas.Text.Blank
import ApkAtlas.Text.CodeRange

namespace ApkAtlas.MappingText

/-!
# Mapping texts

A mapping text fills the rename table. A class line `Source -> name:` opens a section
with the source name of a class and its name in bytecode; the indented lines below it do
the same for its members as `type source -> name`, with an argument list behind the source
name of a method and line ranges around it. Blank lines and lines that start with `#` say
nothing.
-/

/-- What one line says. -/
inductive Line where
  | blank
  | classEntry (sourceName bytecodeName : String)
  | memberEntry (sourceName bytecodeName : String)
deriving Repr, DecidableEq

/-- Why a line cannot be taken. -/
inductive Defect where
  | unknownClassLine (text : String)
  | unknownMemberLine (text : String)
  | memberWithoutClass
deriving Repr, DecidableEq

namespace Defect

/-- The defect in words. -/
def text : Defect → String
  | .unknownClassLine text => "Unrecognized class mapping: " ++ Text.quoted text
  | .unknownMemberLine text => "Unrecognized member mapping: " ++ Text.quoted text
  | .memberWithoutClass => "Member mapping before any class mapping"

end Defect

/-- The text up to the first blank, and the rest from there on. -/
def token (text : List Char) : List Char × List Char :=
  (text.takeWhile (!Text.isBlank ·), text.dropWhile (!Text.isBlank ·))

/-- The text behind blanks, of which there must be one. -/
def afterBlanks? : List Char → Option (List Char)
  | [] => none
  | c :: rest => if Text.isBlank c then some (rest.dropWhile Text.isBlank) else none

/-- The text behind an arrow with blanks on both sides. -/
def afterArrow? (text : List Char) : Option (List Char) := do
  match ← afterBlanks? text with
  | '-' :: '>' :: rest => afterBlanks? rest
  | _ => none

/-- The text as one token that reaches to its end. -/
def lastToken? (text : List Char) : Option (List Char) :=
  if text.isEmpty || text.any Text.isBlank then none else some text

/-- A class line: two tokens with an arrow between them, the second one closed by `:`. -/
def classLine? (line : List Char) : Option Line := do
  let (sourceName, rest) := token line
  let target ← lastToken? (← afterArrow? rest)
  match sourceName, target.reverse with
  | _ :: _, ':' :: c :: name =>
      some (.classEntry (String.ofList sourceName) (String.ofList (c :: name).reverse))
  | _, _ => none

/-- The text behind `:` and at least one digit. -/
def afterLineNumber? : List Char → Option (List Char)
  | ':' :: c :: rest =>
      if Text.isDecimalDigit c then some (rest.dropWhile Text.isDecimalDigit) else none
  | _ => none

/-- The text behind an argument list and the line range that may follow it; without an
argument list, the text itself. -/
def afterArguments? (text : List Char) : Option (List Char) :=
  match text with
  | '(' :: rest =>
      match (Text.cutFirst ')' rest).2 with
      | none => none
      | some after =>
          match afterLineNumber? after with
          | none => some after
          | some second => some ((afterLineNumber? second).getD second)
  | _ => some text

/-- A member line: a type, a name with its arguments, an arrow and the name in bytecode.
Of a name with its owner in front, as inlined frames have it, the last segment counts. -/
def memberLine? (line : List Char) : Option Line := do
  let (type, rest) := token (← afterBlanks? line)
  let nameOn ← afterBlanks? rest
  let stops (c : Char) : Bool := Text.isBlank c || c == '('
  let name := nameOn.takeWhile (!stops ·)
  let target ←
    lastToken? (← afterArrow? (← afterArguments? (nameOn.dropWhile (!stops ·))))
  if type.isEmpty || name.isEmpty then
    none
  else
    some (.memberEntry (String.ofList (Text.afterLast '.' name)) (String.ofList target))

/-- What a line says. -/
def readLine (raw : String) : Except Defect Line :=
  let line := Text.trimEndWhere (fun c => c == '\r' || c == '\n') raw.toList
  let stripped := Text.strip line
  match line, stripped with
  | c :: _, first :: _ =>
      if first = '#' then
        .ok .blank
      else if Text.isBlank c then
        match memberLine? line with
        | some entry => .ok entry
        | none => .error (.unknownMemberLine (String.ofList stripped))
      else
        match classLine? line with
        | some entry => .ok entry
        | none => .error (.unknownClassLine (String.ofList stripped))
  | _, _ => .ok .blank

/-- The map being filled, and the class whose section is open. -/
structure Reading where
  symbols : SymbolMap
  openClass : Option String := none

namespace Reading

/-- Enters what a line says. -/
def enter (reading : Reading) : Line → Except Defect Reading
  | .blank => .ok reading
  | .classEntry sourceName bytecodeName =>
      .ok ⟨reading.symbols.addClass bytecodeName sourceName, some bytecodeName⟩
  | .memberEntry sourceName bytecodeName =>
      match reading.openClass with
      | none => .error .memberWithoutClass
      | some className =>
          .ok { reading with
            symbols := reading.symbols.addMember className bytecodeName sourceName }

/-- Reads a line and enters what it says. -/
def step (reading : Reading) (raw : String) : Except Defect Reading := do
  reading.enter (← readLine raw)

end Reading

/-- Enters lines, counted from `number` on, up to the first that cannot be taken. -/
def fill
    (number : Nat)
    (reading : Reading) :
    List String → SymbolMap × Option (Nat × Defect)
  | [] => (reading.symbols, none)
  | raw :: rest =>
      match reading.step raw with
      | .error defect => (reading.symbols, some (number, defect))
      | .ok next => fill (number + 1) next rest

/-- The failure of a line. -/
def lineFailure (source : String) (number : Nat) (text : String) : Failure :=
  { text, detail := .mappingFormat number source }

/-- Fills the rename table from lines. The map keeps what the lines before the first bad
one said. -/
def parse
    (symbols : SymbolMap)
    (source : String)
    (lines : List String) :
    SymbolMap × Option Failure :=
  match fill 1 ⟨symbols, none⟩ lines with
  | (filled, none) => (filled, none)
  | (filled, some (number, defect)) => (filled, some (lineFailure source number defect.text))

end ApkAtlas.MappingText
