import ApkAtlas.Symbols.MappingText
import ApkAtlas.Text.Word

namespace ApkAtlas.SeedText

/-!
# Seed texts

A seed text fills the usage record with classes and members that are kept: a class name
alone, or a class name, a colon and a space, and the source form of a member. A member
with an argument list is a method.
-/

/-- What one line says. -/
inductive Line where
  | blank
  | keptClass (className : String)
  | keptMember (className : String) (kind : MemberKind) (signature : String)
deriving Repr, DecidableEq

/-- Whether the character may stand in a class name. -/
def isNameChar (c : Char) : Bool :=
  Text.isWordChar c || c == '$' || c == '.' || c == '-'

/-- What a line says; a line without a class name gives itself as the error. -/
def readLine (raw : String) : Except String Line :=
  let line := Text.strip raw.toList
  match line with
  | [] => .ok .blank
  | '#' :: _ => .ok .blank
  | _ =>
      let (before, after) := (Text.cutAt? [':', ' '] line).getD (line, [])
      let className := Text.strip before
      let member := Text.strip after
      if className.isEmpty || !className.all isNameChar then
        .error (String.ofList line)
      else if member.isEmpty then
        .ok (.keptClass (String.ofList className))
      else
        let kind := if member.contains '(' then MemberKind.method else MemberKind.field
        .ok (.keptMember (String.ofList className) kind (String.ofList member))

/-- Records what a line says. -/
def enter (symbols : SymbolMap) : Line → SymbolMap
  | .blank => symbols
  | .keptClass className => symbols.recordClass className
  | .keptMember className kind signature => symbols.recordMember kind className signature

/-- Records lines, counted from `number` on, up to the first without a class name. -/
def fill (number : Nat) (symbols : SymbolMap) :
    List String → SymbolMap × Option (Nat × String)
  | [] => (symbols, none)
  | raw :: rest =>
      match readLine raw with
      | .error text => (symbols, some (number, text))
      | .ok line => fill (number + 1) (enter symbols line) rest

/-- Fills the usage record from lines. The map keeps what the lines before the first bad
one said. -/
def parse
    (symbols : SymbolMap)
    (source : String)
    (lines : List String) :
    SymbolMap × Option Failure :=
  match fill 1 symbols lines with
  | (filled, none) => (filled, none)
  | (filled, some (number, text)) =>
      (filled, some (MappingText.lineFailure source number
        ("Unrecognized seed entry: " ++ Text.quoted text)))

end ApkAtlas.SeedText
