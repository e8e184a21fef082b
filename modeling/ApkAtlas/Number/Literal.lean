import ApkAtlas.Text.Blank
import ApkAtlas.Text.CodeRange
import ApkAtlas.Text.Segment

namespace ApkAtlas.Number

/-!
# Integer literals

An integer is read with an optional sign, blank space around it, single underscores
between digits and decimal digits of any script. With a fixed base of ten, leading zeros
are allowed. With the base taken from the text, `0x`, `0o` and `0b` select another base
and a decimal literal other than zero starts with no zero. Decimal literals are limited
in length.
-/

/-- The greatest count of decimal digits that is read. -/
def digitLimit : Nat :=
  4300

/-- The value of a digit in bases up to sixteen. -/
def digit? (c : Char) : Option Nat :=
  if c.isDigit then some (c.toNat - 0x30)
  else if 'a' ≤ c ∧ c ≤ 'f' then some (c.toNat - 0x61 + 10)
  else if 'A' ≤ c ∧ c ≤ 'F' then some (c.toNat - 0x41 + 10)
  else none

/-- The value of a digit below the base. -/
def digitBelow? (base : Nat) (c : Char) : Option Nat :=
  (digit? c).filter (· < base)

/-- The digits of a nonempty literal in which underscores stand only between digits. -/
def digits? (base : Nat) : List Char → Option (List Nat)
  | [] => none
  | [c] => (digitBelow? base c).map fun value => [value]
  | c :: '_' :: rest => do
      let value ← digitBelow? base c
      return value :: (← digits? base rest)
  | c :: next :: rest => do
      let value ← digitBelow? base c
      return value :: (← digits? base (next :: rest))

/-- The number with the given digits, the first one most significant. -/
def ofDigits (base : Nat) (digits : List Nat) : Nat :=
  digits.foldl (fun value digit => value * base + digit) 0

/-- A decimal literal without sign. -/
def decimal? (text : List Char) : Option Nat := do
  let digits ← digits? 10 text
  if digitLimit < digits.length then none
  return ofDigits 10 digits

/-- A literal in a base that its mark selected; one underscore may follow the mark. -/
def marked? (base : Nat) (text : List Char) : Option Nat :=
  let body := match text with
    | '_' :: rest => rest
    | _ => text
  (digits? base body).map (ofDigits base)

/-- A literal without sign whose base is taken from the text. -/
def anyBase? : List Char → Option Nat
  | '0' :: mark :: rest =>
      if mark = 'x' ∨ mark = 'X' then marked? 16 rest
      else if mark = 'o' ∨ mark = 'O' then marked? 8 rest
      else if mark = 'b' ∨ mark = 'B' then marked? 2 rest
      else (decimal? ('0' :: mark :: rest)).filter (· == 0)
  | text => decimal? text

/-- The character with a decimal digit of any script written in ASCII. -/
def plainDigit (c : Char) : Char :=
  match Text.decimalDigit? c with
  | some value => Char.ofNat (0x30 + value)
  | none => c

/-- Whether a character may stand around a literal: blanks, but no control characters that
separate records. -/
def isMargin (c : Char) : Bool :=
  Text.isBlank c && !(0x1C ≤ c.toNat && c.toNat ≤ 0x1F)

/-- A text without what may stand around a literal. -/
def core (text : String) : List Char :=
  Text.trimEndWhere isMargin (text.toList.dropWhile isMargin)

/-- A literal behind an optional sign. -/
def signed? (read : List Char → Option Nat) : List Char → Option Int
  | '-' :: rest => (read rest).map fun value => -(value : Int)
  | '+' :: rest => (read rest).map Int.ofNat
  | rest => (read rest).map Int.ofNat

/-- The integer of a decimal literal. -/
def ofDecimal? (text : String) : Option Int :=
  signed? decimal? ((core text).map plainDigit)

/-- The integer of a literal in the base it selects. -/
def ofLiteral? (text : String) : Option Int :=
  signed? anyBase? ((core text).map plainDigit)

/-- The integer of a numeral in ASCII, which may have decimals that are all zero. -/
def ofNumeral? (text : String) : Option Int :=
  match Text.cutFirst '.' (core text) with
  | (whole, none) => signed? decimal? whole
  | (whole, some decimals) =>
      if decimals.all (· == '0') then signed? decimal? whole else none

end ApkAtlas.Number
