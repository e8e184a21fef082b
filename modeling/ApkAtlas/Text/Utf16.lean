import ApkAtlas.Text.Utf8

namespace ApkAtlas.Text.Utf16

/-!
# Reading UTF-16

A text of 16-bit units: a unit outside the surrogate range is a character, a high and a
low surrogate in a row are one character, and any other surrogate is ill-formed on its
own.
-/

/-- Whether the unit is the first half of a pair. -/
def isHigh (unit : Nat) : Bool :=
  0xD800 ≤ unit && unit ≤ 0xDBFF

/-- Whether the unit is the second half of a pair. -/
def isLow (unit : Nat) : Bool :=
  0xDC00 ≤ unit && unit ≤ 0xDFFF

/-- The character of a surrogate pair. -/
def pair (high low : Nat) : Char :=
  Char.ofNat (0x10000 + (high - 0xD800) * 0x400 + (low - 0xDC00))

/-- The characters of a list of units, with a replacement character for each surrogate
that is no half of a pair. -/
def ofUnits : List Nat → List Char
  | [] => []
  | [unit] =>
      [if isHigh unit || isLow unit then Utf8.replacement else Char.ofNat unit]
  | unit :: next :: rest =>
      if isHigh unit && isLow next then
        pair unit next :: ofUnits rest
      else if isHigh unit || isLow unit then
        Utf8.replacement :: ofUnits (next :: rest)
      else
        Char.ofNat unit :: ofUnits (next :: rest)

/-- The characters of a list of units in which each surrogate is half of a pair. -/
def ofUnits? : List Nat → Option (List Char)
  | [] => some []
  | [unit] => if isHigh unit || isLow unit then none else some [Char.ofNat unit]
  | unit :: next :: rest =>
      if isHigh unit && isLow next then
        (ofUnits? rest).map (pair unit next :: ·)
      else if isHigh unit || isLow unit then
        none
      else
        (ofUnits? (next :: rest)).map (Char.ofNat unit :: ·)

/-- The whole units of a byte string, low byte first. -/
def units : List UInt8 → List Nat
  | low :: high :: rest => (low.toNat + 256 * high.toNat) :: units rest
  | _ => []

/-- The text of a byte string, with a replacement character for each lone surrogate. -/
def decodeLossy (bytes : List UInt8) : String :=
  String.ofList (ofUnits (units bytes))

/-- The characters of a byte string of whole units without lone surrogates. -/
def decode? (bytes : List UInt8) : Option (List Char) :=
  if bytes.length % 2 = 0 then ofUnits? (units bytes) else none

end ApkAtlas.Text.Utf16

namespace ApkAtlas.Text.ModifiedUtf8

/-!
# Modified UTF-8

The encoding of strings in DEX files: each 16-bit unit of the text is written in one to
three bytes, so a character past the first plane takes two units, and a zero byte never
occurs inside a string.
-/

/-- The units of an encoded string. -/
def units : List UInt8 → List Nat
  | [] => []
  | first :: rest =>
      if first < 0x80 then
        first.toNat :: units rest
      else if first < 0xE0 then
        match rest with
        | second :: more =>
            ((first.toNat % 0x20) * 0x40 + second.toNat % 0x40) :: units more
        | [] => [0xFFFD]
      else
        match rest with
        | second :: third :: more =>
            ((first.toNat % 0x10) * 0x1000 + (second.toNat % 0x40) * 0x40 +
              third.toNat % 0x40) :: units more
        | _ => [0xFFFD]

/-- The text of an encoded string. -/
def decode (bytes : List UInt8) : String :=
  String.ofList (Utf16.ofUnits (units bytes))

end ApkAtlas.Text.ModifiedUtf8
