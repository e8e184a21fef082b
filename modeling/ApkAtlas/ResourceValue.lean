import ApkAtlas.Chunk.StringPool
import ApkAtlas.Number.Shortest

namespace ApkAtlas

/-!
# Typed values of resources

A typed value is a kind and a word of data. Its text is what a resource dump shows for
it: references and colours in hexadecimal, numbers in decimal, and dimensions and
fractions as a number with its unit.
-/

namespace ResourceValue

/-- The kinds of typed value. -/
inductive Kind where
  | null
  | reference
  | attribute
  | string
  | float
  | dimension
  | fraction
  | decimal
  | hexadecimal
  | boolean
  /-- A colour with an alpha channel. -/
  | alphaColor
  | opaqueColor
  | unknown (code : Int)
deriving Repr, DecidableEq

namespace Kind

/-- The kind with the given code. -/
def ofCode (code : Int) : Kind :=
  match code with
  | 0x00 => .null
  | 0x01 => .reference
  | 0x02 => .attribute
  | 0x03 => .string
  | 0x04 => .float
  | 0x05 => .dimension
  | 0x06 => .fraction
  | 0x10 => .decimal
  | 0x11 => .hexadecimal
  | 0x12 => .boolean
  | 0x1C => .alphaColor
  | 0x1D => .opaqueColor
  | 0x1E => .alphaColor
  | 0x1F => .opaqueColor
  | other => .unknown other

end Kind

/-- The first number that a word of 32 bits cannot hold. -/
def wordBound : Int := 4294967296

/-- The value of the highest bit of a word. -/
def halfWord : Int := 2147483648

/-- A packed number: a mantissa, the place of its binary point and a unit. -/
structure Complex where
  /-- A signed number of 24 bits. -/
  mantissa : Int
  /-- How many bits of the mantissa lie behind the binary point. -/
  fractionBits : Nat
  unit : Nat
deriving Repr, DecidableEq

namespace Complex

/-- How many bits lie behind the point for each value of the two radix bits. -/
def fractionBitsOf (radix : Nat) : Nat :=
  match radix with
  | 0 => 0
  | 1 => 7
  | 2 => 15
  | _ => 23

/-- The packed number in the lowest 32 bits of a word. -/
def ofWord (word : Int) : Complex :=
  let bits := (word % wordBound).toNat
  ⟨Bytes.signed 24 (bits / 256), fractionBitsOf (bits / 16 % 4), bits % 16⟩

/-- Whether the number is below zero. -/
def negative (number : Complex) : Bool :=
  number.mantissa < 0

/-- The size of the number. -/
def size (number : Complex) : Number.Ratio :=
  ⟨number.mantissa.natAbs, Nat.pow 2 number.fractionBits⟩

/-- The decimals that a number text shows at most. -/
def places : Nat := 6

/-- The units of dimensions, in the order of their codes. -/
def dimensionUnits : List String :=
  ["px", "dp", "sp", "pt", "in", "mm"]

/-- The units of fractions: of the whole, and of the parent. -/
def fractionUnits : List String :=
  ["%", "%p"]

/-- The unit behind a number; an unknown one goes by its code. -/
def unitText (units : List String) (unit : Nat) : String :=
  units[unit]?.getD s!" (unit {unit})"

/-- The number as a dimension. -/
def dimensionText (number : Complex) : String :=
  Number.trimmedText places number.negative number.size ++
    unitText dimensionUnits number.unit

/-- The percentage shown for a fraction: the number is rounded to six decimals and read
back as a double before it is multiplied. -/
def percentage (size : Number.Ratio) : Number.Ratio :=
  let shown : Number.Ratio := ⟨Number.units places size, Nat.pow 10 places⟩
  (shown.toDouble.toRatio.times 100).toDouble.toRatio

/-- The number as a fraction, in percent. -/
def fractionText (number : Complex) : String :=
  Number.trimmedText places number.negative (percentage number.size) ++
    unitText fractionUnits number.unit

end Complex

/-- The text of a word of data of the given kind. -/
def textOfKind (strings : StringPool) (data : Int) : Kind → String
  | .null => ""
  | .reference =>
      if data = 0 then "@null" else "@0x" ++ Text.paddedSignedHex 8 data
  | .attribute => "?0x" ++ Text.paddedSignedHex 8 data
  | .string => strings.text data
  | .float => Number.singleText (data % wordBound).toNat
  | .dimension => (Complex.ofWord data).dimensionText
  | .fraction => (Complex.ofWord data).fractionText
  | .decimal =>
      toString (if data / halfWord % 2 = 1 then data - wordBound else data)
  | .hexadecimal => "0x" ++ Text.paddedSignedHex 8 data
  | .boolean => if data = 0 then "false" else "true"
  | .alphaColor => "#" ++ Text.paddedSignedHex 8 data
  | .opaqueColor => "#" ++ Text.hex 6 (data % 16777216).toNat
  | .unknown code =>
      "<0x" ++ Text.paddedSignedHex 0 code ++ ">0x" ++ Text.paddedSignedHex 8 data

/-- The text of a typed value. -/
def text (strings : StringPool) (code data : Int) : String :=
  textOfKind strings data (Kind.ofCode code)

/-- Why a word of data has no text. -/
inductive WordError where
  | tooLarge
  | negative
deriving Repr, DecidableEq

namespace WordError

/-- The error in words. -/
def message : WordError → String
  | .tooLarge => "'I' format requires 0 <= number <= 4294967295"
  | .negative => "argument out of range"

/-- The error as a fault. -/
def toFault (error : WordError) : Fault :=
  .external ⟨.badLayout, error.message⟩

end WordError

/-- The text of a typed value whose data need not fit a word: a float has none then. -/
def checkedText (strings : StringPool) (code data : Int) : Except WordError String :=
  if Kind.ofCode code = .float ∧ data < 0 then .error .negative
  else if Kind.ofCode code = .float ∧ wordBound ≤ data then .error .tooLarge
  else .ok (text strings code data)

end ResourceValue

end ApkAtlas
