import ApkAtlas.Number.Rounding

namespace ApkAtlas

/-!
# Sizes for people

A size is shown in bytes, or in the unit in which it is below 1024 before it is rounded
to one decimal.
-/

namespace SizeText

/-- A size in units of 1024 bytes. From 2^53 on it is rounded to a double first. -/
def kilobytes (size : Nat) : Number.Ratio :=
  if size < Nat.pow 2 53 then ⟨size, 1024⟩ else (Number.Ratio.mk size 1024).toDouble.toRatio

/-- Whether a quotient is below 1024. -/
def fits (value : Number.Ratio) : Bool :=
  value.numerator < 1024 * value.denominator

/-- A quotient in the next larger unit. -/
def nextUnit (value : Number.Ratio) : Number.Ratio :=
  ⟨value.numerator, value.denominator * 1024⟩

/-- A quotient in the unit that fits, starting with the given one; the last one takes
whatever is left. -/
def inUnits (value : Number.Ratio) : List String → String
  | [] => Number.fixedText 1 false value ++ "GB"
  | unit :: larger =>
      if fits value then Number.fixedText 1 false value ++ unit
      else inUnits (nextUnit value) larger

end SizeText

/-- The text of a size, for people or as it is. -/
def sizeText (human : Bool) (size : Int) : String :=
  if human then
    if size < 1024 then toString size ++ "B"
    else SizeText.inUnits (SizeText.kilobytes size.toNat) ["KB", "MB"]
  else
    toString size

end ApkAtlas
