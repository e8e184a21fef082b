import ApkAtlas.Number.Rounding

namespace ApkAtlas.Number

/-!
# The shortest decimal of a double

A double is shown with the fewest decimal digits that read back as the same double. The
numbers that read back form an interval around it. For each count of digits, only the
two neighbours of the double on the grid of such decimals need a test.
-/

/-- A positive double with exactly 53 significant bits. -/
def Dyadic.normalize (number : Dyadic) : Dyadic :=
  let missing : Nat := 52 - number.mantissa.log2
  ⟨number.mantissa * Nat.pow 2 missing, number.exponent - missing⟩

/-- The quotients that round to a double, as numerators over one denominator. -/
structure Interval where
  low : Nat
  middle : Nat
  high : Nat
  denominator : Nat
  /-- Whether the ends round to the double as well. -/
  closed : Bool
deriving Repr, DecidableEq

/-- The interval of a normalized double: half a unit of the last bit to either side, and
only a quarter below a power of two. -/
def Dyadic.interval (number : Dyadic) : Interval :=
  let four : Dyadic := ⟨4 * number.mantissa, number.exponent - 2⟩
  let step := if number.mantissa = Nat.pow 2 52 then 1 else 2
  let middle := four.toRatio
  let unit := (Dyadic.mk 1 four.exponent).toRatio.numerator
  ⟨middle.numerator - step * unit, middle.numerator, middle.numerator + 2 * unit,
    middle.denominator, number.mantissa % 2 == 0⟩

namespace Interval

/-- Whether a quotient lies in the interval. -/
def holds (interval : Interval) (candidate : Ratio) : Bool :=
  let value := candidate.numerator * interval.denominator
  let low := interval.low * candidate.denominator
  let high := interval.high * candidate.denominator
  if interval.closed then low ≤ value && value ≤ high else low < value && value < high

/-- How far a quotient is from the middle, over the product of both denominators. -/
def distance (interval : Interval) (candidate : Ratio) : Nat :=
  let value := candidate.numerator * interval.denominator
  let middle := interval.middle * candidate.denominator
  (value - middle) + (middle - value)

end Interval

/-- A decimal: digits times a power of ten. -/
structure Decimal where
  digits : Nat
  exponent : Int
deriving Repr, DecidableEq

/-- A decimal as a quotient. -/
def Decimal.toRatio (decimal : Decimal) : Ratio :=
  if 0 ≤ decimal.exponent then
    ⟨decimal.digits * Nat.pow 10 decimal.exponent.toNat, 1⟩
  else
    ⟨decimal.digits, Nat.pow 10 (-decimal.exponent).toNat⟩

/-- How many places a positive quotient below one must be shifted to reach one; `fuel`
bounds the count. -/
def leadingPlaces (ratio : Ratio) : Nat → Nat
  | 0 => 0
  | fuel + 1 =>
      if ratio.denominator ≤ ratio.numerator then 0
      else 1 + leadingPlaces (ratio.times 10) fuel

/-- The exponent of ten of the first digit of a positive quotient. -/
def decimalExponent (ratio : Ratio) : Int :=
  if ratio.denominator ≤ ratio.numerator then
    ((Nat.toDigits 10 (ratio.numerator / ratio.denominator)).length : Int) - 1
  else
    -(leadingPlaces ratio (ratio.denominator.log2 + 1) : Int)

/-- The neighbour of a double on the grid of multiples of a power of ten that reads back
as the double: the nearer one if both do, and the even one of two equally near. -/
def onGrid? (interval : Interval) (exponent : Int) : Option Decimal :=
  let middle : Ratio := ⟨interval.middle, interval.denominator⟩
  let scaled : Ratio :=
    if 0 ≤ exponent then
      ⟨middle.numerator, middle.denominator * Nat.pow 10 exponent.toNat⟩
    else
      middle.times (Nat.pow 10 (-exponent).toNat)
  let below : Decimal := ⟨scaled.numerator / scaled.denominator, exponent⟩
  let above : Decimal := ⟨below.digits + 1, exponent⟩
  match interval.holds below.toRatio, interval.holds above.toRatio with
  | true, false => some below
  | false, true => some above
  | false, false => none
  | true, true =>
      let down := interval.distance below.toRatio
      let up := interval.distance above.toRatio
      if down < up ∨ (down = up ∧ below.digits % 2 = 0) then some below else some above

/-- The first grid with a hit, from `count` digits on; `fuel` bounds the digits. -/
def shortestFrom (interval : Interval) (top : Int) : Nat → Nat → Decimal
  | _, 0 => ⟨0, 0⟩
  | count, fuel + 1 =>
      match onGrid? interval (top - count) with
      | some decimal => decimal
      | none => shortestFrom interval top (count + 1) fuel

/-- The shortest decimal that reads back as a positive double. -/
def Dyadic.shortest (number : Dyadic) : Decimal :=
  let normal := number.normalize
  let interval := normal.interval
  shortestFrom interval (decimalExponent normal.toRatio) 0 18

/-- The layout of a number text: which exponents of the first digit are written without
an exponent mark. -/
structure Layout where
  leastPlain : Int
  beyondPlain : Int
deriving Repr, DecidableEq

/-- Values from 0.0001 up to below ten to the sixteenth are written plainly. -/
def plainLayout : Layout :=
  ⟨-4, 16⟩

/-- A positive decimal as text: digits with a point, or one digit before the point and
an exponent of at least two digits. -/
def Decimal.text (layout : Layout) (decimal : Decimal) : String :=
  let all := Nat.toDigits 10 decimal.digits
  let digits := trimmedDecimals all
  let top : Int := decimal.exponent + all.length - 1
  if layout.leastPlain ≤ top ∧ top < layout.beyondPlain then
    if top < 0 then
      "0." ++ String.ofList (List.replicate ((-top).toNat - 1) '0' ++ digits)
    else
      let whole := digits.take (top.toNat + 1)
      let padding := List.replicate (top.toNat + 1 - whole.length) '0'
      let rest := digits.drop (top.toNat + 1)
      String.ofList (whole ++ padding) ++ "." ++
        (if rest.isEmpty then "0" else String.ofList rest)
  else
    let rest := digits.drop 1
    String.ofList (digits.take 1) ++
      (if rest.isEmpty then "" else "." ++ String.ofList rest) ++
      (if top < 0 then "e-" else "e+") ++
      String.ofList (paddedDigits 2 top.natAbs)

/-- The text of the single-precision number with the given 32 bits, shown as a double. -/
def singleText (bits : Nat) : String :=
  let negative := bits / Nat.pow 2 31 % 2 == 1
  let exponent : Nat := bits / Nat.pow 2 23 % Nat.pow 2 8
  let fraction : Nat := bits % Nat.pow 2 23
  let sign := signText negative
  if exponent = 255 then
    if fraction = 0 then sign ++ "inf" else "nan"
  else if exponent = 0 ∧ fraction = 0 then
    sign ++ "0.0"
  else
    let number : Dyadic :=
      if exponent = 0 then ⟨fraction, -149⟩
      else ⟨fraction + Nat.pow 2 23, (exponent : Int) - 150⟩
    sign ++ number.shortest.text plainLayout

end ApkAtlas.Number
