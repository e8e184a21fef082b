namespace ApkAtlas.Text

/-!
# Hexadecimal numbers

Offsets, tokens and typed values are shown as a hex dump shows them.
-/

/-- The lower-case hexadecimal digits of a number, padded with zeros to `width`. -/
def hex (width number : Nat) : String :=
  let digits := Nat.toDigits 16 number
  String.ofList (List.replicate (width - digits.length) '0' ++ digits)

/-- The hexadecimal digits of a number behind the mark `0x`. -/
def markedHex (width number : Nat) : String :=
  "0x" ++ hex width number

/-- The marked form of a signed number; the sign comes before the mark. -/
def signedHex (number : Int) : String :=
  if number < 0 then "-" ++ markedHex 0 number.natAbs else markedHex 0 number.natAbs

/-- The digits of a signed number, padded to `width` characters with the sign among them. -/
def paddedSignedHex (width : Nat) (number : Int) : String :=
  if number < 0 then "-" ++ hex (width - 1) number.natAbs else hex width number.natAbs

/-- The upper-case hexadecimal digits of a number. -/
def upperHex (number : Nat) : String :=
  String.ofList ((Nat.toDigits 16 number).map Char.toUpper)

end ApkAtlas.Text
