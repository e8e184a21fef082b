import ApkAtlas.Text.Hex
import ApkAtlas.Text.Printable

namespace ApkAtlas.Text

/-!
# Quoted text in diagnostics

A diagnostic quotes a text so that every character of it can be told: single quotes
unless the text holds a single quote and no double one, a backslash before the quote
and the backslash, short escapes for tab and line breaks, and numeric escapes for the
other characters that are not printable.
-/

/-- The quote a text is written in. -/
def quoteFor (holds : Char → Bool) : Char :=
  if holds '\'' && !holds '"' then '"' else '\''

/-- One character inside the given quotes. -/
def quotedChar (quote c : Char) : String :=
  if c = quote ∨ c = '\\' then
    String.ofList ['\\', c]
  else if c = '\t' then
    "\\t"
  else if c = '\n' then
    "\\n"
  else if c = '\r' then
    "\\r"
  else if isPrintable c then
    String.singleton c
  else if c.toNat < 0x100 then
    "\\x" ++ hex 2 c.toNat
  else if c.toNat < 0x10000 then
    "\\u" ++ hex 4 c.toNat
  else
    "\\U" ++ hex 8 c.toNat

/-- A text in quotes. -/
def quoted (text : String) : String :=
  let quote := quoteFor (text.toList.contains ·)
  let body := String.join (text.toList.map (quotedChar quote))
  String.singleton quote ++ body ++ String.singleton quote

/-- One byte inside the given quotes; only ASCII is shown as it is. -/
def quotedByte (quote : Char) (byte : UInt8) : String :=
  if byte < 0x7F then
    quotedChar quote (Char.ofNat byte.toNat)
  else
    "\\x" ++ hex 2 byte.toNat

/-- A byte string in quotes, marked by a leading `b`. -/
def quotedBytes (bytes : List UInt8) : String :=
  let quote := quoteFor fun c => bytes.any (·.toNat == c.toNat)
  let body := String.join (bytes.map (quotedByte quote))
  "b" ++ String.singleton quote ++ body ++ String.singleton quote

end ApkAtlas.Text
