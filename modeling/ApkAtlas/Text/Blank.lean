namespace ApkAtlas.Text

/-!
# Blank characters and line breaks

Which characters count as blank space, how blank ends are cut off a text, and where a
text breaks into lines.
-/

/-- Blank characters: spaces, separators and the control characters that act as such. -/
def isBlank (c : Char) : Bool :=
  let n := c.toNat
  (0x09 ≤ n && n ≤ 0x0D) || (0x1C ≤ n && n ≤ 0x20) || n == 0x85 || n == 0xA0 ||
    n == 0x1680 || (0x2000 ≤ n && n ≤ 0x200A) || n == 0x2028 || n == 0x2029 ||
    n == 0x202F || n == 0x205F || n == 0x3000

/-- Characters that end a line. -/
def isLineBreak (c : Char) : Bool :=
  let n := c.toNat
  (0x0A ≤ n && n ≤ 0x0D) || (0x1C ≤ n && n ≤ 0x1E) || n == 0x85 || n == 0x2028 ||
    n == 0x2029

/-- The text without its longest end of characters satisfying `drop`. -/
def trimEndWhere (drop : Char → Bool) (text : List Char) : List Char :=
  (text.reverse.dropWhile drop).reverse

/-- The text without blank characters at either end. -/
def strip (text : List Char) : List Char :=
  trimEndWhere isBlank (text.dropWhile isBlank)

/-- The rest of the text after one line break has been read as `first`: a carriage
return and a line feed in a row are one break. -/
def afterBreak (first : Char) (rest : List Char) : List Char :=
  match first, rest with
  | '\r', '\n' :: more => more
  | _, _ => rest

/-- A break never grows the rest. -/
theorem length_afterBreak_le (first : Char) (rest : List Char) :
    (afterBreak first rest).length ≤ rest.length := by
  unfold afterBreak
  split <;> simp

/-- The lines of a text, without their breaks; a final break opens no further line. -/
def lines (text : List Char) : List (List Char) :=
  go [] text
where
  /-- Reads on with the characters of the current line in reverse. -/
  go (current : List Char) : List Char → List (List Char)
    | [] => if current.isEmpty then [] else [current.reverse]
    | c :: rest =>
        if isLineBreak c then
          current.reverse :: go [] (afterBreak c rest)
        else
          go (c :: current) rest
  termination_by rest => rest.length
  decreasing_by
    · have := length_afterBreak_le c rest; simp; omega
    · simp

end ApkAtlas.Text
