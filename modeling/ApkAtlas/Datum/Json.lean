import ApkAtlas.Datum

namespace ApkAtlas.Datum

/-!
# Data as JSON text

Reports are stored as indented JSON: two spaces for each level, one field or item a
line, and a bracket pair in one piece when there is nothing inside. Texts keep their
characters; only quotes, backslashes and control characters are escaped, unless the
writer is asked for ASCII alone.
-/

/-- The escape of a character that has a short one. -/
def shortEscape? (c : Char) : Option String :=
  if c = '"' then some "\\\""
  else if c = '\\' then some "\\\\"
  else if c = '\n' then some "\\n"
  else if c = '\r' then some "\\r"
  else if c = '\t' then some "\\t"
  else if c = Char.ofNat 8 then some "\\b"
  else if c = Char.ofNat 12 then some "\\f"
  else none

/-- The escape of a character by its 16-bit units. -/
def unitEscape (c : Char) : String :=
  let code := c.toNat
  if code < 0x10000 then
    "\\u" ++ Text.hex 4 code
  else
    "\\u" ++ Text.hex 4 (0xD800 + (code - 0x10000) / 0x400) ++
      "\\u" ++ Text.hex 4 (0xDC00 + (code - 0x10000) % 0x400)

/-- One character inside a JSON string. -/
def jsonChar (ascii : Bool) (c : Char) : String :=
  match shortEscape? c with
  | some escape => escape
  | none =>
      if c.toNat < 0x20 || (ascii && 0x7F ≤ c.toNat) then unitEscape c
      else String.singleton c

/-- A text as a JSON string. -/
def jsonText (ascii : Bool) (text : String) : String :=
  "\"" ++ String.join (text.toList.map (jsonChar ascii)) ++ "\""

/-- The start of a line at the given depth. -/
def jsonMargin (depth : Nat) : String :=
  "\n" ++ String.ofList (List.replicate (2 * depth) ' ')

mutual

/-- A value as indented JSON, its own lines at the given depth. Byte strings, which no
report holds, are written as lists of numbers. -/
def jsonAt (ascii : Bool) (depth : Nat) : Datum → String
  | .null => "null"
  | .bool true => "true"
  | .bool false => "false"
  | .int value => toString value
  | .text value => jsonText ascii value
  | .bytes value => "[" ++ ", ".intercalate (value.map toString) ++ "]"
  | .list [] => "[]"
  | .list (item :: rest) =>
      "[" ++ ",".intercalate (jsonItems ascii (depth + 1) (item :: rest)) ++
        jsonMargin depth ++ "]"
  | .record [] => "\x7b\x7d"
  | .record (first :: rest) =>
      "\x7b" ++ ",".intercalate (jsonFields ascii (depth + 1) (first :: rest)) ++
        jsonMargin depth ++ "\x7d"

/-- The items of a list, each on a line of its own. -/
def jsonItems (ascii : Bool) (depth : Nat) : List Datum → List String
  | [] => []
  | item :: rest =>
      (jsonMargin depth ++ jsonAt ascii depth item) :: jsonItems ascii depth rest

/-- The fields of a record, each on a line of its own. -/
def jsonFields (ascii : Bool) (depth : Nat) : List (String × Datum) → List String
  | [] => []
  | (key, value) :: rest =>
      (jsonMargin depth ++ jsonText ascii key ++ ": " ++ jsonAt ascii depth value) ::
        jsonFields ascii depth rest

end

/-- A value as indented JSON. -/
def toJson (value : Datum) : String :=
  jsonAt false 0 value

/-- A value as indented JSON in ASCII. -/
def toAsciiJson (value : Datum) : String :=
  jsonAt true 0 value

mutual

/-- A value as JSON in ASCII on a line of its own. -/
def toJsonLine : Datum → String
  | .list items => "[" ++ ", ".intercalate (jsonLineItems items) ++ "]"
  | .record fields => "\x7b" ++ ", ".intercalate (jsonLineFields fields) ++ "\x7d"
  | plain => plain.toAsciiJson

/-- The items of a list on one line. -/
def jsonLineItems : List Datum → List String
  | [] => []
  | item :: rest => toJsonLine item :: jsonLineItems rest

/-- The fields of a record on one line. -/
def jsonLineFields : List (String × Datum) → List String
  | [] => []
  | (key, value) :: rest =>
      (jsonText true key ++ ": " ++ toJsonLine value) :: jsonLineFields rest

end

/-! ## Reading -/

/-- The text after blank space between tokens. -/
def afterJsonBlank (text : List Char) : List Char :=
  text.dropWhile fun c => c == ' ' || c == '\n' || c == '\r' || c == '\t'

/-- The value of a hexadecimal digit. -/
def hexDigit? (c : Char) : Option Nat :=
  if c.isDigit then some (c.toNat - 0x30)
  else if 'a' ≤ c ∧ c ≤ 'f' then some (c.toNat - 0x61 + 10)
  else if 'A' ≤ c ∧ c ≤ 'F' then some (c.toNat - 0x41 + 10)
  else none

/-- A 16-bit unit written in four hexadecimal digits. -/
def jsonUnit? : List Char → Option (Nat × List Char)
  | a :: b :: c :: d :: rest => do
      let unit := (((← hexDigit? a) * 16 + (← hexDigit? b)) * 16 + (← hexDigit? c)) * 16 +
        (← hexDigit? d)
      return (unit, rest)
  | _ => none

/-- The character of a short escape. -/
def shortEscaped? (c : Char) : Option Char :=
  if c = '"' ∨ c = '\\' ∨ c = '/' then some c
  else if c = 'n' then some '\n'
  else if c = 'r' then some '\r'
  else if c = 't' then some '\t'
  else if c = 'b' then some (Char.ofNat 8)
  else if c = 'f' then some (Char.ofNat 12)
  else none

/-- The characters up to the closing quote and the text after it; `fuel` bounds the count
of characters. -/
def jsonString? : Nat → List Char → Option (List Char × List Char)
  | 0, _ => none
  | _ + 1, [] => none
  | _ + 1, '"' :: rest => some ([], rest)
  | fuel + 1, '\\' :: 'u' :: rest => do
      let (unit, more) ← jsonUnit? rest
      let (c, more) ←
        if 0xD800 ≤ unit && unit ≤ 0xDBFF then
          match more with
          | '\\' :: 'u' :: low => do
              let (second, more) ← jsonUnit? low
              if 0xDC00 ≤ second && second ≤ 0xDFFF then
                pure (Char.ofNat (0x10000 + (unit - 0xD800) * 0x400 + (second - 0xDC00)), more)
              else
                none
          | _ => none
        else
          pure (Char.ofNat unit, more)
      let (chars, after) ← jsonString? fuel more
      return (c :: chars, after)
  | fuel + 1, '\\' :: c :: rest => do
      let (chars, after) ← jsonString? fuel rest
      return ((← shortEscaped? c) :: chars, after)
  | fuel + 1, c :: rest => do
      if c.toNat < 0x20 then none
      let (chars, after) ← jsonString? fuel rest
      return (c :: chars, after)

/-- A whole number and the text after it. -/
def jsonInt? (text : List Char) : Option (Int × List Char) := do
  let (negative, body) := match text with
    | '-' :: rest => (true, rest)
    | _ => (false, text)
  let digits := body.takeWhile Char.isDigit
  let rest := body.drop digits.length
  match digits, rest with
  | [], _ => none
  | '0' :: _ :: _, _ => none
  | _, '.' :: _ => none
  | _, 'e' :: _ => none
  | _, 'E' :: _ => none
  | _, _ =>
      let value : Nat := digits.foldl (fun value c => value * 10 + (c.toNat - 0x30)) 0
      return (if negative then -(value : Int) else value, rest)

/-- The text after a fixed word. -/
def afterWord? (word text : List Char) : Option (List Char) :=
  if word.isPrefixOf text then some (text.drop word.length) else none

mutual

/-- The value at the front of a text and the text after it; `fuel` bounds the count of
values and brackets. -/
def jsonValue? : Nat → List Char → Option (Datum × List Char)
  | 0, _ => none
  | fuel + 1, input =>
      match afterJsonBlank input with
      | '"' :: rest => do
          let (chars, after) ← jsonString? (rest.length + 1) rest
          return (.text (String.ofList chars), after)
      | '[' :: rest =>
          match afterJsonBlank rest with
          | ']' :: after => some (.list [], after)
          | items => do
              let (values, after) ← jsonItems? fuel items
              return (.list values, after)
      | '{' :: rest =>
          match afterJsonBlank rest with
          | '}' :: after => some (.record [], after)
          | fields => do
              let (values, after) ← jsonFields? fuel fields
              let put known field := Table.put (Prod.fst field) (Prod.snd field) known
              return (.record (values.foldl put []), after)
      | 'n' :: rest => (afterWord? ['u', 'l', 'l'] rest).map (.null, ·)
      | 't' :: rest => (afterWord? ['r', 'u', 'e'] rest).map (.bool true, ·)
      | 'f' :: rest => (afterWord? ['a', 'l', 's', 'e'] rest).map (.bool false, ·)
      | number => (jsonInt? number).map fun (value, after) => (.int value, after)

/-- The items up to the closing bracket. -/
def jsonItems? : Nat → List Char → Option (List Datum × List Char)
  | 0, _ => none
  | fuel + 1, input => do
      let (value, after) ← jsonValue? fuel input
      match afterJsonBlank after with
      | ',' :: rest => do
          let (values, after) ← jsonItems? fuel rest
          return (value :: values, after)
      | ']' :: rest => return ([value], rest)
      | _ => none

/-- The fields up to the closing brace. -/
def jsonFields? : Nat → List Char → Option (List (String × Datum) × List Char)
  | 0, _ => none
  | fuel + 1, input => do
      match afterJsonBlank input with
      | '"' :: rest => do
          let (key, after) ← jsonString? (rest.length + 1) rest
          match afterJsonBlank after with
          | ':' :: rest => do
              let (value, after) ← jsonValue? fuel rest
              match afterJsonBlank after with
              | ',' :: rest => do
                  let (fields, after) ← jsonFields? fuel rest
                  return ((String.ofList key, value) :: fields, after)
              | '}' :: rest => return ([(String.ofList key, value)], rest)
              | _ => none
          | _ => none
      | _ => none

end

/-- The value of a JSON text, or nothing if it is none. -/
def ofJson? (text : String) : Option Datum := do
  let chars := text.toList
  let (value, after) ← jsonValue? (chars.length + 1) chars
  if (afterJsonBlank after).isEmpty then some value else none

end ApkAtlas.Datum
