import ApkAtlas.Table
import ApkAtlas.Text.Quoted

namespace ApkAtlas

/-!
# Data of reports and records

Log records, error contexts, stored reports and settings hold values of one kind:
nothing, truth values, whole numbers, texts, byte strings, lists and records. A record
keeps its fields in the order in which they were put.
-/

/-- A value as reports and records hold it. -/
inductive Datum where
  | null
  | bool (value : Bool)
  | int (value : Int)
  | text (value : String)
  | bytes (value : List UInt8)
  | list (items : List Datum)
  | record (fields : List (String × Datum))
deriving Repr, BEq, Inhabited

namespace Datum

/-- A natural number as a value. -/
def nat (value : Nat) : Datum :=
  .int value

/-- A text that may be missing. -/
def optionalText : Option String → Datum
  | none => .null
  | some value => .text value

/-- A number that may be missing. -/
def optionalInt : Option Int → Datum
  | none => .null
  | some value => .int value

/-- A truth value that may be missing. -/
def optionalBool : Option Bool → Datum
  | none => .null
  | some value => .bool value

/-- A list of texts. -/
def texts (values : List String) : Datum :=
  .list (values.map .text)

mutual

/-- How many lists and records stand inside one another at most. -/
def depth : Datum → Nat
  | .list items => depthOfItems items + 1
  | .record fields => depthOfFields fields + 1
  | _ => 0

/-- The greatest depth of some items. -/
def depthOfItems : List Datum → Nat
  | [] => 0
  | item :: rest => max (depth item) (depthOfItems rest)

/-- The greatest depth of some fields. -/
def depthOfFields : List (String × Datum) → Nat
  | [] => 0
  | (_, value) :: rest => max (depth value) (depthOfFields rest)

end

mutual

/-- The value as a diagnostic shows it. -/
def diagnostic : Datum → String
  | .null => "None"
  | .bool true => "True"
  | .bool false => "False"
  | .int value => toString value
  | .text value => Text.quoted value
  | .bytes value => Text.quotedBytes value
  | .list items => "[" ++ ", ".intercalate (diagnosticItems items) ++ "]"
  | .record fields => "\x7b" ++ ", ".intercalate (diagnosticFields fields) ++ "\x7d"

/-- The shown items of a list. -/
def diagnosticItems : List Datum → List String
  | [] => []
  | item :: rest => diagnostic item :: diagnosticItems rest

/-- The shown fields of a record. -/
def diagnosticFields : List (String × Datum) → List String
  | [] => []
  | (key, value) :: rest =>
      (Text.quoted key ++ ": " ++ diagnostic value) :: diagnosticFields rest

end

end Datum

end ApkAtlas
