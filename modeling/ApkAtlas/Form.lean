import ApkAtlas.Datum
import ApkAtlas.Number.Literal
import ApkAtlas.Storage.FilePath

namespace ApkAtlas

/-!
# Reading records of known form

Settings and stored reports are records whose fields have known types. Reading one does
not stop at the first defect: all defects are collected, each with the place where it
is. `Checked.issues_pair` states that two parts read together have the defects of both.
-/

namespace Form

/-- What is wrong with a value. -/
inductive IssueKind where
  | missing
  | notText
  | notNumber
  /-- A text that should be a whole number is none. -/
  | unreadableNumber
  | notTruth
  | notList
  | notRecord
  | notPath
  /-- A text is none of the words that are allowed for a setting. -/
  | unknownWord
  /-- A text is none of the names of a kind. -/
  | unknownName
  | tooSmall
  | tooLarge
deriving Repr, DecidableEq

/-- A defect and its place: the names of fields and the indexes of items that lead to
it. -/
structure Issue where
  place : List String
  kind : IssueKind
deriving Repr, DecidableEq

end Form

/-- What was read, or all that was wrong with it. -/
inductive Checked (Value : Type) where
  | valid (value : Value)
  | invalid (issues : List Form.Issue)
deriving Repr

namespace Checked

variable {Value Other : Type}

/-- All defects. -/
def issues : Checked Value → List Form.Issue
  | .valid _ => []
  | .invalid issues => issues

/-- Applies a function to what was read. -/
def map (f : Value → Other) : Checked Value → Checked Other
  | .valid value => .valid (f value)
  | .invalid issues => .invalid issues

/-- Reads two parts together. -/
def pair : Checked Value → Checked Other → Checked (Value × Other)
  | .valid left, .valid right => .valid (left, right)
  | left, right => .invalid (left.issues ++ right.issues)

instance : Functor Checked where
  map := map

instance : Applicative Checked where
  pure := .valid
  seq f x := (pair f (x ())).map fun both => both.1 both.2

/-- Goes on with what was read, unless there were defects. -/
def andThen (read : Checked Value) (next : Value → Checked Other) : Checked Other :=
  match read with
  | .valid value => next value
  | .invalid issues => .invalid issues

/-- What was read as a result. -/
def toExcept : Checked Value → Except (List Form.Issue) Value
  | .valid value => .ok value
  | .invalid issues => .error issues

/-- The values of a list read together. -/
def all : List (Checked Value) → Checked (List Value)
  | [] => .valid []
  | first :: rest => (pair first (all rest)).map fun both => both.1 :: both.2

/-- Two parts read together have the defects of both. -/
theorem issues_pair (left : Checked Value) (right : Checked Other) :
    (pair left right).issues = left.issues ++ right.issues := by
  cases left <;> cases right <;> rfl

end Checked

namespace Form

variable {Value : Type}

/-- The result for a single defect. -/
def fault (kind : IssueKind) : Checked Value :=
  .invalid [⟨[], kind⟩]

/-- A result with its defects placed under a name. -/
def under (name : String) : Checked Value → Checked Value
  | .valid value => .valid value
  | .invalid issues => .invalid (issues.map fun issue => ⟨name :: issue.place, issue.kind⟩)

/-- Reads a text. -/
def text : Datum → Checked String
  | .text value => .valid value
  | _ => fault .notText

/-- Reads a whole number, also from a numeral or a truth value. -/
def number : Datum → Checked Int
  | .int value => .valid value
  | .bool value => .valid value.toInt
  | .text value =>
      match Number.ofNumeral? value with
      | some number => .valid number
      | none => fault .unreadableNumber
  | _ => fault .notNumber

/-- The words for a true value, in lower case. -/
def trueWords : List String :=
  ["true", "t", "yes", "y", "on", "1"]

/-- The words for a false value, in lower case. -/
def falseWords : List String :=
  ["false", "f", "no", "n", "off", "0"]

/-- Reads a truth value, also from a word for it or from zero and one. -/
def truth : Datum → Checked Bool
  | .bool value => .valid value
  | .int 0 => .valid false
  | .int 1 => .valid true
  | .text value =>
      let lower := value.map Char.toLower
      if trueWords.contains lower then .valid true
      else if falseWords.contains lower then .valid false
      else fault .notTruth
  | _ => fault .notTruth

/-- Reads a path. -/
def path : Datum → Checked FilePath
  | .text value => .valid (FilePath.ofText value)
  | _ => fault .notPath

/-- Reads one of some words for a setting. -/
def word (ofName? : String → Option Value) : Datum → Checked Value
  | .text value =>
      match ofName? value with
      | some found => .valid found
      | none => fault .unknownWord
  | _ => fault .unknownWord

/-- Reads one of the names of a kind. -/
def name (ofName? : String → Option Value) : Datum → Checked Value
  | .text value =>
      match ofName? value with
      | some found => .valid found
      | none => fault .unknownName
  | _ => fault .unknownName

/-- Reads a value that may be nothing. -/
def optional (read : Datum → Checked Value) : Datum → Checked (Option Value)
  | .null => .valid none
  | other => (read other).map some

/-- Reads a list. -/
def list (read : Datum → Checked Value) : Datum → Checked (List Value)
  | .list items =>
      Checked.all (items.zipIdx.map fun (item, index) => under (toString index) (read item))
  | _ => fault .notList

/-- Reads the fields of a record. -/
def fields (read : List (String × Datum) → Checked Value) : Datum → Checked Value
  | .record entries => read entries
  | _ => fault .notRecord

/-- Reads a record that holds values of one kind under any keys. -/
def table (read : Datum → Checked Value) : Datum → Checked (List (String × Value))
  | .record entries =>
      Checked.all (entries.map fun (key, value) => (under key (read value)).map (key, ·))
  | _ => fault .notRecord

/-- Reads a number from `least` on. -/
def atLeast (least : Int) (value : Datum) : Checked Int :=
  (number value).andThen fun found => if found < least then fault .tooSmall else .valid found

/-- Reads a number from `least` to `greatest`. -/
def between (least greatest : Int) (value : Datum) : Checked Int :=
  (atLeast least value).andThen fun found =>
    if greatest < found then fault .tooLarge else .valid found

/-- Reads a field that must be there. -/
def required
    (entries : List (String × Datum))
    (key : String)
    (read : Datum → Checked Value) :
    Checked Value :=
  under key <|
    match Table.get? key entries with
    | some value => read value
    | none => fault .missing

/-- Reads a field that has a default. -/
def withDefault
    (entries : List (String × Datum))
    (key : String)
    (default : Value)
    (read : Datum → Checked Value) :
    Checked Value :=
  match Table.get? key entries with
  | some value => under key (read value)
  | none => .valid default

end Form

end ApkAtlas
