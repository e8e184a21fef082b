import ApkAtlas.Failure

namespace ApkAtlas.Failure

/-!
# Failures told by fields

A failure can be told by a record of its fields: the text must be there, the context may
be, and each kind has fields of its own. A field of no kind makes the record unusable.
Kinds form a hierarchy, and `Kind.lineage` lists a kind with all wider ones.
-/

namespace Kind

/-- How many wider kinds there are. -/
def level : Kind → Nat
  | .general => 0
  | .malformedHeader => 2
  | .outOfBoundsRead => 2
  | _ => 1

/-- A wider kind is on a lower level. -/
theorem level_parent_lt {kind wider : Kind} (isParent : kind.parent? = some wider) :
    wider.level < kind.level := by
  cases kind <;> simp_all [parent?] <;> subst isParent <;> decide

/-- A kind followed by all wider ones. -/
def lineage (kind : Kind) : List Kind :=
  match _isParent : kind.parent? with
  | none => [kind]
  | some wider => kind :: lineage wider
  termination_by kind.level
  decreasing_by exact level_parent_lt _isParent

/-- The names of the fields that a kind has of its own or from a wider one. -/
def fieldNames : Kind → List String
  | .general => []
  | .validation => ["field_name", "actual_value"]
  | .service => ["service_name", "operation"]
  | .decode => ["offset"]
  | .malformedHeader => ["offset"]
  | .outOfBoundsRead => ["offset", "limit"]
  | .mappingFormat => ["line_number", "source"]
  | .invalidClassName => ["class_name", "file_name"]
  | .duplicateClass => ["class_name", "file_name"]

end Kind

/-- The text of a field, or the empty one. -/
def textField (entries : List (String × Datum)) (key : String) : String :=
  match Table.get? key entries with
  | some (.text value) => value
  | _ => ""

/-- The number of a field, or zero. -/
def numberField (entries : List (String × Datum)) (key : String) : Int :=
  match Table.get? key entries with
  | some (.int value) => value
  | _ => 0

/-- The detail of a kind in some fields. -/
def Detail.ofFields (entries : List (String × Datum)) : Kind → Detail
  | .general => .general
  | .validation =>
      let fieldName :=
        match Table.get? "field_name" entries with
        | some (.text value) => some value
        | _ => none
      .validation fieldName ((Table.get? "actual_value" entries).getD .null)
  | .service => .service (textField entries "service_name") (textField entries "operation")
  | .decode => .decode (numberField entries "offset")
  | .malformedHeader => .malformedHeader (numberField entries "offset")
  | .outOfBoundsRead =>
      .outOfBoundsRead (numberField entries "offset") (numberField entries "limit")
  | .mappingFormat =>
      .mappingFormat (numberField entries "line_number") (textField entries "source")
  | .invalidClassName =>
      .invalidClassName (textField entries "class_name") (textField entries "file_name")
  | .duplicateClass =>
      .duplicateClass (textField entries "class_name") (textField entries "file_name")

/-- The failure of a kind told by some fields, or nothing if the text is missing or a
field is unknown. -/
def ofFields?
    (kind : Kind)
    (entries : List (String × Datum))
    (cause : Option Cause) :
    Option Failure :=
  let known := ["message", "context"] ++ kind.fieldNames
  let context :=
    match Table.get? "context" entries with
    | some (.record fields) => fields
    | _ => []
  match Table.get? "message" entries with
  | some (.text text) =>
      if entries.all fun entry => known.contains entry.1 then
        some { text, context, cause, detail := Detail.ofFields entries kind }
      else
        none
  | _ => none

/-- The failure of a kind that tells nothing but its text. -/
def plain (kind : Kind) (text : String) : Failure :=
  { text, detail := Detail.ofFields [] kind }

end ApkAtlas.Failure
