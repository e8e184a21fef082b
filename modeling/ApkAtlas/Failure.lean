import ApkAtlas.Datum

namespace ApkAtlas

/-!
# Failures

Everything that can go wrong is reported as a failure: a text, a record of context, the
cause it was raised for, and data particular to its kind. Errors of the file system, of
texts and of archives come from outside; a failure may carry one as its cause.
-/

namespace Failure

/-- The kinds of failure. -/
inductive Kind where
  | general
  | validation
  | service
  | decode
  | malformedHeader
  | outOfBoundsRead
  | mappingFormat
  | invalidClassName
  | duplicateClass
deriving Repr, DecidableEq

namespace Kind

/-- The next wider kind. -/
def parent? : Kind → Option Kind
  | .general => none
  | .malformedHeader => some .decode
  | .outOfBoundsRead => some .decode
  | _ => some .general

end Kind

/-- What a failure of a particular kind tells beyond its text. -/
inductive Detail where
  | general
  | validation (fieldName : Option String) (actualValue : Datum)
  | service (serviceName operation : String)
  | decode (offset : Int)
  | malformedHeader (offset : Int)
  | outOfBoundsRead (offset limit : Int)
  | mappingFormat (lineNumber : Int) (source : String)
  | invalidClassName (className fileName : String)
  | duplicateClass (className fileName : String)
deriving Repr, BEq

namespace Detail

/-- The kind a detail belongs to. -/
def kind : Detail → Kind
  | .general => .general
  | .validation .. => .validation
  | .service .. => .service
  | .decode .. => .decode
  | .malformedHeader .. => .malformedHeader
  | .outOfBoundsRead .. => .outOfBoundsRead
  | .mappingFormat .. => .mappingFormat
  | .invalidClassName .. => .invalidClassName
  | .duplicateClass .. => .duplicateClass

/-- The failure text with what the detail adds to it. -/
def frame (text : String) : Detail → String
  | .general => text
  | .validation fieldName _ =>
      match fieldName with
      | none => "Validation failed: " ++ text
      | some "" => "Validation failed: " ++ text
      | some name => "Validation failed for '" ++ name ++ "': " ++ text
  | .service serviceName operation => "[" ++ serviceName ++ "." ++ operation ++ "]: " ++ text
  | .decode offset => text ++ " (at offset " ++ toString offset ++ ")"
  | .malformedHeader offset => text ++ " (at offset " ++ toString offset ++ ")"
  | .outOfBoundsRead offset limit =>
      text ++ " (at offset " ++ toString offset ++ ") [chunk end: " ++ toString limit ++ "]"
  | .mappingFormat lineNumber source =>
      let place :=
        if source.isEmpty then "line " ++ toString lineNumber
        else source ++ ":" ++ toString lineNumber
      "Invalid mapping format at " ++ place ++ ": " ++ text
  | .invalidClassName .. => text
  | .duplicateClass .. => text

end Detail

/-- The kinds of error that come from outside. -/
inductive ExternalKind where
  | badValue
  | missingPart
  | unknownKey
  | corruptArchive
  | corruptStream
  | endOfData
  | encrypted
  | unsupported
  | malformedMarkup
  | undecodableText
  | badLayout
  | badIndex
  | badPosition
  | unknownName
  | missingModule
  | fileMissing
  | fileExists
  | isDirectory
  | notDirectory
  /-- Any other kind. -/
  | other
deriving Repr, DecidableEq

/-- The kind of what a failure was raised for. -/
inductive CauseKind where
  | failure (kind : Kind)
  | external (kind : ExternalKind)
deriving Repr, DecidableEq

/-- What a failure was raised for: its kind and its full text. -/
structure Cause where
  kind : CauseKind
  text : String
deriving Repr, DecidableEq

end Failure

/-- A failure of the library. -/
structure Failure where
  /-- The text alone. -/
  text : String
  /-- Further facts, in the order in which they were noted. -/
  context : List (String × Datum) := []
  cause : Option Failure.Cause := none
  detail : Failure.Detail := .general
deriving Repr, BEq

namespace Failure

/-- The kind of a failure. -/
def kind (failure : Failure) : Kind :=
  failure.detail.kind

/-- The text with the context and the cause behind it. -/
def body (failure : Failure) : String :=
  let context :=
    if failure.context.isEmpty then ""
    else " | context: " ++ (Datum.record failure.context).diagnostic
  let cause :=
    match failure.cause with
    | none => ""
    | some cause => " | caused by: " ++ cause.text
  failure.text ++ context ++ cause

/-- The full text of a failure. -/
def message (failure : Failure) : String :=
  failure.detail.frame failure.body

end Failure

/-- An error that comes from outside. -/
structure ExternalError where
  kind : Failure.ExternalKind
  message : String
deriving Repr, DecidableEq

/-- Whatever stops an operation. -/
inductive Fault where
  | failure (content : Failure)
  | external (content : ExternalError)
deriving Repr, BEq

namespace Fault

/-- The full text of a fault. -/
def message : Fault → String
  | .failure content => content.message
  | .external content => content.message

/-- A fault as the cause of another one. -/
def toCause : Fault → Failure.Cause
  | .failure content => ⟨.failure content.kind, content.message⟩
  | .external content => ⟨.external content.kind, content.message⟩

end Fault

end ApkAtlas
