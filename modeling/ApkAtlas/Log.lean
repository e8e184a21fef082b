import ApkAtlas.Failure

namespace ApkAtlas

/-!
# Log records

While a package is analysed, its name, the archive entry and the DEX file being read are
bound as context, so a decoder only logs what it knows itself. A journal is the bound
context with the records emitted so far. Binary offsets are shown in hexadecimal, as a
hex dump shows them.
-/

/-- How urgent a record is, from least to most. -/
inductive LogLevel where
  | debug
  | info
  | warning
  | error
  | critical
deriving Repr, DecidableEq

namespace LogLevel

/-- The name of a level in records. -/
def name : LogLevel → String
  | .debug => "debug"
  | .info => "info"
  | .warning => "warning"
  | .error => "error"
  | .critical => "critical"

/-- The rank of a level. -/
def rank : LogLevel → Nat
  | .debug => 10
  | .info => 20
  | .warning => 30
  | .error => 40
  | .critical => 50

/-- The level with the given name. -/
def ofName? : String → Option LogLevel
  | "debug" => some .debug
  | "info" => some .info
  | "warning" => some .warning
  | "error" => some .error
  | "critical" => some .critical
  | _ => none

end LogLevel

/-- Values under keys, as records and contexts hold them. -/
abbrev LogValues := List (String × Datum)

namespace LogValues

/-- The keys whose numbers are offsets. -/
def offsetKeys : List String :=
  ["offset", "chunk_offset", "limit"]

/-- A number under an offset key in hexadecimal, any other value as it is. -/
def formatOffset : String × Datum → String × Datum
  | (key, .int value) =>
      if offsetKeys.contains key then (key, .text (Text.signedHex value))
      else (key, .int value)
  | other => other

/-- The values with offsets in hexadecimal. -/
def formatOffsets (values : LogValues) : LogValues :=
  values.map formatOffset

/-- All values of `later` put over those of `earlier`. -/
def merge (earlier later : LogValues) : LogValues :=
  later.foldl (fun known (key, value) => Table.put key value known) earlier

end LogValues

/-- One log record with its context merged in. -/
structure LogRecord where
  level : LogLevel
  values : LogValues
deriving Repr, BEq

namespace LogRecord

/-- The record of an event in a context: the event's own values win over the context, and
its name and level over both. -/
def make
    (context : LogValues)
    (level : LogLevel)
    (event : String)
    (values : LogValues) :
    LogRecord :=
  let own := LogValues.merge values [("event", .text event)]
  let merged := LogValues.merge (LogValues.merge context own) [("level", .text level.name)]
  ⟨level, LogValues.formatOffsets merged⟩

/-- The record as a value. -/
def toDatum (record : LogRecord) : Datum :=
  .record record.values

end LogRecord

/-- The bound context and the records emitted so far, in order. -/
structure Journal where
  context : LogValues := []
  records : List LogRecord := []
deriving Repr, BEq

namespace Journal

/-- The keys that can be bound. -/
def contextKeys : List String :=
  ["apk", "entry", "dex"]

/-- Binds values over those bound before. -/
def bind (journal : Journal) (values : LogValues) : Journal :=
  { journal with context := LogValues.merge journal.context values }

/-- Takes away the values under some keys. -/
def unbind (journal : Journal) (keys : List String) : Journal :=
  { journal with context := journal.context.filter fun bound => !keys.contains bound.1 }

/-- Takes away all bound values. -/
def clear (journal : Journal) : Journal :=
  { journal with context := [] }

/-- Adds the record of an event in the bound context. -/
def emit
    (journal : Journal)
    (level : LogLevel)
    (event : String)
    (values : LogValues) :
    Journal :=
  { journal with
    records := journal.records ++ [LogRecord.make journal.context level event values] }

/-- Whether all keys of a block can be bound. -/
def unknownKeys (values : LogValues) : List String :=
  ((values.map Prod.fst).filter fun key => !contextKeys.contains key).mergeSort
    (fun left right => decide (left ≤ right))

/-- The error of binding keys that no context has. -/
def unknownKeysError (keys : List String) : ExternalError :=
  ⟨.badValue, "Unknown log context keys: " ++ (Datum.texts keys).diagnostic⟩

/-- The context before a block on the way in: the block's values are bound. -/
def enter (journal : Journal) (values : LogValues) : Journal :=
  journal.bind values

/-- The context after a block: the block's keys are taken away, and the values they had
in the context `before` are bound again. -/
def leave (journal : Journal) (before : LogValues) (values : LogValues) : Journal :=
  let keys := values.map Prod.fst
  (journal.unbind keys).bind (before.filter fun bound => keys.contains bound.1)

end Journal

/-- A computation that writes log records and may stop with an error; what it logged and
bound before stays. -/
abbrev LoggedExcept (Error : Type) := ExceptT Error (StateM Journal)

/-- A computation that may stop with any fault. -/
abbrev Logged := LoggedExcept Fault

namespace Logged

variable {Error Value : Type}

/-- Emits a record. -/
def log (level : LogLevel) (event : String) (values : LogValues) : LoggedExcept Error Unit :=
  modifyThe Journal (·.emit level event values)

/-- Runs a block with values bound, and restores the context however it ends. -/
def within
    (values : LogValues)
    (block : LoggedExcept Error Value) :
    LoggedExcept Error Value :=
  fun journal =>
    let (result, after) := block.run (journal.enter values)
    (result, after.leave journal.context values)

/-- A computation without log records. -/
def ofExcept (result : Except Error Value) : LoggedExcept Error Value :=
  ExceptT.mk (pure result)

/-- The outcome of a computation as a value, so that the caller goes on. -/
def attempt (block : LoggedExcept Error Value) :
    LoggedExcept Fault (Except Error Value) :=
  fun journal =>
    let (result, after) := block.run journal
    (.ok result, after)

end Logged

end ApkAtlas
