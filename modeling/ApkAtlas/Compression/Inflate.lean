import ApkAtlas.Compression.PrefixCode

namespace ApkAtlas.Compression

/-!
# Inflating

Deflated data is a sequence of blocks. A block holds bytes as they are, or symbols in two
prefix codes: bytes, the end of the block, and copies of what came before, given by
length and distance. The codes are fixed, or told at the start of the block. Data that
ends too early yields what was complete before its end.
-/

namespace Inflate

/-- What is wrong with deflated data. -/
inductive Defect where
  | blockKind
  | storedLength
  | tooManySymbols
  | lengthCode
  | repeatedLength
  | noEndOfBlock
  | literalCode
  | distanceCode
  | unknownLiteral
  | unknownDistance
  | distanceTooFar
deriving Repr, DecidableEq

namespace Defect

/-- The defect in words. -/
def text : Defect → String
  | .blockKind => "invalid block type"
  | .storedLength => "invalid stored block lengths"
  | .tooManySymbols => "too many length or distance symbols"
  | .lengthCode => "invalid code lengths set"
  | .repeatedLength => "invalid bit length repeat"
  | .noEndOfBlock => "invalid code -- missing end-of-block"
  | .literalCode => "invalid literal/lengths set"
  | .distanceCode => "invalid distances set"
  | .unknownLiteral => "invalid literal/length code"
  | .unknownDistance => "invalid distance code"
  | .distanceTooFar => "invalid distance too far back"

end Defect

/-- Why inflating stops before the last block is complete. -/
inductive Stop where
  | ended
  | defect (content : Defect)
deriving Repr, DecidableEq

/-- A computation that reads bits. -/
abbrev Reading := StateT BitReader (Except Stop)

/-- The number in the next bits. -/
def number (count : Nat) : Reading Nat := fun reader =>
  match reader.number? count with
  | some result => .ok result
  | none => .error .ended

/-- The next symbol in a code; `unknown` is what a missing word means. -/
def symbol (code : PrefixCode) (unknown : Defect) : Reading Nat := fun reader =>
  match code.read reader with
  | .symbol value next => .ok (value, next)
  | .noWord => .error (.defect unknown)
  | .ended => .error .ended

/-- Stops with a defect unless a condition holds. -/
def ensure (condition : Bool) (defect : Defect) : Reading Unit :=
  if condition then pure () else throw (.defect defect)

/-- The two codes of a block. -/
structure Codes where
  literals : PrefixCode
  distances : PrefixCode
deriving Repr

namespace Codes

/-- The lengths of the words for literals in the fixed code. -/
def fixedLengths : List Nat :=
  List.replicate 144 8 ++ List.replicate 112 9 ++ List.replicate 24 7 ++ List.replicate 8 8

/-- The codes that need not be told. -/
def fixed : Codes :=
  ⟨PrefixCode.ofLengths fixedLengths, PrefixCode.ofLengths (List.replicate 32 5)⟩

/-- The order in which the code of lengths is told. -/
def lengthOrder : List Nat :=
  [16, 17, 18, 0, 8, 7, 9, 6, 10, 5, 11, 4, 12, 3, 13, 2, 14, 1, 15]

/-- Some numbers of three bits. -/
def triples : Nat → Reading (List Nat)
  | 0 => pure []
  | count + 1 => do
      let first ← number 3
      return first :: (← triples count)

/-- The code of lengths, told by some numbers in their odd order. -/
def lengthCode (told : List Nat) : PrefixCode :=
  let known := lengthOrder.zip told
  PrefixCode.ofLengths ((List.range 19).map fun value => (known.lookup value).getD 0)

/-- The lengths that one symbol of the code of lengths stands for, after the lengths
`done` in reverse. -/
def lengthsOf (value : Nat) (done : List Nat) : Reading (List Nat) :=
  match value with
  | 16 =>
      match done with
      | [] => throw (.defect .repeatedLength)
      | last :: _ => do return List.replicate (3 + (← number 2)) last
  | 17 => do return List.replicate (3 + (← number 3)) 0
  | 18 => do return List.replicate (11 + (← number 7)) 0
  | length => pure [length]

/-- The lengths of all words of both codes. Every symbol of the code of lengths stands for
at least one, so as many steps as lengths are enough. -/
def lengths (code : PrefixCode) (total : Nat) : Nat → List Nat → Reading (List Nat)
  | 0, done => return done.reverse
  | steps + 1, done => do
      if total ≤ done.length then
        return done.reverse
      let value ← symbol code .lengthCode
      let more ← lengthsOf value done
      ensure (done.length + more.length ≤ total) .repeatedLength
      lengths code total steps (more ++ done)

/-- The codes told at the start of a block. -/
def told : Reading Codes := do
  let literalCount := (← number 5) + 257
  let distanceCount := (← number 5) + 1
  let lengthCount := (← number 4) + 4
  ensure (literalCount ≤ 286 && distanceCount ≤ 30) .tooManySymbols
  let code := lengthCode (← triples lengthCount)
  ensure (code.isComplete || code.symbols.isEmpty) .lengthCode
  let all ← lengths code (literalCount + distanceCount) (literalCount + distanceCount) []
  ensure (all.getD 256 0 ≠ 0) .noEndOfBlock
  let literals := PrefixCode.ofLengths (all.take literalCount)
  ensure (literals.isComplete || literals.isTrivial) .literalCode
  let distances := PrefixCode.ofLengths (all.drop literalCount)
  ensure (distances.isComplete || distances.isTrivial) .distanceCode
  return ⟨literals, distances⟩

end Codes

/-- One item of a coded block. -/
inductive Item where
  | literal (byte : UInt8)
  | copy (length distance : Nat)
  | endOfBlock
deriving Repr, DecidableEq

namespace Item

/-- The least length and the count of further bits for each symbol of a length. -/
def lengthRanges : List (Nat × Nat) :=
  [(3, 0), (4, 0), (5, 0), (6, 0), (7, 0), (8, 0), (9, 0), (10, 0), (11, 1), (13, 1),
    (15, 1), (17, 1), (19, 2), (23, 2), (27, 2), (31, 2), (35, 3), (43, 3), (51, 3),
    (59, 3), (67, 4), (83, 4), (99, 4), (115, 4), (131, 5), (163, 5), (195, 5), (227, 5),
    (258, 0)]

/-- The least distance and the count of further bits for each symbol of a distance. -/
def distanceRanges : List (Nat × Nat) :=
  [(1, 0), (2, 0), (3, 0), (4, 0), (5, 1), (7, 1), (9, 2), (13, 2), (17, 3), (25, 3),
    (33, 4), (49, 4), (65, 5), (97, 5), (129, 6), (193, 6), (257, 7), (385, 7), (513, 8),
    (769, 8), (1025, 9), (1537, 9), (2049, 10), (3073, 10), (4097, 11), (6145, 11),
    (8193, 12), (12289, 12), (16385, 13), (24577, 13)]

/-- The number in the range of a symbol. -/
def inRange (ranges : List (Nat × Nat)) (value : Nat) (unknown : Defect) : Reading Nat :=
  match ranges[value]? with
  | some (least, bits) => do return least + (← number bits)
  | none => throw (.defect unknown)

/-- The next item of a block. -/
def read (codes : Codes) : Reading Item := do
  let value ← symbol codes.literals .unknownLiteral
  if value < 256 then
    return .literal (UInt8.ofNat value)
  else if value = 256 then
    return .endOfBlock
  else
    let length ← inRange lengthRanges (value - 257) .unknownLiteral
    let far ← symbol codes.distances .unknownDistance
    let distance ← inRange distanceRanges far .unknownDistance
    return .copy length distance

end Item

/-- Appends `count` bytes, each the one that stands `distance` before the end. -/
def copyBack (distance : Nat) : Nat → Bytes → Bytes
  | 0, output => output
  | count + 1, output =>
      copyBack distance count (output.push (output.getD (output.size - distance) 0))

/-- What has been inflated, where reading goes on, and why it stopped if it did. -/
structure State where
  reader : BitReader
  output : Bytes := #[]
  stop : Option Stop := none
deriving Repr

namespace State

/-- The state stopped. -/
def halt (state : State) (stop : Stop) : State :=
  { state with stop := some stop }

/-- Inflates the items of a block. Each takes at least a bit, so as many steps as there
are bits are enough. -/
def items (codes : Codes) : Nat → State → State
  | 0, state => state.halt .ended
  | steps + 1, state =>
      match Item.read codes state.reader with
      | .error stop => state.halt stop
      | .ok (.endOfBlock, reader) => { state with reader }
      | .ok (.literal byte, reader) =>
          items codes steps { state with reader, output := state.output.push byte }
      | .ok (.copy length distance, reader) =>
          if state.output.size < distance then
            state.halt (.defect .distanceTooFar)
          else
            items codes steps
              { state with reader, output := copyBack distance length state.output }

/-- Inflates a block that holds bytes as they are, behind their count and the count's
complement. -/
def stored (state : State) : State :=
  match state.reader.aligned.number? 16 with
  | none => state.halt .ended
  | some (length, reader) =>
      match reader.number? 16 with
      | none => state.halt .ended
      | some (complement, reader) =>
          if length + complement ≠ 0xFFFF then
            state.halt (.defect .storedLength)
          else
            let (piece, reader) := reader.take length
            let grown := { state with reader, output := state.output ++ piece }
            if piece.size < length then grown.halt .ended else grown

/-- Inflates a block of the given kind. -/
def block (state : State) (kind : Nat) : State :=
  let steps := 8 * state.reader.bytes.size + 1
  match kind with
  | 0 => state.stored
  | 1 => items Codes.fixed steps state
  | 2 =>
      match Codes.told state.reader with
      | .error stop => state.halt stop
      | .ok (codes, reader) => items codes steps { state with reader }
  | _ => state.halt (.defect .blockKind)

/-- Inflates blocks up to the last one. Each takes at least three bits. -/
def blocks : Nat → State → State
  | 0, state => state.halt .ended
  | steps + 1, state =>
      match state.reader.number? 1 with
      | none => state.halt .ended
      | some (last, reader) =>
          match reader.number? 2 with
          | none => state.halt .ended
          | some (kind, reader) =>
              let after := { state with reader }.block kind
              if after.stop.isSome || last = 1 then after else blocks steps after

end State

end Inflate

/-- Inflates deflated data. -/
def inflate (bytes : Bytes) : Inflate.State :=
  Inflate.State.blocks (8 * bytes.size + 1) { reader := ⟨bytes, 0⟩ }

end ApkAtlas.Compression
