import ApkAtlas.Bytes

namespace ApkAtlas.Compression

/-!
# Prefix codes

A prefix code gives each symbol a word of bits so that no word begins another one. It is
told by the lengths of the words alone: words of one length are consecutive numbers in
the order of their symbols, and they follow the shorter words.
-/

/-! ## Reading bits

A compressed block is a sequence of bits that does not care for the bounds of bytes. The
bits of each byte come lowest first, and a number of several bits has its lowest bit
first. -/

/-- A byte string with the position of the next bit. -/
structure BitReader where
  bytes : Bytes
  position : Nat := 0
deriving Repr

namespace BitReader

/-- The next bit. -/
def bit? (reader : BitReader) : Option (Bool × BitReader) :=
  if inside : reader.position / 8 < reader.bytes.size then
    some (reader.bytes[reader.position / 8].toNat.testBit (reader.position % 8),
      { reader with position := reader.position + 1 })
  else
    none

/-- The number in the next bits. -/
def number? (reader : BitReader) : Nat → Option (Nat × BitReader)
  | 0 => some (0, reader)
  | count + 1 =>
      match reader.bit? with
      | none => none
      | some (bit, next) =>
          match next.number? count with
          | none => none
          | some (higher, after) => some (bit.toNat + 2 * higher, after)

/-- The reader at the next bound of a byte. -/
def aligned (reader : BitReader) : BitReader :=
  { reader with position := (reader.position + 7) / 8 * 8 }

/-- Up to `count` whole bytes from the next bound of a byte on. -/
def take (reader : BitReader) (count : Nat) : Bytes × BitReader :=
  let start := reader.aligned.position / 8
  let piece := Bytes.slice reader.bytes start count
  (piece, { reader with position := 8 * (start + piece.size) })

end BitReader

/-! ## Codes -/

/-- A code as the counts of its words of length one, two and so on, and its symbols in
the order of their words. -/
structure PrefixCode where
  counts : List Nat
  symbols : Array Nat
deriving Repr, DecidableEq

namespace PrefixCode

/-- The longest word that a code may have. -/
def longest : Nat := 15

/-- The code in which the symbol `n` has a word of the `n`-th length; length zero means
that the symbol does not occur. -/
def ofLengths (lengths : List Nat) : PrefixCode :=
  let sizes := (List.range longest).map (· + 1)
  let ofSize (size : Nat) : List Nat :=
    (lengths.zipIdx.filter fun entry => entry.1 == size).map Prod.snd
  ⟨sizes.map fun size => (ofSize size).length, (sizes.flatMap ofSize).toArray⟩

/-- How many more words of the greatest length would fit, given the room left by the
shorter ones, or nothing if there are already too many words. -/
def room? : List Nat → Nat → Option Nat
  | [], room => some room
  | count :: longer, room => if 2 * room < count then none else room? longer (2 * room - count)

/-- Whether every sequence of bits begins with a word. -/
def isComplete (code : PrefixCode) : Bool :=
  room? code.counts 1 == some 0

/-- Whether the code has at most one word, of a single bit. -/
def isTrivial (code : PrefixCode) : Bool :=
  code.symbols.isEmpty || (code.symbols.size == 1 && code.counts.head? == some 1)

/-- A symbol that was read. -/
inductive Reading where
  | symbol (value : Nat) (next : BitReader)
  /-- The bits begin with no word of the code. -/
  | noWord
  /-- The bits end within a word. -/
  | ended
deriving Repr

/-- Reads a word bit by bit: `word` are the bits so far, `first` is the first word of this
length and `index` the count of shorter words. -/
def readFrom
    (symbols : Array Nat) :
    List Nat → Nat → Nat → Nat → BitReader → Reading
  | [], _, _, _, _ => .noWord
  | count :: longer, word, first, index, reader =>
      match reader.bit? with
      | none => .ended
      | some (bit, next) =>
          let word := word + bit.toNat
          if word < first + count then
            match symbols[index + (word - first)]? with
            | some value => .symbol value next
            | none => .noWord
          else
            readFrom symbols longer (2 * word) (2 * (first + count)) (index + count) next

/-- Reads the next symbol. -/
def read (code : PrefixCode) (reader : BitReader) : Reading :=
  readFrom code.symbols code.counts 0 0 0 reader

end PrefixCode

end ApkAtlas.Compression
