import ApkAtlas.Number.Literal
import ApkAtlas.Text.Segment

namespace ApkAtlas.Archive

/-!
# The order in which DEX files load

The platform loads `classes.dex`, then `classes2.dex`, `classes3.dex` and so on. Other DEX
files come after these, in the order of their names. A number with too many digits cannot
be read.
-/

/-- Where a file comes in the order of loading. -/
structure LoadRank where
  /-- Whether the name is not of the numbered form. -/
  isOther : Bool
  number : Nat
  name : String
deriving Repr, DecidableEq

namespace LoadRank

/-- The text between a beginning and an ending. -/
def between? (beginning ending text : List Char) : Option (List Char) :=
  if beginning.isPrefixOf text && beginning.length + ending.length ≤ text.length then
    let rest := text.drop beginning.length
    let middle := rest.take (rest.length - ending.length)
    if rest.drop middle.length = ending then some middle else none
  else
    none

/-- The digits in a name of the form `classes`, digits and `.dex`. -/
def digits? (name : String) : Option (List Nat) := do
  let middle ← between? "classes".toList ".dex".toList name.toList
  middle.mapM Text.decimalDigit?

/-- The number of a name of that form; no digits count as one. -/
def number? (name : String) : Option Nat := do
  let digits ← digits? name
  return if digits.isEmpty then 1 else Number.ofDigits 10 digits

/-- The rank of a name. -/
def ofName (name : String) : LoadRank :=
  match number? name with
  | some number => ⟨false, number, name⟩
  | none => ⟨true, 0, name⟩

/-- Whether a rank comes before another one or is the same: numbered files first, by their
number, and then by name. -/
def le (left right : LoadRank) : Bool :=
  if left.isOther = right.isOther then
    if left.number = right.number then
      decide (left.name ≤ right.name)
    else
      decide (left.number < right.number)
  else
    right.isOther

end LoadRank

/-- Whether a name is one of a DEX file. -/
def isDexName (name : String) : Bool :=
  ".dex".toList.isSuffixOf name.toList

/-- How many digits the number in a name has, if they are too many to be read. -/
def LoadRank.tooLong? (name : String) : Option Nat :=
  ((digits? name).map List.length).filter (Number.digitLimit < ·)

/-- How many digits the first number among the names of DEX files has that cannot be
read. -/
def LoadRank.firstLong? (names : List String) : Option Nat :=
  (names.filter isDexName).findSome? tooLong?

/-- The names of DEX files among some names, in the order of loading. -/
def inLoadOrder (names : List String) : List String :=
  (names.filter isDexName).mergeSort fun left right =>
    (LoadRank.ofName left).le (LoadRank.ofName right)

end ApkAtlas.Archive
