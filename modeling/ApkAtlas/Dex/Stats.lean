import ApkAtlas.Dex.Header
import ApkAtlas.Symbols.Source

namespace ApkAtlas.Dex

/-!
# Statistics of DEX files

How many members a file refers to is told by its header; how many it defines, by the
classes it declares.
-/

/-- The most methods that one file can refer to. -/
def methodReferenceLimit : Int := 65536

/-- The counts of one DEX file. -/
structure FileStats where
  fileName : String
  classCount : Int := 0
  definedMethodCount : Int := 0
  definedFieldCount : Int := 0
  referencedMethodCount : Int := 0
  referencedFieldCount : Int := 0
  stringCount : Int := 0
  typeCount : Int := 0
  fileSize : Int := 0
deriving Repr, DecidableEq

namespace FileStats

/-- How many more methods the file could refer to. -/
def headroom (stats : FileStats) : Int :=
  methodReferenceLimit - stats.referencedMethodCount

/-- The counts that a header and the declared classes give. -/
def make (name : String) (size : Nat) (header : Header) (classes : List ClassSymbols) :
    FileStats :=
  { fileName := name
    classCount := header.classCount
    definedMethodCount := (classes.flatMap (·.methods)).length
    definedFieldCount := (classes.flatMap (·.fields)).length
    referencedMethodCount := header.methodCount
    referencedFieldCount := header.fieldCount
    stringCount := header.stringCount
    typeCount := header.typeCount
    fileSize := size }

/-- The counts of a file whose declared classes are known. -/
def ofFile (name : String) (bytes : Bytes) (classes : List ClassSymbols) :
    Except HeaderError FileStats :=
  (Header.decode bytes).map fun header => make name bytes.size header classes

end FileStats

end ApkAtlas.Dex
