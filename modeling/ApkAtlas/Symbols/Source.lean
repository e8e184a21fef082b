import ApkAtlas.Symbols.SymbolMap

namespace ApkAtlas

/-!
# Symbol sources

What the package tree needs to know of one DEX file: the classes it declares with their
members, and the members its code refers to.
-/

/-- A declared class. Its name is a descriptor or a dotted name. -/
structure ClassSymbols where
  name : String
  /-- Signatures of the form `name(parameters)result`. -/
  methods : List String := []
  /-- Signatures of the form `name:type`. -/
  fields : List String := []
  sourceFile : Option String := none
deriving Repr, DecidableEq, Inhabited

/-- A member that some code refers to. -/
structure MemberReference where
  className : String
  signature : String
  kind : MemberKind := .method
deriving Repr, DecidableEq

/-- The symbols of one file. -/
structure SymbolSource where
  name : String
  classes : List ClassSymbols := []
  references : List MemberReference := []
deriving Repr, DecidableEq, Inhabited

namespace SymbolMap

/-- Records a reference. -/
def recordReference (symbols : SymbolMap) (reference : MemberReference) : SymbolMap :=
  symbols.recordMember reference.kind (Descriptor.className reference.className)
    reference.signature

/-- Records all references of a file. -/
def recordSource (symbols : SymbolMap) (source : SymbolSource) : SymbolMap :=
  source.references.foldl recordReference symbols

/-- Records all references of some files. -/
def recordSources (symbols : SymbolMap) (sources : List SymbolSource) : SymbolMap :=
  sources.foldl recordSource symbols

end SymbolMap

end ApkAtlas
