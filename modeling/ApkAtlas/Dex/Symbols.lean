import ApkAtlas.Bytes
import ApkAtlas.Failure
import ApkAtlas.Symbols.Source

namespace ApkAtlas.Dex

/-!
# Parsers of DEX files

What is asked of a parser of DEX files: the classes that a file declares, and its tables of
methods and of fields. Which files it refuses, and with which errors, is its own matter.
-/

/-- A member: its name, and the parameters and the result of a method or the type of a
field. -/
structure ParsedMember where
  name : String
  descriptor : String
deriving Repr, DecidableEq

/-- A declared class. -/
structure ParsedClass where
  name : String
  methods : List ParsedMember := []
  fields : List ParsedMember := []
deriving Repr, DecidableEq

/-- An item of the table of methods or of fields: a member and the class it is looked up
in. -/
structure ParsedReference where
  className : String
  member : ParsedMember
deriving Repr, DecidableEq

/-- A parser of DEX files. Each question is answered for the whole file or not at all. -/
structure Parser where
  classes : Bytes → Except ExternalError (List ParsedClass)
  methods : Bytes → Except ExternalError (List ParsedReference)
  fields : Bytes → Except ExternalError (List ParsedReference)

/-!
## Symbols of DEX files

A DEX file declares classes with their members and refers to members, its own and those
of the platform. What a parser finds is written down in signatures, in which no spaces
stand between parameters.
-/

namespace ParsedMember

/-- The signature of a member. -/
def signature (parsed : ParsedMember) : MemberKind → String
  | .method => parsed.name ++ String.ofList (parsed.descriptor.toList.filter (· ≠ ' '))
  | .field => parsed.name ++ ":" ++ parsed.descriptor

end ParsedMember

namespace ParsedClass

/-- The members of a kind. -/
def members (parsed : ParsedClass) : MemberKind → List ParsedMember
  | .method => parsed.methods
  | .field => parsed.fields

/-- The class with the signatures of its members. -/
def symbols (parsed : ParsedClass) : ClassSymbols :=
  { name := parsed.name
    methods := parsed.methods.map (·.signature .method)
    fields := parsed.fields.map (·.signature .field) }

end ParsedClass

/-- The reference to a member of the given kind. -/
def ParsedReference.reference (kind : MemberKind) (parsed : ParsedReference) :
    MemberReference :=
  ⟨parsed.className, parsed.member.signature kind, kind⟩

namespace Parser

/-- The table of members of a kind. -/
def table (parser : Parser) : MemberKind → Bytes → Except ExternalError (List ParsedReference)
  | .method => parser.methods
  | .field => parser.fields

/-- The classes that a file declares. -/
def declaredClasses (parser : Parser) (bytes : Bytes) :
    Except ExternalError (List ClassSymbols) := do
  return (← parser.classes bytes).map ParsedClass.symbols

/-- The members that a file refers to: methods and then fields. -/
def memberReferences (parser : Parser) (bytes : Bytes) :
    Except ExternalError (List MemberReference) := do
  let methods ← parser.table .method bytes
  let fields ← parser.table .field bytes
  return methods.map (·.reference .method) ++ fields.map (·.reference .field)

/-- All symbols of a file with the given name. -/
def symbols (parser : Parser) (name : String) (bytes : Bytes) :
    Except ExternalError SymbolSource := do
  return ⟨name, ← parser.declaredClasses bytes, ← parser.memberReferences bytes⟩

end Parser

end ApkAtlas.Dex
