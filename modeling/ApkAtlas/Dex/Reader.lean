import ApkAtlas.Dex.Tables

namespace ApkAtlas.Dex

/-!
# Reading DEX files by their tables

The parser of DEX files that follows the format: the references of a file are the items of
its tables of methods and of fields, and a member of a declared class is one of these
items, named by its number.
-/

/-- A declared class with the items of the tables that its members are. -/
structure DeclaredClass where
  name : String
  methods : List ParsedReference
  fields : List ParsedReference
deriving Repr, DecidableEq

namespace DeclaredClass

/-- The items of a kind. -/
def members (declared : DeclaredClass) : MemberKind → List ParsedReference
  | .method => declared.methods
  | .field => declared.fields

/-- The class with nothing but the names and descriptors of its members. -/
def parsed (declared : DeclaredClass) : ParsedClass :=
  { name := declared.name
    methods := declared.methods.map ParsedReference.member
    fields := declared.fields.map ParsedReference.member }

end DeclaredClass

namespace Tables

/-- What a member of a kind is told by besides its class and its name. -/
def memberDescriptor (tables : Tables) : MemberKind → Nat → Except TableError String
  | .method => tables.prototype
  | .field => tables.descriptor

/-- The item at a position of the table of members. -/
def memberAt (tables : Tables) (kind : MemberKind) (start : Nat) :
    Except TableError ParsedReference := do
  let className ← tables.descriptor (Bytes.u16 tables.bytes start)
  let name ← tables.string (Bytes.u32 tables.bytes (start + 4))
  let descriptor ← tables.memberDescriptor kind (Bytes.u16 tables.bytes (start + 2))
  return ⟨className, name, descriptor⟩

/-- The member with a number. -/
def item (tables : Tables) (kind : MemberKind) (index : Nat) :
    Except TableError ParsedReference := do
  let start ← tables.place (.ofMembers kind) index
  tables.memberAt kind start

/-- The members of a class whose data are at a place; a class without data has none. -/
def classMembers (tables : Tables) (kind : MemberKind) (start : Nat) :
    Except TableError (List ParsedReference) :=
  (((tables.classData.lookup start).getD {}).members kind).mapM (tables.item kind)

/-- The class at a position of the table of classes. -/
def declaredAt (tables : Tables) (start : Nat) : Except TableError DeclaredClass := do
  let name ← tables.descriptor (Bytes.u32 tables.bytes start)
  let data := Bytes.u32 tables.bytes (start + 24)
  let methods ← tables.classMembers .method data
  let fields ← tables.classMembers .field data
  return ⟨name, methods, fields⟩

/-- The declared classes in the order of their table; a file without the table declares
none. -/
def declared (tables : Tables) : Except TableError (List DeclaredClass) :=
  match tables.find? .classes with
  | none => .ok []
  | some entry => do (← tables.places .classes entry).mapM tables.declaredAt

/-- All items of one table of members. -/
def references (tables : Tables) (kind : MemberKind) :
    Except TableError (List ParsedReference) :=
  match tables.find? (.ofMembers kind) with
  | none => .error .noReferences
  | some entry => do (← tables.places (.ofMembers kind) entry).mapM (tables.memberAt kind)

end Tables

/-- The classes that a file declares by its tables. -/
def tableClasses (bytes : Bytes) : Except TableError (List DeclaredClass) := do
  (← Tables.read bytes).declared

/-- The items of a table of members of a file. -/
def tableReferences (kind : MemberKind) (bytes : Bytes) :
    Except TableError (List ParsedReference) := do
  (← Tables.read bytes).references kind

/-- The parser that reads files by their tables. It is at hand where no other parser is, and
other parsers may answer otherwise on files that are not well formed. -/
def reader : Parser where
  classes bytes :=
    ((tableClasses bytes).map (List.map DeclaredClass.parsed)).mapError TableError.toError
  methods bytes := (tableReferences .method bytes).mapError TableError.toError
  fields bytes := (tableReferences .field bytes).mapError TableError.toError

end ApkAtlas.Dex
