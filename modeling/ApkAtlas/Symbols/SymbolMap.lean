import ApkAtlas.Symbols.Signature
import Std.Data.ExtTreeMap
import Std.Data.ExtTreeSet

namespace ApkAtlas

/-!
# Symbol maps

Classes and members have a source name, which the programmer gave them, and a name in
bytecode, which is another one after obfuscation. A symbol map has two parts that know
nothing of each other. The rename table gives back source names; the usage record lists
classes and members that are known to be kept or referenced. Every query has an answer: an
unknown name stands for itself and is not used.
-/

open Std

/-- The kinds of class member. -/
inductive MemberKind where
  | method
  | field
deriving Repr, DecidableEq

namespace MemberKind

/-- The name of a kind. -/
def name : MemberKind → String
  | .method => "method"
  | .field => "field"

/-- The kind with the given name. -/
def ofName? : String → Option MemberKind
  | "method" => some .method
  | "field" => some .field
  | _ => none

end MemberKind

/-- The source names of classes and members. -/
structure RenameTable where
  /-- Source class names under the names in bytecode. -/
  classes : ExtTreeMap String String := ∅
  /-- The first name in bytecode that was entered for a source class name. -/
  bytecodeNames : ExtTreeMap String String := ∅
  /-- Source member names under the class name and the member name in bytecode. -/
  members : ExtTreeMap String (ExtTreeMap String String) := ∅

namespace RenameTable

/-- Enters a class; the last entry for a name in bytecode holds. -/
def addClass (table : RenameTable) (bytecodeName sourceName : String) : RenameTable :=
  { table with
    classes := table.classes.insert bytecodeName sourceName
    bytecodeNames := table.bytecodeNames.insertIfNew sourceName bytecodeName }

/-- Enters a member; the first entry for a name in bytecode holds, because the lines of
inlined frames follow the line of the member itself. -/
def addMember
    (table : RenameTable)
    (className bytecodeName sourceName : String) :
    RenameTable :=
  { table with
    members := table.members.alter className fun known =>
      some ((known.getD ∅).insertIfNew bytecodeName sourceName) }

/-- The source name of a class. -/
def resolveClass (table : RenameTable) (name : String) : String :=
  table.classes[name]?.getD name

/-- The member names of a class, which may go by either of its names. -/
def membersOf (table : RenameTable) (className : String) : ExtTreeMap String String :=
  match table.members[className]? with
  | some members => members
  | none =>
      match table.bytecodeNames[className]? with
      | none => ∅
      | some "" => ∅
      | some bytecodeName => table.members[bytecodeName]?.getD ∅

/-- The source name of a member, entered for its signature or for its bare name. -/
def resolveMember (table : RenameTable) (className signature : String) : String :=
  let members := table.membersOf className
  match members[signature]? with
  | some sourceName => sourceName
  | none => members[Signature.memberName signature]?.getD signature

end RenameTable

/-- Classes and members in use. -/
structure UsageRecord where
  classes : ExtTreeSet String := ∅
  /-- Method signatures under their class. -/
  methods : ExtTreeMap String (ExtTreeSet String) := ∅
  /-- Field signatures under their class. -/
  fields : ExtTreeMap String (ExtTreeSet String) := ∅

namespace UsageRecord

/-- The signatures of a kind under their class. -/
def ofKind (usage : UsageRecord) : MemberKind → ExtTreeMap String (ExtTreeSet String)
  | .method => usage.methods
  | .field => usage.fields

/-- Adds a signature under a class. -/
def addSignature
    (className signature : String)
    (table : ExtTreeMap String (ExtTreeSet String)) :
    ExtTreeMap String (ExtTreeSet String) :=
  table.alter className fun known => some ((known.getD ∅).insert signature)

/-- Notes that a class is used. -/
def recordClass (usage : UsageRecord) (className : String) : UsageRecord :=
  { usage with classes := usage.classes.insert className }

/-- Notes that a member is used, and its class with it. -/
def recordMember
    (usage : UsageRecord)
    (kind : MemberKind)
    (className signature : String) :
    UsageRecord :=
  let usage := usage.recordClass className
  match kind with
  | .method => { usage with methods := addSignature className signature usage.methods }
  | .field => { usage with fields := addSignature className signature usage.fields }

/-- The used members of a kind in a class. -/
def members
    (usage : UsageRecord)
    (className : String)
    (kind : MemberKind) :
    ExtTreeSet String :=
  (usage.ofKind kind)[className]?.getD ∅

/-- Whether a class is used. -/
def usesClass (usage : UsageRecord) (className : String) : Bool :=
  usage.classes.contains className

/-- Whether a member of the given kind is used. -/
def usesMember
    (usage : UsageRecord)
    (className signature : String)
    (kind : MemberKind) :
    Bool :=
  (usage.members className kind).contains signature

/-- Whether a member of any kind is used. -/
def usesAnyMember (usage : UsageRecord) (className signature : String) : Bool :=
  usage.usesMember className signature .method || usage.usesMember className signature .field

end UsageRecord

/-- Source names, and what is used. -/
structure SymbolMap where
  renames : RenameTable := {}
  usage : UsageRecord := {}

namespace SymbolMap

/-- Enters a class. -/
def addClass (symbols : SymbolMap) (bytecodeName sourceName : String) : SymbolMap :=
  { symbols with renames := symbols.renames.addClass bytecodeName sourceName }

/-- Enters a member. -/
def addMember (symbols : SymbolMap) (className bytecodeName sourceName : String) : SymbolMap :=
  { symbols with renames := symbols.renames.addMember className bytecodeName sourceName }

/-- Notes that a class is used. -/
def recordClass (symbols : SymbolMap) (className : String) : SymbolMap :=
  { symbols with usage := symbols.usage.recordClass className }

/-- Notes that a member is used. -/
def recordMember
    (symbols : SymbolMap)
    (kind : MemberKind)
    (className signature : String) :
    SymbolMap :=
  { symbols with usage := symbols.usage.recordMember kind className signature }

/-- The source name of a class. -/
def resolveClass (symbols : SymbolMap) (name : String) : String :=
  symbols.renames.resolveClass name

/-- The source name of a member. -/
def resolveMember (symbols : SymbolMap) (className signature : String) : String :=
  symbols.renames.resolveMember className signature

/-- How many classes have source names. -/
def renamedClassCount (symbols : SymbolMap) : Nat :=
  symbols.renames.classes.size

/-- How many classes are used. -/
def usedClassCount (symbols : SymbolMap) : Nat :=
  symbols.usage.classes.size

/-- Whether the map renames no class and records no use. -/
def isEmpty (symbols : SymbolMap) : Bool :=
  symbols.renames.classes.isEmpty && symbols.usage.classes.isEmpty

/-- The map in one line. -/
def summary (symbols : SymbolMap) : String :=
  s!"SymbolMap(classes={symbols.renamedClassCount}, used_classes={symbols.usedClassCount})"

end SymbolMap

end ApkAtlas
