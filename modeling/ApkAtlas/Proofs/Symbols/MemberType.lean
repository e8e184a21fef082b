import ApkAtlas.Proofs.Symbols.JavaType
import ApkAtlas.Symbols.SymbolMap

namespace ApkAtlas

/-!
# Members and their signatures

A member has a name and is a field or a method of certain types. Bytecode writes it as a
signature with descriptors, sources with types in front. The source form of a signature
has the types of the member, and no signature is a source form.
-/

/-- What a member is besides its name. -/
inductive MemberType where
  | field (type : JavaType)
  | method (parameters : List JavaType) (result : JavaType)
deriving Repr, DecidableEq

namespace MemberType

/-- The kind of a member. -/
def kind : MemberType → MemberKind
  | .field _ => .field
  | .method _ _ => .method

/-- The types of a member are well formed. -/
def WellFormed : MemberType → Prop
  | .field type => type.WellFormed
  | .method parameters result =>
      (∀ parameter ∈ parameters, parameter.WellFormed) ∧ result.WellFormed

instance : (type : MemberType) → Decidable type.WellFormed
  | .field type => inferInstanceAs (Decidable type.WellFormed)
  | .method _ _ => inferInstanceAs (Decidable (_ ∧ _))

/-- What follows the name of a member in bytecode. -/
def descriptor : MemberType → List Char
  | .field type => ':' :: type.descriptor
  | .method parameters result =>
      '(' :: (parameters.flatMap JavaType.descriptor ++ ')' :: result.descriptor)

/-- The signature of a member in bytecode. -/
def signature (name : String) (type : MemberType) : String :=
  String.ofList (name.toList ++ type.descriptor)

/-- Parameters as they are written in a source. -/
def parameterText (resolve : String → String) (parameters : List JavaType) : String :=
  "(" ++ ",".intercalate (parameters.map (JavaType.sourceText resolve)) ++ ")"

/-- A member as it is written in a source. -/
def sourceText (resolve : String → String) (name : String) : MemberType → String
  | .field type => type.sourceText resolve ++ " " ++ name
  | .method parameters result =>
      result.sourceText resolve ++ " " ++ name ++ parameterText resolve parameters

variable {name : String} {type : MemberType}

theorem not_mem_flatMap_descriptor
    {types : List JavaType}
    (wellFormed : ∀ type ∈ types, type.WellFormed)
    {c : Char}
    (notPlain : Text.isPlain c = false)
    (foreign : c ∉ ['[', '/', ';']) :
    c ∉ types.flatMap JavaType.descriptor := by
  intro member
  obtain ⟨type, inTypes, inDescriptor⟩ := List.mem_flatMap.mp member
  exact JavaType.not_mem_descriptor (wellFormed type inTypes) notPlain foreign inDescriptor

/-- The name of a member is read off its signature. -/
theorem memberName_signature
    (noOpening : '(' ∉ name.toList)
    (noColon : ':' ∉ name.toList)
    (wellFormed : type.WellFormed) :
    Signature.memberName (type.signature name) = name := by
  rw [Signature.memberName, signature, String.toList_ofList]
  cases type with
  | field type =>
      have noneAfter := JavaType.not_mem_descriptor wellFormed
        (by decide : Text.isPlain '(' = false) (by decide)
      have whole : '(' ∉ name.toList ++ (MemberType.field type).descriptor := by
        simp [descriptor, noOpening, noneAfter]
      rw [Text.beforeFirst_of_not_mem whole, descriptor, Text.beforeFirst_append_cons noColon,
        String.ofList_toList]
  | method parameters result =>
      rw [descriptor, Text.beforeFirst_append_cons noOpening,
        Text.beforeFirst_of_not_mem noColon, String.ofList_toList]

/-- The source form of a signature has the types of the member. -/
theorem sourceForm_signature
    (noOpening : '(' ∉ name.toList)
    (noColon : ':' ∉ name.toList)
    (wellFormed : type.WellFormed)
    (resolve : String → String)
    (chosen : String) :
    Signature.sourceForm resolve chosen (type.signature name) =
      type.sourceText resolve (Signature.chosenName chosen name) := by
  rw [Signature.sourceForm, signature, String.toList_ofList]
  cases type with
  | field type =>
      have noneAfter := JavaType.not_mem_descriptor wellFormed
        (by decide : Text.isPlain '(' = false) (by decide)
      have whole : '(' ∉ name.toList ++ (MemberType.field type).descriptor := by
        simp [descriptor, noOpening, noneAfter]
      rw [Text.cutFirst_of_not_mem whole, descriptor]
      simp only [Text.cutFirst_append_cons noColon, Option.getD_some,
        JavaType.sourceType_descriptor wellFormed, String.ofList_toList, sourceText]
  | method parameters result =>
      have noClosing := not_mem_flatMap_descriptor wellFormed.1
        (by decide : Text.isPlain ')' = false) (by decide)
      have sourceTypes :
          (parameters.map JavaType.descriptor).map (Descriptor.sourceType resolve) =
            parameters.map (JavaType.sourceText resolve) := by
        rw [List.map_map]
        apply List.map_congr_left
        intro parameter member
        exact JavaType.sourceType_descriptor (wellFormed.1 parameter member) resolve
      rw [descriptor, Text.cutFirst_append_cons noOpening]
      simp only [Text.cutFirst_append_cons noClosing, Option.getD_some,
        JavaType.split_flatMap_descriptor wellFormed.1, sourceTypes,
        JavaType.sourceType_descriptor wellFormed.2, String.ofList_toList, sourceText,
        parameterText, String.append_assoc]

theorem blank_not_mem_signature
    (plainName : Text.IsPlain name.toList)
    (wellFormed : type.WellFormed) :
    ' ' ∉ (type.signature name).toList := by
  have inNoType (type : JavaType) (wellFormed : type.WellFormed) : ' ' ∉ type.descriptor :=
    JavaType.not_mem_descriptor wellFormed (by decide) (by decide)
  have notInName := plainName.not_mem (by decide : Text.isPlain ' ' = false)
  rw [signature, String.toList_ofList]
  cases type with
  | field type =>
      simp [descriptor, notInName, inNoType type wellFormed]
  | method parameters result =>
      have inNoParameter := not_mem_flatMap_descriptor wellFormed.1
        (by decide : Text.isPlain ' ' = false) (by decide)
      simp [descriptor, notInName, inNoType result wellFormed.2]
      simpa using inNoParameter

/-- A signature does not end with a parameter list. -/
theorem getLast?_signature (name : String) (wellFormed : type.WellFormed) :
    (type.signature name).toList.getLast? ≠ some ')' := by
  have lastOf (type : JavaType) (wellFormed : type.WellFormed) :
      type.descriptor.getLast? ≠ some ')' := by
    intro isLast
    exact JavaType.not_mem_descriptor wellFormed (by decide) (by decide)
      (List.mem_of_getLast? isLast)
  have lastAfter (before : List Char) (type : JavaType) :
      (before ++ type.descriptor).getLast? = type.descriptor.getLast? := by
    rw [List.getLast?_append, List.getLast?_eq_some_getLast (JavaType.descriptor_ne_nil type),
      Option.some_or]
  rw [signature, String.toList_ofList]
  cases type with
  | field type =>
      have split :
          name.toList ++ (MemberType.field type).descriptor =
            (name.toList ++ [':']) ++ type.descriptor := by
        simp [descriptor]
      rw [split, lastAfter]
      exact lastOf type wellFormed
  | method parameters result =>
      have split :
          name.toList ++ (MemberType.method parameters result).descriptor =
            (name.toList ++ '(' :: (parameters.flatMap JavaType.descriptor ++ [')'])) ++
              result.descriptor := by
        simp [descriptor]
      rw [split, lastAfter]
      exact lastOf result wellFormed.2

end MemberType

end ApkAtlas
