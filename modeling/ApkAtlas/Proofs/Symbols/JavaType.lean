import ApkAtlas.Proofs.Symbols.Descriptor
import ApkAtlas.Proofs.Text.Name

namespace ApkAtlas

/-!
# Types and what they are written as

A type is an element type with some dimensions. Bytecode writes it as a descriptor and a
source text with its name. Descriptors in a row can be taken apart again, and a descriptor
read as a source form gives the name of its type.
-/

/-- The primitive types, and the type of no result. -/
inductive Primitive where
  | void
  | boolean
  | byte
  | short
  | char
  | int
  | long
  | float
  | double
deriving Repr, DecidableEq

namespace Primitive

/-- The letter of a primitive type in bytecode. -/
def letter : Primitive → Char
  | .void => 'V'
  | .boolean => 'Z'
  | .byte => 'B'
  | .short => 'S'
  | .char => 'C'
  | .int => 'I'
  | .long => 'J'
  | .float => 'F'
  | .double => 'D'

/-- The keyword of a primitive type. -/
def keyword : Primitive → String
  | .void => "void"
  | .boolean => "boolean"
  | .byte => "byte"
  | .short => "short"
  | .char => "char"
  | .int => "int"
  | .long => "long"
  | .float => "float"
  | .double => "double"

end Primitive

/-- A type without dimensions; a class goes by its dotted name. -/
inductive ElementType where
  | primitive (base : Primitive)
  | named (className : String)
deriving Repr, DecidableEq

namespace ElementType

/-- A character of a class name as descriptors have it. -/
def slashed (c : Char) : Char :=
  if c = '.' then '/' else c

/-- The descriptor of an element type. -/
def descriptor : ElementType → List Char
  | .primitive base => [base.letter]
  | .named className => 'L' :: (className.toList.map slashed ++ [';'])

/-- The name of an element type in a source, where classes are named by `resolve`. -/
def sourceName (resolve : String → String) : ElementType → String
  | .primitive base => base.keyword
  | .named className => resolve className

/-- No delimiter and no blank stands in the name of a class. -/
def WellFormed : ElementType → Prop
  | .primitive _ => True
  | .named className => Text.IsPlain className.toList

instance : (element : ElementType) → Decidable element.WellFormed
  | .primitive _ => .isTrue trivial
  | .named className => inferInstanceAs (Decidable (Text.IsPlain className.toList))

end ElementType

/-- A type: an element type with dimensions around it. -/
structure JavaType where
  element : ElementType
  dimensions : Nat := 0
deriving Repr, DecidableEq

namespace JavaType

/-- The descriptor of a type. -/
def descriptor (type : JavaType) : List Char :=
  List.replicate type.dimensions '[' ++ type.element.descriptor

/-- A type as it is written in a source. -/
def sourceText (resolve : String → String) (type : JavaType) : String :=
  type.element.sourceName resolve ++ String.join (List.replicate type.dimensions "[]")

/-- A type of which each class name is well formed. -/
def WellFormed (type : JavaType) : Prop :=
  type.element.WellFormed

instance (type : JavaType) : Decidable type.WellFormed :=
  inferInstanceAs (Decidable type.element.WellFormed)

end JavaType

section Descriptors

variable {element : ElementType} {type : JavaType}

theorem JavaType.descriptor_ne_nil (type : JavaType) : type.descriptor ≠ [] := by
  rw [descriptor]
  cases type.element <;> simp [ElementType.descriptor]

/-- No end of a class descriptor stands in a class name. -/
theorem ElementType.semicolon_not_mem
    {className : String}
    (wellFormed : (ElementType.named className).WellFormed) :
    ';' ∉ className.toList.map slashed := by
  intro member
  obtain ⟨c, isChar, same⟩ := List.mem_map.mp member
  have plain := wellFormed c isChar
  rw [slashed] at same
  split at same
  · cases same
  · subst same
    cases plain

theorem ElementType.isDescriptor_descriptor (wellFormed : element.WellFormed) :
    Descriptor.IsDescriptor element.descriptor := by
  cases element with
  | primitive base =>
      apply Descriptor.IsDescriptor.primitive
      cases base <;> rfl
  | named className =>
      exact .named (semicolon_not_mem wellFormed)

/-- The descriptor of a well-formed type is well formed. -/
theorem JavaType.isDescriptor_descriptor (wellFormed : type.WellFormed) :
    Descriptor.IsDescriptor type.descriptor := by
  obtain ⟨element, dimensions⟩ := type
  induction dimensions with
  | zero =>
      exact ElementType.isDescriptor_descriptor wellFormed
  | succ dimensions inductionHypothesis =>
      exact .array (inductionHypothesis wellFormed)

/-- Descriptors in a row are taken apart again. -/
theorem JavaType.split_flatMap_descriptor
    {types : List JavaType}
    (wellFormed : ∀ type ∈ types, type.WellFormed) :
    Descriptor.split (types.flatMap JavaType.descriptor) =
      types.map JavaType.descriptor := by
  rw [List.flatMap_def]
  apply Descriptor.split_flatten
  intro descriptor member
  obtain ⟨type, inTypes, rfl⟩ := List.mem_map.mp member
  exact isDescriptor_descriptor (wellFormed type inTypes)

theorem Descriptor.className_of_not_mem
    {name : String}
    (noEnd : ';' ∉ name.toList) :
    className name = name := by
  rw [className]
  split
  · rename_i rest opens
    rw [if_neg]
    intro isEnd
    rw [opens] at noEnd
    exact noEnd (List.mem_cons_of_mem _ (List.mem_of_getLast? isEnd))
  · rfl

/-- A class descriptor gives back the dotted name. -/
theorem ElementType.className_descriptor
    {className : String}
    (wellFormed : (ElementType.named className).WellFormed) :
    Descriptor.className (String.ofList (ElementType.named className).descriptor) =
      className := by
  have undo :
      (className.toList.map slashed).map (fun c => if c = '/' then '.' else c) =
        className.toList := by
    rw [List.map_map]
    refine (List.map_congr_left ?_).trans (List.map_id className.toList)
    intro c member
    by_cases isDot : c = '.'
    · subst isDot
      rfl
    · have noSlash : c ≠ '/' := by
        rintro rfl
        cases wellFormed '/' member
      rw [Function.comp_apply, slashed, if_neg isDot, if_neg noSlash, id]
  rw [Descriptor.className, String.toList_ofList, descriptor]
  simp only [List.getLast?_append, List.getLast?_singleton, Option.some_or, ↓reduceIte,
    List.dropLast_concat, undo, String.ofList_toList]

/-- The source form of a descriptor is the name of its type. -/
theorem JavaType.sourceType_descriptor
    (wellFormed : type.WellFormed)
    (resolve : String → String) :
    Descriptor.sourceType resolve type.descriptor = type.sourceText resolve := by
  obtain ⟨element, dimensions⟩ := type
  have noBracket : element.descriptor.dropWhile (· == '[') = element.descriptor := by
    cases element with
    | primitive base =>
        cases base <;> rfl
    | named _ =>
        rfl
  have dropped :
      (JavaType.descriptor ⟨element, dimensions⟩).dropWhile (· == '[') =
        element.descriptor := by
    rw [descriptor, List.dropWhile_append_of_pos, noBracket]
    intro c member
    rw [List.eq_of_mem_replicate member]
    rfl
  have counted :
      (JavaType.descriptor ⟨element, dimensions⟩).length - element.descriptor.length =
        dimensions := by
    rw [descriptor, List.length_append, List.length_replicate, Nat.add_sub_cancel]
  rw [Descriptor.sourceType, dropped, counted, sourceText]
  cases element with
  | primitive base =>
      cases base <;> rfl
  | named className =>
      have noPrimitive :
          Descriptor.primitive? (ElementType.named className).descriptor = none := by
        obtain ⟨next, more, isCons⟩ :=
          List.exists_cons_of_ne_nil
            (List.append_ne_nil_of_right_ne_nil
              (className.toList.map ElementType.slashed) (List.cons_ne_nil ';' []))
        rw [ElementType.descriptor, isCons]
        rfl
      rw [noPrimitive, ElementType.className_descriptor wellFormed]
      rfl

/-- Only plain characters and those of descriptors stand in a descriptor. -/
theorem JavaType.not_mem_descriptor
    (wellFormed : type.WellFormed)
    {c : Char}
    (notPlain : Text.isPlain c = false)
    (foreign : c ∉ ['[', '/', ';']) :
    c ∉ type.descriptor := by
  intro member
  rcases List.mem_append.mp member with isBracket | inElement
  · rw [List.eq_of_mem_replicate isBracket] at foreign
    exact foreign (by decide)
  · cases element : type.element with
    | primitive base =>
        rw [element, ElementType.descriptor, List.mem_singleton] at inElement
        subst inElement
        cases base <;> cases notPlain
    | named className =>
        rw [element, ElementType.descriptor, List.mem_cons, List.mem_append,
          List.mem_singleton] at inElement
        rcases inElement with rfl | inName | rfl
        · cases notPlain
        · obtain ⟨before, inClassName, rfl⟩ := List.mem_map.mp inName
          rw [WellFormed, element] at wellFormed
          rw [ElementType.slashed] at notPlain foreign
          split at notPlain
          · rename_i isDot
            rw [if_pos isDot] at foreign
            exact foreign (by decide)
          · rw [wellFormed before inClassName] at notPlain
            cases notPlain
        · exact foreign (by decide)

end Descriptors

end ApkAtlas
