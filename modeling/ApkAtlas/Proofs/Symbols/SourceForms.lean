import ApkAtlas.Proofs.Symbols.MemberType

namespace ApkAtlas

/-!
# Members told apart by their source forms

Overloads are matched against texts by their source forms, so members that differ must not
look alike there. The name of a type ends at its first bracket, the types of a member end
at the blank in front of the name, and parameters end at commas. So a source form can be
taken apart again, as long as resolved class names keep to plain characters and apart from
each other and from the keywords. One pair is left where a class has no name at all: a
single parameter of that class shows as much as no parameter.
-/

namespace Primitive

/-- Each primitive type has its own keyword. -/
theorem keyword_injective : Function.Injective keyword := by
  intro left right same
  cases left <;> cases right <;> first | rfl | exact absurd same (by decide)

theorem isPlain_keyword (base : Primitive) : Text.IsPlain base.keyword.toList := by
  cases base <;> decide

theorem keyword_ne_empty (base : Primitive) : base.keyword ≠ "" := by
  cases base <;> decide

end Primitive

/-- The class that a type is made of, if any. -/
def ElementType.classNames : ElementType → List String
  | .primitive _ => []
  | .named className => [className]

namespace MemberType

/-- The types that a member is signed with. -/
def types : MemberType → List JavaType
  | .field type => [type]
  | .method parameters result => parameters ++ [result]

/-- The classes that a member is signed with. -/
def classNames (member : MemberType) : List String :=
  member.types.flatMap (·.element.classNames)

/-- The classes in a type of a member are among those of the member. -/
theorem classNames_subset
    {member : MemberType}
    {type : JavaType}
    (isType : type ∈ member.types) :
    type.element.classNames ⊆ member.classNames :=
  fun _ isClass => List.mem_flatMap.mpr ⟨type, isType, isClass⟩

end MemberType

/-- Classes are named apart when their names differ from each other and from each keyword
and have plain characters only. -/
structure NamesApart (resolve : String → String) (classes : List String) : Prop where
  injective :
    ∀ className ∈ classes, ∀ other ∈ classes,
      resolve className = resolve other → className = other
  plain : ∀ className ∈ classes, Text.IsPlain (resolve className).toList
  ne_keyword : ∀ className ∈ classes, ∀ base : Primitive, resolve className ≠ base.keyword

section Types

variable {resolve : String → String} {classes : List String}

namespace ElementType

theorem isPlain_sourceName
    (apart : NamesApart resolve classes)
    {element : ElementType}
    (known : element.classNames ⊆ classes) :
    Text.IsPlain (element.sourceName resolve).toList := by
  cases element with
  | primitive base =>
      exact base.isPlain_keyword
  | named className =>
      exact apart.plain className (known (List.mem_singleton_self className))

/-- Where names are told apart, the source name of a type tells the type. -/
theorem sourceName_inj
    (apart : NamesApart resolve classes)
    {left right : ElementType}
    (leftKnown : left.classNames ⊆ classes)
    (rightKnown : right.classNames ⊆ classes)
    (same : left.sourceName resolve = right.sourceName resolve) :
    left = right := by
  cases left with
  | primitive base =>
      cases right with
      | primitive other =>
          rw [Primitive.keyword_injective same]
      | named other =>
          exact absurd same.symm
            (apart.ne_keyword other (rightKnown (List.mem_singleton_self other)) base)
  | named className =>
      have isClass := leftKnown (List.mem_singleton_self className)
      cases right with
      | primitive base =>
          exact absurd same (apart.ne_keyword className isClass base)
      | named other =>
          rw [apart.injective className isClass other
            (rightKnown (List.mem_singleton_self other)) same]

end ElementType

namespace JavaType

/-- The bracket pairs behind the name of a type. -/
def brackets (dimensions : Nat) : List Char :=
  (List.replicate dimensions ['[', ']']).flatten

theorem length_brackets (dimensions : Nat) : (brackets dimensions).length = dimensions * 2 := by
  simp [brackets]

/-- The text of a type is its element with brackets for each dimension. -/
theorem toList_sourceText (resolve : String → String) (type : JavaType) :
    (type.sourceText resolve).toList =
      (type.element.sourceName resolve).toList ++ brackets type.dimensions := by
  rw [sourceText, brackets, String.toList_append, String.toList_join, List.flatMap_def,
    List.map_replicate]
  rfl

/-- The name of a type ends where its brackets begin. -/
theorem beforeFirst_sourceText
    (apart : NamesApart resolve classes)
    {type : JavaType}
    (known : type.element.classNames ⊆ classes) :
    Text.beforeFirst '[' (type.sourceText resolve).toList =
      (type.element.sourceName resolve).toList := by
  have noBracket := (ElementType.isPlain_sourceName apart known).not_mem
    (by decide : Text.isPlain '[' = false)
  rw [toList_sourceText]
  cases type.dimensions with
  | zero =>
      rw [brackets, List.replicate_zero, List.flatten_nil, List.append_nil,
        Text.beforeFirst_of_not_mem noBracket]
  | succ dimensions =>
      exact Text.beforeFirst_append_cons noBracket (']' :: brackets dimensions)

/-- No character that delimits the types of a member stands in a type. -/
theorem not_mem_sourceText
    (apart : NamesApart resolve classes)
    {type : JavaType}
    (known : type.element.classNames ⊆ classes)
    {c : Char}
    (notPlain : Text.isPlain c = false)
    (noBracket : c ≠ '[') :
    c ∉ (type.sourceText resolve).toList := by
  intro member
  rw [toList_sourceText, List.mem_append] at member
  rcases member with inName | inBrackets
  · exact (ElementType.isPlain_sourceName apart known).not_mem notPlain inName
  · obtain ⟨pair, isPair, inPair⟩ := List.mem_flatten.mp inBrackets
    rw [List.eq_of_mem_replicate isPair] at inPair
    rcases List.mem_cons.mp inPair with opens | closes
    · exact noBracket opens
    · rw [List.mem_singleton.mp closes] at notPlain
      cases notPlain

/-- Where names are told apart, the text of a type tells the type. -/
theorem sourceText_inj
    (apart : NamesApart resolve classes)
    {left right : JavaType}
    (leftKnown : left.element.classNames ⊆ classes)
    (rightKnown : right.element.classNames ⊆ classes)
    (same : left.sourceText resolve = right.sourceText resolve) :
    left = right := by
  have sameText := congrArg String.toList same
  have sameName := congrArg (Text.beforeFirst '[') sameText
  rw [beforeFirst_sourceText apart leftKnown, beforeFirst_sourceText apart rightKnown]
    at sameName
  rw [toList_sourceText, toList_sourceText, sameName, List.append_cancel_left_eq] at sameText
  have sameLength := congrArg List.length sameText
  rw [length_brackets, length_brackets] at sameLength
  have sameElement :=
    ElementType.sourceName_inj apart leftKnown rightKnown (String.toList_inj.mp sameName)
  have sameDimensions : left.dimensions = right.dimensions := by omega
  cases left
  cases right
  cases sameElement
  cases sameDimensions
  rfl

/-- Where names are told apart, the texts of parameters tell the parameters. -/
theorem map_sourceText_inj
    (apart : NamesApart resolve classes)
    {left right : List JavaType}
    (leftKnown : ∀ type ∈ left, type.element.classNames ⊆ classes)
    (rightKnown : ∀ type ∈ right, type.element.classNames ⊆ classes)
    (same : left.map (sourceText resolve) = right.map (sourceText resolve)) :
    left = right := by
  induction left generalizing right with
  | nil =>
      exact (List.map_eq_nil_iff.mp same.symm).symm
  | cons type rest inductionHypothesis =>
      obtain ⟨other, otherRest, rfl, sameType, sameRest⟩ := List.map_eq_cons_iff.mp same.symm
      rw [List.forall_mem_cons] at leftKnown rightKnown
      rw [sourceText_inj apart rightKnown.1 leftKnown.1 sameType,
        inductionHypothesis leftKnown.2 rightKnown.2 sameRest.symm]

/-- A type without a text is a class without a name. -/
theorem eq_named_of_sourceText_eq_empty
    {type : JavaType}
    (empty : type.sourceText resolve = "") :
    ∃ className, type = ⟨.named className, 0⟩ ∧ resolve className = "" := by
  have noText := congrArg String.toList empty
  rw [toList_sourceText, String.toList_empty, List.append_eq_nil_iff] at noText
  obtain ⟨element, dimensions⟩ := type
  have noDimension : dimensions = 0 := by
    simpa [brackets] using noText.2
  have noName := String.toList_eq_nil_iff.mp noText.1
  cases element with
  | primitive base =>
      exact absurd noName base.keyword_ne_empty
  | named className =>
      exact ⟨className, by rw [noDimension], noName⟩

end JavaType

end Types

namespace MemberType

/-- The one member has a single parameter, of a class without a name, and the other one is
the same without parameter. -/
inductive HidesParameter (resolve : String → String) : MemberType → MemberType → Prop where
  | single
      {className : String}
      (nameless : resolve className = "")
      (result : JavaType) :
      HidesParameter resolve
        (.method [⟨.named className, 0⟩] result)
        (.method [] result)

/-- The type that stands in front of the name. -/
def frontType : MemberType → JavaType
  | .field type => type
  | .method _ result => result

/-- What stands behind the name. -/
def behindName (resolve : String → String) : MemberType → List Char
  | .field _ => []
  | .method parameters _ => (parameterText resolve parameters).toList

section Members

variable {resolve : String → String} {classes : List String}

/-- Parameters are written with commas between them, in brackets. -/
theorem toList_parameterText (resolve : String → String) (parameters : List JavaType) :
    (parameterText resolve parameters).toList =
      '(' :: ((",".intercalate (parameters.map (JavaType.sourceText resolve))).toList ++
        [')']) := by
  rw [parameterText, String.toList_append, String.toList_append]
  rfl

/-- A member is written as its type, its name and its parameters. -/
theorem toList_sourceText (resolve : String → String) (name : String) (type : MemberType) :
    (type.sourceText resolve name).toList =
      (type.frontType.sourceText resolve).toList ++
        ' ' :: (name.toList ++ type.behindName resolve) := by
  cases type with
  | field type =>
      simp [sourceText, frontType, behindName]
  | method parameters result =>
      simp [sourceText, frontType, behindName]

/-- The name of a member ends where its parameters begin. -/
theorem beforeFirst_behindName
    {name : String}
    (noOpening : '(' ∉ name.toList)
    (type : MemberType) :
    Text.beforeFirst '(' (name.toList ++ type.behindName resolve) = name.toList := by
  cases type with
  | field type =>
      rw [behindName, List.append_nil, Text.beforeFirst_of_not_mem noOpening]
  | method parameters result =>
      rw [behindName, toList_parameterText, Text.beforeFirst_append_cons noOpening]

/-- A parameter list is told by its text, unless the text shows nothing of it. -/
theorem join_sourceText_inj
    (apart : NamesApart resolve classes)
    {left right : List JavaType}
    (leftKnown : ∀ type ∈ left, type.element.classNames ⊆ classes)
    (rightKnown : ∀ type ∈ right, type.element.classNames ⊆ classes)
    (nonempty : left ≠ [])
    (same :
      ",".intercalate (left.map (JavaType.sourceText resolve)) =
        ",".intercalate (right.map (JavaType.sourceText resolve))) :
    left = right ∨
      right = [] ∧ ∃ className, left = [⟨.named className, 0⟩] ∧ resolve className = "" := by
  have split
      {types : List JavaType}
      (known : ∀ type ∈ types, type.element.classNames ⊆ classes)
      (nonempty : types ≠ []) :
      Text.split ',' (",".intercalate (types.map (JavaType.sourceText resolve))) =
        types.map (JavaType.sourceText resolve) := by
    apply Text.split_join (by simpa using nonempty)
    intro piece isPiece
    obtain ⟨type, isType, rfl⟩ := List.mem_map.mp isPiece
    exact JavaType.not_mem_sourceText apart (known type isType) (by decide) (by decide)
  have pieces := congrArg (Text.split ',') same
  rw [split leftKnown nonempty] at pieces
  -- an empty list is written as a list of one empty piece would be
  by_cases isEmpty : right = []
  · refine .inr ⟨isEmpty, ?_⟩
    subst isEmpty
    obtain ⟨type, rest, rfl, noText, noRest⟩ := List.map_eq_cons_iff.mp pieces
    obtain ⟨className, rfl, nameless⟩ := JavaType.eq_named_of_sourceText_eq_empty noText
    rw [List.map_eq_nil_iff.mp noRest]
    exact ⟨className, rfl, nameless⟩
  · rw [split rightKnown isEmpty] at pieces
    exact .inl (JavaType.map_sourceText_inj apart leftKnown rightKnown pieces)

/-- Two methods with one result and one text for their parameters are the same, up to a
parameter that the text hides. -/
theorem method_eq_or_hidesParameter
    (apart : NamesApart resolve classes)
    {left right : List JavaType}
    (leftKnown : ∀ type ∈ left, type.element.classNames ⊆ classes)
    (rightKnown : ∀ type ∈ right, type.element.classNames ⊆ classes)
    (result : JavaType)
    (same :
      ",".intercalate (left.map (JavaType.sourceText resolve)) =
        ",".intercalate (right.map (JavaType.sourceText resolve))) :
    method left result = method right result ∨
      HidesParameter resolve (.method left result) (.method right result) ∨
        HidesParameter resolve (.method right result) (.method left result) := by
  by_cases noLeft : left = []
  · subst noLeft
    by_cases noRight : right = []
    · rw [noRight]
      exact .inl rfl
    · rcases join_sourceText_inj apart rightKnown leftKnown noRight same.symm with
        isEmpty | ⟨-, className, rfl, nameless⟩
      · exact absurd isEmpty noRight
      · exact .inr (.inr (.single nameless result))
  · rcases join_sourceText_inj apart leftKnown rightKnown noLeft same with
      rfl | ⟨rfl, className, rfl, nameless⟩
    · exact .inl rfl
    · exact .inr (.inl (.single nameless result))

/-- The type in front of the name is one of the member. -/
theorem frontType_mem_types (member : MemberType) : member.frontType ∈ member.types := by
  cases member with
  | field type => exact List.mem_singleton_self type
  | method parameters result => exact List.mem_append_right parameters List.mem_cons_self

/-- Two members have one source form only if they are the same, up to a parameter that the
form hides. -/
theorem sourceText_inj
    {left right : MemberType}
    (apart : NamesApart resolve (left.classNames ++ right.classNames))
    {name otherName : String}
    (noOpening : '(' ∉ name.toList)
    (noOtherOpening : '(' ∉ otherName.toList)
    (same : left.sourceText resolve name = right.sourceText resolve otherName) :
    name = otherName ∧
      (left = right ∨ HidesParameter resolve left right ∨ HidesParameter resolve right left) := by
  have leftKnown {type : JavaType} (isType : type ∈ left.types) :=
    List.subset_append_of_subset_left right.classNames (classNames_subset isType)
  have rightKnown {type : JavaType} (isType : type ∈ right.types) :=
    List.subset_append_of_subset_right left.classNames (classNames_subset isType)
  -- the blank behind the type in front, then the bracket behind the name
  have sameText := congrArg String.toList same
  rw [toList_sourceText, toList_sourceText] at sameText
  obtain ⟨sameFront, sameRest⟩ :=
    Text.append_cons_inj
      (JavaType.not_mem_sourceText apart (leftKnown left.frontType_mem_types)
        (by decide) (by decide))
      (JavaType.not_mem_sourceText apart (rightKnown right.frontType_mem_types)
        (by decide) (by decide))
      sameText
  have front := JavaType.sourceText_inj apart (leftKnown left.frontType_mem_types)
    (rightKnown right.frontType_mem_types) (String.toList_inj.mp sameFront)
  have sameName := congrArg (Text.beforeFirst '(') sameRest
  rw [beforeFirst_behindName noOpening, beforeFirst_behindName noOtherOpening] at sameName
  rw [sameName, List.append_cancel_left_eq] at sameRest
  refine ⟨String.toList_inj.mp sameName, ?_⟩
  cases left with
  | field type =>
      cases right with
      | field other =>
          exact .inl (congrArg field front)
      | method parameters result =>
          rw [behindName, behindName, toList_parameterText] at sameRest
          cases sameRest
  | method parameters result =>
      cases right with
      | field other =>
          rw [behindName, behindName, toList_parameterText] at sameRest
          cases sameRest
      | method otherParameters otherResult =>
          cases front
          rw [behindName, behindName, toList_parameterText, toList_parameterText,
            List.cons_inj_right, List.append_cancel_right_eq] at sameRest
          exact method_eq_or_hidesParameter apart
            (fun type isType => leftKnown (List.mem_append_left _ isType))
            (fun type isType => rightKnown (List.mem_append_left _ isType))
            result (String.toList_inj.mp sameRest)

/-- A parameter that the form hides makes no difference to it. -/
theorem HidesParameter.sourceText_eq
    {left right : MemberType}
    (hides : HidesParameter resolve left right)
    (name : String) :
    left.sourceText resolve name = right.sourceText resolve name := by
  cases hides with
  | @single className nameless result =>
      have noText : JavaType.sourceText resolve ⟨.named className, 0⟩ = "" := by
        rw [JavaType.sourceText, ElementType.sourceName, nameless]
        rfl
      rw [sourceText, sourceText, parameterText, List.map_singleton, noText]
      rfl

/-- Where every class has a name, no form hides a parameter. -/
theorem not_hidesParameter
    {left right : MemberType}
    (everyNamed : ∀ className ∈ left.classNames, resolve className ≠ "") :
    ¬ HidesParameter resolve left right := by
  intro hides
  cases hides with
  | single nameless result =>
      exact everyNamed _ List.mem_cons_self nameless

theorem isPlain_of_mem_classNames
    {member : MemberType}
    (wellFormed : member.WellFormed)
    {className : String}
    (isClass : className ∈ member.classNames) :
    Text.IsPlain className.toList := by
  obtain ⟨⟨element, dimensions⟩, isType, inType⟩ := List.mem_flatMap.mp isClass
  have ofType : JavaType.WellFormed ⟨element, dimensions⟩ := by
    cases member with
    | field type =>
        rw [List.mem_singleton.mp isType]
        exact wellFormed
    | method parameters result =>
        rcases List.mem_append.mp isType with isParameter | isResult
        · exact wellFormed.1 _ isParameter
        · rw [List.mem_singleton.mp isResult]
          exact wellFormed.2
  cases element with
  | primitive base =>
      cases inType
  | named other =>
      rw [List.mem_singleton.mp inType]
      exact ofType

end Members

end MemberType

open MemberType

/-- The source form of a signature is the member as sources write it, and it tells members
apart: signatures that differ have source forms that differ, where the classes in them are
named apart and each of them has a name. A class without a name is seen only in the one
case of `HidesParameter`. Without `resolve`, classes go by their own names, so it is enough
that none of them is called like a keyword. -/
theorem sourceForm_tells_members_apart
    {name otherName : String}
    {type other : MemberType}
    (clear : '(' ∉ name.toList ∧ ':' ∉ name.toList)
    (otherClear : '(' ∉ otherName.toList ∧ ':' ∉ otherName.toList)
    (wellFormed : type.WellFormed)
    (otherWellFormed : other.WellFormed) :
    (∀ resolve,
      Signature.sourceForm resolve "" (type.signature name) = type.sourceText resolve name) ∧
    (∀ resolve,
      NamesApart resolve (type.classNames ++ other.classNames) →
        (Signature.sourceForm resolve "" (type.signature name) =
            Signature.sourceForm resolve "" (other.signature otherName) ↔
          type.signature name = other.signature otherName ∨
            name = otherName ∧
              (HidesParameter resolve type other ∨ HidesParameter resolve other type))) ∧
    (∀ resolve,
      NamesApart resolve (type.classNames ++ other.classNames) →
      (∀ className ∈ type.classNames ++ other.classNames, resolve className ≠ "") →
      type.signature name ≠ other.signature otherName →
        Signature.sourceForm resolve "" (type.signature name) ≠
          Signature.sourceForm resolve "" (other.signature otherName)) ∧
    ((∀ className ∈ type.classNames ++ other.classNames,
        className ≠ "" ∧ ∀ base : Primitive, className ≠ base.keyword) →
      type.signature name ≠ other.signature otherName →
        Signature.sourceForm id "" (type.signature name) ≠
          Signature.sourceForm id "" (other.signature otherName)) := by
  have formOf (resolve : String → String) :
      Signature.sourceForm resolve "" (type.signature name) = type.sourceText resolve name :=
    sourceForm_signature clear.1 clear.2 wellFormed resolve ""
  have otherFormOf (resolve : String → String) :
      Signature.sourceForm resolve "" (other.signature otherName) =
        other.sourceText resolve otherName :=
    sourceForm_signature otherClear.1 otherClear.2 otherWellFormed resolve ""
  have apartForms (resolve : String → String)
      (apart : NamesApart resolve (type.classNames ++ other.classNames))
      (everyNamed :
        ∀ className ∈ type.classNames ++ other.classNames, resolve className ≠ "")
      (differ : type.signature name ≠ other.signature otherName) :
      Signature.sourceForm resolve "" (type.signature name) ≠
        Signature.sourceForm resolve "" (other.signature otherName) := by
    rw [formOf, otherFormOf]
    intro same
    rw [List.forall_mem_append] at everyNamed
    obtain ⟨rfl, rfl | hides | hides⟩ := sourceText_inj apart clear.1 otherClear.1 same
    · exact differ rfl
    · exact not_hidesParameter everyNamed.1 hides
    · exact not_hidesParameter everyNamed.2 hides
  refine ⟨formOf, ?_, apartForms, ?_⟩
  · intro resolve apart
    constructor
    · rw [formOf, otherFormOf]
      intro same
      obtain ⟨rfl, rfl | hides⟩ := sourceText_inj apart clear.1 otherClear.1 same
      · exact .inl rfl
      · exact .inr ⟨rfl, hides⟩
    · rintro (same | ⟨rfl, hides | hides⟩)
      · rw [same]
      · rw [formOf, otherFormOf, hides.sourceText_eq]
      · rw [formOf, otherFormOf, hides.sourceText_eq]
  · intro ownNames
    apply apartForms id _ (fun className isClass => (ownNames className isClass).1)
    refine ⟨fun _ _ _ _ same => same, ?_, fun className isClass => (ownNames className isClass).2⟩
    exact List.forall_mem_append.mpr
      ⟨fun _ isClass => isPlain_of_mem_classNames wellFormed isClass,
        fun _ isClass => isPlain_of_mem_classNames otherWellFormed isClass⟩

/-- Two overloads with an array at different places, as they are and with the name of
their class restored. -/
theorem sourceForm_tells_overloads_apart :
    Signature.sourceForm id "" "run([IL$;)V" = "void run(int[],$)" ∧
    Signature.sourceForm id "" "run([IL$;)V" ≠ Signature.sourceForm id "" "run(I[L$;)V" ∧
    Signature.sourceForm ("p." ++ ·) "" "run([IL$;)V" = "void run(int[],p.$)" ∧
    Signature.sourceForm ("p." ++ ·) "" "run([IL$;)V" ≠
      Signature.sourceForm ("p." ++ ·) "" "run(I[L$;)V" := by
  obtain ⟨forms, -, differ, ownDiffer⟩ :=
    @sourceForm_tells_members_apart "run" "run"
      (.method [⟨.primitive .int, 1⟩, ⟨.named "$", 0⟩] ⟨.primitive .void, 0⟩)
      (.method [⟨.primitive .int, 0⟩, ⟨.named "$", 1⟩] ⟨.primitive .void, 0⟩)
      (by decide) (by decide) (by decide) (by decide)
  have noKeyword (base : Primitive) : "$" ≠ base.keyword ∧ "p.$" ≠ base.keyword := by
    cases base <;> decide
  have ownNames :
      ∀ className ∈ ["$", "$"], className ≠ "" ∧ ∀ base : Primitive, className ≠ base.keyword := by
    simpa using fun base => (noKeyword base).1
  have apart : NamesApart ("p." ++ ·) ["$", "$"] :=
    ⟨by decide, by decide, by simpa using fun base => (noKeyword base).2⟩
  exact ⟨forms id, ownDiffer ownNames (by decide), forms ("p." ++ ·),
    differ ("p." ++ ·) apart (by decide) (by decide)⟩

/-- A name for each class but one, which has an empty name. -/
def namelessFirst (className : String) : String :=
  if className = "a" then "" else "x." ++ className

/-- The names are distinct, plain and no keywords, and still two signatures have one source
form, for the only parameter is a class without a name. -/
theorem sourceForm_of_nameless_parameter :
    Function.Injective namelessFirst ∧
    (∀ className, Text.IsPlain className.toList →
      Text.IsPlain (namelessFirst className).toList) ∧
    (∀ className, ∀ base : Primitive, namelessFirst className ≠ base.keyword) ∧
    "m(La;)V" ≠ "m()V" ∧
    Signature.sourceForm namelessFirst "" "m(La;)V" = "void m()" ∧
    Signature.sourceForm namelessFirst "" "m()V" = "void m()" := by
  have toListOther {className : String} (other : className ≠ "a") :
      (namelessFirst className).toList = 'x' :: '.' :: className.toList := by
    rw [namelessFirst, if_neg other, String.toList_append]
    rfl
  have formOf :=
    @sourceForm_signature "m" (.method [⟨.named "a", 0⟩] ⟨.primitive .void, 0⟩)
      (by decide) (by decide) (by decide) namelessFirst ""
  have formWithout :=
    @sourceForm_signature "m" (.method [] ⟨.primitive .void, 0⟩)
      (by decide) (by decide) (by decide) namelessFirst ""
  refine ⟨?_, ?_, ?_, by decide, formOf, formWithout⟩
  · intro left right same
    by_cases isLeft : left = "a"
    · by_cases isRight : right = "a"
      · rw [isLeft, isRight]
      · have sameText := congrArg String.toList same
        rw [toListOther isRight, isLeft] at sameText
        cases sameText
    · have sameText := congrArg String.toList same
      by_cases isRight : right = "a"
      · rw [toListOther isLeft, isRight] at sameText
        cases sameText
      · rw [toListOther isLeft, toListOther isRight] at sameText
        exact String.toList_inj.mp (List.cons.inj (List.cons.inj sameText).2).2
  · intro className plain
    by_cases isFirst : className = "a"
    · rw [isFirst]
      decide
    · rw [toListOther isFirst]
      intro c member
      rcases List.mem_cons.mp member with rfl | inRest
      · decide
      · rcases List.mem_cons.mp inRest with rfl | inName
        · decide
        · exact plain c inName
  · intro className base same
    have sameText := congrArg String.toList same
    by_cases isFirst : className = "a"
    · rw [isFirst] at same
      exact base.keyword_ne_empty same.symm
    · rw [toListOther isFirst] at sameText
      cases base <;> cases sameText

end ApkAtlas
