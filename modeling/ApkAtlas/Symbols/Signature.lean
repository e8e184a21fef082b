import ApkAtlas.Text.Segment

namespace ApkAtlas.Descriptor

/-!
# Type descriptors

Bytecode names types by descriptors: a letter for each primitive type, `L` with a slashed
name and `;` for a class, and `[` in front for each dimension of an array. Descriptors in
a parameter list follow each other without separator.
-/

/-- The dotted name of a class descriptor; any other text is a name already. -/
def className (descriptor : String) : String :=
  match descriptor.toList with
  | 'L' :: rest =>
      if rest.getLast? = some ';' then
        String.ofList (rest.dropLast.map fun c => if c = '/' then '.' else c)
      else
        descriptor
  | _ => descriptor

/-- The keyword of a primitive type. -/
def primitive? : List Char → Option String
  | ['V'] => some "void"
  | ['Z'] => some "boolean"
  | ['B'] => some "byte"
  | ['S'] => some "short"
  | ['C'] => some "char"
  | ['I'] => some "int"
  | ['J'] => some "long"
  | ['F'] => some "float"
  | ['D'] => some "double"
  | _ => none

/-- A text up to and with the first `;`, and the rest. -/
def upToEnd : List Char → List Char × List Char
  | [] => ([], [])
  | c :: rest =>
      if c = ';' then
        ([c], rest)
      else
        let (piece, after) := upToEnd rest
        (c :: piece, after)

/-- The first descriptor of a sequence, and the rest. A text that is no sequence of
descriptors is cut all the same: a last bracket and any other character stand alone. -/
def first : List Char → List Char × List Char
  | [] => ([], [])
  | [c] => ([c], [])
  | '[' :: next :: rest =>
      let (piece, after) := first (next :: rest)
      ('[' :: piece, after)
  | 'L' :: next :: rest => upToEnd ('L' :: next :: rest)
  | c :: next :: rest => ([c], next :: rest)

/-- Nothing is lost when the end of a class descriptor is looked for. -/
theorem upToEnd_append (text : List Char) : (upToEnd text).1 ++ (upToEnd text).2 = text := by
  induction text with
  | nil => rfl
  | cons c rest inductionHypothesis =>
      by_cases stop : c = ';'
      · simp [upToEnd, stop]
      · simpa [upToEnd, stop] using inductionHypothesis

/-- Nothing is lost when the first descriptor is cut off. -/
theorem first_append (text : List Char) : (first text).1 ++ (first text).2 = text := by
  fun_induction first text with
  | case1 => rfl
  | case2 c => rfl
  | case3 next rest piece after found inductionHypothesis =>
      simpa [found] using inductionHypothesis
  | case4 next rest => exact upToEnd_append _
  | case5 c next rest => rfl

/-- The first descriptor of a nonempty text is not empty. -/
theorem first_ne_nil (c : Char) (rest : List Char) : (first (c :: rest)).1 ≠ [] := by
  unfold first
  split
  · simp_all
  · simp
  · simp
  · simp only [upToEnd]
    split <;> simp
  · simp

/-- What follows the first descriptor is shorter than the text. -/
theorem length_first_lt (c : Char) (rest : List Char) :
    (first (c :: rest)).2.length < (c :: rest).length := by
  have whole := congrArg List.length (first_append (c :: rest))
  have nonempty := List.length_pos_iff.mpr (first_ne_nil c rest)
  rw [List.length_append] at whole
  omega

/-- The descriptors of a sequence. -/
def split : List Char → List (List Char)
  | [] => []
  | c :: rest => (first (c :: rest)).1 :: split (first (c :: rest)).2
  termination_by text => text.length
  decreasing_by exact length_first_lt c rest

/-- The descriptors that follow each other in a text. -/
def pieces (text : String) : List String :=
  (split text.toList).map String.ofList

/-- The source form of a type: its keyword or dotted name, with `resolve` applied to class
names, and a bracket pair for each dimension. -/
def sourceType (resolve : String → String) (descriptor : List Char) : String :=
  let element := descriptor.dropWhile (· == '[')
  let dimensions := descriptor.length - element.length
  let name :=
    match primitive? element with
    | some keyword => keyword
    | none => resolve (className (String.ofList element))
  name ++ String.join (List.replicate dimensions "[]")

end ApkAtlas.Descriptor

namespace ApkAtlas.Signature

/-!
# Member signatures

In bytecode a method is signed `name(parameters)result` and a field `name:type`, with
descriptors for the types. The source form has the types in front and in source words, as
in `void run(int,java.lang.String)` and `int count`.
-/

/-- The bare name of a member. -/
def memberName (signature : String) : String :=
  String.ofList (Text.beforeFirst ':' (Text.beforeFirst '(' signature.toList))

/-- The name to write: the given one, or the signature's own where that is empty. -/
def chosenName (name own : String) : String :=
  if name.isEmpty then own else name

/-- The source form of a signature, under the given name if it is not empty, with
`resolve` applied to class names. -/
def sourceForm (resolve : String → String) (name signature : String) : String :=
  match Text.cutFirst '(' signature.toList with
  | (member, some rest) =>
      let (parameters, result) := Text.cutFirst ')' rest
      let types := (Descriptor.split parameters).map (Descriptor.sourceType resolve)
      Descriptor.sourceType resolve (result.getD []) ++ " " ++
        chosenName name (String.ofList member) ++ "(" ++ ",".intercalate types ++ ")"
  | (_, none) =>
      let (member, fieldType) := Text.cutFirst ':' signature.toList
      Descriptor.sourceType resolve (fieldType.getD []) ++ " " ++
        chosenName name (String.ofList member)

end ApkAtlas.Signature
