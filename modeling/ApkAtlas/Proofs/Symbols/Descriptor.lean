import ApkAtlas.Symbols.Signature

namespace ApkAtlas.Descriptor

/-!
# Descriptors in a row

A descriptor has a bracket for each dimension, and then the letter of a primitive type or a
class name between `L` and `;`. Whatever a text holds, it is cut into pieces none of which is
empty and which make up the text. A descriptor in front of a text is cut off as a whole, so
descriptors in a row are taken apart again and there is no other way to cut them.
-/

/-- A well-formed descriptor. A class name may be any text in which no `;` stands. -/
inductive IsDescriptor : List Char → Prop where
  | primitive {letter : List Char} (known : (primitive? letter).isSome) : IsDescriptor letter
  | named {className : List Char} (noEnd : ';' ∉ className) :
      IsDescriptor ('L' :: (className ++ [';']))
  | array {element : List Char} (isDescriptor : IsDescriptor element) :
      IsDescriptor ('[' :: element)

variable {text descriptor : List Char} {descriptors : List (List Char)}

section AnyText

/-- The pieces of a text make it up. -/
theorem flatten_split (text : List Char) : (split text).flatten = text := by
  fun_induction split text with
  | case1 =>
      rfl
  | case2 c rest inductionHypothesis =>
      calc
        ((first (c :: rest)).1 :: split (first (c :: rest)).2).flatten
            = (first (c :: rest)).1 ++ (split (first (c :: rest)).2).flatten :=
          List.flatten_cons
        _ = (first (c :: rest)).1 ++ (first (c :: rest)).2 :=
          congrArg _ inductionHypothesis
        _ = c :: rest :=
          first_append (c :: rest)

theorem nil_not_mem_split (text : List Char) : [] ∉ split text := by
  fun_induction split text with
  | case1 =>
      exact List.not_mem_nil
  | case2 c rest inductionHypothesis =>
      intro member
      rcases List.mem_cons.mp member with isFirst | inRest
      · exact first_ne_nil c rest isFirst.symm
      · exact inductionHypothesis inRest

/-- An unfinished class name and a last bracket are pieces of their own. -/
example : pieces "[I[La/b" = ["[I", "[La/b"] ∧ pieces "J[[" = ["J", "[["] := by
  cbv

end AnyText

section WellFormed

theorem upToEnd_append_cons
    {before : List Char}
    (absent : ';' ∉ before)
    (after : List Char) :
    upToEnd (before ++ ';' :: after) = (before ++ [';'], after) := by
  induction before with
  | nil =>
      rfl
  | cons c rest inductionHypothesis =>
      rw [List.mem_cons, not_or] at absent
      rw [List.cons_append, upToEnd, if_neg (Ne.symm absent.1), inductionHypothesis absent.2]
      rfl

/-- A character that opens neither an array nor a class is cut off alone. -/
theorem first_cons_of_ne
    {c : Char}
    (noArray : c ≠ '[')
    (noClass : c ≠ 'L')
    (rest : List Char) :
    first (c :: rest) = ([c], rest) := by
  cases rest with
  | nil =>
      rw [first]
  | cons next more =>
      rw [first]
      · exact fun same => absurd same noArray
      · exact fun same => absurd same noClass

/-- From `L` on, a piece goes up to the end of the class name. -/
theorem first_class (rest : List Char) : first ('L' :: rest) = upToEnd ('L' :: rest) := by
  cases rest with
  | nil =>
      rfl
  | cons next more =>
      rw [first]

/-- A bracket belongs to what follows it, if anything does. -/
theorem first_array (nonempty : text ≠ []) :
    first ('[' :: text) = ('[' :: (first text).1, (first text).2) := by
  obtain ⟨next, more, rfl⟩ := List.exists_cons_of_ne_nil nonempty
  rw [first]

theorem exists_letter_of_primitive?
    (known : (primitive? text).isSome) :
    ∃ letter, text = [letter] ∧ letter ≠ '[' ∧ letter ≠ 'L' := by
  unfold primitive? at known
  split at known <;> simp_all

theorem IsDescriptor.ne_nil (isDescriptor : IsDescriptor descriptor) : descriptor ≠ [] := by
  cases isDescriptor with
  | primitive known =>
      obtain ⟨letter, rfl, _⟩ := exists_letter_of_primitive? known
      exact List.cons_ne_nil letter []
  | named noEnd =>
      exact List.cons_ne_nil 'L' _
  | array isDescriptor =>
      exact List.cons_ne_nil '[' _

/-- A descriptor in front of a text is cut off as a whole. -/
theorem IsDescriptor.first_append
    (isDescriptor : IsDescriptor descriptor)
    (rest : List Char) :
    first (descriptor ++ rest) = (descriptor, rest) := by
  induction isDescriptor with
  | primitive known =>
      obtain ⟨letter, rfl, noArray, noClass⟩ := exists_letter_of_primitive? known
      exact first_cons_of_ne noArray noClass rest
  | @named className noEnd =>
      have noneBefore : ';' ∉ 'L' :: className := by
        simpa using noEnd
      calc
        first ('L' :: (className ++ [';']) ++ rest)
            = first ('L' :: (className ++ ';' :: rest)) := by
          simp
        _ = upToEnd ('L' :: className ++ ';' :: rest) :=
          first_class (className ++ ';' :: rest)
        _ = ('L' :: (className ++ [';']), rest) :=
          upToEnd_append_cons noneBefore rest
  | @array element isDescriptor inductionHypothesis =>
      have nonempty : element ++ rest ≠ [] :=
        List.append_ne_nil_of_left_ne_nil isDescriptor.ne_nil rest
      rw [List.cons_append, first_array nonempty, inductionHypothesis]

/-- The first piece is the descriptor in front, and the others are those of what follows. -/
theorem IsDescriptor.split_append
    (isDescriptor : IsDescriptor descriptor)
    (rest : List Char) :
    split (descriptor ++ rest) = descriptor :: split rest := by
  have cut := isDescriptor.first_append rest
  obtain ⟨c, more, isCons⟩ :=
    List.exists_cons_of_ne_nil (List.append_ne_nil_of_left_ne_nil isDescriptor.ne_nil rest)
  rw [isCons] at cut ⊢
  rw [split, cut]

/-- Descriptors in a row are taken apart again. -/
theorem split_flatten (wellFormed : ∀ descriptor ∈ descriptors, IsDescriptor descriptor) :
    split descriptors.flatten = descriptors := by
  induction descriptors with
  | nil =>
      rw [List.flatten_nil, split]
  | cons descriptor rest inductionHypothesis =>
      obtain ⟨ofFirst, ofRest⟩ := List.forall_mem_cons.mp wellFormed
      rw [List.flatten_cons, ofFirst.split_append, inductionHypothesis ofRest]

end WellFormed

end ApkAtlas.Descriptor
