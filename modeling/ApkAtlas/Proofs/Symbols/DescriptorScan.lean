import ApkAtlas.Proofs.Symbols.Descriptor

namespace ApkAtlas.Descriptor

/-!
# Scans of descriptors

The pieces of a text can be found by a scan from left to right that keeps no more than two
positions: where the current piece starts and what is read next. A bracket is passed over if
anything follows it, a class name goes up to its `;` or to the end of the text, and any other
character is the last of its piece. Each scan comes to the end of its text, after at most as
many steps as there are characters, and it has found the pieces of the text.
-/

/-- A moment of a scan. -/
structure Scan where
  /-- The pieces found so far. -/
  found : List String := []
  /-- Where the current piece starts. -/
  start : Nat := 0
  /-- The position that is read next. -/
  position : Nat := 0

/-- Where a class name ends that is open at a position: behind the next `;`, if there is one. -/
def classEnd (text : List Char) (position : Nat) : Nat :=
  match (text.drop position).findIdx? (· == ';') with
  | some distance => position + distance + 1
  | none => text.length

/-- A name is cut behind its semicolon, or at the end of the text. -/
theorem length_upToEnd (text : List Char) :
    (upToEnd text).1.length =
      match text.findIdx? (· == ';') with
      | some distance => distance + 1
      | none => text.length := by
  induction text with
  | nil =>
      rfl
  | cons c rest inductionHypothesis =>
      by_cases isEnd : c = ';'
      · simp [upToEnd, isEnd, List.findIdx?_cons]
      · cases found : rest.findIdx? (· == ';') <;>
          simp [upToEnd, isEnd, found, inductionHypothesis, List.findIdx?_cons]

/-- Where the name of a class ends that begins at a place. -/
theorem classEnd_append (front rest : List Char) :
    classEnd (front ++ rest) front.length = (front ++ (upToEnd rest).1).length := by
  rw [classEnd, List.drop_left, List.length_append, List.length_append, length_upToEnd]
  cases rest.findIdx? (· == ';') <;> rfl

namespace Scan

/-- The moment after the current piece ended in front of a position. -/
def cut (text : List Char) (scan : Scan) (stop : Nat) : Scan where
  found := scan.found ++ [String.ofList ((text.take stop).drop scan.start)]
  start := stop
  position := stop

/-- The next moment of a scan, if there is a character to read. -/
def next? (text : List Char) (scan : Scan) : Option Scan :=
  match text[scan.position]? with
  | none => none
  | some c =>
      if c = '[' ∧ scan.position + 1 < text.length then
        some { scan with position := scan.position + 1 }
      else if c = 'L' then
        some (scan.cut text (classEnd text scan.position))
      else
        some (scan.cut text (scan.position + 1))

/-- A scan that takes some steps. -/
inductive Runs (text : List Char) : Nat → Scan → Scan → Prop where
  | refl (scan : Scan) : Runs text 0 scan scan
  | next {steps : Nat} {scan after last : Scan}
      (step : next? text scan = some after)
      (runs : Runs text steps after last) :
      Runs text (steps + 1) scan last

/-- A scan of the text comes to its end with these pieces, and no piece is left unfinished. -/
structure EndsWith (text : List Char) (pieces : List String) : Prop where
  runs : ∃ steps ≤ text.length, Runs text steps {} ⟨pieces, text.length, text.length⟩
  stops : next? text ⟨pieces, text.length, text.length⟩ = none

variable {text : List Char}

theorem Runs.trans
    {steps more : Nat}
    {scan between last : Scan}
    (first : Runs text steps scan between)
    (second : Runs text more between last) :
    Runs text (steps + more) scan last := by
  induction first with
  | refl scan =>
      simpa using second
  | next step runs inductionHypothesis =>
      simpa only [Nat.add_right_comm] using Runs.next step (inductionHypothesis second)

section Steps

variable {more : List Char} {c : Char}

/-- A bracket is passed over if something follows it. -/
theorem next?_bracket
    (found : List String)
    (start : Nat)
    (front : List Char)
    (nonempty : more ≠ []) :
    next? (front ++ '[' :: more) ⟨found, start, front.length⟩ =
      some ⟨found, start, (front ++ ['[']).length⟩ := by
  have follows : 0 < more.length := List.length_pos_iff.mpr nonempty
  simp [next?, follows]

/-- Any other character ends the piece, by itself or with the class name that it opens. -/
theorem next?_piece
    (found : List String)
    (start : Nat)
    (front : List Char)
    (isLast : c = '[' → more = []) :
    next? (front ++ c :: more) ⟨found, start, front.length⟩ =
      some (cut (front ++ c :: more) ⟨found, start, front.length⟩
        (front ++ (first (c :: more)).1).length) := by
  have notPassed : ¬ (c = '[' ∧ front.length + 1 < (front ++ c :: more).length) := by
    rintro ⟨isBracket, inside⟩
    simp [isLast isBracket] at inside
  have read : (front ++ c :: more)[front.length]? = some c := by
    simp
  simp only [next?, read, if_neg notPassed]
  by_cases isClass : c = 'L'
  · subst isClass
    rw [if_pos rfl, classEnd_append, first_class]
  · rw [if_neg isClass]
    by_cases isBracket : c = '['
    · subst isBracket
      simp [isLast rfl, first]
    · simp [first_cons_of_ne isBracket isClass]

end Steps

/-- A piece that starts behind `before` is cut out of the text. -/
theorem cut_append
    (found : List String)
    (before piece after : List Char)
    (position : Nat) :
    cut (before ++ piece ++ after) ⟨found, before.length, position⟩ (before ++ piece).length =
      ⟨found ++ [String.ofList piece], (before ++ piece).length, (before ++ piece).length⟩ := by
  rw [cut, List.take_left, List.drop_left]

/-- From a started piece on, a scan takes what is the first piece of the rest to it. -/
theorem exists_runs_first
    (found : List String)
    (before started : List Char)
    {rest : List Char}
    (nonempty : rest ≠ []) :
    ∃ steps ≤ (first rest).1.length,
      Runs (before ++ (started ++ rest)) steps
        ⟨found, before.length, (before ++ started).length⟩
        ⟨found ++ [String.ofList (started ++ (first rest).1)],
          (before ++ (started ++ (first rest).1)).length,
          (before ++ (started ++ (first rest).1)).length⟩ := by
  -- A bracket leaves the rest for the started piece, so that can be any text.
  induction rest generalizing started with
  | nil =>
      exact absurd rfl nonempty
  | cons c more inductionHypothesis =>
      by_cases passes : c = '[' ∧ more ≠ []
      · obtain ⟨rfl, follows⟩ := passes
        obtain ⟨steps, bound, runs⟩ := inductionHypothesis (started ++ ['[']) follows
        have step := next?_bracket found before.length (before ++ started) follows
        rw [first_array follows]
        refine ⟨steps + 1, Nat.succ_le_succ bound, ?_⟩
        simp only [List.append_assoc, List.cons_append, List.nil_append] at step runs
        exact .next step runs
      · have isLast : c = '[' → more = [] :=
          fun isBracket => Decidable.not_not.mp fun follows => passes ⟨isBracket, follows⟩
        have step := next?_piece found before.length (before ++ started) isLast
        have whole :
            before ++ (started ++ c :: more) =
              before ++ (started ++ (first (c :: more)).1) ++ (first (c :: more)).2 := by
          simp [first_append]
        rw [List.append_assoc, List.append_assoc, whole, cut_append, ← whole] at step
        exact ⟨1, List.length_pos_iff.mpr (first_ne_nil c more), .next step (.refl _)⟩

/-- From the start of a piece on, a scan finds the pieces of the rest. -/
theorem exists_runs_split (found : List String) (before rest : List Char) :
    ∃ steps ≤ rest.length,
      Runs (before ++ rest) steps
        ⟨found, before.length, before.length⟩
        ⟨found ++ (split rest).map String.ofList, (before ++ rest).length,
          (before ++ rest).length⟩ := by
  fun_induction split rest generalizing before found with
  | case1 =>
      refine ⟨0, Nat.le_refl 0, ?_⟩
      simpa using Runs.refl _
  | case2 c rest inductionHypothesis =>
      have whole := first_append (c :: rest)
      obtain ⟨steps, bound, ofFirst⟩ :=
        exists_runs_first found before [] (List.cons_ne_nil c rest)
      obtain ⟨more, moreBound, ofRest⟩ :=
        inductionHypothesis (found ++ [String.ofList (first (c :: rest)).1])
          (before ++ (first (c :: rest)).1)
      rw [List.append_assoc, whole] at ofRest
      refine ⟨steps + more, ?_, ?_⟩
      · calc
          steps + more
              ≤ (first (c :: rest)).1.length + (first (c :: rest)).2.length :=
            Nat.add_le_add bound moreBound
          _ = (c :: rest).length := by
            rw [← List.length_append, whole]
      · simpa using ofFirst.trans (by simpa using ofRest)

/-- Where a scan stops depends on nothing but where it starts. -/
theorem Runs.eq_of_stops
    {steps more : Nat}
    {scan last other : Scan}
    (runs : Runs text steps scan last)
    (stops : next? text last = none)
    (otherRuns : Runs text more scan other)
    (otherStops : next? text other = none) :
    last = other := by
  induction runs generalizing more with
  | refl scan =>
      cases otherRuns with
      | refl =>
          rfl
      | next step _ =>
          rw [stops] at step
          cases step
  | next step _ inductionHypothesis =>
      cases otherRuns with
      | refl =>
          rw [otherStops] at step
          cases step
      | next otherStep otherRest =>
          rw [step] at otherStep
          cases otherStep
          exact inductionHypothesis stops otherRest

/-- Each scan comes to its end, and with the pieces of the text. -/
theorem endsWith_iff (text : String) (found : List String) :
    EndsWith text.toList found ↔ found = pieces text := by
  obtain ⟨steps, bound, runs⟩ := exists_runs_split [] [] text.toList
  have stops : next? text.toList ⟨pieces text, text.toList.length, text.toList.length⟩ = none := by
    simp [next?]
  constructor
  · rintro ⟨⟨_, _, otherRuns⟩, otherStops⟩
    exact congrArg Scan.found (otherRuns.eq_of_stops otherStops runs stops)
  · rintro rfl
    exact ⟨⟨steps, bound, runs⟩, stops⟩

end Scan

/-- The pieces make up the text. -/
theorem join_pieces (text : String) : String.join (pieces text) = text := by
  apply String.toList_injective
  rw [String.toList_join, pieces, List.flatMap_map]
  simpa [List.flatMap_id] using flatten_split text.toList

/-- No piece is empty. -/
theorem empty_not_mem_pieces (text : String) : "" ∉ pieces text := by
  intro member
  obtain ⟨piece, inSplit, isEmpty⟩ := List.mem_map.mp member
  have noCharacter : piece = [] := by
    simpa using isEmpty
  exact nil_not_mem_split text.toList (noCharacter ▸ inSplit)

variable {descriptors : List String}

/-- Descriptors in a row are cut into themselves. -/
theorem pieces_join (wellFormed : ∀ descriptor ∈ descriptors, IsDescriptor descriptor.toList) :
    pieces (String.join descriptors) = descriptors := by
  have texts : ∀ text ∈ descriptors.map String.toList, IsDescriptor text := by
    simpa using wellFormed
  rw [pieces, String.toList_join, List.flatMap_def, split_flatten texts, List.map_map]
  simp

/-- Every text is cut into pieces by a scan that ends, and descriptors in a row are the only
descriptors that their text can be cut into. -/
theorem pieces_lossless_and_unique :
    (∀ text : String,
      (∀ found, Scan.EndsWith text.toList found ↔ found = pieces text) ∧
        "" ∉ pieces text ∧ String.join (pieces text) = text) ∧
    ∀ descriptors : List String,
      (∀ descriptor ∈ descriptors, IsDescriptor descriptor.toList) →
        pieces (String.join descriptors) = descriptors ∧
          ∀ others : List String,
            (∀ other ∈ others, IsDescriptor other.toList) →
              String.join others = String.join descriptors →
                others = descriptors := by
  refine ⟨?_, ?_⟩
  · intro text
    exact ⟨Scan.endsWith_iff text, empty_not_mem_pieces text, join_pieces text⟩
  · intro descriptors wellFormed
    refine ⟨pieces_join wellFormed, ?_⟩
    intro others othersWellFormed same
    calc
      others = pieces (String.join others) := (pieces_join othersWellFormed).symm
      _ = pieces (String.join descriptors) := congrArg pieces same
      _ = descriptors := pieces_join wellFormed

/-- Dimensions in front of primitive types and of classes, one class without a name and one
whose name looks like descriptors. -/
def mixedDescriptors : List String :=
  ["[[I", "L;", "V", "[L[I/L b;", "[[La/b;"]

/-- Arrays, primitive types and names with blanks and brackets in a row. -/
theorem mixedDescriptors_cut_one_way :
    (∀ descriptor ∈ mixedDescriptors, IsDescriptor descriptor.toList) ∧
      pieces "[[IL;V[L[I/L b;[[La/b;" = mixedDescriptors ∧
        ∀ others : List String,
          (∀ other ∈ others, IsDescriptor other.toList) →
            String.join others = "[[IL;V[L[I/L b;[[La/b;" →
              others = mixedDescriptors := by
  have wellFormed : ∀ descriptor ∈ mixedDescriptors, IsDescriptor descriptor.toList := by
    have nameless : IsDescriptor ['L', ';'] := .named List.not_mem_nil
    have ofMisleading : ';' ∉ "[I/L b".toList := by
      decide
    have ofPlain : ';' ∉ "a/b".toList := by
      decide
    simp only [mixedDescriptors, List.forall_mem_cons]
    refine ⟨.array (.array (.primitive rfl)), nameless, .primitive rfl,
      .array (.named ofMisleading), .array (.array (.named ofPlain)), by simp⟩
  exact ⟨wellFormed, pieces_lossless_and_unique.2 mixedDescriptors wellFormed⟩

end ApkAtlas.Descriptor
