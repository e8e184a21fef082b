import Mathlib.Data.List.Induction
import Mathlib.Tactic

namespace ApkAtlas

/-!
# Delimiters

In a sequence of marks some open and some close. A bracket is open at the end of the
sequence if, since it was opened, more brackets were opened than closed at every moment; the
innermost is the one that was opened last. Where no mark closes more than is open, the open
brackets are a stack.
-/

inductive Delimiter where
  | opening
  | closing
  | neutral
deriving Repr, DecidableEq

namespace Delimiter

/-- How many more delimiters open than close. -/
def level (marks : List Delimiter) : Int :=
  marks.count .opening - marks.count .closing

/-- What the delimiter at a position opens is open at the end. -/
def IsOpen (marks : List Delimiter) (position : Nat) : Prop :=
  marks[position]? = some .opening ∧
    ∀ stop ≤ marks.length, position < stop → level (marks.take position) < level (marks.take stop)

/-- What the delimiter at a position opens is the last opened of all that is open at the end. -/
def IsInnermost (marks : List Delimiter) (position : Nat) : Prop :=
  IsOpen marks position ∧ ∀ other < marks.length, IsOpen marks other → other ≤ position

instance (marks : List Delimiter) (position : Nat) : Decidable (IsOpen marks position) :=
  inferInstanceAs (Decidable (_ ∧ ∀ stop ≤ marks.length, _))

instance (marks : List Delimiter) (position : Nat) : Decidable (IsInnermost marks position) :=
  inferInstanceAs (Decidable (_ ∧ ∀ other < marks.length, _))

variable {marks : List Delimiter} {mark : Delimiter} {position other : Nat}

@[simp] theorem level_append (first second : List Delimiter) :
    level (first ++ second) = level first + level second := by
  simp only [level, List.count_append]
  omega

@[simp] theorem level_opening : level [.opening] = 1 :=
  rfl

@[simp] theorem level_closing : level [.closing] = -1 :=
  rfl

@[simp] theorem level_neutral : level [.neutral] = 0 :=
  rfl

/-- An open position is one of the marks. -/
theorem IsOpen.lt_length (isOpen : IsOpen marks position) : position < marks.length :=
  (List.getElem?_eq_some_iff.mp isOpen.1).1

/-- Before an open position the level is lower than at the end. -/
theorem IsOpen.level_lt (isOpen : IsOpen marks position) :
    level (marks.take position) < level marks := by
  have atEnd := isOpen.2 marks.length le_rfl isOpen.lt_length
  rwa [List.take_length] at atEnd

/-- At most one open position is the innermost. -/
theorem IsInnermost.unique
    (first : IsInnermost marks position)
    (second : IsInnermost marks other) :
    position = other :=
  le_antisymm (second.2 position first.1.lt_length first.1)
    (first.2 other second.1.lt_length second.1)

/-- After one more delimiter, what was open is open if the level stays above its own, and the
new one is if it opens. -/
theorem isOpen_append_iff :
    IsOpen (marks ++ [mark]) position ↔
      (IsOpen marks position ∧ level (marks.take position) < level (marks ++ [mark])) ∨
        (position = marks.length ∧ mark = .opening) := by
  have taken {stop : Nat} (inside : stop ≤ marks.length) :
      (marks ++ [mark]).take stop = marks.take stop :=
    List.take_append_of_le_length inside
  have whole : (marks ++ [mark]).take (marks.length + 1) = marks ++ [mark] :=
    List.take_of_length_le (by simp)
  constructor
  · intro isOpen
    have inside := isOpen.lt_length
    rw [List.length_append, List.length_singleton] at inside
    rcases Nat.lt_or_eq_of_le (Nat.le_of_lt_succ inside) with before | rfl
    · obtain ⟨opens, above⟩ := isOpen
      rw [List.getElem?_append_left before] at opens
      refine .inl ⟨⟨opens, ?_⟩, ?_⟩
      · intro stop stopInside behind
        have stays := above stop (by rw [List.length_append]; omega) behind
        rwa [taken before.le, taken stopInside] at stays
      · have stays := above (marks.length + 1) (by simp) (by omega)
        rwa [taken before.le, whole] at stays
    · have opens := isOpen.1
      rw [List.getElem?_concat_length, Option.some.injEq] at opens
      exact .inr ⟨rfl, opens⟩
  · rintro (⟨isOpen, atEnd⟩ | ⟨rfl, rfl⟩)
    · have before := isOpen.lt_length
      obtain ⟨opens, above⟩ := isOpen
      refine ⟨(List.getElem?_append_left before).trans opens, ?_⟩
      intro stop inside behind
      rw [taken before.le]
      rw [List.length_append, List.length_singleton] at inside
      rcases Nat.lt_or_eq_of_le inside with earlier | rfl
      · rw [taken (by omega)]
        exact above stop (by omega) behind
      · rwa [whole]
    · refine ⟨List.getElem?_concat_length, ?_⟩
      intro stop inside behind
      rw [List.length_append, List.length_singleton] at inside
      have atEnd : stop = marks.length + 1 := by
        omega
      rw [atEnd, List.take_left, whole, level_append, level_opening]
      omega

/-- What was opened and is no longer open was closed while it was the innermost. -/
theorem exists_closing
    (opens : marks[position]? = some .opening)
    (closed : ¬ IsOpen marks position) :
    ∃ stop, position < stop ∧ marks[stop]? = some .closing ∧
      IsInnermost (marks.take stop) position := by
  induction marks using List.reverseRecOn with
  | nil =>
      cases opens
  | append_singleton marks mark inductionHypothesis =>
      have inside := (List.getElem?_eq_some_iff.mp opens).1
      rw [List.length_append, List.length_singleton] at inside
      rcases Nat.lt_or_eq_of_le (Nat.le_of_lt_succ inside) with before | rfl
      · rw [List.getElem?_append_left before] at opens
        by_cases wasOpen : IsOpen marks position
        · have notAbove : ¬ level (marks.take position) < level (marks ++ [mark]) :=
            fun above => closed (isOpen_append_iff.mpr (.inl ⟨wasOpen, above⟩))
          have above := wasOpen.level_lt
          rw [level_append] at notAbove
          cases mark with
          | opening =>
              rw [level_opening] at notAbove
              omega
          | neutral =>
              rw [level_neutral] at notAbove
              omega
          | closing =>
              rw [level_closing] at notAbove
              refine ⟨marks.length, before, List.getElem?_concat_length, ?_⟩
              rw [List.take_left]
              refine ⟨wasOpen, ?_⟩
              intro other otherInside otherOpen
              by_contra later
              have aboveBoth := wasOpen.2 other otherInside.le (by omega)
              have stillAbove := otherOpen.level_lt
              omega
        · obtain ⟨stop, behind, closes, innermost⟩ := inductionHypothesis opens wasOpen
          have stopInside := (List.getElem?_eq_some_iff.mp closes).1
          refine ⟨stop, behind, ?_, ?_⟩
          · rw [List.getElem?_append_left stopInside, closes]
          · rwa [List.take_append_of_le_length stopInside.le]
      · rw [List.getElem?_concat_length, Option.some.injEq] at opens
        exact absurd (isOpen_append_iff.mpr (.inr ⟨rfl, opens⟩)) closed

section Stacks

/-- The positions of what is open at the end, the innermost first, if no delimiter closes more
than is open. -/
inductive Stack : List Delimiter → List Nat → Prop where
  | start : Stack [] []
  | opening {marks : List Delimiter} {opened : List Nat} (stack : Stack marks opened) :
      Stack (marks ++ [.opening]) (marks.length :: opened)
  | closing {marks : List Delimiter} {innermost : Nat} {outer : List Nat}
      (stack : Stack marks (innermost :: outer)) :
      Stack (marks ++ [.closing]) outer
  | neutral {marks : List Delimiter} {opened : List Nat} (stack : Stack marks opened) :
      Stack (marks ++ [.neutral]) opened

variable {opened : List Nat}

/-- The level is the count of what is open. -/
theorem Stack.level_eq (stack : Stack marks opened) : level marks = opened.length := by
  induction stack with
  | start =>
      rfl
  | opening _ inductionHypothesis =>
      rw [level_append, level_opening, inductionHypothesis, List.length_cons, Nat.cast_succ]
  | closing _ inductionHypothesis =>
      rw [level_append, level_closing, inductionHypothesis, List.length_cons, Nat.cast_succ]
      omega
  | neutral _ inductionHypothesis =>
      rw [level_append, level_neutral, inductionHypothesis, add_zero]

/-- What is open on a stack are positions of the marks. -/
theorem Stack.lt_length
    (stack : Stack marks opened)
    (member : position ∈ opened) :
    position < marks.length := by
  induction stack with
  | start =>
      cases member
  | opening _ inductionHypothesis =>
      rw [List.length_append, List.length_singleton]
      rcases List.mem_cons.mp member with rfl | inOuter
      · omega
      · have := inductionHypothesis inOuter
        omega
  | closing _ inductionHypothesis =>
      rw [List.length_append, List.length_singleton]
      have := inductionHypothesis (List.mem_cons_of_mem _ member)
      omega
  | neutral _ inductionHypothesis =>
      rw [List.length_append, List.length_singleton]
      have := inductionHypothesis member
      omega

/-- The innermost positions are on top of the stack. -/
theorem Stack.descending (stack : Stack marks opened) : opened.Pairwise (· > ·) := by
  induction stack with
  | start =>
      exact .nil
  | opening stack inductionHypothesis =>
      exact List.pairwise_cons.mpr ⟨fun _ member => stack.lt_length member, inductionHypothesis⟩
  | closing _ inductionHypothesis =>
      exact (List.pairwise_cons.mp inductionHypothesis).2
  | neutral _ inductionHypothesis =>
      exact inductionHypothesis

/-- The level in front of what is open is the count of what is open around it. -/
theorem Stack.level_take
    (stack : Stack marks opened)
    (inner : List Nat)
    {outer : List Nat}
    (split : opened = inner ++ position :: outer) :
    level (marks.take position) = outer.length := by
  induction stack generalizing inner with
  | start =>
      simp at split
  | @opening marks opened stack inductionHypothesis =>
      cases inner with
      | nil =>
          obtain ⟨rfl, rfl⟩ := List.cons.inj split
          rw [List.take_left, stack.level_eq]
      | cons first inner =>
          obtain ⟨rfl, rfl⟩ := List.cons.inj split
          have before : position < marks.length := stack.lt_length (by simp)
          rw [List.take_append_of_le_length before.le]
          exact inductionHypothesis inner rfl
  | @closing marks innermost outer stack inductionHypothesis =>
      have before : position < marks.length := stack.lt_length (by simp [split])
      rw [List.take_append_of_le_length before.le]
      exact inductionHypothesis (innermost :: inner) (by rw [split]; rfl)
  | @neutral marks opened stack inductionHypothesis =>
      have before : position < marks.length := stack.lt_length (by simp [split])
      rw [List.take_append_of_le_length before.le]
      exact inductionHypothesis inner split

/-- The stack holds exactly what is open. -/
theorem Stack.mem_iff (stack : Stack marks opened) :
    position ∈ opened ↔ IsOpen marks position := by
  induction stack with
  | start =>
      simp [IsOpen]
  | @opening marks opened stack inductionHypothesis =>
      have above (isOpen : IsOpen marks position) :
          level (marks.take position) < level (marks ++ [.opening]) := by
        have below := isOpen.level_lt
        rw [level_append, level_opening]
        omega
      rw [isOpen_append_iff, List.mem_cons, inductionHypothesis, and_iff_left_of_imp above,
        and_iff_left rfl, or_comm]
  | @closing marks innermost outer stack inductionHypothesis =>
      have total := stack.level_eq
      rw [List.length_cons, Nat.cast_succ] at total
      rw [isOpen_append_iff, ← inductionHypothesis, or_iff_left (fun both => nomatch both.2),
        level_append, level_closing, total, List.mem_cons]
      constructor
      · intro member
        obtain ⟨inner, around, rfl⟩ := List.append_of_mem member
        rw [stack.level_take (innermost :: inner) rfl]
        simp only [List.length_append, List.length_cons, Nat.cast_add, Nat.cast_succ]
        exact ⟨.inr member, by omega⟩
      · rintro ⟨rfl | member, above⟩
        · rw [stack.level_take [] rfl] at above
          omega
        · exact member
  | @neutral marks opened stack inductionHypothesis =>
      rw [isOpen_append_iff, inductionHypothesis, or_iff_left (fun both => nomatch both.2),
        level_append, level_neutral, add_zero, and_iff_left_of_imp IsOpen.level_lt]

/-- The first of the stack is the innermost. -/
theorem Stack.isInnermost_iff
    {innermost : Nat}
    {outer : List Nat}
    (stack : Stack marks (innermost :: outer)) :
    IsInnermost marks position ↔ position = innermost := by
  have isOpen := stack.mem_iff.mp List.mem_cons_self
  have least := (List.pairwise_cons.mp stack.descending).1
  constructor
  · rintro ⟨positionOpen, last⟩
    rcases List.mem_cons.mp (stack.mem_iff.mpr positionOpen) with rfl | member
    · rfl
    · have above := last innermost isOpen.lt_length isOpen
      have below := least position member
      omega
  · rintro rfl
    refine ⟨isOpen, ?_⟩
    intro other _ otherOpen
    rcases List.mem_cons.mp (stack.mem_iff.mpr otherOpen) with rfl | member
    · exact le_rfl
    · exact (least other member).le

end Stacks

section Trees

/-- The positions at which the level comes back to zero. -/
def returns (marks : List Delimiter) : List Nat :=
  (List.range marks.length).filter fun position =>
    marks[position]? = some .closing ∧ level (marks.take (position + 1)) = 0

/-- At no moment more was closed than opened. -/
def NeverBelow (marks : List Delimiter) : Prop :=
  ∀ stop ≤ marks.length, 0 ≤ level (marks.take stop)

instance (marks : List Delimiter) : Decidable (NeverBelow marks) :=
  inferInstanceAs (Decidable (∀ stop ≤ marks.length, _))

/-- Delimiters of one tree: as much is closed as is opened, and the level comes back to zero
once. -/
structure IsTree (marks : List Delimiter) : Prop where
  neverBelow : NeverBelow marks
  closed : level marks = 0
  once : (returns marks).length = 1

instance (marks : List Delimiter) : Decidable (IsTree marks) :=
  decidable_of_iff (_ ∧ _ ∧ _)
    ⟨fun ⟨neverBelow, closed, once⟩ => ⟨neverBelow, closed, once⟩,
      fun ⟨neverBelow, closed, once⟩ => ⟨neverBelow, closed, once⟩⟩

/-- Delimiters of a tree that was opened and is not closed: the level never comes back to
zero. -/
structure IsUnclosed (marks : List Delimiter) : Prop where
  neverBelow : NeverBelow marks
  above : 0 < level marks
  never : returns marks = []

instance (marks : List Delimiter) : Decidable (IsUnclosed marks) :=
  decidable_of_iff (_ ∧ _ ∧ _)
    ⟨fun ⟨neverBelow, above, never⟩ => ⟨neverBelow, above, never⟩,
      fun ⟨neverBelow, above, never⟩ => ⟨neverBelow, above, never⟩⟩

/-- A closing mark that comes down to the ground is one more return. -/
theorem returns_append :
    returns (marks ++ [mark]) =
      returns marks ++
        if mark = .closing ∧ level (marks ++ [mark]) = 0 then [marks.length] else [] := by
  have earlier :
      ∀ position ∈ List.range marks.length,
        decide ((marks ++ [mark])[position]? = some .closing ∧
            level ((marks ++ [mark]).take (position + 1)) = 0) =
          decide (marks[position]? = some .closing ∧
            level (marks.take (position + 1)) = 0) := by
    intro position member
    have inside := List.mem_range.mp member
    rw [List.getElem?_append_left inside, List.take_append_of_le_length inside]
  have whole : (marks ++ [mark]).take (marks.length + 1) = marks ++ [mark] :=
    List.take_of_length_le (by simp)
  rw [returns, List.length_append, List.length_singleton, List.range_succ, List.filter_append,
    List.filter_congr earlier, returns, List.filter_singleton, List.getElem?_concat_length, whole]
  simp only [Option.some.injEq, Bool.cond_decide]

/-- Marks never go below the ground if all but the last do not, nor the last. -/
theorem neverBelow_append_iff :
    NeverBelow (marks ++ [mark]) ↔ NeverBelow marks ∧ 0 ≤ level (marks ++ [mark]) := by
  constructor
  · intro neverBelow
    constructor
    · intro stop inside
      have before := neverBelow stop (by rw [List.length_append]; omega)
      rwa [List.take_append_of_le_length inside] at before
    · have atEnd := neverBelow _ le_rfl
      rwa [List.take_length] at atEnd
  · rintro ⟨neverBelow, atEnd⟩ stop inside
    rw [List.length_append, List.length_singleton] at inside
    rcases Nat.lt_or_eq_of_le inside with before | rfl
    · rw [List.take_append_of_le_length (by omega)]
      exact neverBelow stop (by omega)
    · rwa [List.take_of_length_le (by simp)]

/-- Delimiters that a tree starts with, or all of a tree: nothing opens once the level is back
at zero. -/
structure IsFront (marks : List Delimiter) : Prop where
  neverBelow : NeverBelow marks
  returned : returns marks ≠ [] → (returns marks).length = 1 ∧ level marks = 0

/-- Without its last mark a front is one as well. -/
theorem IsFront.of_append (front : IsFront (marks ++ [mark])) : IsFront marks := by
  refine ⟨(neverBelow_append_iff.mp front.neverBelow).1, ?_⟩
  intro returned
  have still : returns (marks ++ [mark]) ≠ [] := by
    rw [returns_append]
    exact List.append_ne_nil_of_left_ne_nil returned _
  obtain ⟨once, zero⟩ := front.returned still
  have positive := List.length_pos_of_ne_nil returned
  rw [returns_append, List.length_append] at once
  refine ⟨by omega, ?_⟩
  have notBelow := (neverBelow_append_iff.mp front.neverBelow).1 marks.length le_rfl
  rw [List.take_length] at notBelow
  cases mark with
  | opening =>
      rw [level_append, level_opening] at zero
      omega
  | neutral =>
      rwa [level_append, level_neutral, add_zero] at zero
  | closing =>
      -- Closing would be a second return.
      rw [if_pos ⟨rfl, zero⟩, List.length_singleton] at once
      omega

/-- A tree or an unclosed one is a front that has come up. -/
theorem isTree_or_isUnclosed_iff :
    IsTree marks ∨ IsUnclosed marks ↔
      IsFront marks ∧ (0 < level marks ∨ returns marks ≠ []) := by
  constructor
  · rintro (⟨neverBelow, closed, once⟩ | ⟨neverBelow, above, never⟩)
    · exact ⟨⟨neverBelow, fun _ => ⟨once, closed⟩⟩,
        .inr (List.ne_nil_of_length_pos (by omega))⟩
    · exact ⟨⟨neverBelow, fun returned => absurd never returned⟩, .inl above⟩
  · rintro ⟨⟨neverBelow, returned⟩, started⟩
    by_cases never : returns marks = []
    · have above := started.resolve_right (not_not.mpr never)
      exact .inr ⟨neverBelow, above, never⟩
    · obtain ⟨once, closed⟩ := returned never
      exact .inl ⟨neverBelow, closed, once⟩

end Trees

end Delimiter

end ApkAtlas
