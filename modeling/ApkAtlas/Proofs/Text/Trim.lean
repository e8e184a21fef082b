import ApkAtlas.Text.Blank
import Mathlib.Data.List.TakeWhile

namespace ApkAtlas.Text

/-!
# Laws of trimming

Trimming takes off characters at the ends of a text, up to the first that stays.
-/

variable {trims : Char → Bool}

theorem trimEndWhere_append
    {back : List Char}
    (trimmed : ∀ c ∈ back, trims c)
    (text : List Char) :
    trimEndWhere trims (text ++ back) = trimEndWhere trims text := by
  have reversed : ∀ c ∈ back.reverse, trims c :=
    fun c member => trimmed c (List.mem_reverse.mp member)
  rw [trimEndWhere, List.reverse_append, List.dropWhile_append_of_pos reversed, trimEndWhere]

/-- A character that stays keeps what is in front of it. -/
theorem trimEndWhere_append_cons
    {mark : Char}
    (stays : trims mark = false)
    (before after : List Char) :
    trimEndWhere trims (before ++ mark :: after) = before ++ mark :: trimEndWhere trims after := by
  have kept :
      (mark :: before.reverse).dropWhile trims = mark :: before.reverse :=
    List.dropWhile_cons_of_neg (by simp [stays])
  have shape : (before ++ mark :: after).reverse = after.reverse ++ mark :: before.reverse := by
    simp
  rw [trimEndWhere, shape, List.dropWhile_append, kept, trimEndWhere]
  split
  · rename_i noneLeft
    simp [List.isEmpty_iff.mp noneLeft]
  · simp

theorem trimEndWhere_eq_self
    {text : List Char}
    {last : Char}
    (ends : text.getLast? = some last)
    (stays : trims last = false) :
    trimEndWhere trims text = text := by
  obtain ⟨before, rfl⟩ := List.getLast?_eq_some_iff.mp ends
  exact trimEndWhere_append_cons stays before []

theorem mem_of_mem_trimEndWhere
    {text : List Char}
    {c : Char}
    (member : c ∈ trimEndWhere trims text) :
    c ∈ text := by
  rw [trimEndWhere, List.mem_reverse] at member
  exact List.mem_reverse.mp ((List.dropWhile_sublist trims).mem member)

/-- Blanks at the ends are cut off. -/
theorem strip_append_blank
    {front back : List Char}
    (frontBlank : ∀ c ∈ front, isBlank c)
    (backBlank : ∀ c ∈ back, isBlank c)
    (text : List Char) :
    strip (front ++ (text ++ back)) = strip text := by
  rw [strip, List.dropWhile_append_of_pos frontBlank, List.dropWhile_append]
  split
  · rename_i allBlank
    rw [strip, List.isEmpty_iff.mp allBlank, List.dropWhile_eq_nil_iff.mpr backBlank]
  · exact trimEndWhere_append backBlank _

/-- A text without blanks at its ends is left alone. -/
theorem strip_strip (text : List Char) : strip (strip text) = strip text := by
  let rest := text.dropWhile isBlank
  have ends : strip text ++ (rest.reverse.takeWhile isBlank).reverse = rest := by
    rw [strip, trimEndWhere, ← List.reverse_append, List.takeWhile_append_dropWhile,
      List.reverse_reverse]
  have whole :
      text.takeWhile isBlank ++ (strip text ++ (rest.reverse.takeWhile isBlank).reverse) =
        text := by
    rw [ends, List.takeWhile_append_dropWhile]
  have blank (part : List Char) : ∀ c ∈ part.takeWhile isBlank, isBlank c :=
    List.all_eq_true.mp List.all_takeWhile
  have cut := strip_append_blank (blank text)
    (fun c member => blank rest.reverse c (List.mem_reverse.mp member)) (strip text)
  rw [whole] at cut
  exact cut.symm

/-- Nothing is left of blanks. -/
theorem strip_of_forall_blank
    {text : List Char}
    (areBlank : ∀ c ∈ text, isBlank c) :
    strip text = [] := by
  have cut := strip_append_blank areBlank (List.forall_mem_nil _) []
  rwa [List.append_nil, List.append_nil] at cut

theorem strip_cons
    {first : Char}
    (notBlank : isBlank first = false)
    (rest : List Char) :
    strip (first :: rest) = first :: trimEndWhere isBlank rest := by
  rw [strip, List.dropWhile_cons_of_neg (by simp [notBlank])]
  exact trimEndWhere_append_cons notBlank [] rest

theorem strip_eq_self
    {text : List Char}
    {first last : Char}
    (opens : text.head? = some first)
    (firstNotBlank : isBlank first = false)
    (ends : text.getLast? = some last)
    (lastNotBlank : isBlank last = false) :
    strip text = text := by
  have noneDropped : text.dropWhile isBlank = text := by
    obtain ⟨rest, rfl⟩ := List.head?_eq_some_iff.mp opens
    rw [List.dropWhile_cons_of_neg (by simp [firstNotBlank])]
  rw [strip, noneDropped, trimEndWhere_eq_self ends lastNotBlank]

end ApkAtlas.Text
