import ApkAtlas.Text.Segment
import Mathlib.Data.List.TakeWhile

namespace ApkAtlas.Text

/-!
# Laws of cutting and joining

Segments are the pieces that `List.splitOn` gives. What is before the first separator and
what is after the last one are the outermost segments.
-/

/-- Segments are the pieces of the library's own way of splitting. -/
theorem segments_eq_splitOn (separator : Char) (text : List Char) :
    segments separator text = text.splitOn separator := by
  induction text with
  | nil =>
      simp [segments]
  | cons c rest inductionHypothesis =>
      rw [List.splitOn_cons_eq_if_modifyHead, segments, inductionHypothesis]
      by_cases same : c = separator
      · simp [same]
      · obtain ⟨piece, pieces, split⟩ :=
          List.exists_cons_of_ne_nil (List.splitOn_ne_nil separator rest)
        simp [same, split]

/-- A text without separators is one segment. -/
theorem segments_of_not_mem
    {separator : Char}
    {text : List Char}
    (absent : separator ∉ text) :
    segments separator text = [text] := by
  rw [segments_eq_splitOn, List.splitOn_eq_singleton absent]

/-- A separator divides the segments before it from those after it. -/
theorem segments_append_cons (separator : Char) (before after : List Char) :
    segments separator (before ++ separator :: after) =
      segments separator before ++ segments separator after := by
  simp only [segments_eq_splitOn]
  exact List.splitOn_append_cons_self before after

/-- Before the first separator stands what has none. -/
theorem beforeFirst_append_cons
    {separator : Char}
    {before : List Char}
    (absent : separator ∉ before)
    (after : List Char) :
    beforeFirst separator (before ++ separator :: after) = before := by
  have passes : ∀ c ∈ before, (c != separator) = true := by
    intro c member
    simpa using ne_of_mem_of_not_mem member absent
  rw [beforeFirst, List.takeWhile_append_of_pos passes]
  simp

theorem beforeFirst_of_not_mem
    {separator : Char}
    {text : List Char}
    (absent : separator ∉ text) :
    beforeFirst separator text = text := by
  rw [beforeFirst, List.takeWhile_eq_self_iff]
  intro c member
  simpa using ne_of_mem_of_not_mem member absent

/-- A text is cut at its first separator. -/
theorem cutFirst_append_cons
    {separator : Char}
    {before : List Char}
    (absent : separator ∉ before)
    (after : List Char) :
    cutFirst separator (before ++ separator :: after) = (before, some after) := by
  have cut := beforeFirst_append_cons absent after
  rw [beforeFirst] at cut
  rw [cutFirst, cut, List.drop_left]

/-- A text without separators is not cut. -/
theorem cutFirst_of_not_mem
    {separator : Char}
    {text : List Char}
    (absent : separator ∉ text) :
    cutFirst separator text = (text, none) := by
  have whole := beforeFirst_of_not_mem absent
  rw [beforeFirst] at whole
  rw [cutFirst, whole, List.drop_length]

/-- A text tells what is before its first separator and what is after it. -/
theorem append_cons_inj
    {separator : Char}
    {before otherBefore after otherAfter : List Char}
    (absent : separator ∉ before)
    (otherAbsent : separator ∉ otherBefore)
    (same : before ++ separator :: after = otherBefore ++ separator :: otherAfter) :
    before = otherBefore ∧ after = otherAfter := by
  have cut := congrArg (cutFirst separator) same
  rw [cutFirst_append_cons absent, cutFirst_append_cons otherAbsent] at cut
  simpa using cut

/-- After the last separator stands what has none. -/
theorem afterLast_append_cons
    {separator : Char}
    {after : List Char}
    (absent : separator ∉ after)
    (before : List Char) :
    afterLast separator (before ++ separator :: after) = after := by
  have reversed :=
    beforeFirst_append_cons (List.mem_reverse.not.mpr absent) before.reverse
  rw [afterLast, List.reverse_append, List.reverse_cons, List.append_assoc]
  rw [beforeFirst] at reversed
  simpa using congrArg List.reverse reversed

theorem afterLast_of_not_mem
    {separator : Char}
    {text : List Char}
    (absent : separator ∉ text) :
    afterLast separator text = text := by
  have reversed := beforeFirst_of_not_mem (List.mem_reverse.not.mpr absent)
  rw [beforeFirst] at reversed
  rw [afterLast, reversed, List.reverse_reverse]

/-- A text that has a separator has a last one. -/
theorem exists_last_separator
    {separator : Char}
    {text : List Char}
    (member : separator ∈ text) :
    ∃ before after, text = before ++ separator :: after ∧ separator ∉ after := by
  obtain ⟨after, before, reversed, absent⟩ :=
    List.eq_append_cons_of_mem (List.mem_reverse.mpr member)
  refine ⟨before.reverse, after.reverse, ?_, by simpa using absent⟩
  simpa using congrArg List.reverse reversed

/-- The first segment is what stands before the first separator. -/
theorem head?_segments (separator : Char) (text : List Char) :
    (segments separator text).head? = some (beforeFirst separator text) := by
  by_cases member : separator ∈ text
  · obtain ⟨before, after, rfl, absent⟩ := List.eq_append_cons_of_mem member
    rw [segments_append_cons, segments_of_not_mem absent, beforeFirst_append_cons absent]
    rfl
  · rw [segments_of_not_mem member, beforeFirst_of_not_mem member]
    rfl

/-- What is after the last separator is the last segment. -/
theorem getLast?_segments (separator : Char) (text : List Char) :
    (segments separator text).getLast? = some (afterLast separator text) := by
  by_cases member : separator ∈ text
  · obtain ⟨before, after, rfl, absent⟩ := exists_last_separator member
    rw [segments_append_cons, segments_of_not_mem absent, afterLast_append_cons absent]
    simp
  · rw [segments_of_not_mem member, afterLast_of_not_mem member]
    rfl

/-- No segment has the separator in it. -/
theorem not_mem_of_mem_segments
    {separator : Char}
    {text piece : List Char}
    (member : piece ∈ segments separator text) :
    separator ∉ piece := by
  induction text generalizing piece with
  | nil =>
      simp only [segments, List.mem_singleton] at member
      simp [member]
  | cons c rest inductionHypothesis =>
      by_cases same : c = separator
      · rw [segments, if_pos same] at member
        rcases List.mem_cons.mp member with rfl | inRest
        · exact List.not_mem_nil
        · exact inductionHypothesis inRest
      · obtain ⟨first, pieces, ofRest⟩ :=
          List.exists_cons_of_ne_nil (segments_ne_nil separator rest)
        simp only [ofRest] at inductionHypothesis
        simp only [segments, if_neg same, ofRest] at member
        rcases List.mem_cons.mp member with rfl | inPieces
        · rw [List.mem_cons, not_or]
          exact ⟨Ne.symm same, inductionHypothesis List.mem_cons_self⟩
        · exact inductionHypothesis (List.mem_cons_of_mem _ inPieces)

/-- What stands before the last separator is a part of the text. -/
theorem sublist_of_beforeLast?
    {separator : Char}
    {text before : List Char}
    (isBefore : beforeLast? separator text = some before) :
    before.Sublist text := by
  rw [beforeLast?] at isBefore
  split at isBefore
  · cases isBefore
  · rename_i c reversed ofText
    cases isBefore
    have inReversed : reversed.Sublist text.reverse := by
      apply List.Sublist.trans _ (List.dropWhile_sublist (· != separator))
      rw [ofText]
      exact List.sublist_cons_self c reversed
    simpa using inReversed.reverse

/-- Joining the pieces of a split text gives it back. -/
theorem join_split (separator : Char) (text : String) :
    (String.ofList [separator]).intercalate (split separator text) = text := by
  apply String.toList_injective
  rw [String.toList_intercalate, split, List.map_map, String.toList_ofList]
  have same : (String.toList ∘ String.ofList) = id := by
    funext chars
    simp
  rw [same, List.map_id, intercalate_segments]

/-- Splitting joined pieces gives them back, if no piece has the separator in it. -/
theorem split_join
    {separator : Char}
    {pieces : List String}
    (nonempty : pieces ≠ [])
    (clear : ∀ piece ∈ pieces, separator ∉ piece.toList) :
    split separator ((String.ofList [separator]).intercalate pieces) = pieces := by
  have clearTexts : ∀ text ∈ pieces.map String.toList, separator ∉ text := by
    simpa using clear
  rw [split, String.toList_intercalate, String.toList_ofList, segments_eq_splitOn,
    List.splitOn_intercalate separator clearTexts (by simpa using nonempty), List.map_map]
  simp

end ApkAtlas.Text
