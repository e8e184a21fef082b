import ApkAtlas.Table
import Mathlib.Data.List.Induction
import Mathlib.Data.List.Nodup

namespace ApkAtlas.Table

/-!
# Laws of tables

Keys that are different stay different, and an entry is then what is found under its key.
Putting entries one after another leaves the last one of each key, and each of them once, in
the place of its first occurrence, provided that entries under one key are the same. Where
the entries are lists, items are lost exactly if a key comes again.
-/

variable {Key Value : Type} [DecidableEq Key]

/-- A key that is not in a table has no value. -/
theorem get?_eq_none_of_not_mem
    {key : Key}
    {table : List (Key × Value)}
    (absent : key ∉ table.map Prod.fst) :
    get? key table = none := by
  induction table with
  | nil =>
      rfl
  | cons first rest inductionHypothesis =>
      rcases first with ⟨known, value⟩
      simp only [List.map_cons, List.mem_cons, not_or] at absent
      rw [get?, if_neg (Ne.symm absent.1), inductionHypothesis absent.2]

/-- The value of a key stands beside it. -/
theorem mem_of_get?
    {key : Key}
    {value : Value}
    {table : List (Key × Value)}
    (found : get? key table = some value) :
    (key, value) ∈ table := by
  induction table with
  | nil =>
      cases found
  | cons first rest inductionHypothesis =>
      rcases first with ⟨known, old⟩
      by_cases same : known = key
      · rw [get?, if_pos same] at found
        cases found
        exact same ▸ List.mem_cons_self
      · rw [get?, if_neg same] at found
        exact List.mem_cons_of_mem _ (inductionHypothesis found)

theorem mem_keys_iff
    {key : Key}
    {table : List (Key × Value)} :
    key ∈ table.map Prod.fst ↔ get? key table ≠ none := by
  refine ⟨fun member missing => ?_, fun found => ?_⟩
  · induction table with
    | nil =>
        cases member
    | cons first rest inductionHypothesis =>
        rw [get?] at missing
        split at missing
        · cases missing
        · rename_i other
          rw [List.map_cons, List.mem_cons] at member
          exact inductionHypothesis (member.resolve_left (Ne.symm other)) missing
  · obtain ⟨value, isSome⟩ := Option.ne_none_iff_exists'.mp found
    exact List.mem_map_of_mem (mem_of_get? isSome)

/-- Where keys are different, every entry is found under its key. -/
theorem get?_eq_some_iff
    {key : Key}
    {value : Value}
    {table : List (Key × Value)}
    (different : (table.map Prod.fst).Nodup) :
    get? key table = some value ↔ (key, value) ∈ table := by
  refine ⟨mem_of_get?, fun member => ?_⟩
  obtain ⟨other, found⟩ :=
    Option.ne_none_iff_exists'.mp (mem_keys_iff.mp (List.mem_map_of_mem member))
  have same := List.inj_on_of_nodup_map different (mem_of_get? found) member rfl
  rw [found, (Prod.mk.inj same).2]

/-- A new key comes behind the others, and a known one stays in its place. -/
theorem keys_put
    (key : Key)
    (value : Value)
    (table : List (Key × Value)) :
    (put key value table).map Prod.fst =
      if key ∈ table.map Prod.fst then table.map Prod.fst
      else table.map Prod.fst ++ [key] := by
  induction table with
  | nil =>
      rfl
  | cons first rest inductionHypothesis =>
      rcases first with ⟨known, old⟩
      by_cases same : known = key
      · simp [put, same]
      · rw [put, if_neg same, List.map_cons, inductionHypothesis]
        by_cases member : key ∈ rest.map Prod.fst
        · simp [member]
        · simp [member, Ne.symm same]

/-- A key that is there gets the value in its place. -/
theorem put_eq_map
    {table : List (Key × Value)}
    (different : (table.map Prod.fst).Nodup)
    {key : Key}
    (member : key ∈ table.map Prod.fst)
    (value : Value) :
    put key value table =
      table.map fun entry => if entry.1 = key then (key, value) else entry := by
  induction table with
  | nil =>
      cases member
  | cons first rest inductionHypothesis =>
      rcases first with ⟨known, old⟩
      rw [List.map_cons, List.nodup_cons] at different
      by_cases same : known = key
      · subst same
        have others : (rest.map fun entry => if entry.1 = known then (known, value) else entry) =
            rest := by
          apply (List.map_congr_left _).trans (List.map_id' rest)
          intro entry inRest
          have other : entry.1 ≠ known := by
            intro again
            have inKeys : entry.1 ∈ rest.map Prod.fst := List.mem_map_of_mem inRest
            exact different.1 (again ▸ inKeys)
          rw [if_neg other]
        rw [put, if_pos rfl, List.map_cons, others, if_pos rfl]
      · rw [List.map_cons, List.mem_cons] at member
        have inRest := member.resolve_left (Ne.symm same)
        rw [put, if_neg same, List.map_cons, if_neg same, inductionHypothesis different.2 inRest]

theorem nodup_put
    {table : List (Key × Value)}
    (different : (table.map Prod.fst).Nodup)
    (key : Key)
    (value : Value) :
    ((put key value table).map Prod.fst).Nodup := by
  rw [keys_put]
  split
  · exact different
  · rename_i absent
    rw [← List.concat_eq_append, List.nodup_concat]
    exact ⟨absent, different⟩

theorem nodup_erase
    {table : List (Key × Value)}
    (different : (table.map Prod.fst).Nodup)
    (key : Key) :
    ((erase key table).map Prod.fst).Nodup :=
  different.sublist (List.filter_sublist.map Prod.fst)

/-- An entry whose key has no other entry is put again without a change. -/
theorem put_of_mem
    {entry : Key × Value}
    {table : List (Key × Value)}
    (member : entry ∈ table)
    (only : ∀ other ∈ table, other.1 = entry.1 → other = entry) :
    put entry.1 entry.2 table = table := by
  induction table with
  | nil =>
      cases member
  | cons first rest inductionHypothesis =>
      obtain ⟨ofFirst, ofRest⟩ := List.forall_mem_cons.mp only
      rcases first with ⟨known, old⟩
      by_cases same : known = entry.1
      · rw [put, if_pos same, ofFirst same]
      · rw [put, if_neg same]
        rcases List.mem_cons.mp member with rfl | inRest
        · exact absurd rfl same
        · rw [inductionHypothesis inRest ofRest]

/-- Entries under different keys are put one behind another. -/
theorem foldl_put_of_nodup
    {entries : List (Key × Value)}
    (different : (entries.map Prod.fst).Nodup) :
    entries.foldl (fun table entry => put entry.1 entry.2 table) [] = entries := by
  induction entries using List.reverseRecOn with
  | nil =>
      rfl
  | append_singleton earlier entry inductionHypothesis =>
      rw [List.map_append, List.map_singleton, ← List.concat_eq_append,
        List.nodup_concat] at different
      obtain ⟨absent, differentEarlier⟩ := different
      rw [List.foldl_append, inductionHypothesis differentEarlier]
      exact put_of_get?_eq_none (get?_eq_none_of_not_mem absent) entry.2

/-- Entries under one key being the same, putting them all leaves each once. -/
theorem foldl_put_eq_eraseDups
    [BEq Value]
    [LawfulBEq Value]
    {entries : List (Key × Value)}
    (consistent : entries.Pairwise fun first second => first.1 = second.1 → first = second) :
    entries.foldl (fun table entry => put entry.1 entry.2 table) [] = entries.eraseDups := by
  induction entries using List.reverseRecOn with
  | nil =>
      rfl
  | append_singleton earlier entry inductionHypothesis =>
      rw [List.pairwise_append] at consistent
      obtain ⟨ofEarlier, _, ofBoth⟩ := consistent
      have only (other : Key × Value) (member : other ∈ earlier) :
          other.1 = entry.1 → other = entry :=
        ofBoth other member entry List.mem_cons_self
      rw [List.foldl_append, inductionHypothesis ofEarlier, List.eraseDups_append]
      by_cases member : entry ∈ earlier
      · have again : [entry].removeAll earlier = [] := by
          simp [List.removeAll, member]
        rw [again, List.eraseDups_nil, List.append_nil]
        apply put_of_mem (List.mem_eraseDups.mpr member)
        intro other inEarlier
        exact only other (List.mem_eraseDups.mp inEarlier)
      · have new : [entry].removeAll earlier = [entry] := by
          simp [List.removeAll, member]
        have absent : entry.1 ∉ earlier.eraseDups.map Prod.fst := by
          intro inKeys
          obtain ⟨other, inEarlier, sameKey⟩ := List.mem_map.mp inKeys
          have otherMember := List.mem_eraseDups.mp inEarlier
          rw [only other otherMember sameKey] at otherMember
          exact member otherMember
        rw [new]
        exact put_of_get?_eq_none (get?_eq_none_of_not_mem absent) entry.2

/-- What is found under a key is what was put under it last. -/
theorem get?_foldl_put
    (key : Key)
    (entries : List (Key × Value)) :
    get? key (entries.foldl (fun table entry => put entry.1 entry.2 table) []) =
      (entries.reverse.find? fun entry => decide (entry.1 = key)).map Prod.snd := by
  induction entries using List.reverseRecOn with
  | nil =>
      rfl
  | append_singleton earlier entry inductionHypothesis =>
      rw [List.foldl_append, List.reverse_append, List.reverse_singleton, List.singleton_append]
      by_cases same : entry.1 = key
      · subst same
        rw [List.find?_cons_of_pos (by simp)]
        exact get?_put_self _ _ _
      · rw [List.find?_cons_of_neg (by simpa using same), ← inductionHypothesis]
        exact get?_put_of_ne (Ne.symm same) _ _

/-- Of lists under keys, the one that is put takes the place of the one that was there. -/
theorem length_flatMap_put
    (key : Key)
    (items : List Value)
    (table : List (Key × List Value)) :
    ((put key items table).flatMap Prod.snd).length + ((get? key table).getD []).length =
      (table.flatMap Prod.snd).length + items.length := by
  induction table with
  | nil =>
      simp [put, get?]
  | cons first rest inductionHypothesis =>
      obtain ⟨known, old⟩ := first
      by_cases same : known = key
      · simp only [put, get?, same, if_true, List.flatMap_cons, List.length_append,
          Option.getD_some]
        omega
      · rw [put, if_neg same, get?, if_neg same, List.flatMap_cons, List.flatMap_cons,
          List.length_append, List.length_append]
        omega

/-- No item of lists that are put under keys is lost exactly if the keys are different. -/
theorem length_flatMap_foldl_put
    {entries : List (Key × List Value)}
    (some_items : ∀ entry ∈ entries, entry.2 ≠ []) :
    let table := entries.foldl (fun table entry => put entry.1 entry.2 table) []
    (table.flatMap Prod.snd).length ≤ (entries.flatMap Prod.snd).length ∧
      ((table.flatMap Prod.snd).length = (entries.flatMap Prod.snd).length ↔
        (entries.map Prod.fst).Nodup) := by
  induction entries using List.reverseRecOn with
  | nil =>
      simp
  | append_singleton earlier entry inductionHypothesis =>
      obtain ⟨bounded, whole⟩ :=
        inductionHypothesis fun other member => some_items other (List.mem_append_left _ member)
      have replaced :=
        length_flatMap_put entry.1 entry.2
          (earlier.foldl (fun table entry => put entry.1 entry.2 table) [])
      rw [get?_foldl_put] at replaced
      have different :
          (earlier.map Prod.fst ++ [entry.1]).Nodup ↔
            entry.1 ∉ earlier.map Prod.fst ∧ (earlier.map Prod.fst).Nodup := by
        rw [← List.concat_eq_append, List.nodup_concat]
      rw [List.foldl_append, List.flatMap_append, List.map_append, List.map_singleton,
        different, ← whole]
      simp only [List.foldl_cons, List.foldl_nil, List.flatMap_singleton, List.length_append]
      by_cases known : entry.1 ∈ earlier.map Prod.fst
      · obtain ⟨other, found⟩ :
            ∃ other,
              (earlier.reverse.find? fun other => decide (other.1 = entry.1)) = some other := by
          rw [← Option.isSome_iff_exists, List.find?_isSome]
          obtain ⟨other, member, sameKey⟩ := List.mem_map.mp known
          exact ⟨other, List.mem_reverse.mpr member, by simpa using sameKey⟩
        have inEarlier := List.mem_reverse.mp (List.mem_of_find?_eq_some found)
        have positive :=
          List.length_pos_iff.mpr (some_items other (List.mem_append_left _ inEarlier))
        rw [found, Option.map_some, Option.getD_some] at replaced
        refine ⟨by omega, ⟨fun equal => by omega, fun both => absurd known both.1⟩⟩
      · have none : (earlier.reverse.find? fun other => decide (other.1 = entry.1)) = none := by
          rw [List.find?_eq_none]
          intro other member sameKey
          apply known
          rw [← of_decide_eq_true sameKey]
          exact List.mem_map_of_mem (List.mem_reverse.mp member)
        rw [none, Option.map_none, Option.getD_none, List.length_nil] at replaced
        simp only [known, not_false_eq_true, true_and]
        omega

end ApkAtlas.Table
