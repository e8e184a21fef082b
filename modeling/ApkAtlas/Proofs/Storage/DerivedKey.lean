import ApkAtlas.Proofs.Storage.RegularKey

namespace ApkAtlas

/-!
# Where keys of packages lead

The key of the report on a package is the stem of the package's name, a slash, and digits with
the ending of reports. Cleaning can only change the stem, so the file always has a name that
ends as the key does. The names that lead there give the key back exactly if cleaning leaves
the stem alone.
-/

namespace Text

theorem withoutDouble_cons_of_ne
    {twin c : Char}
    (other : c ≠ twin)
    (rest : List Char) :
    withoutDouble twin (c :: rest) = c :: withoutDouble twin rest := by
  cases rest with
  | nil =>
      rfl
  | cons second more =>
      rw [withoutDouble, if_neg fun twins => other twins.1]

/-- Pairs are taken out on both sides of another character. -/
theorem withoutDouble_append_cons
    {twin c : Char}
    (other : c ≠ twin)
    (before after : List Char) :
    withoutDouble twin (before ++ c :: after) =
      withoutDouble twin before ++ c :: withoutDouble twin after := by
  fun_induction withoutDouble twin before with
  | case1 first second rest twins inductionHypothesis =>
      rw [List.cons_append, List.cons_append, withoutDouble, if_pos twins, inductionHypothesis]
  | case2 first second rest notTwins inductionHypothesis =>
      rw [List.cons_append, List.cons_append, withoutDouble, if_neg notTwins,
        ← List.cons_append, inductionHypothesis, List.cons_append]
  | case3 short isShort =>
      rcases short with _ | ⟨first, _ | ⟨second, rest⟩⟩
      · exact withoutDouble_cons_of_ne other after
      · rw [List.singleton_append, withoutDouble, if_neg fun twins => other twins.2,
          withoutDouble_cons_of_ne other]
        rfl
      · exact absurd rfl (isShort first second rest)

/-- Taking pairs out leaves the other characters in their order. -/
theorem withoutDouble_sublist (twin : Char) (text : List Char) :
    (withoutDouble twin text).Sublist text := by
  fun_induction withoutDouble twin text with
  | case1 first second rest _ inductionHypothesis =>
      exact (inductionHypothesis.cons second).cons first
  | case2 first second rest _ inductionHypothesis =>
      exact inductionHypothesis.cons_cons first
  | case3 short _ =>
      exact List.Sublist.refl short

/-- Where nothing is taken out, there is no pair. -/
theorem not_isInfix_of_withoutDouble
    {twin : Char}
    {text : List Char}
    (same : withoutDouble twin text = text) :
    ¬ [twin, twin] <:+: text := by
  fun_induction withoutDouble twin text with
  | case1 first second rest _ _ =>
      have shorter := (withoutDouble_sublist twin rest).length_le
      rw [same, List.length_cons, List.length_cons] at shorter
      omega
  | case2 first second rest notTwins inductionHypothesis =>
      intro isInfix
      rcases List.infix_cons_iff.mp isInfix with ⟨after, whole⟩ | inRest
      · obtain ⟨isFirst, whole⟩ := List.cons.inj whole
        obtain ⟨isSecond, -⟩ := List.cons.inj whole
        exact notTwins ⟨isFirst.symm, isSecond.symm⟩
      · exact inductionHypothesis (List.cons.inj same).2 inRest
  | case3 short isShort =>
      intro isInfix
      have length := isInfix.length_le
      rcases short with _ | ⟨first, _ | ⟨second, rest⟩⟩
      · simp at length
      · simp at length
      · exact isShort first second rest rfl

end Text

/-- A path with a name in front does not start at the root. -/
theorem FilePath.rootSlashesOf_append
    {front : List Char}
    (named : front ≠ [])
    (noSlash : '/' ∉ front)
    (rest : List Char) :
    rootSlashesOf (front ++ rest) = 0 := by
  apply rootSlashesOf_eq_zero
  obtain ⟨c, more, rfl⟩ := List.exists_cons_of_ne_nil named
  rintro _ ⟨⟩
  exact fun same => noSlash (same ▸ List.mem_cons_self)

namespace ReportKey

open FilePath (namesOf)

/-- A text is plain exactly if cleaning leaves it as it is. -/
theorem plain_iff_clean_eq {text : String} : Plain text ↔ clean text = text.toList := by
  refine ⟨Plain.clean_eq, fun same => ?_⟩
  -- Each step takes characters out, so none does where the length stays.
  let front := text.toList.dropWhile fun c => c == '/' || c == '\\'
  have ofFront : front.Sublist text.toList := List.dropWhile_sublist _
  have ofPairs : (Text.withoutDouble '.' front).Sublist front := Text.withoutDouble_sublist _ _
  have ofColons : (clean text).Sublist (Text.withoutDouble '.' front) := List.filter_sublist
  have length : (clean text).length = text.toList.length := congrArg List.length same
  have frontLength := ofFront.length_le
  have pairsLength := ofPairs.length_le
  have colonsLength := ofColons.length_le
  have sameFront : front = text.toList := ofFront.eq_of_length_le (by omega)
  have samePairs : Text.withoutDouble '.' front = front := ofPairs.eq_of_length_le (by omega)
  refine ⟨?_, ?_, ?_⟩
  · rw [← sameFront]
    exact Text.not_isInfix_of_withoutDouble samePairs
  · intro member
    rw [← same, clean, List.mem_filter] at member
    simpa using member.2
  · intro c first
    cases whole : text.toList with
    | nil =>
        rw [whole] at first
        cases first
    | cons d rest =>
        rw [whole] at first
        cases first
        have stays := List.dropWhile_eq_self_iff.mp sameFront (by rw [whole]; simp)
        simpa [whole] using stays

/-- How the keys of packages end: one name, which cleaning leaves as it is. -/
structure Ending (ending : List Char) : Prop where
  opening : ∃ c rest, ending = c :: rest ∧ c ∉ ['/', '\\', '.']
  noSlash : '/' ∉ ending
  noBackslash : '\\' ∉ ending
  noColon : ':' ∉ ending
  noPair : ¬ ['.', '.'] <:+: ending

/-- The last segment of a key is an ending. -/
structure EndsIn (key : String) (stem ending : List Char) : Prop where
  whole : key.toList = stem ++ '/' :: ending
  noSlash : '/' ∉ stem
  isEnding : Ending ending

variable {key : String} {stem ending : List Char} {base : List String}

/-- What has an ending is a name. -/
theorem Ending.name_ne
    (isEnding : Ending ending)
    {name : String}
    (ends : ending <:+ name.toList) :
    name ≠ "" ∧ name ≠ "." ∧ name ≠ ".." := by
  obtain ⟨c, rest, rfl, ordinary⟩ := isEnding.opening
  have member : c ∈ name.toList := ends.subset List.mem_cons_self
  have noDot : c ≠ '.' := by
    rintro rfl
    exact ordinary (by decide)
  refine ⟨?_, ?_, ?_⟩ <;>
  · rintro rfl
    simp [noDot] at member

theorem Ending.ofList_ne
    (isEnding : Ending ending) :
    String.ofList ending ≠ "" ∧ String.ofList ending ≠ "." ∧ String.ofList ending ≠ ".." := by
  apply isEnding.name_ne
  rw [String.toList_ofList]

/-- An ending is a single name. -/
theorem Ending.namesOf_eq
    (isEnding : Ending ending) :
    namesOf (String.ofList ending) = [String.ofList ending] := by
  obtain ⟨named, noDot, -⟩ := isEnding.ofList_ne
  rw [FilePath.namesOf_of_not_mem (by simpa using isEnding.noSlash),
    if_neg (by simp [named, noDot])]

/-- Names before a slash do not depend on what follows it. -/
theorem namesOf_append_slash
    (before : List Char)
    (isEnding : Ending ending) :
    namesOf (String.ofList (before ++ '/' :: ending)) =
      namesOf (String.ofList before) ++ [String.ofList ending] := by
  rw [← isEnding.namesOf_eq]
  simp only [namesOf, Text.split, String.toList_ofList, Text.segments_append_cons, List.map_append,
    List.filter_append]

/-- Cleaning a key takes out all of its stem with the slash, or something of the stem. -/
theorem EndsIn.clean_cases (ends : EndsIn key stem ending) :
    clean key = ending ∨
      ∃ cleaned, cleaned.Sublist stem ∧ clean key = cleaned ++ '/' :: ending := by
  obtain ⟨whole, -, ⟨c, rest, isFirst, ordinary⟩, -, -, noColon, noPair⟩ := ends
  have front : (ending.dropWhile fun c => c == '/' || c == '\\') = ending := by
    rw [isFirst, List.dropWhile_cons_of_neg]
    simp at ordinary
    simp [ordinary]
  have pairs : Text.withoutDouble '.' ending = ending := Text.withoutDouble_eq_self noPair
  have colons : ending.filter (· ≠ ':') = ending := by
    rw [List.filter_eq_self]
    intro c member
    rw [decide_eq_true_eq]
    rintro rfl
    exact noColon member
  rw [clean, whole, List.dropWhile_append]
  split
  · left
    rw [List.dropWhile_cons_of_pos (by decide), front, pairs, colons]
  · right
    let kept := stem.dropWhile fun c => c == '/' || c == '\\'
    refine ⟨(Text.withoutDouble '.' kept).filter (· ≠ ':'), ?_, ?_⟩
    · exact (List.filter_sublist.trans (Text.withoutDouble_sublist _ _)).trans
        (List.dropWhile_sublist _)
    · rw [Text.withoutDouble_append_cons (by decide), pairs, List.filter_append,
        List.filter_cons_of_pos (by decide), colons]

/-- Cleaning a key keeps its ending. -/
theorem EndsIn.isSuffix_clean (ends : EndsIn key stem ending) : ending <:+ clean key := by
  rcases ends.clean_cases with whole | ⟨cleaned, -, whole⟩
  · rw [whole]
  · rw [whole, List.append_cons]
    exact List.suffix_append _ _

theorem EndsIn.clean_ne (ends : EndsIn key stem ending) : clean key ≠ twoDots := by
  intro same
  have inName : ending <:+ (String.ofList (clean key)).toList := by
    rw [String.toList_ofList]
    exact ends.isSuffix_clean
  apply (ends.isEnding.name_ne inName).2.2
  rw [same]
  rfl

/-- An ending has no separators to replace. -/
theorem Ending.flattened_eq (isEnding : Ending ending) : flattened ending = ending := by
  rw [flattened]
  conv_rhs => rw [← List.map_id ending]
  apply List.map_congr_left
  intro c member
  have noSlash : c ≠ '/' := fun same => isEnding.noSlash (same ▸ member)
  have noBackslash : c ≠ '\\' := fun same => isEnding.noBackslash (same ▸ member)
  simp [noSlash, noBackslash]

/-- A key that would lead out of the base directory becomes one name with the same ending. -/
theorem EndsIn.exists_name_of_leaving
    (ends : EndsIn key stem ending)
    (leaving :
      let path := FilePath.ofText (String.ofList (clean key))
      ¬ base <+: FilePath.follow (if path.rootSlashes = 0 then base else []) path.names) :
    ∃ name, names base key = [name] ∧ ending <:+ name.toList ∧ '/' ∉ name.toList := by
  have noSlash : '/' ∉ (String.ofList (flattened (clean key))).toList := by
    rw [String.toList_ofList]
    exact slash_not_mem_flattened _
  have inName : ending <:+ (String.ofList (flattened (clean key))).toList := by
    rw [String.toList_ofList, ← ends.isEnding.flattened_eq]
    exact ends.isSuffix_clean.map _
  obtain ⟨named, noDot, -⟩ := ends.isEnding.name_ne inName
  refine ⟨_, ?_, inName, noSlash⟩
  rw [names_of_leaving leaving, FilePath.namesOf_of_not_mem noSlash,
    if_neg (by simp [named, noDot])]

/-- A key leads through the stem that cleaning leaves, or to a name that is at most right below
the base directory. -/
theorem EndsIn.place_cases
    (ends : EndsIn key stem ending)
    (base : List String) :
    (∃ cleaned,
      clean key = cleaned ++ '/' :: ending ∧
        names base key = [String.ofList cleaned, String.ofList ending] ∧
          String.ofList cleaned ≠ "" ∧ String.ofList cleaned ≠ ".") ∨
      ∃ front last,
        base ++ names base key = front ++ [last] ∧ front.length ≤ base.length ∧
          ending <:+ last.toList ∧ '/' ∉ last.toList := by
  by_cases staying :
      base <+: FilePath.follow
        (if (FilePath.ofText (String.ofList (clean key))).rootSlashes = 0 then base else [])
        (FilePath.ofText (String.ofList (clean key))).names
  case neg =>
    obtain ⟨name, isNames, inName, noSlash⟩ := ends.exists_name_of_leaving staying
    exact .inr ⟨base, name, by rw [isNames], le_rfl, inName, noSlash⟩
  case pos =>
    have place := append_names_of_staying staying
    simp only [FilePath.ofText, String.toList_ofList] at place
    generalize isStart : (if FilePath.rootSlashesOf (clean key) = 0 then base else []) = start
      at place
    have startLength : start.length ≤ base.length := by
      rw [← isStart]
      split <;> simp
    have isName : ".." ∉ [String.ofList ending] := by
      simpa using ends.isEnding.ofList_ne.2.2.symm
    have itself : ending <:+ (String.ofList ending).toList ∧
        '/' ∉ (String.ofList ending).toList := by
      rw [String.toList_ofList]
      exact ⟨List.suffix_refl _, ends.isEnding.noSlash⟩
    rcases ends.clean_cases with whole | ⟨cleaned, inStem, whole⟩
    · right
      rw [whole, ends.isEnding.namesOf_eq, FilePath.follow_of_not_mem isName] at place
      exact ⟨start, _, place, startLength, itself⟩
    · have noSlash : '/' ∉ cleaned := fun member => ends.noSlash (inStem.subset member)
      rw [whole, namesOf_append_slash cleaned ends.isEnding, FilePath.follow_append,
        FilePath.follow_of_not_mem isName,
        FilePath.namesOf_of_not_mem (by rwa [String.toList_ofList])] at place
      -- What is left of the stem says nothing, leads back, or is a name on the way.
      by_cases idle : String.ofList cleaned = "" ∨ String.ofList cleaned = "."
      · rw [if_pos idle] at place
        exact .inr ⟨start, _, place, startLength, itself⟩
      · rw [if_neg idle] at place
        obtain ⟨notEmpty, noDot⟩ := not_or.mp idle
        by_cases returns : String.ofList cleaned = ".."
        · rw [returns] at place
          refine .inr ⟨_, _, place, ?_, itself⟩
          simp only [FilePath.follow, if_true, List.length_dropLast]
          omega
        · have named : cleaned ≠ [] := by
            rintro rfl
            exact notEmpty rfl
          rw [whole, if_pos (FilePath.rootSlashesOf_append named noSlash _)] at isStart
          rw [FilePath.follow_of_not_mem (by simpa using Ne.symm returns), ← isStart,
            List.append_assoc] at place
          exact .inl ⟨cleaned, whole, List.append_cancel_left place, notEmpty, noDot⟩

/-- The last name that a key leads to has its ending. -/
theorem EndsIn.exists_place
    (ends : EndsIn key stem ending)
    (base : List String) :
    ∃ front last, base ++ names base key = front ++ [last] ∧ ending <:+ last.toList := by
  rcases ends.place_cases base with ⟨cleaned, -, place, -⟩ | ⟨front, last, place, -, inName, -⟩
  · refine ⟨base ++ [String.ofList cleaned], String.ofList ending, ?_, ?_⟩
    · rw [place, List.append_assoc, List.singleton_append]
    · rw [String.toList_ofList]
  · exact ⟨front, last, place, inName⟩

/-- A stem that cleaning leaves as it is and that is a name on the way. -/
structure PlainStem (stem : String) : Prop where
  plain : Plain stem
  named : stem ≠ "" ∧ stem ≠ "."

/-- A key with an ending is plain exactly if its stem is. -/
theorem EndsIn.plain_iff
    {stem : String}
    (ends : EndsIn key stem.toList ending)
    (named : stem ≠ "") :
    Plain key ↔ Plain stem := by
  obtain ⟨c, rest, isFirst⟩ :=
    List.exists_cons_of_ne_nil fun none : stem.toList = [] => named (by simpa using none)
  have whole := ends.whole
  constructor
  · rintro ⟨noPair, noColon, front⟩
    rw [whole] at noPair noColon front
    refine ⟨?_, ?_, ?_⟩
    · exact fun isInfix => noPair (isInfix.trans (List.prefix_append _ _).isInfix)
    · exact fun member => noColon (List.mem_append_left _ member)
    · rw [isFirst] at front ⊢
      exact front
  · rintro ⟨noPair, noColon, front⟩
    refine ⟨?_, ?_, ?_⟩
    · rw [whole]
      exact Text.not_isInfix_append_cons (by decide) noPair ends.isEnding.noPair
    · simp [whole, noColon, ends.isEnding.noColon]
    · rw [isFirst] at front
      rw [whole, isFirst]
      exact front

/-- A key with a plain stem leads to its stem and its ending. -/
theorem EndsIn.names_eq
    {stem : String}
    (ends : EndsIn key stem.toList ending)
    (plainStem : PlainStem stem)
    (base : List String) :
    names base key = [stem, String.ofList ending] := by
  have plain : Plain key := (ends.plain_iff plainStem.named.1).mpr plainStem.plain
  have whole : key = String.ofList (stem.toList ++ '/' :: ending) := by
    rw [← ends.whole, String.ofList_toList]
  rw [plain.names_eq, whole, namesOf_append_slash _ ends.isEnding, String.ofList_toList,
    FilePath.namesOf_of_not_mem ends.noSlash, if_neg (by simp [plainStem.named])]
  rfl

theorem toList_relativeText_pair (first second : String) :
    (ReportStore.relativeText [first, second]).toList = first.toList ++ '/' :: second.toList := by
  have joined : ReportStore.relativeText [first, second] = first ++ "/" ++ second :=
    rfl
  simp [joined]

/-- The names that lead to the place of a key give the key back exactly if cleaning leaves its
stem alone. -/
theorem EndsIn.relativeText_names_iff
    {stem : String}
    (ends : EndsIn key stem.toList ending)
    (base : List String) :
    ReportStore.relativeText (names base key) = key ↔ PlainStem stem := by
  constructor
  · intro same
    rcases ends.place_cases base with
      ⟨cleaned, whole, place, notEmpty, noDot⟩ | ⟨front, last, place, short, -, noSlash⟩
    · have unchanged : clean key = key.toList := by
        rw [whole, ← same, place, toList_relativeText_pair, String.toList_ofList,
          String.toList_ofList]
      have isStem : String.ofList cleaned = stem := by
        rw [whole, ends.whole] at unchanged
        rw [List.append_cancel_right unchanged, String.ofList_toList]
      rw [isStem] at notEmpty noDot
      exact ⟨(ends.plain_iff notEmpty).mp (plain_iff_clean_eq.mpr unchanged), notEmpty, noDot⟩
    · exfalso
      have inKey : '/' ∈ (ReportStore.relativeText (names base key)).toList := by
        rw [same, ends.whole]
        simp
      have length := congrArg List.length place
      simp only [List.length_append, List.length_singleton] at length
      rcases isNames : names base key with _ | ⟨name, _ | ⟨second, more⟩⟩
      · rw [isNames] at inKey
        simp [ReportStore.relativeText, FilePath.toText] at inKey
      · rw [isNames] at inKey place
        rw [(List.append_singleton_inj.mp place).2] at inKey
        exact noSlash inKey
      · rw [isNames] at length
        simp only [List.length_cons] at length
        omega
  · intro plainStem
    apply String.toList_injective
    rw [ends.names_eq plainStem, toList_relativeText_pair, String.toList_ofList, ends.whole]

end ReportKey

end ApkAtlas
