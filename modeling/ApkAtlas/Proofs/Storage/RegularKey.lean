import ApkAtlas.Proofs.Storage.ReportPath
import ApkAtlas.Proofs.Text.Segment

namespace ApkAtlas

/-!
# Keys that stand for themselves

Where a key has nothing that cleaning takes out, its segments are the names that lead to its
report. The file that tells about the report stands beside it: only the last name is longer,
by an ending that no report has.
-/

namespace Text

/-- A text without the pair stays as it is. -/
theorem withoutDouble_eq_self
    {twin : Char}
    {text : List Char}
    (noPair : ¬ [twin, twin] <:+: text) :
    withoutDouble twin text = text := by
  fun_induction withoutDouble twin text with
  | case1 first second rest twins _ =>
      obtain ⟨rfl, rfl⟩ := twins
      exact absurd (List.prefix_append [second, second] rest).isInfix noPair
  | case2 first second rest _ inductionHypothesis =>
      rw [inductionHypothesis fun isInfix => noPair (isInfix.trans (List.suffix_cons _ _).isInfix)]
  | case3 short _ =>
      rfl

/-- A pair does not reach over another character. -/
theorem not_isInfix_append_cons
    {twin c : Char}
    (other : c ≠ twin)
    {before after : List Char}
    (noneBefore : ¬ [twin, twin] <:+: before)
    (noneAfter : ¬ [twin, twin] <:+: after) :
    ¬ [twin, twin] <:+: before ++ c :: after := by
  rintro ⟨front, rest, whole⟩
  rw [List.append_assoc, List.append_eq_append_iff] at whole
  rcases whole with ⟨between, rfl, inFront⟩ | ⟨between, rfl, inRest⟩
  · rcases between with _ | ⟨first, _ | ⟨second, more⟩⟩
    · exact other (List.cons.inj inFront).1.symm
    · exact other (List.cons.inj (List.cons.inj inFront).2).1.symm
    · obtain ⟨isFirst, inFront⟩ := List.cons.inj inFront
      obtain ⟨isSecond, -⟩ := List.cons.inj inFront
      exact noneBefore ⟨front, more, by simp [← isFirst, ← isSecond]⟩
  · rcases between with _ | ⟨first, more⟩
    · exact other (List.cons.inj inRest).1
    · obtain ⟨-, rfl⟩ := List.cons.inj inRest
      exact noneAfter ⟨more, rest, by simp⟩

/-- A segment is a part of the text. -/
theorem isInfix_of_mem_segments
    {separator : Char}
    {text piece : List Char}
    (member : piece ∈ segments separator text) :
    piece <:+: text := by
  induction text with
  | nil =>
      simp only [segments, List.mem_singleton] at member
      exact member ▸ List.infix_refl []
  | cons c rest inductionHypothesis =>
      have whole := head?_segments separator (c :: rest)
      by_cases same : c = separator
      · rw [segments, if_pos same] at member
        rcases List.mem_cons.mp member with rfl | inRest
        · exact List.nil_infix
        · exact (inductionHypothesis inRest).trans (List.suffix_cons _ _).isInfix
      · obtain ⟨first, pieces, ofRest⟩ :=
          List.exists_cons_of_ne_nil (segments_ne_nil separator rest)
        simp only [segments, if_neg same, ofRest, List.head?_cons, Option.some.injEq]
          at whole member
        rcases List.mem_cons.mp member with rfl | inPieces
        · rw [whole]
          exact (List.takeWhile_prefix _).isInfix
        · apply List.IsInfix.trans _ (List.suffix_cons _ _).isInfix
          exact inductionHypothesis (ofRest ▸ List.mem_cons_of_mem _ inPieces)

/-- A text without separators lengthens the last segment. -/
theorem exists_segments_append
    {separator : Char}
    (text : List Char)
    {ending : List Char}
    (absent : separator ∉ ending) :
    ∃ front last,
      segments separator text = front ++ [last] ∧
        segments separator (text ++ ending) = front ++ [last ++ ending] := by
  by_cases member : separator ∈ text
  · obtain ⟨before, after, rfl, noneAfter⟩ := exists_last_separator member
    have noneLater : separator ∉ after ++ ending := by
      simp [noneAfter, absent]
    refine ⟨segments separator before, after, ?_, ?_⟩
    · rw [segments_append_cons, segments_of_not_mem noneAfter]
    · rw [List.append_assoc, List.cons_append, segments_append_cons,
        segments_of_not_mem noneLater]
  · have none : separator ∉ text ++ ending := by
      simp [member, absent]
    refine ⟨[], text, ?_, ?_⟩
    · rw [segments_of_not_mem member, List.nil_append]
    · rw [segments_of_not_mem none, List.nil_append]

/-- An ending without separators is one of what follows the last separator. -/
theorem isSuffix_afterLast_iff
    {separator : Char}
    {ending : List Char}
    (absent : separator ∉ ending)
    (text : List Char) :
    ending <:+ afterLast separator text ↔ ending <:+ text := by
  by_cases member : separator ∈ text
  · obtain ⟨before, after, rfl, noneAfter⟩ := exists_last_separator member
    rw [afterLast_append_cons noneAfter]
    have isEnd : separator :: after <:+ before ++ separator :: after := List.suffix_append _ _
    refine ⟨fun ends => ends.trans ((List.suffix_cons _ _).trans isEnd), fun ends => ?_⟩
    rcases List.suffix_or_suffix_of_suffix ends isEnd with shorter | longer
    · rcases List.suffix_cons_iff.mp shorter with rfl | ends
      · exact absurd List.mem_cons_self absent
      · exact ends
    · exact absurd (longer.subset List.mem_cons_self) absent
  · rw [afterLast_of_not_mem member]

end Text

namespace FilePath

/-- A text that does not begin with a slash does not start at the root. -/
theorem rootSlashesOf_eq_zero
    {text : List Char}
    (front : ∀ c ∈ text.head?, c ≠ '/') :
    rootSlashesOf text = 0 := by
  cases text with
  | nil =>
      rfl
  | cons c rest =>
      have ordinary := front c rfl
      simp [rootSlashesOf, ordinary]

end FilePath

/-- The names of reports have their ending, but not that of the files about them. -/
theorem ReportStore.isReportName_iff {name : String} :
    isReportName name = true ↔
      ReportKey.reportSuffix.toList <:+ name.toList ∧
        ¬ ReportKey.metadataSuffix.toList <:+ name.toList := by
  simp [isReportName, List.isSuffixOf_iff_suffix, ← Bool.not_eq_true]

namespace ReportKey

open FilePath (namesOf)

/-- A text that cleaning leaves as it is. -/
structure Plain (text : String) : Prop where
  noPair : ¬ ['.', '.'] <:+: text.toList
  noColon : ':' ∉ text.toList
  front : ∀ c ∈ text.toList.head?, c ≠ '/' ∧ c ≠ '\\'

variable {text : String}

/-- A plain key is clean. -/
theorem Plain.clean_eq (plain : Plain text) : clean text = text.toList := by
  have front : (text.toList.dropWhile fun c => c == '/' || c == '\\') = text.toList := by
    cases whole : text.toList with
    | nil =>
        rfl
    | cons c rest =>
        have ordinary := plain.front c (by rw [whole]; rfl)
        rw [List.dropWhile_cons_of_neg (by simpa using ordinary)]
  rw [clean, front, Text.withoutDouble_eq_self plain.noPair, List.filter_eq_self]
  intro c member
  rw [decide_eq_true_eq]
  rintro rfl
  exact plain.noColon member

theorem Plain.not_mem_namesOf (plain : Plain text) : ".." ∉ namesOf text := by
  intro member
  obtain ⟨piece, isPiece, isReturn⟩ := List.mem_map.mp (List.mem_of_mem_filter member)
  apply plain.noPair
  have twoDots : piece = ['.', '.'] := by
    rw [← String.toList_ofList (l := piece), isReturn]
    rfl
  exact twoDots ▸ Text.isInfix_of_mem_segments isPiece

/-- A plain key leads to its own names. -/
theorem Plain.names_eq
    (plain : Plain text)
    (base : List String) :
    names base text = namesOf text := by
  have fromBase : FilePath.rootSlashesOf text.toList = 0 :=
    FilePath.rootSlashesOf_eq_zero fun c first => (plain.front c first).1
  rw [names, plain.clean_eq, String.ofList_toList]
  simp only [FilePath.ofText, fromBase, if_true,
    FilePath.follow_of_not_mem plain.not_mem_namesOf]
  rw [if_pos (List.isPrefixOf_iff_prefix.mpr (List.prefix_append _ _)), List.drop_left]

/-- A key that names a report below the base directory as it stands. -/
structure Regular (key : String) : Prop where
  segments : ∀ segment ∈ Text.split '/' key, segment ≠ "" ∧ segment ≠ "."
  noPair : ¬ ['.', '.'] <:+: key.toList
  noMark : ':' ∉ key.toList ∧ Char.ofNat 0 ∉ key.toList
  front : key.toList.head? ≠ some '\\'
  isReport : reportSuffix.toList <:+ key.toList
  isNoMetadata : ¬ metadataSuffix.toList <:+ key.toList

variable {key : String}

/-- A regular key is plain. -/
theorem Regular.plain (regular : Regular key) : Plain key where
  noPair := regular.noPair
  noColon := regular.noMark.1
  front := by
    intro c first
    cases whole : key.toList with
    | nil =>
        rw [whole] at first
        cases first
    | cons d rest =>
        rw [whole] at first
        cases first
        constructor
        · rintro rfl
          apply (regular.segments "" _).1 rfl
          simp [Text.split, Text.segments, whole]
        · rintro rfl
          exact regular.front (by rw [whole]; rfl)

/-- The key of the file that tells about a report is plain, if that of the report is regular. -/
theorem Regular.plain_metadataKey (regular : Regular key) : Plain (metadataKey key) := by
  have plain := regular.plain
  obtain ⟨front, whole⟩ := regular.isReport
  have last : key.toList = (front ++ ['.', 'j', 's', 'o']) ++ ['n'] := by
    rw [← whole]
    simp [reportSuffix]
  have whole : (metadataKey key).toList =
      (front ++ ['.', 'j', 's', 'o']) ++ 'n' :: metadataSuffix.toList := by
    simp [metadataKey, last]
  refine ⟨?_, ?_, ?_⟩
  · rw [whole]
    apply Text.not_isInfix_append_cons (by decide)
    · intro isInfix
      apply plain.noPair
      rw [last]
      exact isInfix.trans (List.prefix_append _ _).isInfix
    · decide
  · have noColon := plain.noColon
    rw [last] at noColon
    rw [whole]
    simpa [metadataSuffix] using noColon
  · have first : (metadataKey key).toList.head? = key.toList.head? := by
      rw [whole, last, List.append_cons, List.head?_append_of_ne_nil]
      simp
    rw [first]
    exact plain.front

/-- A regular key has a name between each two separators. -/
theorem Regular.namesOf_eq (regular : Regular key) : namesOf key = Text.split '/' key := by
  rw [namesOf, List.filter_eq_self]
  intro segment member
  simpa using regular.segments segment member

/-- The names of a key and of what is told about its report. -/
theorem Regular.exists_names (regular : Regular key) :
    ∃ directory name,
      namesOf key = directory ++ [name] ∧
        namesOf (metadataKey key) = directory ++ [name ++ metadataSuffix] ∧
        ReportStore.isReportName name = true ∧
        ReportStore.isReportName (name ++ metadataSuffix) = false := by
  have noSlash : '/' ∉ metadataSuffix.toList := by
    decide
  obtain ⟨front, last, ofKey, ofMetadata⟩ := Text.exists_segments_append key.toList noSlash
  have isLast : last = Text.afterLast '/' key.toList := by
    have ends := Text.getLast?_segments '/' key.toList
    rw [ofKey, List.getLast?_concat] at ends
    exact Option.some.inj ends
  have split : Text.split '/' key = front.map String.ofList ++ [String.ofList last] := by
    rw [Text.split, ofKey, List.map_append, List.map_singleton]
  have splitMetadata : Text.split '/' (metadataKey key) =
      front.map String.ofList ++ [String.ofList last ++ metadataSuffix] := by
    rw [Text.split, metadataKey, String.toList_append, ofMetadata, List.map_append,
      List.map_singleton, String.ofList_append, String.ofList_toList]
  refine ⟨front.map String.ofList, String.ofList last, ?_, ?_, ?_, ?_⟩
  · rw [regular.namesOf_eq, split]
  · have named : String.ofList last ++ metadataSuffix ≠ "" ∧
        String.ofList last ++ metadataSuffix ≠ "." := by
      constructor <;> intro same <;>
        simpa [metadataSuffix] using congrArg (fun name => name.toList.length) same
    rw [namesOf, splitMetadata, List.filter_eq_self]
    intro segment member
    rcases List.mem_append.mp member with inFront | isLast
    · simpa using regular.segments segment (split ▸ List.mem_append_left _ inFront)
    · rw [List.mem_singleton.mp isLast]
      simpa using named
  · rw [ReportStore.isReportName_iff, String.toList_ofList, isLast,
      Text.isSuffix_afterLast_iff (by decide), Text.isSuffix_afterLast_iff noSlash]
    exact ⟨regular.isReport, regular.isNoMetadata⟩
  · simp [ReportStore.isReportName]

/-- The names of a regular key make the key again. -/
theorem Regular.relativeText_namesOf
    (regular : Regular key) :
    ReportStore.relativeText (namesOf key) = key := by
  obtain ⟨directory, name, names, -⟩ := regular.exists_names
  have joined := Text.join_split '/' key
  rw [← regular.namesOf_eq] at joined
  rw [ReportStore.relativeText, FilePath.toText]
  have named : (namesOf key).isEmpty = false := by
    rw [names]
    simp
  simpa [named] using joined

/-- Regular keys are told apart by their names. -/
theorem Regular.eq_of_namesOf
    {other : String}
    (regular : Regular key)
    (otherRegular : Regular other)
    (same : namesOf key = namesOf other) :
    key = other := by
  rw [← regular.relativeText_namesOf, same, otherRegular.relativeText_namesOf]

/-- The keys of the two files that are kept for a report. -/
def files (key : String) : List String :=
  [key, metadataKey key]

theorem self_mem_files (key : String) : key ∈ files key :=
  List.mem_cons_self

theorem metadataKey_mem_files (key : String) : metadataKey key ∈ files key :=
  List.mem_cons_of_mem _ List.mem_cons_self

theorem metadataKey_ne (key : String) : metadataKey key ≠ key := by
  simp [metadataKey, metadataSuffix]

/-- Keys under which reports do not get in the way of one another: none of them, nor the file
that tells about its report, is a directory on the way to another. -/
structure Apart (keys : List String) : Prop where
  regular : ∀ key ∈ keys, Regular key
  separate : ∀ first ∈ keys, ∀ second ∈ keys, ∀ taken ∈ files first,
    namesOf taken <+: namesOf second → namesOf taken = namesOf second

variable {keys : List String} {other taken target : String}

/-- Keys that are apart have no file in common. -/
theorem Apart.ne_of_ne
    (apart : Apart keys)
    (isKey : key ∈ keys)
    (otherIsKey : other ∈ keys)
    (different : other ≠ key)
    (isTaken : taken ∈ files other)
    (isTarget : target ∈ files key) :
    taken ≠ target := by
  have noMetadata {first : String} (isFirst : first ∈ keys) (second : String) :
      first ≠ metadataKey second := by
    rintro rfl
    apply (apart.regular _ isFirst).isNoMetadata
    rw [metadataKey, String.toList_append]
    exact List.suffix_append _ _
  rcases List.mem_pair.mp isTaken with rfl | rfl <;>
    rcases List.mem_pair.mp isTarget with rfl | rfl
  · exact different
  · exact noMetadata otherIsKey key
  · exact (noMetadata isKey other).symm
  · exact fun same => different (by simpa [metadataKey] using same)

/-- No file of a key is on the way to another file of a key. -/
theorem Apart.not_isPrefix
    (apart : Apart keys)
    (isKey : key ∈ keys)
    (otherIsKey : other ∈ keys)
    (isTaken : taken ∈ files other)
    (isTarget : target ∈ files key)
    (different : taken ≠ target) :
    ¬ namesOf taken <+: namesOf target := by
  obtain ⟨directory, name, ofKey, ofMetadata, isReport, isMetadata⟩ :=
    (apart.regular key isKey).exists_names
  obtain ⟨otherDirectory, otherName, ofOther, ofOtherMetadata, otherIsReport, otherIsMetadata⟩ :=
    (apart.regular other otherIsKey).exists_names
  have onWayToKey (isPrefix : namesOf taken <+: namesOf key) : taken = key := by
    have same := apart.separate other otherIsKey key isKey taken isTaken isPrefix
    rcases List.mem_pair.mp isTaken with rfl | rfl
    · exact (apart.regular _ otherIsKey).eq_of_namesOf (apart.regular _ isKey) same
    · rw [ofOtherMetadata, ofKey] at same
      rw [(List.append_singleton_inj.mp same).2, isReport] at otherIsMetadata
      cases otherIsMetadata
  intro isPrefix
  rcases List.mem_pair.mp isTarget with rfl | rfl
  · exact different (onWayToKey isPrefix)
  · rw [ofMetadata, List.prefix_concat_iff] at isPrefix
    rcases isPrefix with same | inDirectory
    · rcases List.mem_pair.mp isTaken with rfl | rfl
      · rw [ofOther] at same
        rw [(List.append_singleton_inj.mp same).2, isMetadata] at otherIsReport
        cases otherIsReport
      · rw [ofOtherMetadata] at same
        obtain ⟨sameDirectory, sameName⟩ := List.append_singleton_inj.mp same
        have isSame : otherName = name := by
          simpa using sameName
        apply different
        rw [(apart.regular _ otherIsKey).eq_of_namesOf (apart.regular _ isKey)
          (by rw [ofOther, ofKey, sameDirectory, isSame])]
    · have isTakenKey := onWayToKey (ofKey ▸ inDirectory.trans (List.prefix_append _ _))
      have length := inDirectory.length_le
      rw [isTakenKey, ofKey, List.length_append, List.length_singleton] at length
      omega

end ReportKey

end ApkAtlas
