import ApkAtlas.Proofs.Text.Segment
import ApkAtlas.Xml.Markup.Content
import ApkAtlas.Xml.Element

namespace ApkAtlas.Xml.Markup

/-!
# Scanning what was written

Names, values and content that are written with escapes are scanned as what they were. A line
break is a line feed once it is read, in a value as in content.
-/

section Names

-- There is also an instance that looks at every character there is.
instance (priority := high) decidableForallMem
    (P : Char → Prop)
    [DecidablePred P]
    (text : List Char) :
    Decidable (∀ c ∈ text, P c) :=
  List.decidableBAll P text

/-- A name without colon, as XML allows it. -/
def IsPlainName (name : String) : Prop :=
  name.toList.head?.any isNameStart ∧ ∀ c ∈ name.toList, isNameChar c

instance (name : String) : Decidable (IsPlainName name) :=
  inferInstanceAs (Decidable (_ ∧ ∀ c ∈ name.toList, _))

/-- A name that is allowed, with a prefix that is allowed or none. -/
structure Name.IsLegal (name : Name) : Prop where
  nsPrefix : name.nsPrefix = "" ∨ IsPlainName name.nsPrefix
  localName : IsPlainName name.localName

instance (name : Name) : Decidable name.IsLegal :=
  decidable_of_iff (_ ∧ _)
    ⟨fun ⟨nsPrefix, localName⟩ => ⟨nsPrefix, localName⟩,
      fun ⟨nsPrefix, localName⟩ => ⟨nsPrefix, localName⟩⟩

/-- A text that a name cannot go on with. -/
def EndsName (text : List Char) : Prop :=
  ∀ c ∈ text.head?, isNameChar c = false

/-- A name without a prefix is a first character and others of names. -/
theorem IsPlainName.exists_cons {name : String} (isName : IsPlainName name) :
    ∃ c rest, name.toList = c :: rest ∧ isNameStart c ∧ ∀ d ∈ c :: rest, isNameChar d := by
  obtain ⟨starts, chars⟩ := isName
  cases whole : name.toList with
  | nil =>
      rw [whole] at starts
      cases starts
  | cons c rest =>
      rw [whole] at starts chars
      exact ⟨c, rest, rfl, by simpa using starts, chars⟩

theorem IsPlainName.ne_empty {name : String} (isName : IsPlainName name) : name ≠ "" := by
  rintro rfl
  cases isName.1

/-- A name is read up to where it ends. -/
theorem plainName?_append
    {name : String}
    {rest : List Char}
    (isName : IsPlainName name)
    (ends : EndsName rest) :
    plainName? (name.toList ++ rest) = some (name, rest) := by
  obtain ⟨c, more, whole, starts, chars⟩ := isName.exists_cons
  have taken : (name.toList ++ rest).takeWhile isNameChar = name.toList := by
    rw [whole, List.takeWhile_append_of_pos chars]
    cases rest with
    | nil =>
        simp
    | cons d after =>
        simp [ends d rfl]
  have dropped : (name.toList ++ rest).dropWhile isNameChar = rest := by
    rw [whole, List.dropWhile_append_of_pos chars]
    cases rest with
    | nil =>
        simp
    | cons d after =>
        simp [ends d rfl]
  rw [whole, List.cons_append] at taken dropped ⊢
  rw [plainName?, if_pos starts, taken, dropped, ← whole, String.ofList_toList]

/-- A name without a prefix is written as it is. -/
theorem Name.raw_of_no_prefix {name : Name} (none : name.nsPrefix = "") :
    name.raw = name.localName := by
  simp [Name.raw, none]

/-- A prefix is written before the name, with a colon between them. -/
theorem Name.toList_raw_of_prefix {name : Name} (some : name.nsPrefix ≠ "") :
    name.raw.toList = name.nsPrefix.toList ++ ':' :: name.localName.toList := by
  simp [Name.raw, some]

/-- A legal name is read back with its prefix. -/
theorem name?_append
    {name : Name}
    {rest : List Char}
    (legal : name.IsLegal)
    (ends : EndsName rest)
    (noColon : rest.head? ≠ some ':') :
    name? (name.raw.toList ++ rest) = some (name, rest) := by
  rcases legal.nsPrefix with noPrefix | prefixName
  · rw [Name.raw_of_no_prefix noPrefix, name?, plainName?_append legal.localName ends]
    simp only [Option.bind_eq_bind, Option.bind_some]
    split
    · exact absurd rfl noColon
    · rw [← noPrefix]
      rfl
  · have colonEnds : EndsName (':' :: (name.localName.toList ++ rest)) := by
      intro c isColon
      cases isColon
      decide
    rw [Name.toList_raw_of_prefix prefixName.ne_empty, List.append_assoc, List.cons_append, name?,
      plainName?_append prefixName colonEnds]
    simp only [Option.bind_eq_bind, Option.bind_some, plainName?_append legal.localName ends]
    split
    · exact absurd rfl noColon
    · rfl

end Names

section Breaks

/-- Line breaks are normalised on both sides of a place that cuts none of them. -/
theorem normalizeBreaks_append
    {first second : List Char}
    (noFeed : second.head? ≠ some '\n') :
    normalizeBreaks (first ++ second) = normalizeBreaks first ++ normalizeBreaks second := by
  fun_induction normalizeBreaks first with
  | case1 =>
      rfl
  | case2 rest inductionHypothesis =>
      rw [List.cons_append, List.cons_append, normalizeBreaks, inductionHypothesis,
        List.cons_append]
  | case3 c rest noBreak inductionHypothesis =>
      rw [List.cons_append, normalizeBreaks, inductionHypothesis, List.cons_append]
      rintro more rfl followed
      cases rest with
      | nil =>
          exact noFeed (congrArg List.head? followed)
      | cons d others =>
          cases followed
          exact noBreak others rfl rfl

/-- A text without returns keeps its line breaks. -/
theorem normalizeBreaks_append_of_not_mem
    {first : List Char}
    (noReturn : '\r' ∉ first)
    (second : List Char) :
    normalizeBreaks (first ++ second) = first ++ normalizeBreaks second := by
  induction first with
  | nil =>
      rfl
  | cons c rest inductionHypothesis =>
      rw [List.mem_cons, not_or] at noReturn
      rw [List.cons_append, normalizeBreaks, if_neg (Ne.symm noReturn.1),
        inductionHypothesis noReturn.2, List.cons_append]
      rintro _ isReturn _
      exact noReturn.1 isReturn.symm

/-- A text keeps its line breaks in front of another one, of which a first line feed may
belong to the last of them. -/
theorem exists_normalizeBreaks_append (first second : List Char) :
    ∃ back, (∀ c ∈ back, c ∈ normalizeBreaks second) ∧
      normalizeBreaks (first ++ second) = normalizeBreaks first ++ back := by
  fun_induction normalizeBreaks first with
  | case1 =>
      exact ⟨normalizeBreaks second, fun _ member => member, rfl⟩
  | case2 rest inductionHypothesis =>
      obtain ⟨back, within, split⟩ := inductionHypothesis
      refine ⟨back, within, ?_⟩
      rw [List.cons_append, List.cons_append, normalizeBreaks, split, List.cons_append]
  | case3 c rest noBreak inductionHypothesis =>
      obtain ⟨back, within, split⟩ := inductionHypothesis
      by_cases broken : c = '\r' ∧ ∃ more, rest ++ second = '\n' :: more
      · -- The first text ends with a return, and the feed behind it is part of the same break.
        obtain ⟨rfl, more, followed⟩ := broken
        cases rest with
        | cons d others =>
            cases followed
            exact absurd rfl (noBreak others rfl)
        | nil =>
            rw [List.nil_append] at followed
            have feed : normalizeBreaks second = '\n' :: normalizeBreaks more := by
              rw [followed]
              exact normalizeBreaks_append_of_not_mem (show '\r' ∉ ['\n'] by decide) more
            refine ⟨normalizeBreaks more, ?_, ?_⟩
            · intro d member
              rw [feed]
              exact List.mem_cons_of_mem _ member
            · rw [followed]
              simp [normalizeBreaks]
      · refine ⟨back, within, ?_⟩
        rw [List.cons_append, normalizeBreaks, split, List.cons_append]
        rintro more rfl followed
        exact broken ⟨rfl, more, followed⟩

end Breaks

section Escapes

/-- The entity that is written for a character of content or, inside quotes, of a value. -/
def entityFor? (quoted : Bool) (c : Char) : Option String :=
  if c = '&' then some "amp"
  else if c = '<' then some "lt"
  else if c = '>' then some "gt"
  else if quoted && c = '"' then some "quot"
  else none

/-- A character as it is written. -/
def written (quoted : Bool) (c : Char) : List Char :=
  match entityFor? quoted c with
  | none => [c]
  | some name => '&' :: (name.toList ++ [';'])

/-- The part of a value that a written character is read as. -/
def pieceOf (c : Char) : Piece :=
  if (entityFor? true c).isSome then .reference c else .char c

/-- The token of content that a written character is read as. -/
def tokenOf (c : Char) : Token :=
  if (entityFor? false c).isSome then .data [c] else .char c

variable {quoted : Bool} {c : Char} {name : String}

/-- How a character of a text is written. -/
theorem toList_escapeChar (c : Char) : (escapeChar c).toList = written false c := by
  rw [escapeChar, written, entityFor?]
  split_ifs <;> simp_all

/-- How a character of a value is written. -/
theorem toList_escapeValueChar (c : Char) : (escapeValueChar c).toList = written true c := by
  rw [escapeValueChar, written, entityFor?, escapeChar]
  split_ifs <;> simp_all

theorem toList_escapeText (text : String) :
    (escapeText text).toList = text.toList.flatMap (written false) := by
  rw [escapeText, String.toList_join, List.flatMap_map]
  simp only [toList_escapeChar]

theorem toList_escapeValue (value : String) :
    (escapeValue value).toList = value.toList.flatMap (written true) := by
  rw [escapeValue, String.toList_join, List.flatMap_map]
  simp only [toList_escapeValueChar]

/-- The entity that is written for a character stands for it. -/
theorem predefined?_of_entityFor? (found : entityFor? quoted c = some name) :
    predefined? name = some c := by
  rw [entityFor?] at found
  split_ifs at found with amp lt gt quote
  · cases found
    rw [amp]
    rfl
  · cases found
    rw [lt]
    rfl
  · cases found
    rw [gt]
    rfl
  · cases found
    rw [Bool.and_eq_true, decide_eq_true_iff] at quote
    rw [quote.2]
    rfl

/-- The entities that are written have legal names. -/
theorem isPlainName_of_entityFor? (found : entityFor? quoted c = some name) :
    IsPlainName name := by
  rw [entityFor?] at found
  split_ifs at found <;> cases found <;> decide

/-- A written reference is read back as its character. -/
theorem reference?_written
    (found : entityFor? quoted c = some name)
    (rest : List Char) :
    reference? (name.toList ++ ';' :: rest) = some (.reference c, rest) := by
  have isName := isPlainName_of_entityFor? found
  have ends : EndsName (';' :: rest) := by
    intro d isSemicolon
    cases isSemicolon
    decide
  have read := plainName?_append isName ends
  obtain ⟨first, more, whole, starts, _⟩ := isName.exists_cons
  have notHash : first ≠ '#' := by
    rintro rfl
    exact absurd starts (by decide)
  rw [whole, List.cons_append] at read ⊢
  rw [reference?.eq_3 _ (fun _ hash => notHash (List.cons.inj hash).1)
    (fun _ hash => notHash (List.cons.inj hash).1), read]
  simp [after?, predefined?_of_entityFor? found]

/-- A written value is read back character by character. -/
theorem pieces?_written (text : List Char) :
    pieces? (text.flatMap (written true)) = some (text.map pieceOf) := by
  induction text with
  | nil =>
      rw [List.flatMap_nil, pieces?]
      rfl
  | cons c rest inductionHypothesis =>
      rw [List.flatMap_cons, List.map_cons, written, pieceOf]
      cases found : entityFor? true c with
      | none =>
          have notMarkup : c ≠ '<' ∧ c ≠ '&' := by
            constructor <;> rintro rfl <;> cases found
          rw [List.singleton_append, pieces?, if_neg notMarkup.1, if_neg notMarkup.2,
            inductionHypothesis]
          rfl
      | some name =>
          rw [List.cons_append, List.append_assoc, List.singleton_append, pieces?,
            if_neg (by decide), if_pos rfl, reference?_written found]
          have shorter :
              (rest.flatMap (written true)).length <
                (name.toList ++ ';' :: rest.flatMap (written true)).length + 1 := by
            rw [List.length_append, List.length_cons]
            omega
          simp only [dif_pos shorter, inductionHypothesis]
          rfl

/-- A written character begins with itself, or with the mark of a reference. -/
theorem eq_of_head?_written
    {d : Char}
    {rest : List Char}
    (first : (written quoted c ++ rest).head? = some d) :
    d = '&' ∨ d = c ∧ entityFor? quoted c = none := by
  rw [written] at first
  split at first
  · rename_i none
    cases first
    exact .inr ⟨rfl, none⟩
  · cases first
    exact .inl rfl

/-- What follows a character of content never makes it the end of a data section. -/
theorem head?_written_ne_gt (text rest : List Char) :
    (text.flatMap (written false) ++ '<' :: rest).head? ≠ some '>' := by
  intro first
  cases text with
  | nil =>
      cases first
  | cons c more =>
      rw [List.flatMap_cons, List.append_assoc] at first
      rcases eq_of_head?_written first with amp | ⟨rfl, none⟩
      · cases amp
      · cases none

/-- The end of a raw section is never written in a text. -/
theorem not_isPrefixOf_written (text rest : List Char) :
    "]]>".toList.isPrefixOf (c :: (text.flatMap (written false) ++ '<' :: rest)) = false := by
  rw [Bool.eq_false_iff, ne_eq, List.isPrefixOf_iff_prefix]
  rintro ⟨after, split⟩
  obtain ⟨_, split⟩ := List.cons.inj split
  cases text with
  | nil =>
      cases split
  | cons d more =>
      have bracket : (written false d ++ (more.flatMap (written false) ++ '<' :: rest)).head? =
          some ']' := by
        rw [← List.append_assoc, ← List.flatMap_cons, ← split]
        rfl
      obtain amp | ⟨rfl, none⟩ := eq_of_head?_written bracket
      · cases amp
      · rw [List.flatMap_cons, written, none, List.append_assoc] at split
        exact head?_written_ne_gt more rest
          (congrArg List.head? (List.cons.inj split).2).symm

/-- A plain character of a text is read back as it is. -/
theorem firstToken?_written
    (plain : entityFor? false c = none)
    (text rest : List Char) :
    firstToken? c (text.flatMap (written false) ++ '<' :: rest) =
      some (some (.char c), text.flatMap (written false) ++ '<' :: rest) := by
  have notMarkup : c ≠ '<' ∧ c ≠ '&' := by
    constructor <;> rintro rfl <;> cases plain
  rw [firstToken?, if_neg notMarkup.1, if_neg notMarkup.2, not_isPrefixOf_written,
    if_neg (by decide)]

/-- Written content in front of a tag is read as its characters. -/
theorem tokens?_written (text rest : List Char) :
    tokens? (text.flatMap (written false) ++ '<' :: rest) =
      (tokens? ('<' :: rest)).map (text.map tokenOf ++ ·) := by
  induction text with
  | nil =>
      simp
  | cons c more inductionHypothesis =>
      rw [List.flatMap_cons, List.append_assoc, List.map_cons, tokenOf, written]
      cases found : entityFor? false c with
      | none =>
          rw [List.singleton_append, tokens?, firstToken?_written found]
          simp only [Nat.lt_succ_self, dif_pos, inductionHypothesis, Option.map_map]
          rfl
      | some name =>
          rw [List.cons_append, List.append_assoc, List.singleton_append, tokens?, firstToken?,
            if_neg (by decide), if_pos rfl, referenceToken?, reference?_written found]
          have shorter (left : List Char) :
              left.length < (name.toList ++ ';' :: left).length + 1 := by
            rw [List.length_append, List.length_cons]
            omega
          simp [dif_pos (shorter _), inductionHypothesis, Function.comp_def]

theorem not_mem_written (other : c ≠ '\r') : '\r' ∉ written quoted c := by
  rw [written]
  split
  · simpa using other.symm
  · rename_i name found
    rw [entityFor?] at found
    split_ifs at found <;> cases found <;> decide

theorem written_return (quoted : Bool) : written quoted '\r' = ['\r'] := by
  cases quoted <;> rfl

theorem written_feed (quoted : Bool) : written quoted '\n' = ['\n'] := by
  cases quoted <;> rfl

/-- Escapes and line breaks do not meet. -/
theorem normalizeBreaks_written (quoted : Bool) (text : List Char) :
    normalizeBreaks (text.flatMap (written quoted)) =
      (normalizeBreaks text).flatMap (written quoted) := by
  fun_induction normalizeBreaks text with
  | case1 =>
      rfl
  | case2 rest inductionHypothesis =>
      simp only [List.flatMap_cons, written_return, written_feed, List.singleton_append,
        normalizeBreaks, inductionHypothesis]
  | case3 c rest noBreak inductionHypothesis =>
      rw [List.flatMap_cons, List.flatMap_cons, ← inductionHypothesis]
      by_cases isReturn : c = '\r'
      · subst isReturn
        rw [if_pos rfl, written_return, written_feed, List.singleton_append, List.singleton_append,
          normalizeBreaks, if_pos rfl]
        rintro after _ followed
        cases rest with
        | nil =>
            cases followed
        | cons d more =>
            rw [List.flatMap_cons] at followed
            rcases eq_of_head?_written (congrArg List.head? followed) with amp | ⟨feed, _⟩
            · cases amp
            · exact noBreak more rfl (by rw [feed])
      · rw [if_neg isReturn, normalizeBreaks_append_of_not_mem (not_mem_written isReturn)]

end Escapes

end ApkAtlas.Xml.Markup
