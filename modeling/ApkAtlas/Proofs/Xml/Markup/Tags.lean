import ApkAtlas.Proofs.Xml.Markup.Scanned

namespace ApkAtlas.Xml.Markup

/-!
# Tags in writing

A document in writing is a sequence of tags, each behind some content. It is scanned tag by
tag, and its line breaks are read tag by tag.
-/

/-- A name with the value that it is given. -/
structure Assignment where
  name : Name
  value : List Char
deriving Repr, DecidableEq

/-- A tag before it is written. -/
inductive Tag where
  | start (name : String) (assignments : List Assignment) (closed : Bool)
  | close (name : String)
deriving Repr, DecidableEq

/-- A tag with the content in front of it. -/
structure Mark where
  lead : List Char
  tag : Tag
deriving Repr, DecidableEq

namespace Assignment

def text (assignment : Assignment) : List Char :=
  ' ' :: (assignment.name.raw.toList ++
    '=' :: '"' :: (assignment.value.flatMap (written true) ++ ['"']))

/-- The assignment with each line break written as one line feed. -/
def normalize (assignment : Assignment) : Assignment :=
  { assignment with value := normalizeBreaks assignment.value }

end Assignment

namespace Tag

/-- What ends a start tag. -/
def ending (closed : Bool) : List Char :=
  if closed then [' ', '/', '>'] else ['>']

def text : Tag → List Char
  | .start name assignments closed =>
      '<' :: (name.toList ++ (assignments.flatMap Assignment.text ++ ending closed))
  | .close name => '<' :: '/' :: (name.toList ++ ['>'])

def normalize : Tag → Tag
  | .start name assignments closed => .start name (assignments.map Assignment.normalize) closed
  | .close name => .close name

def token : Tag → Token
  | .start name assignments closed =>
      .start
        { name := ⟨"", name⟩
          attributes := assignments.map fun assignment =>
            (assignment.name, assignment.value.map pieceOf) }
        closed
  | .close name => .close ⟨"", name⟩

def IsStart : Tag → Prop
  | .start _ _ _ => True
  | .close _ => False

/-- A tag whose names are allowed. -/
def IsLegal : Tag → Prop
  | .start name assignments _ =>
      IsPlainName name ∧ ∀ assignment ∈ assignments, assignment.name.IsLegal
  | .close name => IsPlainName name

end Tag

namespace Mark

def text (mark : Mark) : List Char :=
  mark.lead.flatMap (written false) ++ mark.tag.text

def normalize (mark : Mark) : Mark :=
  { lead := normalizeBreaks mark.lead, tag := mark.tag.normalize }

def tokens (mark : Mark) : List Token :=
  mark.lead.map tokenOf ++ [mark.tag.token]

end Mark

section Scanning

/-- A legal name begins with a character that names begin with. -/
theorem Name.IsLegal.exists_cons {name : Name} (legal : name.IsLegal) :
    ∃ c rest, name.raw.toList = c :: rest ∧ isNameStart c := by
  rcases legal.nsPrefix with noPrefix | prefixName
  · obtain ⟨c, rest, whole, starts, _⟩ := legal.localName.exists_cons
    exact ⟨c, rest, by rw [Name.raw_of_no_prefix noPrefix, whole], starts⟩
  · obtain ⟨c, rest, whole, starts, _⟩ := prefixName.exists_cons
    exact ⟨c, _, by rw [Name.toList_raw_of_prefix prefixName.ne_empty, whole]; rfl, starts⟩

/-- A name ends before a character that is not one of names. -/
theorem endsName_cons {c : Char} (other : isNameChar c = false) (rest : List Char) :
    EndsName (c :: rest) := by
  intro d isFirst
  cases isFirst
  exact other

/-- Before anything but space there is nothing to skip. -/
theorem skipSpace_cons {c : Char} {rest : List Char} (other : isSpace c = false) :
    skipSpace (c :: rest) = c :: rest := by
  rw [skipSpace, List.dropWhile_cons, other]
  rfl

theorem after?_cons (c : Char) (rest : List Char) : after? [c] (c :: rest) = some rest := by
  simp [after?]

/-- No character that begins a name is space. -/
theorem not_isSpace_of_isNameStart {c : Char} (starts : isNameStart c) : isSpace c = false := by
  rw [Bool.eq_false_iff]
  intro space
  simp only [isSpace, Bool.or_eq_true, beq_iff_eq] at space
  rcases space with ((rfl | rfl) | rfl) | rfl <;> exact absurd starts (by decide)

/-- No value is written with a bare quotation mark. -/
theorem not_mem_written_quote (value : List Char) : '"' ∉ value.flatMap (written true) := by
  rw [List.mem_flatMap]
  rintro ⟨c, _, member⟩
  rw [written] at member
  split at member
  · rename_i plain
    rw [List.mem_singleton] at member
    subst member
    cases plain
  · rename_i name found
    rw [entityFor?] at found
    split_ifs at found <;> cases found <;> exact absurd member (by decide)

/-- An assignment is read in front of whatever follows. -/
theorem tagAttributes?_assignment
    {assignment : Assignment}
    (legal : assignment.name.IsLegal)
    (rest : List Char) :
    tagAttributes? (assignment.text ++ rest) =
      (tagAttributes? rest).map fun read =>
        ((assignment.name, assignment.value.map pieceOf) :: read.1, read.2) := by
  let behindName := '=' :: '"' :: (assignment.value.flatMap (written true) ++ '"' :: rest)
  have shape : assignment.text ++ rest = ' ' :: (assignment.name.raw.toList ++ behindName) := by
    simp [Assignment.text, behindName]
  have read : name? (assignment.name.raw.toList ++ behindName) =
      some (assignment.name, behindName) :=
    name?_append legal (endsName_cons (by decide) _) (by simp [behindName])
  have quote : quoted? ('"' :: (assignment.value.flatMap (written true) ++ '"' :: rest)) =
      some (assignment.value.flatMap (written true), rest) := by
    rw [quoted?, if_pos (.inl rfl),
      Text.cutFirst_append_cons (not_mem_written_quote assignment.value)]
  have shorter : rest.length < (' ' :: (assignment.name.raw.toList ++ behindName)).length := by
    simp only [behindName, List.length_cons, List.length_append]
    omega
  obtain ⟨c, more, whole, starts⟩ := legal.exists_cons
  have bare :
      skipSpace (assignment.name.raw.toList ++ behindName) =
        assignment.name.raw.toList ++ behindName := by
    rw [whole, List.cons_append]
    exact skipSpace_cons (not_isSpace_of_isNameStart starts)
  have skipped :
      skipSpace (' ' :: (assignment.name.raw.toList ++ behindName)) = c :: (more ++ behindName) :=
    bare.trans (by rw [whole]; rfl)
  have spaced :
      space? (' ' :: (assignment.name.raw.toList ++ behindName)) =
        some (assignment.name.raw.toList ++ behindName) := by
    rw [space?, if_pos (by decide), bare]
  rw [shape, tagAttributes?]
  -- The tag does not end here: what stands behind the space starts a name.
  split
  · rename_i isEnd
    rw [skipped] at isEnd
    rw [(List.cons.inj isEnd).1] at starts
    exact absurd starts (by decide)
  · rename_i isEnd
    rw [skipped] at isEnd
    rw [(List.cons.inj isEnd).1] at starts
    exact absurd starts (by decide)
  · simp only [spaced, Option.bind_eq_bind, Option.bind_some, read, behindName,
      skipSpace_cons (show isSpace '=' = false by decide),
      skipSpace_cons (show isSpace '"' = false by decide), after?_cons, quote, pieces?_written]
    rw [dif_pos shorter]
    cases tagAttributes? rest <;> rfl

/-- The written assignments of a tag are read back, up to its end. -/
theorem tagAttributes?_written
    {assignments : List Assignment}
    (legal : ∀ assignment ∈ assignments, assignment.name.IsLegal)
    (closed : Bool)
    (rest : List Char) :
    tagAttributes? (assignments.flatMap Assignment.text ++ (Tag.ending closed ++ rest)) =
      some
        (assignments.map fun assignment => (assignment.name, assignment.value.map pieceOf),
          closed, rest) := by
  induction assignments with
  | nil =>
      cases closed <;> rw [tagAttributes?] <;> rfl
  | cons assignment others inductionHypothesis =>
      obtain ⟨isLegal, othersLegal⟩ := List.forall_mem_cons.mp legal
      rw [List.flatMap_cons, List.append_assoc, tagAttributes?_assignment isLegal,
        inductionHypothesis othersLegal]
      rfl

/-- What stands behind the name of a start tag. -/
theorem exists_cons_behind_name
    (assignments : List Assignment)
    (closed : Bool)
    (rest : List Char) :
    ∃ c more, assignments.flatMap Assignment.text ++ (Tag.ending closed ++ rest) = c :: more ∧
      isNameChar c = false ∧ c ≠ ':' := by
  cases assignments with
  | nil =>
      cases closed
      · exact ⟨'>', rest, rfl, by decide, by decide⟩
      · exact ⟨' ', '/' :: '>' :: rest, rfl, by decide, by decide⟩
  | cons assignment others =>
      exact ⟨' ', _, rfl, by decide, by decide⟩

/-- A tag is no comment or instruction. -/
theorem afterAside?_of_ne {c : Char} (notMark : c ≠ '!' ∧ c ≠ '?') (rest : List Char) :
    afterAside? ('<' :: c :: rest) = some none := by
  rw [afterAside?]
  · rintro _ same
    exact notMark.1 (List.cons.inj (List.cons.inj same).2).1
  · rintro _ same
    exact notMark.2 (List.cons.inj (List.cons.inj same).2).1

theorem after?_eq_none {c d : Char} (other : c ≠ d) (beginning rest : List Char) :
    after? (c :: beginning) (d :: rest) = none := by
  simp [after?, other]

/-- A written start tag is read back. -/
theorem markup?_start
    {name : String}
    {assignments : List Assignment}
    (isName : IsPlainName name)
    (legal : ∀ assignment ∈ assignments, assignment.name.IsLegal)
    (closed : Bool)
    (rest : List Char) :
    markup?
        (name.toList ++ (assignments.flatMap Assignment.text ++ (Tag.ending closed ++ rest))) =
      some (some (Tag.start name assignments closed).token, rest) := by
  obtain ⟨d, behind, isBehind, ends, noColon⟩ := exists_cons_behind_name assignments closed rest
  have legalName : Name.IsLegal ⟨"", name⟩ :=
    ⟨.inl rfl, isName⟩
  have read := name?_append legalName (endsName_cons ends behind) (by simpa using noColon)
  rw [Name.raw_of_no_prefix rfl, ← isBehind] at read
  obtain ⟨c, more, whole, starts, _⟩ := isName.exists_cons
  have notMark : c ≠ '!' ∧ c ≠ '?' ∧ c ≠ '/' := by
    refine ⟨?_, ?_, ?_⟩ <;> rintro rfl <;> exact absurd starts (by decide)
  have attributes := tagAttributes?_written legal closed rest
  rw [whole, List.cons_append] at read ⊢
  rw [markup?, show "![CDATA[".toList = '!' :: "[CDATA[".toList from rfl,
    after?_eq_none (Ne.symm notMark.1)]
  simp only [afterAside?_of_ne ⟨notMark.1, notMark.2.1⟩, Option.bind_eq_bind, Option.bind_some,
    read, attributes]
  · rfl
  · intro _ slash
    exact notMark.2.2 (List.cons.inj slash).1

/-- A written closing tag is read back. -/
theorem markup?_close
    {name : String}
    (isName : IsPlainName name)
    (rest : List Char) :
    markup? ('/' :: (name.toList ++ '>' :: rest)) = some (some (Tag.close name).token, rest) := by
  have legalName : Name.IsLegal ⟨"", name⟩ :=
    ⟨.inl rfl, isName⟩
  have ends : EndsName ('>' :: rest) :=
    endsName_cons (by decide) rest
  have read := name?_append legalName ends (by simp)
  rw [Name.raw_of_no_prefix rfl] at read
  rw [markup?, show "![CDATA[".toList = '!' :: "[CDATA[".toList from rfl,
    after?_eq_none (by decide)]
  simp only [afterAside?_of_ne (show '/' ≠ '!' ∧ '/' ≠ '?' by decide), Option.bind_eq_bind,
    Option.bind_some, read, skipSpace_cons (show isSpace '>' = false by decide), after?_cons]
  rfl

/-- A legal tag begins with a bracket and is read back. -/
theorem markup?_tag
    {tag : Tag}
    (legal : tag.IsLegal)
    (rest : List Char) :
    ∃ inside, tag.text = '<' :: inside ∧
      markup? (inside ++ rest) = some (some tag.token, rest) := by
  cases tag with
  | start name assignments closed =>
      refine ⟨_, rfl, ?_⟩
      rw [List.append_assoc, List.append_assoc]
      exact markup?_start legal.1 legal.2 closed rest
  | close name =>
      refine ⟨_, rfl, ?_⟩
      rw [List.cons_append, List.append_assoc]
      exact markup?_close legal rest

/-- A tag behind content is read as the content and its token. -/
theorem tokens?_mark
    {mark : Mark}
    (legal : mark.tag.IsLegal)
    (rest : List Char) :
    tokens? (mark.text ++ rest) = (tokens? rest).map (mark.tokens ++ ·) := by
  obtain ⟨inside, whole, read⟩ := markup?_tag legal rest
  have shorter : rest.length < (inside ++ rest).length + 1 := by
    rw [List.length_append]
    omega
  rw [Mark.text, whole, List.append_assoc, List.cons_append, tokens?_written, tokens?, firstToken?,
    if_pos rfl, read]
  simp only [dif_pos shorter, Option.map_map, Mark.tokens, Function.comp_def, List.append_assoc,
    Option.toList_some, List.singleton_append]

/-- Legal marks are read back one behind the other. -/
theorem tokens?_marks
    {marks : List Mark}
    (legal : ∀ mark ∈ marks, mark.tag.IsLegal) :
    tokens? (marks.flatMap Mark.text) = some (marks.flatMap Mark.tokens) := by
  induction marks with
  | nil =>
      rw [List.flatMap_nil, tokens?]
      rfl
  | cons mark rest inductionHypothesis =>
      rw [List.flatMap_cons, tokens?_mark (legal mark List.mem_cons_self),
        inductionHypothesis fun other member => legal other (List.mem_cons_of_mem _ member)]
      rfl

end Scanning

section Breaks

theorem IsPlainName.no_return {name : String} (isName : IsPlainName name) :
    '\r' ∉ name.toList := by
  intro isReturn
  exact absurd (isName.2 _ isReturn) (by decide)

theorem Name.IsLegal.no_return {name : Name} (legal : name.IsLegal) : '\r' ∉ name.raw.toList := by
  rcases legal.nsPrefix with noPrefix | prefixName
  · rw [Name.raw_of_no_prefix noPrefix]
    exact legal.localName.no_return
  · rw [Name.toList_raw_of_prefix prefixName.ne_empty, List.mem_append, List.mem_cons]
    rintro (inPrefix | isColon | inLocal)
    · exact prefixName.no_return inPrefix
    · cases isColon
    · exact legal.localName.no_return inLocal

/-- Line breaks of a value end at its quote. -/
theorem normalizeBreaks_assignment_append
    {assignment : Assignment}
    (legal : assignment.name.IsLegal)
    (rest : List Char) :
    normalizeBreaks (assignment.text ++ rest) =
      assignment.normalize.text ++ normalizeBreaks rest := by
  rcases assignment with ⟨name, value⟩
  have front (value rest : List Char) :
      (Assignment.mk name value).text ++ rest =
        (' ' :: (name.raw.toList ++ ['=', '"'])) ++
          (value.flatMap (written true) ++ '"' :: rest) := by
    simp [Assignment.text]
  have noReturn : '\r' ∉ ' ' :: (name.raw.toList ++ ['=', '"']) := by
    have inName := legal.no_return
    simpa using inName
  have quote : normalizeBreaks ('"' :: rest) = '"' :: normalizeBreaks rest :=
    normalizeBreaks_append_of_not_mem (show '\r' ∉ ['"'] by decide) rest
  rw [Assignment.normalize, front, front, normalizeBreaks_append_of_not_mem noReturn,
    normalizeBreaks_append (by simp), normalizeBreaks_written, quote]

/-- Line breaks in assignments are normalised in each value for itself. -/
theorem normalizeBreaks_assignments_append
    {assignments : List Assignment}
    (legal : ∀ assignment ∈ assignments, assignment.name.IsLegal)
    (rest : List Char) :
    normalizeBreaks (assignments.flatMap Assignment.text ++ rest) =
      (assignments.map Assignment.normalize).flatMap Assignment.text ++ normalizeBreaks rest := by
  induction assignments with
  | nil =>
      rfl
  | cons assignment others inductionHypothesis =>
      rw [List.flatMap_cons, List.append_assoc,
        normalizeBreaks_assignment_append (legal assignment List.mem_cons_self),
        inductionHypothesis fun other member => legal other (List.mem_cons_of_mem _ member),
        List.map_cons, List.flatMap_cons, List.append_assoc]

/-- Line breaks in a tag are normalised in its values only. -/
theorem normalizeBreaks_tag_append
    {tag : Tag}
    (legal : tag.IsLegal)
    (rest : List Char) :
    normalizeBreaks (tag.text ++ rest) = tag.normalize.text ++ normalizeBreaks rest := by
  cases tag with
  | start name assignments closed =>
      have noReturn : '\r' ∉ '<' :: name.toList := by
        have inName := legal.1.no_return
        simpa using inName
      have atEnd : '\r' ∉ Tag.ending closed := by
        cases closed <;> decide
      have front (assignments : List Assignment) :
          (Tag.start name assignments closed).text ++ rest =
            ('<' :: name.toList) ++
              (assignments.flatMap Assignment.text ++ (Tag.ending closed ++ rest)) := by
        simp [Tag.text]
      rw [front, normalizeBreaks_append_of_not_mem noReturn,
        normalizeBreaks_assignments_append legal.2, normalizeBreaks_append_of_not_mem atEnd]
      simp [Tag.normalize, Tag.text]
  | close name =>
      have noReturn : '\r' ∉ (Tag.close name).text := by
        have inName := IsPlainName.no_return legal
        simpa [Tag.text] using inName
      exact normalizeBreaks_append_of_not_mem noReturn rest

theorem Tag.exists_text_cons (tag : Tag) : ∃ inside, tag.text = '<' :: inside := by
  cases tag <;> exact ⟨_, rfl⟩

/-- Line breaks of content end at the tag behind it. -/
theorem normalizeBreaks_marks
    {marks : List Mark}
    (legal : ∀ mark ∈ marks, mark.tag.IsLegal) :
    normalizeBreaks (marks.flatMap Mark.text) =
      (marks.map Mark.normalize).flatMap Mark.text := by
  induction marks with
  | nil =>
      rfl
  | cons mark rest inductionHypothesis =>
      have notFeed : (mark.tag.text ++ rest.flatMap Mark.text).head? ≠ some '\n' := by
        obtain ⟨inside, whole⟩ := mark.tag.exists_text_cons
        rw [whole]
        simp
      rw [List.flatMap_cons, Mark.text, List.append_assoc, normalizeBreaks_append notFeed,
        normalizeBreaks_written, normalizeBreaks_tag_append (legal mark List.mem_cons_self),
        inductionHypothesis fun other member => legal other (List.mem_cons_of_mem _ member),
        List.map_cons, List.flatMap_cons, Mark.text, Mark.normalize, List.append_assoc]

/-- Normalising line breaks keeps a mark legal. -/
theorem Mark.isLegal_normalize {mark : Mark} (legal : mark.tag.IsLegal) :
    mark.normalize.tag.IsLegal := by
  rcases mark with ⟨lead, name | name⟩
  · refine ⟨legal.1, ?_⟩
    intro assignment member
    obtain ⟨original, inTag, rfl⟩ := List.mem_map.mp member
    exact legal.2 original inTag
  · exact legal

end Breaks

section Characters

/-- The code points that no XML text may hold are in no name. -/
theorem not_isNameChar_of_code :
    ∀ code ∈ 0xFFFE :: 0xFFFF :: List.range 0x20, isNameChar (Char.ofNat code) = false := by
  decide +kernel

theorem isXmlChar_of_isNameChar {c : Char} (isName : isNameChar c) : isXmlChar c := by
  by_contra notXml
  have excluded : c.toNat ∈ 0xFFFE :: 0xFFFF :: List.range 0x20 := by
    simp only [isXmlChar, Bool.or_eq_true, Bool.and_eq_true, beq_iff_eq, decide_eq_true_eq,
      not_or] at notXml
    simp only [List.mem_cons, List.mem_range]
    omega
  have notName := not_isNameChar_of_code c.toNat excluded
  rw [Char.ofNat_toNat, isName] at notName
  cases notName

theorem isXmlChar_of_mem_written
    {quoted : Bool}
    {text : List Char}
    (chars : ∀ c ∈ text, isXmlChar c)
    {c : Char}
    (member : c ∈ text.flatMap (written quoted)) :
    isXmlChar c := by
  obtain ⟨d, inText, inWritten⟩ := List.mem_flatMap.mp member
  rw [written] at inWritten
  split at inWritten
  · rw [List.mem_singleton] at inWritten
    rw [inWritten]
    exact chars d inText
  · rename_i name found
    rcases List.mem_cons.mp inWritten with rfl | inRest
    · decide
    · rcases List.mem_append.mp inRest with inName | isEnd
      · exact isXmlChar_of_isNameChar ((isPlainName_of_entityFor? found).2 c inName)
      · rw [List.mem_singleton.mp isEnd]
        decide

theorem isXmlChar_of_mem_name
    {name : String}
    (isName : IsPlainName name)
    {c : Char}
    (member : c ∈ name.toList) :
    isXmlChar c :=
  isXmlChar_of_isNameChar (isName.2 c member)

theorem isXmlChar_of_mem_raw
    {name : Name}
    (legal : name.IsLegal)
    {c : Char}
    (member : c ∈ name.raw.toList) :
    isXmlChar c := by
  rcases legal.nsPrefix with noPrefix | prefixName
  · rw [Name.raw_of_no_prefix noPrefix] at member
    exact isXmlChar_of_mem_name legal.localName member
  · rw [Name.toList_raw_of_prefix prefixName.ne_empty, List.mem_append, List.mem_cons] at member
    rcases member with inPrefix | rfl | inLocal
    · exact isXmlChar_of_mem_name prefixName inPrefix
    · decide
    · exact isXmlChar_of_mem_name legal.localName inLocal

def Tag.assignments : Tag → List Assignment
  | .start _ assignments _ => assignments
  | .close _ => []

/-- A tag and the content in front of it, made of what XML allows. -/
structure Mark.IsSpelled (mark : Mark) : Prop where
  lead : ∀ c ∈ mark.lead, isXmlChar c
  tag : mark.tag.IsLegal
  values : ∀ assignment ∈ mark.tag.assignments, ∀ c ∈ assignment.value, isXmlChar c

theorem isXmlChar_of_mem_assignment
    {assignment : Assignment}
    (legal : assignment.name.IsLegal)
    (value : ∀ c ∈ assignment.value, isXmlChar c)
    {c : Char}
    (member : c ∈ assignment.text) :
    isXmlChar c := by
  simp only [Assignment.text, List.mem_cons, List.mem_append, List.not_mem_nil, or_false] at member
  rcases member with rfl | inName | rfl | rfl | inValue | rfl
  · decide
  · exact isXmlChar_of_mem_raw legal inName
  · decide
  · decide
  · exact isXmlChar_of_mem_written value inValue
  · decide

/-- A mark that is spelled right consists of characters of documents. -/
theorem Mark.IsSpelled.isXmlChar
    {mark : Mark}
    (spelled : mark.IsSpelled)
    {c : Char}
    (member : c ∈ mark.text) :
    isXmlChar c := by
  rcases mark with ⟨lead, tag⟩
  rcases List.mem_append.mp member with inLead | inTag
  · exact isXmlChar_of_mem_written spelled.lead inLead
  · cases tag with
    | start name assignments closed =>
        have ending : ∀ c ∈ Tag.ending closed, Xml.isXmlChar c := by
          cases closed <;> decide
        simp only [Tag.text, List.mem_cons, List.mem_append, List.mem_flatMap] at inTag
        rcases inTag with rfl | inName | ⟨assignment, given, inAssignment⟩ | inEnding
        · decide
        · exact isXmlChar_of_mem_name spelled.tag.1 inName
        · exact isXmlChar_of_mem_assignment (spelled.tag.2 assignment given)
            (spelled.values assignment given) inAssignment
        · exact ending c inEnding
    | close name =>
        simp only [Tag.text, List.mem_cons, List.mem_append, List.not_mem_nil, or_false] at inTag
        rcases inTag with rfl | rfl | inName | rfl
        · decide
        · decide
        · exact isXmlChar_of_mem_name spelled.tag inName
        · decide

end Characters

end ApkAtlas.Xml.Markup
