import ApkAtlas.Proofs.Text.Name
import ApkAtlas.Proofs.Text.Trim
import ApkAtlas.Symbols.MappingText
import Mathlib.Data.List.Forall2
import Mathlib.Tactic.MkIffOfInductiveProp

namespace ApkAtlas.MappingText

/-!
# Printed mapping texts

A mapping text is written by sections, each a class line and the lines of its members.
What the reader takes from each line is what the line was printed from, whatever line
ranges, owners and arguments stand around it; comments and blank lines between them say
nothing.
-/

/-- A name or type on a line: it has no blanks and none of the marks around it. -/
def IsToken (text : String) : Prop :=
  text ≠ "" ∧ text.toList.head? ≠ some '#' ∧
    ∀ c ∈ text.toList, Text.isBlank c = false ∧ c ≠ '(' ∧ c ≠ ':'

instance (text : String) : Decidable (IsToken text) :=
  @instDecidableAnd _ _ _ (@instDecidableAnd _ _ _ (List.decidableBAll _ _))

/-- Source line numbers behind an argument list. -/
inductive SourceLines where
  | unknown
  | single (line : Nat)
  | range (first last : Nat)
deriving Repr, DecidableEq

/-- Source line numbers as they are written. -/
def SourceLines.text : SourceLines → String
  | .unknown => ""
  | .single line => ":" ++ line.repr
  | .range first last => ":" ++ first.repr ++ ":" ++ last.repr

/-- A member of a section. -/
structure MemberEntry where
  /-- The line range in front of the type. -/
  range : Option (Nat × Nat) := none
  type : String
  /-- The class of an inlined frame. -/
  owner : Option String := none
  sourceName : String
  /-- What stands between the parentheses of a method, and its source lines. -/
  arguments : Option (String × SourceLines) := none
  bytecodeName : String
deriving Repr, DecidableEq

namespace MemberEntry

/-- The line range in front of the type as it is written. -/
def rangeText (entry : MemberEntry) : String :=
  match entry.range with
  | none => ""
  | some (first, last) => first.repr ++ ":" ++ last.repr ++ ":"

/-- The source name with its owner in front. -/
def qualifiedName (entry : MemberEntry) : String :=
  match entry.owner with
  | none => entry.sourceName
  | some owner => owner ++ "." ++ entry.sourceName

/-- The argument list of a method as it is written. -/
def argumentText (entry : MemberEntry) : String :=
  match entry.arguments with
  | none => ""
  | some (arguments, lines) => "(" ++ arguments ++ ")" ++ lines.text

/-- The line of a member. -/
def text (entry : MemberEntry) : String :=
  "    " ++ entry.rangeText ++ entry.type ++ " " ++ entry.qualifiedName ++
    entry.argumentText ++ " -> " ++ entry.bytecodeName

/-- The parts of a line are tokens, and its arguments end at the first parenthesis. -/
@[mk_iff]
structure WellFormed (entry : MemberEntry) : Prop where
  type : IsToken entry.type
  owner : ∀ owner ∈ entry.owner, IsToken owner
  sourceName : IsToken entry.sourceName
  undotted : '.' ∉ entry.sourceName.toList
  arguments : ∀ arguments ∈ entry.arguments, ')' ∉ arguments.1.toList
  bytecodeName : IsToken entry.bytecodeName

instance (entry : MemberEntry) : Decidable entry.WellFormed :=
  decidable_of_iff' _ entry.wellFormed_iff

/-- The last segment of the source name with its owner in front. -/
def simpleName (entry : MemberEntry) : String :=
  String.ofList (Text.afterLast '.' entry.qualifiedName.toList)

/-- The parts of a line can be told apart, wherever the dots of the source name are. -/
@[mk_iff]
structure Legible (entry : MemberEntry) : Prop where
  type : IsToken entry.type
  name : IsToken entry.qualifiedName
  arguments : ∀ arguments ∈ entry.arguments, ')' ∉ arguments.1.toList
  bytecodeName : IsToken entry.bytecodeName

instance (entry : MemberEntry) : Decidable entry.Legible :=
  decidable_of_iff' _ entry.legible_iff

/-- The member as its line is understood. -/
def simplified (entry : MemberEntry) : MemberEntry :=
  { entry with owner := none, sourceName := entry.simpleName }

end MemberEntry

/-- A class with its members. -/
structure Section where
  sourceName : String
  bytecodeName : String
  members : List MemberEntry := []
deriving Repr, DecidableEq

namespace Section

/-- The line of a class. -/
def classText (part : Section) : String :=
  part.sourceName ++ " -> " ++ part.bytecodeName ++ ":"

/-- The lines of a section. -/
def lines (part : Section) : List String :=
  part.classText :: part.members.map MemberEntry.text

/-- The names of a section are tokens, and its members are well formed. -/
@[mk_iff]
structure WellFormed (part : Section) : Prop where
  sourceName : IsToken part.sourceName
  bytecodeName : IsToken part.bytecodeName
  members : ∀ entry ∈ part.members, entry.WellFormed

instance (part : Section) : Decidable part.WellFormed :=
  decidable_of_iff' _ part.wellFormed_iff

/-- The names of a section are tokens, and its members are legible. -/
@[mk_iff]
structure Legible (part : Section) : Prop where
  sourceName : IsToken part.sourceName
  bytecodeName : IsToken part.bytecodeName
  members : ∀ entry ∈ part.members, entry.Legible

instance (part : Section) : Decidable part.Legible :=
  decidable_of_iff' _ part.legible_iff

/-- The section as its lines are understood. -/
def simplified (part : Section) : Section :=
  { part with members := part.members.map MemberEntry.simplified }

end Section

/-- A line without its line break. -/
def chomp (raw : String) : List Char :=
  Text.trimEndWhere (fun c => c == '\r' || c == '\n') raw.toList

/-- A blank line or a comment. -/
def isRemark (raw : String) : Bool :=
  match Text.strip (chomp raw) with
  | [] => true
  | first :: _ => first == '#'

/-- Lines are printed sections, with remarks anywhere between them. -/
def Prints (lines : List String) (sections : List Section) : Prop :=
  (lines.filter fun raw => !isRemark raw).map chomp =
    (sections.flatMap Section.lines).map String.toList

instance (lines : List String) (sections : List Section) : Decidable (Prints lines sections) :=
  inferInstanceAs (Decidable (_ = _))

section Reading

/-- A token opens with a character that is neither blank nor a comment mark. -/
theorem IsToken.exists_first
    {text : String}
    (isToken : IsToken text) :
    ∃ first rest, text.toList = first :: rest ∧ Text.isBlank first = false ∧ first ≠ '#' := by
  obtain ⟨notEmpty, noComment, plain⟩ := isToken
  cases chars : text.toList with
  | nil =>
      exact absurd (String.toList_eq_nil_iff.mp chars) notEmpty
  | cons first rest =>
      rw [chars] at noComment plain
      refine ⟨first, rest, rfl, (plain first List.mem_cons_self).1, ?_⟩
      rintro rfl
      exact noComment rfl

/-- A token ends with a character that is not blank. -/
theorem IsToken.exists_last
    {text : String}
    (isToken : IsToken text) :
    ∃ last, text.toList.getLast? = some last ∧ Text.isBlank last = false := by
  obtain ⟨first, rest, opens, _⟩ := isToken.exists_first
  have notEmpty : text.toList ≠ [] := by
    rw [opens]
    exact List.cons_ne_nil first rest
  refine ⟨text.toList.getLast notEmpty, List.getLast?_eq_some_getLast notEmpty, ?_⟩
  exact (isToken.2.2 _ (List.getLast_mem notEmpty)).1

/-- A token has no blanks. -/
theorem IsToken.notBlank
    {text : String}
    (isToken : IsToken text) :
    ∀ c ∈ text.toList, (!Text.isBlank c) = true := by
  intro c member
  rw [(isToken.2.2 c member).1]
  rfl

/-- A text without blanks is read up to the blank behind it. -/
theorem token_append
    {text : List Char}
    (notBlank : ∀ c ∈ text, (!Text.isBlank c) = true)
    (rest : List Char) :
    token (text ++ ' ' :: rest) = (text, ' ' :: rest) := by
  rw [token, List.takeWhile_append_of_pos notBlank, List.dropWhile_append_of_pos notBlank]
  simp [Text.isBlank]

/-- A blank is skipped. -/
theorem afterBlanks?_cons
    {text : List Char}
    {first : Char}
    {rest : List Char}
    (opens : text = first :: rest)
    (notBlank : Text.isBlank first = false) :
    afterBlanks? (' ' :: text) = some text := by
  subst opens
  have space : Text.isBlank ' ' = true := by
    decide
  rw [afterBlanks?, if_pos space, List.dropWhile_cons_of_neg (by simp [notBlank])]

/-- An arrow between blanks is skipped. -/
theorem afterArrow?_cons
    {text : List Char}
    {first : Char}
    {rest : List Char}
    (opens : text = first :: rest)
    (notBlank : Text.isBlank first = false) :
    afterArrow? (' ' :: '-' :: '>' :: ' ' :: text) = some text := by
  have arrow : afterBlanks? (' ' :: '-' :: '>' :: ' ' :: text) = some ('-' :: '>' :: ' ' :: text) :=
    afterBlanks?_cons rfl (by decide)
  rw [afterArrow?, arrow]
  exact afterBlanks?_cons opens notBlank

/-- A text without blanks is one last token. -/
theorem lastToken?_eq_some
    {text : List Char}
    (notEmpty : text ≠ [])
    (notBlank : ∀ c ∈ text, (!Text.isBlank c) = true) :
    lastToken? text = some text := by
  have noneBlank : text.any Text.isBlank = false := by
    rw [List.any_eq_false]
    intro c member
    simpa using notBlank c member
  rw [lastToken?, noneBlank, Bool.or_false, if_neg]
  simpa using notEmpty

/-- A token behind an arrow is the last one. -/
theorem lastToken?_afterArrow
    {text : String}
    (isToken : IsToken text)
    (chars : List Char)
    (notBlank : ∀ c ∈ chars, (!Text.isBlank c) = true) :
    afterArrow? (' ' :: '-' :: '>' :: ' ' :: (text.toList ++ chars)) =
        some (text.toList ++ chars) ∧
      lastToken? (text.toList ++ chars) = some (text.toList ++ chars) := by
  obtain ⟨first, rest, opens, firstNotBlank, _⟩ := isToken.exists_first
  constructor
  · have whole : text.toList ++ chars = first :: (rest ++ chars) := by
      rw [opens, List.cons_append]
    exact afterArrow?_cons whole firstNotBlank
  · apply lastToken?_eq_some
    · rw [opens]
      exact List.cons_ne_nil _ _
    · intro c member
      rcases List.mem_append.mp member with inText | inChars
      · exact isToken.notBlank c inText
      · exact notBlank c inChars

/-- The line of a class is read back. -/
theorem classLine?_classText
    {part : Section}
    (sourceToken : IsToken part.sourceName)
    (bytecodeToken : IsToken part.bytecodeName) :
    classLine? part.classText.toList =
      some (.classEntry part.sourceName part.bytecodeName) := by
  have shape :
      part.classText.toList =
        part.sourceName.toList ++
          ' ' :: '-' :: '>' :: ' ' :: (part.bytecodeName.toList ++ [':']) := by
    simp [Section.classText]
  obtain ⟨arrow, last⟩ :=
    lastToken?_afterArrow bytecodeToken [':'] (List.forall_mem_singleton.mpr (by decide))
  obtain ⟨first, rest, opens, _⟩ := sourceToken.exists_first
  obtain ⟨_, _, bytecodeOpens, _⟩ := bytecodeToken.exists_first
  have notEmpty : part.bytecodeName.toList.reverse ≠ [] := by
    rw [bytecodeOpens]
    simp
  obtain ⟨final, before, reversed⟩ := List.exists_cons_of_ne_nil notEmpty
  have whole : String.ofList (final :: before).reverse = part.bytecodeName := by
    rw [← reversed, List.reverse_reverse, String.ofList_toList]
  rw [classLine?, shape, token_append sourceToken.notBlank]
  simp only [arrow, last, Option.bind_eq_bind, Option.bind_some, List.reverse_append,
    List.reverse_singleton, reversed, List.singleton_append, opens]
  rw [whole, ← opens, String.ofList_toList]

theorem toNat_lt_of_isDigit {c : Char} (isDigit : c.isDigit) : c.toNat < 0x80 :=
  (Text.code_of_isDigit isDigit).2.trans_lt (by decide)

theorem isDecimalDigit_of_isDigit {c : Char} (isDigit : c.isDigit) :
    Text.isDecimalDigit c := by
  rw [Text.isDecimalDigit, Text.decimalDigit?, if_pos (toNat_lt_of_isDigit isDigit),
    if_pos isDigit]
  rfl

/-- A line number is skipped up to what follows its digits. -/
theorem afterLineNumber?_repr
    (number : Nat)
    {first : Char}
    (noDigit : Text.isDecimalDigit first = false)
    (rest : List Char) :
    afterLineNumber? (':' :: (number.repr.toList ++ first :: rest)) =
      some (first :: rest) := by
  have digits : ∀ c ∈ number.repr.toList, Text.isDecimalDigit c := by
    intro c member
    rw [Nat.toList_repr] at member
    exact isDecimalDigit_of_isDigit
      (Nat.isDigit_of_mem_toDigits (by decide) (by decide) member)
  cases chars : number.repr.toList with
  | nil =>
      exact absurd (String.toList_eq_nil_iff.mp chars) Nat.repr_ne_empty
  | cons c more =>
      rw [chars] at digits
      obtain ⟨isDigit, moreDigits⟩ := List.forall_mem_cons.mp digits
      rw [List.cons_append, afterLineNumber?, if_pos isDigit,
        List.dropWhile_append_of_pos moreDigits,
        List.dropWhile_cons_of_neg (by simp [noDigit])]

/-- The arguments of a method and its source lines are skipped. -/
theorem afterArguments?_argumentText
    {entry : MemberEntry}
    (closes : ∀ arguments ∈ entry.arguments, ')' ∉ arguments.1.toList)
    (rest : List Char) :
    afterArguments? (entry.argumentText.toList ++ ' ' :: rest) = some (' ' :: rest) := by
  have noDigit : Text.isDecimalDigit ' ' = false := by
    decide
  rw [MemberEntry.argumentText]
  cases arguments : entry.arguments with
  | none =>
      rfl
  | some given =>
      obtain ⟨inner, lines⟩ := given
      have cut (after : List Char) :
          (Text.cutFirst ')' (inner.toList ++ ')' :: after)).2 = some after := by
        rw [Text.cutFirst_append_cons (closes (inner, lines) arguments)]
      have shape :
          ("(" ++ inner ++ ")" ++ lines.text).toList ++ ' ' :: rest =
            '(' :: (inner.toList ++ ')' :: (lines.text.toList ++ ' ' :: rest)) := by
        simp
      simp only [shape, afterArguments?, cut]
      cases lines with
      | unknown =>
          rfl
      | single line =>
          have number := afterLineNumber?_repr line noDigit rest
          have shape :
              (SourceLines.single line).text.toList ++ ' ' :: rest =
                ':' :: (line.repr.toList ++ ' ' :: rest) := by
            simp [SourceLines.text]
          rw [shape, number]
          rfl
      | range firstLine lastLine =>
          have second := afterLineNumber?_repr lastLine noDigit rest
          have number :=
            afterLineNumber?_repr firstLine (by decide : Text.isDecimalDigit ':' = false)
              (lastLine.repr.toList ++ ' ' :: rest)
          have shape :
              (SourceLines.range firstLine lastLine).text.toList ++ ' ' :: rest =
                ':' :: (firstLine.repr.toList ++
                  ':' :: (lastLine.repr.toList ++ ' ' :: rest)) := by
            simp [SourceLines.text]
          rw [shape, number]
          simp only [second, Option.getD_some]

/-- The type with its line range in front opens a member line and has no blank. -/
theorem rangeText_append_type
    {entry : MemberEntry}
    (isToken : IsToken entry.type) :
    (∃ first rest,
      entry.rangeText.toList ++ entry.type.toList = first :: rest ∧
        Text.isBlank first = false ∧ first ≠ '#') ∧
      ∀ c ∈ entry.rangeText.toList ++ entry.type.toList, (!Text.isBlank c) = true := by
  have digitNotBlank (number : Nat) (c : Char) (member : c ∈ number.repr.toList) :
      Text.isBlank c = false ∧ c ≠ '#' := by
    rw [Nat.toList_repr] at member
    have isDigit : c.isDigit := Nat.isDigit_of_mem_toDigits (by decide) (by decide) member
    have word : Text.isWordChar c := by
      rw [Text.isWordChar, if_pos (toNat_lt_of_isDigit isDigit), Char.isAlphanum, isDigit]
      simp
    refine ⟨Text.not_isBlank_of_isPlain (Text.isPlain_of_isWordChar word), ?_⟩
    rintro rfl
    cases isDigit
  rw [MemberEntry.rangeText]
  cases range : entry.range with
  | none =>
      constructor
      · simpa using isToken.exists_first
      · simpa using isToken.notBlank
  | some given =>
      obtain ⟨firstLine, lastLine⟩ := given
      constructor
      · cases chars : firstLine.repr.toList with
        | nil =>
            exact absurd (String.toList_eq_nil_iff.mp chars) Nat.repr_ne_empty
        | cons c more =>
            have opens := digitNotBlank firstLine c (by rw [chars]; exact List.mem_cons_self)
            refine ⟨c, more ++ ':' :: (lastLine.repr.toList ++ ':' :: entry.type.toList), ?_,
              opens.1, opens.2⟩
            simp [chars]
      · intro c member
        have colon (c : Char) (isColon : c ∈ ":".toList) : c = ':' := by
          simpa using isColon
        simp only [String.toList_append, List.mem_append] at member
        rcases member with (((inFirst | isColon) | inLast) | isColon) | inType
        · rw [(digitNotBlank firstLine c inFirst).1]
          rfl
        · rw [colon c isColon]
          decide
        · rw [(digitNotBlank lastLine c inLast).1]
          rfl
        · rw [colon c isColon]
          decide
        · exact isToken.notBlank c inType

/-- The last segment of a qualified name is the source name. -/
theorem simpleName_eq
    {entry : MemberEntry}
    (undotted : '.' ∉ entry.sourceName.toList) :
    entry.simpleName = entry.sourceName := by
  rw [MemberEntry.simpleName, MemberEntry.qualifiedName]
  cases entry.owner with
  | none =>
      rw [Text.afterLast_of_not_mem undotted, String.ofList_toList]
  | some owner =>
      have shape :
          (owner ++ "." ++ entry.sourceName).toList =
            owner.toList ++ '.' :: entry.sourceName.toList := by
        simp
      rw [shape, Text.afterLast_append_cons undotted, String.ofList_toList]

/-- A token stays one with further characters that are legal in it. -/
theorem IsToken.append
    {text more : String}
    (isToken : IsToken text)
    (chars : ∀ c ∈ more.toList, Text.isBlank c = false ∧ c ≠ '(' ∧ c ≠ ':') :
    IsToken (text ++ more) := by
  obtain ⟨first, rest, opens, _, noComment⟩ := isToken.exists_first
  have shape : (text ++ more).toList = first :: (rest ++ more.toList) := by
    simp [opens]
  refine ⟨?_, ?_, ?_⟩
  · intro empty
    rw [empty] at shape
    cases shape
  · rw [shape]
    simpa using noComment
  · intro c member
    rw [String.toList_append] at member
    rcases List.mem_append.mp member with inText | inMore
    · exact isToken.2.2 c inText
    · exact chars c inMore

/-- The qualified name of a member is a token, if its parts are. -/
theorem isToken_qualifiedName
    {entry : MemberEntry}
    (ownerToken : ∀ owner ∈ entry.owner, IsToken owner)
    (sourceToken : IsToken entry.sourceName) :
    IsToken entry.qualifiedName := by
  rw [MemberEntry.qualifiedName]
  cases owner : entry.owner with
  | none =>
      exact sourceToken
  | some given =>
      have dot : ∀ c ∈ ".".toList, Text.isBlank c = false ∧ c ≠ '(' ∧ c ≠ ':' :=
        List.forall_mem_singleton.mpr (by decide)
      have dotted := (ownerToken given owner).append dot
      exact dotted.append sourceToken.2.2

/-- A well-formed member can be read back. -/
theorem MemberEntry.WellFormed.legible
    {entry : MemberEntry}
    (wellFormed : entry.WellFormed) :
    entry.Legible where
  type := wellFormed.type
  name := isToken_qualifiedName wellFormed.owner wellFormed.sourceName
  arguments := wellFormed.arguments
  bytecodeName := wellFormed.bytecodeName

/-- A well-formed section can be read back. -/
theorem Section.WellFormed.legible
    {part : Section}
    (wellFormed : part.WellFormed) :
    part.Legible where
  sourceName := wellFormed.sourceName
  bytecodeName := wellFormed.bytecodeName
  members := fun entry member => (wellFormed.members entry member).legible

/-- A line of a type, a name, arguments and a target is a member line. -/
theorem memberLine?_append
    {type name arguments target : List Char}
    {typeFirst nameFirst stop : Char}
    {typeRest nameRest stopRest : List Char}
    (typeOpens : type = typeFirst :: typeRest)
    (typeNotBlank : ∀ c ∈ type, (!Text.isBlank c) = true)
    (nameOpens : name = nameFirst :: nameRest)
    (inName : ∀ c ∈ name, (!(Text.isBlank c || c == '(')) = true)
    (stopsAt : arguments ++ ' ' :: '-' :: '>' :: ' ' :: target = stop :: stopRest)
    (stops : (Text.isBlank stop || stop == '(') = true)
    (behind :
      afterArguments? (arguments ++ ' ' :: '-' :: '>' :: ' ' :: target) =
        some (' ' :: '-' :: '>' :: ' ' :: target))
    (arrow : afterArrow? (' ' :: '-' :: '>' :: ' ' :: target) = some target)
    (last : lastToken? target = some target) :
    memberLine?
        (' ' :: ' ' :: ' ' :: ' ' ::
          (type ++ ' ' :: (name ++ (arguments ++ ' ' :: '-' :: '>' :: ' ' :: target)))) =
      some (.memberEntry (String.ofList (Text.afterLast '.' name)) (String.ofList target)) := by
  have space : Text.isBlank ' ' = true := by
    decide
  have typeFirstNotBlank : ¬ Text.isBlank typeFirst := by
    simpa using typeNotBlank typeFirst (by rw [typeOpens]; exact List.mem_cons_self)
  have nameFirstNotBlank : Text.isBlank nameFirst = false := by
    have passes := inName nameFirst (by rw [nameOpens]; exact List.mem_cons_self)
    rw [Bool.not_eq_true', Bool.or_eq_false_iff] at passes
    exact passes.1
  have atType (more : List Char) :
      afterBlanks? (' ' :: ' ' :: ' ' :: ' ' :: (type ++ more)) = some (type ++ more) := by
    rw [typeOpens, List.cons_append, afterBlanks?, if_pos space,
      List.dropWhile_cons_of_pos space, List.dropWhile_cons_of_pos space,
      List.dropWhile_cons_of_pos space, List.dropWhile_cons_of_neg typeFirstNotBlank]
  have atName (more : List Char) : afterBlanks? (' ' :: (name ++ more)) = some (name ++ more) := by
    have opens : name ++ more = nameFirst :: (nameRest ++ more) := by
      rw [nameOpens, List.cons_append]
    exact afterBlanks?_cons opens nameFirstNotBlank
  have untilStop :
      (name ++ (arguments ++ ' ' :: '-' :: '>' :: ' ' :: target)).takeWhile
          (fun c => !(Text.isBlank c || c == '(')) = name := by
    rw [List.takeWhile_append_of_pos inName, stopsAt,
      List.takeWhile_cons_of_neg (by simp [stops]), List.append_nil]
  have fromStop :
      (name ++ (arguments ++ ' ' :: '-' :: '>' :: ' ' :: target)).dropWhile
          (fun c => !(Text.isBlank c || c == '(')) =
        arguments ++ ' ' :: '-' :: '>' :: ' ' :: target := by
    rw [List.dropWhile_append_of_pos inName, stopsAt,
      List.dropWhile_cons_of_neg (by simp [stops])]
  rw [memberLine?]
  simp only [atType, token_append typeNotBlank, atName, untilStop, fromStop, behind, arrow, last,
    Option.bind_eq_bind, Option.bind_some]
  rw [typeOpens, nameOpens]
  rfl

/-- A member line is read as it was printed. -/
theorem memberLine?_text
    {entry : MemberEntry}
    (legible : entry.Legible) :
    memberLine? entry.text.toList =
      some (.memberEntry entry.simpleName entry.bytecodeName) := by
  obtain ⟨⟨_, _, typeOpens, _, _⟩, typeNotBlank⟩ := rangeText_append_type legible.type
  obtain ⟨_, _, nameOpens, _, _⟩ := legible.name.exists_first
  obtain ⟨arrow, last⟩ := lastToken?_afterArrow legible.bytecodeName [] (by simp)
  rw [List.append_nil] at arrow last
  have shape :
      entry.text.toList =
        ' ' :: ' ' :: ' ' :: ' ' ::
          ((entry.rangeText.toList ++ entry.type.toList) ++
            ' ' :: (entry.qualifiedName.toList ++ (entry.argumentText.toList ++
              ' ' :: '-' :: '>' :: ' ' :: entry.bytecodeName.toList))) := by
    simp [MemberEntry.text]
  have inName :
      ∀ c ∈ entry.qualifiedName.toList, (!(Text.isBlank c || c == '(')) = true := by
    intro c member
    obtain ⟨noBlank, noOpening, _⟩ := legible.name.2.2 c member
    simp [noBlank, noOpening]
  obtain ⟨stop, rest, stopsAt, stops⟩ :
      ∃ stop rest,
        entry.argumentText.toList ++ ' ' :: '-' :: '>' :: ' ' :: entry.bytecodeName.toList =
            stop :: rest ∧
          (Text.isBlank stop || stop == '(') = true := by
    rw [MemberEntry.argumentText]
    cases entry.arguments with
    | none =>
        exact ⟨' ', _, rfl, by decide⟩
    | some given =>
        refine ⟨'(', given.1.toList ++ ')' :: (given.2.text.toList ++
          ' ' :: '-' :: '>' :: ' ' :: entry.bytecodeName.toList), ?_, by decide⟩
        simp
  rw [shape, memberLine?_append typeOpens typeNotBlank nameOpens inName stopsAt stops
    (afterArguments?_argumentText legible.arguments _) arrow last, String.ofList_toList]
  rfl

/-- How a line is read depends on its first character and on its first that is not blank. -/
theorem readLine_eq (raw : String) :
    readLine raw =
      match chomp raw, Text.strip (chomp raw) with
      | c :: _, first :: _ =>
          if first = '#' then
            .ok .blank
          else if Text.isBlank c then
            match memberLine? (chomp raw) with
            | some entry => .ok entry
            | none => .error (.unknownMemberLine (String.ofList (Text.strip (chomp raw))))
          else
            match classLine? (chomp raw) with
            | some entry => .ok entry
            | none => .error (.unknownClassLine (String.ofList (Text.strip (chomp raw))))
      | _, _ => .ok .blank :=
  rfl

/-- Remarks and blank lines are passed over. -/
theorem readLine_of_isRemark
    {raw : String}
    (remark : isRemark raw) :
    readLine raw = .ok .blank := by
  rw [isRemark] at remark
  rw [readLine_eq]
  cases stripped : Text.strip (chomp raw) with
  | nil =>
      cases chomp raw <;> rfl
  | cons first rest =>
      rw [stripped] at remark
      cases chomp raw with
      | nil =>
          rfl
      | cons c more =>
          simp only [if_pos (beq_iff_eq.mp remark)]

/-- A printed class line is read back. -/
theorem readLine_classText
    {part : Section}
    (legible : part.Legible)
    {raw : String}
    (written : chomp raw = part.classText.toList) :
    readLine raw = .ok (.classEntry part.sourceName part.bytecodeName) := by
  obtain ⟨first, rest, opens, notBlank, noComment⟩ := legible.sourceName.exists_first
  have shape :
      part.classText.toList =
        first :: (rest ++ ' ' :: '-' :: '>' :: ' ' :: (part.bytecodeName.toList ++ [':'])) := by
    simp [Section.classText, opens]
  have stripped := Text.strip_cons notBlank
    (rest ++ ' ' :: '-' :: '>' :: ' ' :: (part.bytecodeName.toList ++ [':']))
  have read := classLine?_classText legible.sourceName legible.bytecodeName
  rw [shape] at read
  rw [readLine_eq, written, shape, stripped]
  simp only [if_neg noComment, notBlank, Bool.false_eq_true, if_false, read]

/-- A printed member line is read back. -/
theorem readLine_memberText
    {entry : MemberEntry}
    (legible : entry.Legible)
    {raw : String}
    (written : chomp raw = entry.text.toList) :
    readLine raw = .ok (.memberEntry entry.simpleName entry.bytecodeName) := by
  obtain ⟨⟨first, rest, opens, notBlank, noComment⟩, _⟩ := rangeText_append_type legible.type
  have space : Text.isBlank ' ' = true := by
    decide
  obtain ⟨tail, shape⟩ :
      ∃ tail, entry.text.toList = ' ' :: ' ' :: ' ' :: ' ' :: first :: (rest ++ tail) := by
    refine ⟨' ' :: (entry.qualifiedName.toList ++ (entry.argumentText.toList ++
      ' ' :: '-' :: '>' :: ' ' :: entry.bytecodeName.toList)), ?_⟩
    rw [← List.cons_append, ← opens]
    simp [MemberEntry.text]
  have stripped := Text.strip_cons notBlank (rest ++ tail)
  have strippedLine :
      Text.strip (' ' :: ' ' :: ' ' :: ' ' :: first :: (rest ++ tail)) =
        first :: Text.trimEndWhere Text.isBlank (rest ++ tail) := by
    rw [Text.strip] at stripped ⊢
    rw [List.dropWhile_cons_of_pos space, List.dropWhile_cons_of_pos space,
      List.dropWhile_cons_of_pos space, List.dropWhile_cons_of_pos space]
    exact stripped
  have read := memberLine?_text legible
  rw [shape] at read
  rw [readLine_eq, written, shape, strippedLine]
  simp only [if_neg noComment, space, if_true, read]

end Reading

section Filling

/-- What the lines of a section say. -/
def Section.said (part : Section) : List Line :=
  .classEntry part.sourceName part.bytecodeName ::
    part.members.map fun entry => .memberEntry entry.sourceName entry.bytecodeName

/-- What a section enters into a map. -/
def Section.enter (symbols : SymbolMap) (part : Section) : SymbolMap :=
  part.members.foldl
    (fun symbols entry =>
      symbols.addMember part.bytecodeName entry.bytecodeName entry.sourceName)
    (symbols.addClass part.bytecodeName part.sourceName)

/-- Lines that are read, with remarks between them, are entered one by one. -/
theorem fill_eq
    {raws : List String}
    {texts : List (List Char)}
    {said : List Line}
    (written : (raws.filter fun raw => !isRemark raw).map chomp = texts)
    (read :
      List.Forall₂ (fun text line => ∀ raw, chomp raw = text → readLine raw = .ok line)
        texts said)
    {reading final : Reading}
    (entered : said.foldlM Reading.enter reading = .ok final)
    (number : Nat) :
    fill number reading raws = (final.symbols, none) := by
  induction raws generalizing texts said reading number with
  | nil =>
      subst written
      cases read
      cases entered
      rfl
  | cons raw rest inductionHypothesis =>
      by_cases remark : isRemark raw
      · rw [List.filter_cons_of_neg (by simp [remark])] at written
        rw [fill, Reading.step, readLine_of_isRemark remark]
        exact inductionHypothesis written read entered (number + 1)
      · rw [List.filter_cons_of_pos (by simp [remark]), List.map_cons] at written
        subst written
        cases read with
        | @cons _ line _ more ofRaw ofRest =>
            rw [List.foldlM_cons] at entered
            cases next : reading.enter line with
            | error _ =>
                rw [next] at entered
                cases entered
            | ok after =>
                rw [next] at entered
                have step : reading.step raw = .ok after := by
                  rw [Reading.step, ofRaw raw rfl]
                  exact next
                rw [fill, step]
                exact inductionHypothesis rfl ofRest entered (number + 1)

/-- The lines of a section are entered into the open section. -/
theorem foldlM_enter_said (reading : Reading) (part : Section) :
    part.said.foldlM Reading.enter reading =
      .ok ⟨part.enter reading.symbols, some part.bytecodeName⟩ := by
  have members (symbols : SymbolMap) (entries : List MemberEntry) :
      (entries.map fun entry => Line.memberEntry entry.sourceName entry.bytecodeName).foldlM
          Reading.enter ⟨symbols, some part.bytecodeName⟩ =
        .ok ⟨entries.foldl
          (fun symbols entry =>
            symbols.addMember part.bytecodeName entry.bytecodeName entry.sourceName)
          symbols, some part.bytecodeName⟩ := by
    induction entries generalizing symbols with
    | nil =>
        rfl
    | cons entry rest inductionHypothesis =>
        rw [List.map_cons, List.foldlM_cons, List.foldl_cons]
        exact inductionHypothesis _
  rw [Section.said, List.foldlM_cons]
  exact members _ part.members

/-- Reading a printed mapping text enters its sections, with members under simple names. -/
theorem parse_of_legible
    {lines : List String}
    {sections : List Section}
    (legible : ∀ part ∈ sections, part.Legible)
    (prints : Prints lines sections)
    (symbols : SymbolMap)
    (source : String) :
    parse symbols source lines =
      ((sections.map Section.simplified).foldl Section.enter symbols, none) := by
  have read :
      List.Forall₂ (fun text line => ∀ raw, chomp raw = text → readLine raw = .ok line)
        ((sections.flatMap Section.lines).map String.toList)
        ((sections.map Section.simplified).flatMap Section.said) := by
    clear prints
    induction sections with
    | nil =>
        exact .nil
    | cons part rest inductionHypothesis =>
        obtain ⟨ofPart, ofRest⟩ := List.forall_mem_cons.mp legible
        rw [List.flatMap_cons, List.map_cons, List.flatMap_cons, List.map_append]
        refine List.rel_append (.cons ?_ ?_) (inductionHypothesis ofRest)
        · exact fun raw written => readLine_classText ofPart written
        · rw [List.map_map, Section.simplified, List.map_map, List.forall₂_map_left_iff,
            List.forall₂_map_right_iff, List.forall₂_same]
          exact fun entry member raw written =>
            readLine_memberText (ofPart.members entry member) written
  have entered (sections : List Section) (symbols : SymbolMap) (openClass : Option String) :
      ∃ last,
        (sections.flatMap Section.said).foldlM Reading.enter ⟨symbols, openClass⟩ =
          .ok ⟨sections.foldl Section.enter symbols, last⟩ := by
    induction sections generalizing symbols openClass with
    | nil =>
        exact ⟨openClass, rfl⟩
    | cons part rest inductionHypothesis =>
        obtain ⟨last, entered⟩ :=
          inductionHypothesis (part.enter symbols) (some part.bytecodeName)
        refine ⟨last, ?_⟩
        rw [List.flatMap_cons, List.foldlM_append, foldlM_enter_said]
        exact entered
  obtain ⟨last, final⟩ := entered (sections.map Section.simplified) symbols none
  rw [parse, fill_eq prints read final]

/-- Members whose source names have no dots are entered as they are. -/
theorem enter_simplified
    {part : Section}
    (undotted : ∀ entry ∈ part.members, '.' ∉ entry.sourceName.toList)
    (symbols : SymbolMap) :
    part.simplified.enter symbols = part.enter symbols := by
  rw [Section.enter, Section.simplified, List.foldl_map]
  apply List.foldl_ext
  intro known entry member
  rw [MemberEntry.simplified, simpleName_eq (undotted entry member)]

/-- Reading a printed mapping text enters its sections. -/
theorem parse_of_prints
    {lines : List String}
    {sections : List Section}
    (wellFormed : ∀ part ∈ sections, part.WellFormed)
    (prints : Prints lines sections)
    (symbols : SymbolMap)
    (source : String) :
    parse symbols source lines = (sections.foldl Section.enter symbols, none) := by
  have legible : ∀ part ∈ sections, part.Legible :=
    fun part member => (wellFormed part member).legible
  have simplified :
      sections.foldl (fun symbols part => part.simplified.enter symbols) symbols =
        sections.foldl Section.enter symbols :=
    List.foldl_ext _ _ _ fun symbols part member =>
      enter_simplified
        (fun entry inPart => ((wellFormed part member).members entry inPart).undotted) symbols
  rw [parse_of_legible legible prints, List.foldl_map, simplified]

end Filling

end ApkAtlas.MappingText
