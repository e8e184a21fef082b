import ApkAtlas.Proofs.Symbols.History
import ApkAtlas.Symbols.SeedText

namespace ApkAtlas.SeedText

/-!
# Printed seed texts

A seed text lists classes and members in source form. Its reader records what the lines
were printed from; comments and blank lines between them say nothing.
-/

open MappingText (IsToken)

/-- A member in source form. Constructors go by the name of their class and have no
result. -/
inductive SourceMember where
  | constructor (className : String) (parameters : List String)
  | method (result name : String) (parameters : List String)
  | field (type name : String)
deriving Repr, DecidableEq

namespace SourceMember

/-- The kind of a member. -/
def kind : SourceMember → MemberKind
  | .field _ _ => .field
  | _ => .method

/-- The parameters of a method as they are written. -/
def parameterText (parameters : List String) : String :=
  "(" ++ ",".intercalate parameters ++ ")"

/-- A member as it is written. -/
def text : SourceMember → String
  | .constructor className parameters => className ++ parameterText parameters
  | .method result name parameters => result ++ " " ++ name ++ parameterText parameters
  | .field type name => type ++ " " ++ name

/-- Names and types are tokens. -/
def WellFormed : SourceMember → Prop
  | .constructor className _ => IsToken className
  | .method result name _ => IsToken result ∧ IsToken name
  | .field type name => IsToken type ∧ IsToken name

instance : (member : SourceMember) → Decidable member.WellFormed
  | .constructor className _ => inferInstanceAs (Decidable (IsToken className))
  | .method _ _ _ => inferInstanceAs (Decidable (_ ∧ _))
  | .field _ _ => inferInstanceAs (Decidable (_ ∧ _))

end SourceMember

/-- A class or a member that is kept. -/
structure SeedEntry where
  className : String
  member : Option SourceMember := none
deriving Repr, DecidableEq

namespace SeedEntry

/-- The line of an entry. -/
def text (entry : SeedEntry) : String :=
  match entry.member with
  | none => entry.className
  | some member => entry.className ++ ": " ++ member.text

/-- The class name is one, and the member is well formed. -/
@[mk_iff]
structure WellFormed (entry : SeedEntry) : Prop where
  className : Text.IsClassName entry.className
  member : ∀ member ∈ entry.member, member.WellFormed

instance (entry : SeedEntry) : Decidable entry.WellFormed :=
  decidable_of_iff' _ entry.wellFormed_iff

/-- What an entry says. -/
def said (entry : SeedEntry) : Line :=
  match entry.member with
  | none => .keptClass entry.className
  | some member => .keptMember entry.className member.kind member.text

end SeedEntry

/-- A blank line or a comment. -/
def isRemark (raw : String) : Bool :=
  match Text.strip raw.toList with
  | [] => true
  | first :: _ => first == '#'

/-- Lines are printed entries, with remarks anywhere between them and blanks around them. -/
def Prints (lines : List String) (entries : List SeedEntry) : Prop :=
  (lines.filter fun raw => !isRemark raw).map (fun raw => Text.strip raw.toList) =
    entries.map fun entry => entry.text.toList

instance (lines : List String) (entries : List SeedEntry) : Decidable (Prints lines entries) :=
  inferInstanceAs (Decidable (_ = _))

section Reading

theorem getLast?_parameterText (parameters : List String) :
    (SourceMember.parameterText parameters).toList.getLast? = some ')' := by
  rw [SourceMember.parameterText, String.toList_append, List.getLast?_append]
  rfl

/-- No blank stands at either end of a member. -/
theorem SourceMember.strip_text
    {member : SourceMember}
    (wellFormed : member.WellFormed) :
    Text.strip member.text.toList = member.text.toList := by
  have closing : Text.isBlank ')' = false := by
    decide
  cases member with
  | constructor className parameters =>
      obtain ⟨first, rest, opens, notBlank, _⟩ := IsToken.exists_first wellFormed
      refine Text.strip_eq_self ?_ notBlank ?_ closing
      · rw [text, String.toList_append, opens, List.cons_append, List.head?_cons]
      · rw [text, String.toList_append, List.getLast?_append, getLast?_parameterText]
        rfl
  | method result name parameters =>
      obtain ⟨first, rest, opens, notBlank, _⟩ := wellFormed.1.exists_first
      refine Text.strip_eq_self ?_ notBlank ?_ closing
      · simp [text, opens]
      · rw [text, String.toList_append, List.getLast?_append, getLast?_parameterText]
        rfl
  | field type name =>
      obtain ⟨first, rest, opens, notBlank, _⟩ := wellFormed.1.exists_first
      obtain ⟨last, ends, lastNotBlank⟩ := wellFormed.2.exists_last
      refine Text.strip_eq_self ?_ notBlank ?_ lastNotBlank
      · simp [text, opens]
      · rw [text, String.toList_append, List.getLast?_append, ends]
        rfl

/-- A member with a parameter list is a method. -/
theorem SourceMember.contains_text
    {member : SourceMember}
    (wellFormed : member.WellFormed) :
    member.text.toList.contains '(' = (member.kind == .method) := by
  cases member with
  | constructor className parameters =>
      simp [text, parameterText, kind]
  | method result name parameters =>
      simp [text, parameterText, kind]
  | field type name =>
      have noneInType : '(' ∉ type.toList := fun member =>
        (wellFormed.1.2.2 '(' member).2.1 rfl
      have noneInName : '(' ∉ name.toList := fun member =>
        (wellFormed.2.2.2 '(' member).2.1 rfl
      simp [text, kind, noneInType, noneInName]

/-- A text is not cut where it has no colon with a blank. -/
theorem cutAt?_eq_none_iff
    {text : List Char} :
    Text.cutAt? [':', ' '] text = none ↔ ¬ [':', ' '] <:+: text := by
  induction text with
  | nil =>
      simp [Text.cutAt?]
  | cons c rest inductionHypothesis =>
      rw [Text.cutAt?, List.infix_cons_iff, not_or, ← inductionHypothesis]
      split
      · rename_i here
        simp [List.isPrefixOf_iff_prefix.mp here]
      · rename_i notHere
        rw [List.isPrefixOf_iff_prefix] at notHere
        simp [notHere]

/-- A text is cut at the first `: `. -/
theorem cutAt?_append
    {before : List Char}
    (noMark : ¬ [':', ' '] <:+: before)
    (after : List Char) :
    Text.cutAt? [':', ' '] (before ++ ':' :: ' ' :: after) = some (before, after) := by
  induction before with
  | nil =>
      rfl
  | cons c rest inductionHypothesis =>
      rw [List.infix_cons_iff, not_or] at noMark
      -- The mark does not begin at the end of `before` either: a blank would have to stand there.
      have notHere : [':', ' '].isPrefixOf (c :: (rest ++ ':' :: ' ' :: after)) = false := by
        rw [← Bool.not_eq_true, List.isPrefixOf_iff_prefix]
        cases rest with
        | nil =>
            simp
        | cons d more =>
            simpa using noMark.1
      rw [List.cons_append, Text.cutAt?, notHere, inductionHypothesis noMark.2]
      rfl

/-- A text is cut at its first colon with a blank. -/
theorem exists_of_cutAt?
    {text before after : List Char}
    (cut : Text.cutAt? [':', ' '] text = some (before, after)) :
    text = before ++ ':' :: ' ' :: after ∧ ¬ [':', ' '] <:+: before := by
  induction text generalizing before with
  | nil =>
      cases cut
  | cons c rest inductionHypothesis =>
      rw [Text.cutAt?] at cut
      split at cut
      · rename_i here
        cases cut
        obtain ⟨tail, shape⟩ := List.isPrefixOf_iff_prefix.mp here
        rw [← shape]
        exact ⟨rfl, by simp⟩
      · rename_i notHere
        rw [Option.map_eq_some_iff] at cut
        obtain ⟨⟨front, back⟩, inRest, same⟩ := cut
        cases same
        obtain ⟨rfl, noMark⟩ := inductionHypothesis inRest
        refine ⟨rfl, ?_⟩
        rw [List.infix_cons_iff, not_or]
        refine ⟨fun opens => notHere ?_, noMark⟩
        rw [List.isPrefixOf_iff_prefix]
        exact opens.trans (List.prefix_append (c :: front) _)

theorem isToken_of_isClassName
    {name : String}
    (isClassName : Text.IsClassName name) :
    IsToken name := by
  have isComment : Text.isNameChar '#' = false := by
    decide
  refine ⟨isClassName.ne_empty, ?_, ?_⟩
  · intro opens
    rcases isClassName.isNameChar_or_eq_dot (List.mem_of_head? opens) with isName | same
    · rw [isName] at isComment
      cases isComment
    · cases same
  · intro c member
    refine ⟨Text.not_isBlank_of_isPlain (isClassName.isPlain c member), ?_, ?_⟩
    · rintro rfl
      exact isClassName.isPlain.not_mem (by decide) member
    · rintro rfl
      exact isClassName.isPlain.not_mem (by decide) member

/-- A token has no blank ends. -/
theorem strip_of_isToken
    {text : String}
    (isToken : IsToken text) :
    Text.strip text.toList = text.toList := by
  obtain ⟨first, rest, opens, notBlank, _⟩ := isToken.exists_first
  obtain ⟨last, ends, lastNotBlank⟩ := isToken.exists_last
  exact Text.strip_eq_self (by rw [opens, List.head?_cons]) notBlank ends lastNotBlank

/-- Remarks and blank lines are passed over. -/
theorem readLine_of_isRemark
    {raw : String}
    (remark : isRemark raw) :
    readLine raw = .ok .blank := by
  rw [isRemark] at remark
  rw [readLine]
  cases stripped : Text.strip raw.toList with
  | nil =>
      rfl
  | cons first rest =>
      rw [stripped] at remark
      cases beq_iff_eq.mp remark
      rfl

/-- How a line of seeds is read: a class name, or one with a member. -/
theorem readLine_eq
    {raw className : String}
    {member : List Char}
    {first : Char}
    {rest : List Char}
    (isClassName : Text.IsClassName className)
    (opens : Text.strip raw.toList = first :: rest)
    (noComment : first ≠ '#')
    (cut :
      (Text.cutAt? [':', ' '] (Text.strip raw.toList)).getD (Text.strip raw.toList, []) =
        (className.toList, member))
    (stripped : Text.strip member = member) :
    readLine raw =
      if member.isEmpty then
        .ok (.keptClass className)
      else
        .ok (.keptMember className (if member.contains '(' then .method else .field)
          (String.ofList member)) := by
  have notEmpty : className.toList.isEmpty = false := by
    simpa using isClassName.ne_empty
  have allName : className.toList.all isNameChar = true := by
    rw [List.all_eq_true]
    intro c inName
    rcases isClassName.isNameChar_or_eq_dot inName with isName | rfl
    · rw [Text.isNameChar, Bool.or_eq_true, Bool.or_eq_true] at isName
      rw [isNameChar, Bool.or_eq_true, Bool.or_eq_true, Bool.or_eq_true]
      rcases isName with (word | dollar) | dash
      · exact .inl (.inl (.inl word))
      · exact .inl (.inl (.inr dollar))
      · exact .inr dash
    · decide
  rw [readLine]
  split
  · rename_i isEmpty
    cases opens.symm.trans isEmpty
  · rename_i isComment
    cases opens.symm.trans isComment
    exact absurd rfl noComment
  · simp only [cut, strip_of_isToken (isToken_of_isClassName isClassName), stripped, notEmpty,
      allName, Bool.not_true, Bool.or_self, Bool.false_eq_true, if_false, String.ofList_toList]

/-- A printed entry is read back. -/
theorem readLine_text
    {entry : SeedEntry}
    (wellFormed : entry.WellFormed)
    {raw : String}
    (written : Text.strip raw.toList = entry.text.toList) :
    readLine raw = .ok entry.said := by
  obtain ⟨first, rest, opens, _, noComment⟩ :=
    (isToken_of_isClassName wellFormed.className).exists_first
  have noMark : ¬ [':', ' '] <:+: entry.className.toList := fun mark =>
    wellFormed.className.isPlain.not_mem (by decide) (mark.subset List.mem_cons_self)
  rw [SeedEntry.text] at written
  rw [SeedEntry.said]
  cases member : entry.member with
  | none =>
      simp only [member] at written
      have cut :
          (Text.cutAt? [':', ' '] (Text.strip raw.toList)).getD (Text.strip raw.toList, []) =
            (entry.className.toList, []) := by
        rw [written, cutAt?_eq_none_iff.mpr noMark]
        rfl
      rw [readLine_eq wellFormed.className (written.trans opens) noComment cut rfl]
      rfl
  | some given =>
      simp only [member] at written
      have shape :
          (entry.className ++ ": " ++ given.text).toList =
            entry.className.toList ++ ':' :: ' ' :: given.text.toList := by
        simp
      rw [shape] at written
      have cut :
          (Text.cutAt? [':', ' '] (Text.strip raw.toList)).getD (Text.strip raw.toList, []) =
            (entry.className.toList, given.text.toList) := by
        rw [written, cutAt?_append noMark]
        rfl
      have ofGiven := wellFormed.member given member
      have lineOpens :
          Text.strip raw.toList = first :: (rest ++ ':' :: ' ' :: given.text.toList) := by
        rw [written, opens, List.cons_append]
      have someMember : given.text.toList.isEmpty = false := by
        cases given <;> simp [SourceMember.text, SourceMember.parameterText]
      rw [readLine_eq wellFormed.className lineOpens noComment cut (given.strip_text ofGiven),
        someMember, given.contains_text ofGiven, String.ofList_toList]
      cases given <;> rfl

end Reading

section Filling

/-- What an entry records in a map. -/
def SeedEntry.enter (symbols : SymbolMap) (entry : SeedEntry) : SymbolMap :=
  SeedText.enter symbols entry.said

/-- Reading a printed seed text records its entries. -/
theorem parse_of_prints
    {lines : List String}
    {entries : List SeedEntry}
    (wellFormed : ∀ entry ∈ entries, entry.WellFormed)
    (prints : Prints lines entries)
    (symbols : SymbolMap)
    (source : String) :
    parse symbols source lines = (entries.foldl SeedEntry.enter symbols, none) := by
  have filled (number : Nat) :
      fill number symbols lines = (entries.foldl SeedEntry.enter symbols, none) := by
    induction lines generalizing entries symbols number with
    | nil =>
        cases List.map_eq_nil_iff.mp prints.symm
        rfl
    | cons raw rest inductionHypothesis =>
        by_cases remark : isRemark raw
        · rw [Prints, List.filter_cons_of_neg (by simp [remark])] at prints
          rw [fill, readLine_of_isRemark remark]
          exact inductionHypothesis wellFormed prints symbols (number + 1)
        · rw [Prints, List.filter_cons_of_pos (by simp [remark]), List.map_cons] at prints
          cases entries with
          | nil =>
              cases prints
          | cons entry more =>
              obtain ⟨ofEntry, ofMore⟩ := List.forall_mem_cons.mp wellFormed
              obtain ⟨written, printsRest⟩ := List.cons.inj prints
              rw [fill, readLine_text ofEntry written]
              exact inductionHypothesis ofMore printsRest _ (number + 1)
  rw [parse, filled]

/-- Seeds rename nothing. -/
theorem foldl_enter_renames (symbols : SymbolMap) (entries : List SeedEntry) :
    (entries.foldl SeedEntry.enter symbols).renames = symbols.renames := by
  induction entries generalizing symbols with
  | nil =>
      rfl
  | cons entry rest inductionHypothesis =>
      rw [List.foldl_cons, inductionHypothesis, SeedEntry.enter, SeedEntry.said]
      cases entry.member <;> rfl

/-- After seeds are entered, a member is used if it was or if they list it. -/
theorem usesMember_foldl_enter
    {symbols : SymbolMap}
    {entries : List SeedEntry}
    {kind : MemberKind}
    {className signature : String} :
    (entries.foldl SeedEntry.enter symbols).usage.usesMember className signature kind ↔
      (∃ entry ∈ entries, ∃ member ∈ entry.member,
        member.kind = kind ∧ entry.className = className ∧ member.text = signature) ∨
        symbols.usage.usesMember className signature kind := by
  induction entries generalizing symbols with
  | nil =>
      simp
  | cons entry rest inductionHypothesis =>
      have step :
          (entry.enter symbols).usage.usesMember className signature kind ↔
            (∃ member ∈ entry.member,
              member.kind = kind ∧ entry.className = className ∧ member.text = signature) ∨
              symbols.usage.usesMember className signature kind := by
        rw [SeedEntry.enter, SeedEntry.said]
        cases entry.member with
        | none =>
            rw [SeedText.enter, SymbolMap.recordClass, UsageRecord.usesMember_recordClass]
            simp
        | some member =>
            rw [SeedText.enter, SymbolMap.recordMember, UsageRecord.usesMember_recordMember]
            simp
      rw [List.foldl_cons, inductionHypothesis, step, List.exists_mem_cons_iff, ← or_assoc]
      exact or_congr_left or_comm

end Filling

end ApkAtlas.SeedText
