import ApkAtlas.Proofs.Symbols.AcceptedText

namespace ApkAtlas.MappingText

/-!
# Classes under either of their names

Members are looked up under a name of their class, which may be its name in bytecode or its
source name. A name that has member lines is taken for a name in bytecode, and only a name that
has none for a source name. So a class whose name in bytecode is the source name of another class
answers from its own lines if it has some, and from the lines of the other class if it has none;
and a source name that is the name of another class in bytecode does not lead to its own class.
-/

section Speakers

variable {lines : List String}

/-- A name answers for itself if it has member lines or is the source name of no other class. -/
theorem speaker_eq_self
    {name : String}
    (own :
      memberLines lines name ≠ [] ∨
        ∀ names ∈ classLines lines, names.2 = name → names.1 = name) :
    speaker lines name = name := by
  rw [speaker]
  split
  · rename_i noLines
    have onlyOwn := own.resolve_left (not_not_intro noLines)
    cases found : Table.get? name ((classLines lines).map Prod.swap) with
    | none =>
        rfl
    | some bytecodeName =>
        exact onlyOwn _ (mem_classLines_of_get? found) rfl
  · rfl

/-- For a name without member lines the class answers that has it for its source name. -/
theorem speaker_of_classLine
    (oneToOne : OneToOne (classLines lines))
    {name bytecodeName : String}
    (noLines : memberLines lines name = [])
    (isClass : (bytecodeName, name) ∈ classLines lines) :
    speaker lines name = bytecodeName := by
  rw [speaker, if_pos noLines]
  have inKeys : name ∈ ((classLines lines).map Prod.swap).map Prod.fst :=
    List.mem_map_of_mem (List.mem_map_of_mem isClass)
  obtain ⟨other, found⟩ := Option.ne_none_iff_exists'.mp (Table.mem_keys_iff.mp inKeys)
  rw [found]
  exact (oneToOne _ (mem_classLines_of_get? found) _ isClass).mpr rfl

theorem sourceNameIn_eq_self
    {members : List (String × String)}
    {signature : String}
    (unlisted :
      ∀ names ∈ members, names.1 ≠ signature ∧ names.1 ≠ Signature.memberName signature) :
    sourceNameIn members signature = signature := by
  have missing (name : String) (absent : ∀ names ∈ members, names.1 ≠ name) :
      Table.get? name members = none := by
    apply Table.get?_eq_none_of_not_mem
    intro inKeys
    obtain ⟨names, member, same⟩ := List.mem_map.mp inKeys
    exact absent names member same
  rw [sourceNameIn, missing _ fun names member => (unlisted names member).1,
    missing _ fun names member => (unlisted names member).2]
  rfl

end Speakers

/-- A class answers for its name in bytecode from its own member lines, as long as it has some or
no other class has that name for its source name. Otherwise the other class answers. -/
theorem resolveMember_of_bytecodeName
    {lines : List String}
    {source : String}
    {symbols : SymbolMap}
    (read : parse {} source lines = (symbols, none))
    (oneToOne : OneToOne (classLines lines))
    (className signature : String) :
    (memberLines lines className ≠ [] ∨
        (∀ names ∈ classLines lines, names.2 = className → names.1 = className) →
      symbols.resolveMember className signature =
          sourceNameIn (memberLines lines className) signature ∧
        ((∀ names ∈ memberLines lines className,
            names.1 ≠ signature ∧ names.1 ≠ Signature.memberName signature) →
          symbols.resolveMember className signature = signature)) ∧
      ∀ other,
        (other, className) ∈ classLines lines →
        memberLines lines className = [] →
          symbols.resolveMember className signature =
            sourceNameIn (memberLines lines other) signature := by
  constructor
  · intro own
    rw [resolveMember_of_parse read, speaker_eq_self own]
    exact ⟨rfl, sourceNameIn_eq_self⟩
  · intro other isClass noLines
    rw [resolveMember_of_parse read, speaker_of_classLine oneToOne noLines isClass]

/-- A text in which two names in bytecode are source names of other classes, one with member
lines and one without. -/
def namesakesText : List String :=
  [ "A -> B:",
    "    int p -> m",
    "B -> C:",
    "    int x -> m",
    "D -> E:",
    "E -> F:",
    "    int y -> n" ]

theorem resolveMember_of_namesakes :
    ∃ symbols,
      parse {} "mapping.txt" namesakesText = (symbols, none) ∧
        symbols.resolveMember "B" "m:I" = "p" ∧
        symbols.resolveMember "B" "n" = "n" ∧
        symbols.resolveMember "E" "n" = "y" := by
  have accepted : (parse {} "mapping.txt" namesakesText).2.isNone := by
    decide +kernel
  have read := parse_of_isNone accepted
  have resolved := resolveMember_of_bytecodeName read (by decide +kernel)
  refine ⟨_, read, ?_, ?_, ?_⟩
  · rw [((resolved "B" "m:I").1 (.inl (by decide +kernel))).1]
    decide +kernel
  · exact ((resolved "B" "n").1 (.inl (by decide +kernel))).2 (by decide +kernel)
  · rw [(resolved "E" "n").2 "F" (by decide +kernel) (by decide +kernel)]
    decide +kernel

/-- A class without member lines, whose name in bytecode is the source name of another class. -/
def memberlessText : List String :=
  ["A -> B:", "B -> C:", "    int x -> y"]

/-- No line says anything of members of the class, and still one gets another name. -/
theorem memberless_answers_for_another :
    ∃ symbols,
      parse {} "mapping.txt" memberlessText = (symbols, none) ∧
        OneToOne (classLines memberlessText) ∧
        ("B", "A") ∈ classLines memberlessText ∧
        memberLines memberlessText "B" = [] ∧
        symbols.resolveMember "B" "y" ≠ "y" := by
  have accepted : (parse {} "mapping.txt" memberlessText).2.isNone := by
    decide +kernel
  exact
    ⟨_, parse_of_isNone accepted, by decide +kernel, by decide +kernel, by decide +kernel,
      by decide +kernel⟩

/-- Where every class has member lines, the source name of a class leads to the same members as
its name in bytecode, unless it is the name of another class in bytecode. Then it leads to the
members of that class. -/
theorem resolveMember_of_resolveClass
    {lines : List String}
    {source : String}
    {symbols : SymbolMap}
    (read : parse {} source lines = (symbols, none))
    (oneToOne : OneToOne (classLines lines))
    (listed : ∀ names ∈ classLines lines, memberLines lines names.1 ≠ [])
    {bytecodeName sourceName : String}
    (isClass : (bytecodeName, sourceName) ∈ classLines lines)
    (signature : String) :
    symbols.resolveClass bytecodeName = sourceName ∧
      ((∀ names ∈ classLines lines, names.1 = sourceName → names.1 = bytecodeName) →
        symbols.resolveMember (symbols.resolveClass bytecodeName) signature =
          symbols.resolveMember bytecodeName signature) ∧
      ∀ names ∈ classLines lines,
        names.1 = sourceName →
          symbols.resolveMember (symbols.resolveClass bytecodeName) signature =
            sourceNameIn (memberLines lines sourceName) signature := by
  have resolved := resolveClass_of_parse read oneToOne isClass
  rw [resolved]
  refine ⟨rfl, ?_, ?_⟩
  · intro onlyOwn
    rw [resolveMember_of_parse read, resolveMember_of_parse read,
      speaker_eq_self (.inl (listed _ isClass))]
    by_cases noLines : memberLines lines sourceName = []
    · rw [speaker_of_classLine oneToOne noLines isClass]
    · obtain ⟨_, alsoClass⟩ := exists_classLine noLines
      have same : sourceName = bytecodeName := onlyOwn _ alsoClass rfl
      rw [speaker_eq_self (.inl noLines), same]
  · rintro ⟨_, _⟩ alsoClass rfl
    rw [resolveMember_of_parse read, speaker_eq_self (.inl (listed _ alsoClass))]

/-- A class whose source name went to another class in bytecode, both with member lines. -/
def handedDownText : List String :=
  ["A -> B:", "    int p -> m", "B -> C:", "    int x -> m"]

theorem resolveMember_of_handedDown :
    ∃ symbols,
      parse {} "mapping.txt" handedDownText = (symbols, none) ∧
        symbols.resolveClass "B" = "A" ∧
        symbols.resolveMember "A" "m" = symbols.resolveMember "B" "m" ∧
        symbols.resolveClass "C" = "B" ∧
        symbols.resolveMember "B" "m" = "p" := by
  have accepted : (parse {} "mapping.txt" handedDownText).2.isNone := by
    decide +kernel
  have read := parse_of_isNone accepted
  obtain ⟨first, same, _⟩ :=
    @resolveMember_of_resolveClass _ _ _ read (by decide +kernel) (by decide +kernel) "B" "A"
      (by decide +kernel) "m"
  obtain ⟨second, _, other⟩ :=
    @resolveMember_of_resolveClass _ _ _ read (by decide +kernel) (by decide +kernel) "C" "B"
      (by decide +kernel) "m"
  rw [first] at same
  rw [second] at other
  refine ⟨_, read, first, same (by decide +kernel), second, ?_⟩
  rw [other ("B", "A") (by decide +kernel) rfl]
  decide +kernel

/-- The source name of a class that is another class in bytecode leads to the members of that
one. -/
theorem handedDown_leads_to_another :
    ∃ symbols,
      parse {} "mapping.txt" handedDownText = (symbols, none) ∧
        ((classLines handedDownText).map Prod.fst).Nodup ∧
        ((classLines handedDownText).map Prod.snd).Nodup ∧
        (∀ names ∈ classLines handedDownText, memberLines handedDownText names.1 ≠ []) ∧
        ("C", "B") ∈ classLines handedDownText ∧
        symbols.resolveMember (symbols.resolveClass "C") "m" ≠
          symbols.resolveMember "C" "m" := by
  have accepted : (parse {} "mapping.txt" handedDownText).2.isNone := by
    decide +kernel
  exact
    ⟨_, parse_of_isNone accepted, by decide +kernel, by decide +kernel, by decide +kernel,
      by decide +kernel, by decide +kernel⟩

end ApkAtlas.MappingText
