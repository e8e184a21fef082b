import ApkAtlas.Proofs.Symbols.Program

namespace ApkAtlas

/-!
# Members that share a name in bytecode

Bytecode tells the members of a class apart by kind, name and descriptor, so a field and
several methods may go by one name. The rename table has one source name for them all, the
one of the member that comes first in the mapping text. It is right for each of them
exactly if they share their source name too.
-/

namespace ProgramClass

/-- No two members of one kind share both name and descriptor. -/
def Distinguishable (part : ProgramClass) : Prop :=
  part.members.Pairwise fun first second =>
    first.type.kind = second.type.kind →
      first.bytecodeName = second.bytecodeName →
        first.type.descriptor ≠ second.type.descriptor

instance (part : ProgramClass) : Decidable part.Distinguishable :=
  inferInstanceAs (Decidable (List.Pairwise _ _))

/-- A section of a mapping text has one line for each member, in the order of members. -/
@[mk_iff]
structure ListedBy (part : ProgramClass) (listing : MappingText.Section) : Prop where
  wellFormed : listing.WellFormed
  sameClass : listing.bytecodeName = part.bytecodeName
  lines : List.Forall₂ Program.Names listing.members part.members

instance (part : ProgramClass) (listing : MappingText.Section) :
    Decidable (part.ListedBy listing) :=
  decidable_of_iff' _ (part.listedBy_iff listing)

/-- The first member that goes by a name in bytecode. -/
def firstNamed? (part : ProgramClass) (bytecodeName : String) : Option ProgramMember :=
  part.members.find? fun member => member.bytecodeName == bytecodeName

/-- Members that share their name in bytecode share their source name. -/
def NamesakesAgree (part : ProgramClass) : Prop :=
  ∀ first ∈ part.members, ∀ second ∈ part.members,
    first.bytecodeName = second.bytecodeName → first.sourceName = second.sourceName

variable {part : ProgramClass} {listing : MappingText.Section}

/-- The first line of a name is about the first member of that name. -/
theorem find?_of_names
    {entries : List MappingText.MemberEntry}
    {members : List ProgramMember}
    (lines : List.Forall₂ Program.Names entries members)
    (bytecodeName : String) :
    (entries.find? fun entry => entry.bytecodeName == bytecodeName).map
        MappingText.MemberEntry.sourceName =
      (members.find? fun member => member.bytecodeName == bytecodeName).map
        ProgramMember.sourceName := by
  induction lines with
  | nil =>
      rfl
  | cons names _ inductionHypothesis =>
      obtain ⟨sameSource, sameBytecode⟩ := names
      rw [List.find?_cons, List.find?_cons, sameBytecode]
      split
      · simp [sameSource]
      · exact inductionHypothesis

theorem ListedBy.entered?
    (listed : part.ListedBy listing)
    (name : String) :
    (MappingText.Section.enter {} listing).renames.entered? part.bytecodeName name =
      (part.firstNamed? name).map ProgramMember.sourceName := by
  have ownSection :
      MappingText.entriesOf [listing] part.bytecodeName = listing.members := by
    simp [MappingText.entriesOf, listed.sameClass]
  have entered := MappingText.foldl_enter_entered? {} [listing] part.bytecodeName name
  rw [ownSection, find?_of_names listed.lines] at entered
  exact entered

/-- A line has no signature as its target, so the whole signature is never found. -/
theorem ListedBy.firstNamed?_signature
    (listed : part.ListedBy listing)
    (member : ProgramMember) :
    part.firstNamed? member.signature = none := by
  rw [← Option.map_eq_none_iff (f := ProgramMember.sourceName), firstNamed?,
    ← find?_of_names listed.lines, Option.map_eq_none_iff, List.find?_eq_none]
  intro entry inListing same
  have isToken := (listed.wellFormed.members entry inListing).bytecodeName
  rw [beq_iff_eq.mp same] at isToken
  exact not_isToken_signature _ _ isToken

theorem exists_firstNamed?
    {member : ProgramMember}
    (inClass : member ∈ part.members) :
    ∃ first ∈ part.members,
      part.firstNamed? member.bytecodeName = some first ∧
        first.bytecodeName = member.bytecodeName := by
  cases found : part.firstNamed? member.bytecodeName with
  | none =>
      have absent := List.find?_eq_none.mp found member inClass
      simp at absent
  | some first =>
      have sameName := List.find?_some found
      exact ⟨first, List.mem_of_find?_eq_some found, rfl, beq_iff_eq.mp sameName⟩

/-- A member goes by the source name of the first member with its name in bytecode. -/
theorem ListedBy.resolveMember
    (listed : part.ListedBy listing)
    {member first : ProgramMember}
    (wellFormed : member.WellFormed)
    (found : part.firstNamed? member.bytecodeName = some first) :
    (MappingText.Section.enter {} listing).resolveMember part.bytecodeName member.signature =
      first.sourceName := by
  apply RenameTable.resolveMember_of_entered?
  · rw [listed.entered?, listed.firstNamed?_signature]
    rfl
  · rw [wellFormed.memberName_signature, listed.entered?, found]
    rfl

/-- Reading the lines of a class gives each member the source name of the first member
with its name in bytecode. All of them are right exactly if namesakes agree. -/
theorem resolveMember_eq_firstNamed
    (wellFormed : ∀ member ∈ part.members, member.WellFormed)
    (listed : part.ListedBy listing)
    {lines : List String}
    (prints : MappingText.Prints lines [listing])
    (source : String) :
    ∃ symbols,
      MappingText.parse {} source lines = (symbols, none) ∧
        (∀ member ∈ part.members,
          ∃ first, part.firstNamed? member.bytecodeName = some first ∧
            symbols.resolveMember part.bytecodeName member.signature = first.sourceName) ∧
        ((∀ member ∈ part.members,
            symbols.resolveMember part.bytecodeName member.signature = member.sourceName) ↔
          part.NamesakesAgree) := by
  have read :=
    MappingText.parse_of_prints (List.forall_mem_singleton.mpr listed.wellFormed) prints {} source
  refine ⟨_, read, ?_, ?_, ?_⟩
  · intro member inClass
    obtain ⟨first, _, found, _⟩ := exists_firstNamed? inClass
    exact ⟨first, found, listed.resolveMember (wellFormed member inClass) found⟩
  · intro right one inClass other alsoInClass sameName
    obtain ⟨first, _, found, _⟩ := exists_firstNamed? inClass
    have foundOther : part.firstNamed? other.bytecodeName = some first := by
      rw [← sameName, found]
    calc
      one.sourceName = first.sourceName := by
        rw [← right one inClass]
        exact listed.resolveMember (wellFormed one inClass) found
      _ = other.sourceName := by
        rw [← right other alsoInClass]
        exact (listed.resolveMember (wellFormed other alsoInClass) foundOther).symm
  · intro agree member inClass
    obtain ⟨first, firstInClass, found, sameName⟩ := exists_firstNamed? inClass
    exact
      (listed.resolveMember (wellFormed member inClass) found).trans
        (agree first firstInClass member inClass sameName)

/-- Two overloads of a method, under a name that a field goes by as well. -/
def reusedName : ProgramClass where
  sourceName := "com.example.Foo"
  bytecodeName := "a.b"
  members :=
    [ ⟨"run", "a", .method [⟨.primitive .int, 0⟩] ⟨.primitive .void, 0⟩⟩,
      ⟨"run", "a", .method [] ⟨.primitive .void, 0⟩⟩,
      ⟨"count", "a", .field ⟨.primitive .int, 0⟩⟩ ]

/-- The section of the class whose members share a name. -/
def reusedListing : MappingText.Section where
  sourceName := "com.example.Foo"
  bytecodeName := "a.b"
  members :=
    [ { type := "void", sourceName := "run", arguments := some ("int", .unknown)
        bytecodeName := "a" },
      { type := "void", sourceName := "run", arguments := some ("", .unknown)
        bytecodeName := "a" },
      { type := "int", sourceName := "count", bytecodeName := "a" } ]

/-- The mapping text of the class whose members share a name. -/
def reusedText : List String :=
  [ "com.example.Foo -> a.b:",
    "    void run(int) -> a",
    "    void run() -> a",
    "    int count -> a" ]

/-- The overloads go by their own source name, and the field goes by theirs. -/
theorem resolveMember_reusedName :
    ∃ symbols,
      MappingText.parse {} "mapping.txt" reusedText = (symbols, none) ∧
        symbols.resolveMember "a.b" "a(I)V" = "run" ∧
        symbols.resolveMember "a.b" "a()V" = "run" ∧
        symbols.resolveMember "a.b" "a:I" = "run" := by
  obtain ⟨symbols, read, resolved, _⟩ :=
    @resolveMember_eq_firstNamed reusedName reusedListing (by decide +kernel)
      (by decide +kernel) reusedText (by decide +kernel) "mapping.txt"
  refine ⟨symbols, read, ?_, ?_, ?_⟩
  · obtain ⟨first, found, name⟩ := resolved reusedName.members[0] (by decide)
    cases found
    exact name
  · obtain ⟨first, found, name⟩ := resolved reusedName.members[1] (by decide)
    cases found
    exact name
  · obtain ⟨first, found, name⟩ := resolved reusedName.members[2] (by decide)
    cases found
    exact name

/-- Bytecode tells the members of the class apart, and the field comes back under the name
of the methods all the same. -/
theorem distinguishable_reusedName_misnamed :
    reusedName.Distinguishable ∧
      (∀ member ∈ reusedName.members, member.WellFormed) ∧
      reusedName.ListedBy reusedListing ∧
      MappingText.Prints reusedText [reusedListing] ∧
      ¬ ∀ member ∈ reusedName.members,
        (MappingText.parse {} "mapping.txt" reusedText).1.resolveMember
          reusedName.bytecodeName member.signature = member.sourceName := by
  decide +kernel

end ProgramClass

end ApkAtlas
