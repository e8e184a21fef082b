import ApkAtlas.Proofs.Symbols.MappingPrint
import ApkAtlas.Symbols.Source
import Mathlib.Data.List.Perm.Basic

namespace ApkAtlas

/-!
# What a symbol map was told

A symbol map answers from what was entered: for a class the last entry of its name holds,
for a member the first, and a member is used if it was recorded. Entries of one part do
not show in the answers of the other, and neither does the order in which use is recorded.
-/

open Std (ExtTreeMap ExtTreeSet)

section Lookup

variable {Item Key Value : Type}

/-- Looking through the items that are kept is looking through all and passing over the others. -/
theorem findSome?_filter
    (found? : Item → Option Value)
    (isKept : Item → Bool)
    (items : List Item) :
    (items.filter isKept).findSome? found? =
      items.findSome? fun item => if isKept item then found? item else none := by
  rw [← List.head?_filterMap, List.filterMap_filter, List.head?_filterMap]

/-- Looking through the keys of items finds the first item with a key. -/
theorem findSome?_flatMap
    (found? : Key → Option Value)
    (keys : Item → List Key)
    (items : List Item) :
    (items.flatMap keys).findSome? found? =
      items.findSome? fun item => (keys item).findSome? found? := by
  simp only [← List.head?_filterMap (f := found?), List.filterMap_flatMap, List.head?_flatMap]

/-- What is found is the value of the first item that is found. -/
theorem findSome?_eq_map_find?
    {found? : Item → Option Value}
    {isFound : Item → Bool}
    {value : Item → Value}
    (same : ∀ item, found? item = if isFound item then some (value item) else none)
    (items : List Item) :
    items.findSome? found? = (items.find? isFound).map value := by
  induction items with
  | nil =>
      rfl
  | cons item rest inductionHypothesis =>
      rw [List.findSome?_cons, same, inductionHypothesis, List.find?_cons]
      cases isFound item <;> rfl

/-- A value that is inserted if it is new is found unless there was one before. -/
theorem getElem?_insertIfNew_eq_or
    (table : ExtTreeMap String String)
    (key value other : String) :
    (table.insertIfNew key value)[other]? =
      table[other]?.or (if key = other then some value else none) := by
  rw [ExtTreeMap.getElem?_insertIfNew]
  simp only [Std.LawfulEqCmp.compare_eq_iff_eq]
  by_cases same : key = other
  · subst same
    simp only [ExtTreeMap.mem_iff_isSome_getElem?]
    cases table[key]? <;> simp
  · simp [same]

end Lookup

/-- A call that enters a source name. -/
inductive Rename where
  | ofClass (bytecodeName sourceName : String)
  | ofMember (className bytecodeName sourceName : String)
deriving Repr, DecidableEq

namespace Rename

/-- The source name that is entered for a class. -/
def classSource? (className : String) : Rename → Option String
  | .ofClass bytecodeName sourceName =>
      if bytecodeName = className then some sourceName else none
  | .ofMember .. => none

/-- The source name that is entered for a member of a class. -/
def memberSource? (className name : String) : Rename → Option String
  | .ofClass .. => none
  | .ofMember known bytecodeName sourceName =>
      if known = className ∧ bytecodeName = name then some sourceName else none

end Rename

namespace RenameTable

variable {table : RenameTable}

/-- The source name entered for a member under the bytecode name of its class. -/
def entered? (table : RenameTable) (className name : String) : Option String :=
  table.members[className]?.bind fun members => members[name]?

/-- The first entry of a member stays. -/
theorem entered?_addMember (className bytecodeName sourceName otherClass otherName : String) :
    (table.addMember className bytecodeName sourceName).entered? otherClass otherName =
      (table.entered? otherClass otherName).or
        (if className = otherClass ∧ bytecodeName = otherName then some sourceName
        else none) := by
  rw [entered?, addMember, ExtTreeMap.getElem?_alter, entered?]
  simp only [Std.LawfulEqCmp.compare_eq_iff_eq]
  by_cases sameClass : className = otherClass
  · subst sameClass
    rw [if_pos rfl, Option.bind_some, getElem?_insertIfNew_eq_or]
    cases table.members[className]? <;> simp
  · simp [sameClass]

/-- A member of a known class goes by the name entered for its whole signature, and else by
the one entered for its bare name. -/
theorem resolveMember_of_known
    {className known : String}
    (isKnown : (table.entered? className known).isSome)
    (signature : String) :
    table.resolveMember className signature =
      ((table.entered? className signature).or
        (table.entered? className (Signature.memberName signature))).getD signature := by
  simp only [entered?] at isKnown ⊢
  cases found : table.members[className]? with
  | none =>
      rw [found] at isKnown
      cases isKnown
  | some members =>
      have membersOf : table.membersOf className = members := by
        rw [RenameTable.membersOf, found]
      rw [resolveMember, membersOf]
      simp only [Option.bind_some]
      cases members[signature]? <;> rfl

/-- A member goes by the name entered for its bare name if there is none for its whole
signature. -/
theorem resolveMember_of_entered?
    {className signature sourceName : String}
    (noneForWhole : table.entered? className signature = none)
    (entered : table.entered? className (Signature.memberName signature) = some sourceName) :
    table.resolveMember className signature = sourceName := by
  have isKnown : (table.entered? className (Signature.memberName signature)).isSome := by
    rw [entered]
    rfl
  rw [resolveMember_of_known isKnown, noneForWhole, entered]
  rfl

def enter (table : RenameTable) : Rename → RenameTable
  | .ofClass bytecodeName sourceName => table.addClass bytecodeName sourceName
  | .ofMember className bytecodeName sourceName =>
      table.addMember className bytecodeName sourceName

/-- The last rename of a class counts. -/
theorem classes_enter (entry : Rename) (className : String) :
    (table.enter entry).classes[className]? =
      (entry.classSource? className).or table.classes[className]? := by
  cases entry with
  | ofClass bytecodeName sourceName =>
      rw [enter, addClass, Std.ExtTreeMap.getElem?_insert, Rename.classSource?]
      simp only [Std.LawfulEqCmp.compare_eq_iff_eq]
      split <;> rfl
  | ofMember className bytecodeName sourceName =>
      rfl

/-- The first rename of a member counts. -/
theorem entered?_enter (entry : Rename) (className name : String) :
    (table.enter entry).entered? className name =
      (table.entered? className name).or (entry.memberSource? className name) := by
  cases entry with
  | ofClass bytecodeName sourceName =>
      exact Option.or_none.symm
  | ofMember known bytecodeName sourceName =>
      exact entered?_addMember known bytecodeName sourceName className name

/-- The last entry for a class holds. -/
theorem classes_foldl_enter (entries : List Rename) (className : String) :
    (entries.foldl enter table).classes[className]? =
      (entries.reverse.findSome? (Rename.classSource? className)).or
        table.classes[className]? := by
  induction entries generalizing table with
  | nil =>
      rfl
  | cons entry rest inductionHypothesis =>
      rw [List.foldl_cons, inductionHypothesis, classes_enter, List.reverse_cons,
        List.findSome?_append, Option.or_assoc, List.findSome?_singleton]

/-- The first entry for a member holds. -/
theorem entered?_foldl_enter (entries : List Rename) (className name : String) :
    (entries.foldl enter table).entered? className name =
      (table.entered? className name).or
        (entries.findSome? (Rename.memberSource? className name)) := by
  induction entries generalizing table with
  | nil =>
      exact Option.or_none.symm
  | cons entry rest inductionHypothesis =>
      rw [List.foldl_cons, inductionHypothesis, entered?_enter, Option.or_assoc,
        List.findSome?_cons]
      cases entry.memberSource? className name <;> rfl

end RenameTable

namespace UsageRecord

variable {usage : UsageRecord}

/-- Recording a class as used records no member. -/
theorem usesMember_recordClass (known className signature : String) (kind : MemberKind) :
    (usage.recordClass known).usesMember className signature kind =
      usage.usesMember className signature kind := by
  cases kind <;> rfl

theorem mem_addSignature
    {table : ExtTreeMap String (ExtTreeSet String)}
    {className signature otherClass other : String} :
    other ∈ (addSignature className signature table)[otherClass]?.getD ∅ ↔
      (className = otherClass ∧ signature = other) ∨
        other ∈ table[otherClass]?.getD ∅ := by
  rw [addSignature, ExtTreeMap.getElem?_alter]
  simp only [Std.LawfulEqCmp.compare_eq_iff_eq]
  by_cases sameClass : className = otherClass
  · subst sameClass
    rw [if_pos rfl, Option.getD_some, ExtTreeSet.mem_insert]
    simp only [Std.LawfulEqCmp.compare_eq_iff_eq, true_and]
  · simp [sameClass]

/-- A member that is recorded is used like those before it. -/
theorem usesMember_recordMember
    {kind otherKind : MemberKind}
    {className signature otherClass other : String} :
    (usage.recordMember kind className signature).usesMember otherClass other otherKind ↔
      (kind = otherKind ∧ className = otherClass ∧ signature = other) ∨
        usage.usesMember otherClass other otherKind := by
  rw [usesMember, usesMember, ExtTreeSet.contains_iff_mem, ExtTreeSet.contains_iff_mem, members,
    members]
  cases kind <;> cases otherKind
  · rw [recordMember, ofKind, mem_addSignature]
    simp [ofKind, recordClass]
  · simp [recordMember, ofKind, recordClass]
  · simp [recordMember, ofKind, recordClass]
  · rw [recordMember, ofKind, mem_addSignature]
    simp [ofKind, recordClass]

theorem insert_comm (signatures : ExtTreeSet String) (first second : String) :
    (signatures.insert first).insert second = (signatures.insert second).insert first := by
  apply ExtTreeSet.ext_mem
  intro signature
  rw [ExtTreeSet.mem_insert, ExtTreeSet.mem_insert, ExtTreeSet.mem_insert,
    ExtTreeSet.mem_insert, or_left_comm]

/-- Signatures can be added in any order. -/
theorem addSignature_comm
    (table : ExtTreeMap String (ExtTreeSet String))
    (className signature otherClass other : String) :
    addSignature otherClass other (addSignature className signature table) =
      addSignature className signature (addSignature otherClass other table) := by
  apply ExtTreeMap.ext_getElem?
  intro name
  simp only [addSignature, ExtTreeMap.getElem?_alter, Std.LawfulEqCmp.compare_eq_iff_eq]
  by_cases isFirst : className = name <;> by_cases isSecond : otherClass = name
  · subst isFirst isSecond
    simp [insert_comm _ signature]
  · subst isFirst
    simp [isSecond]
  · subst isSecond
    simp [isFirst]
  · simp [isFirst, isSecond]

/-- The order of recording does not matter. -/
theorem recordMember_comm
    (kind otherKind : MemberKind)
    (className signature otherClass other : String) :
    (usage.recordMember kind className signature).recordMember otherKind otherClass other =
      (usage.recordMember otherKind otherClass other).recordMember kind className signature := by
  cases kind <;> cases otherKind <;>
    simp only [recordMember, recordClass, insert_comm _ className,
      addSignature_comm _ className signature]

end UsageRecord

namespace MappingText

/-- The members that sections list under the bytecode name of a class. -/
def entriesOf (sections : List Section) (className : String) : List MemberEntry :=
  (sections.filter fun part => part.bytecodeName == className).flatMap Section.members

variable (symbols : SymbolMap) (part : Section) (sections : List Section)

/-- What a section tells of. -/
def Section.renames (part : Section) : List Rename :=
  .ofClass part.bytecodeName part.sourceName ::
    part.members.map fun entry =>
      .ofMember part.bytecodeName entry.bytecodeName entry.sourceName

/-- Entering a section enters its renames and nothing else. -/
theorem enter_eq :
    part.enter symbols =
      { symbols with renames := part.renames.foldl RenameTable.enter symbols.renames } := by
  have members (symbols : SymbolMap) (entries : List MemberEntry) :
      entries.foldl
          (fun symbols entry =>
            symbols.addMember part.bytecodeName entry.bytecodeName entry.sourceName) symbols =
        { symbols with
          renames :=
            entries.foldl
              (fun table entry =>
                table.enter (.ofMember part.bytecodeName entry.bytecodeName entry.sourceName))
              symbols.renames } := by
    induction entries generalizing symbols with
    | nil =>
        rfl
    | cons entry rest inductionHypothesis =>
        exact inductionHypothesis _
  rw [Section.enter, members, Section.renames, List.foldl_cons, List.foldl_map]
  rfl

/-- Sections are entered rename by rename. -/
theorem foldl_enter_eq :
    sections.foldl Section.enter symbols =
      { symbols with
        renames := (sections.flatMap Section.renames).foldl RenameTable.enter symbols.renames } := by
  induction sections generalizing symbols with
  | nil =>
      rfl
  | cons part rest inductionHypothesis =>
      rw [List.foldl_cons, inductionHypothesis, enter_eq, List.flatMap_cons, List.foldl_append]

/-- Entering sections records no use. -/
theorem foldl_enter_usage :
    (sections.foldl Section.enter symbols).usage = symbols.usage := by
  rw [foldl_enter_eq]

/-- A section renames its own class. -/
theorem findSome?_classSource? (bytecodeName : String) :
    part.renames.reverse.findSome? (Rename.classSource? bytecodeName) =
      if part.bytecodeName == bytecodeName then some part.sourceName else none := by
  have noneOfMembers :
      (part.members.map fun entry =>
        Rename.ofMember part.bytecodeName entry.bytecodeName
          entry.sourceName).reverse.findSome? (Rename.classSource? bytecodeName) = none := by
    simp [List.findSome?_eq_none_iff, Rename.classSource?]
  rw [Section.renames, List.reverse_cons, List.findSome?_append, noneOfMembers, Option.none_or,
    List.findSome?_singleton]
  simp only [Rename.classSource?, beq_iff_eq]

/-- The last section of a bytecode name gives the source name of its class. -/
theorem foldl_enter_classes (bytecodeName : String) :
    (sections.foldl Section.enter symbols).renames.classes[bytecodeName]? =
      ((sections.reverse.find? fun part => part.bytecodeName == bytecodeName).map
        Section.sourceName).or symbols.renames.classes[bytecodeName]? := by
  have lastOf :
      (sections.flatMap Section.renames).reverse.findSome? (Rename.classSource? bytecodeName) =
        (sections.reverse.find? fun part => part.bytecodeName == bytecodeName).map
          Section.sourceName := by
    rw [List.reverse_flatMap, findSome?_flatMap]
    exact findSome?_eq_map_find? (fun part => findSome?_classSource? part bytecodeName) _
  rw [foldl_enter_eq, RenameTable.classes_foldl_enter, lastOf]

/-- A section renames the members of its class, each by its first entry. -/
theorem findSome?_memberSource? (className name : String) :
    part.renames.findSome? (Rename.memberSource? className name) =
      if part.bytecodeName == className then
        (part.members.find? fun entry => entry.bytecodeName == name).map MemberEntry.sourceName
      else none := by
  rw [Section.renames, List.findSome?_cons, List.findSome?_map]
  by_cases same : part.bytecodeName = className
  · simp only [same, beq_self_eq_true, if_true, Rename.memberSource?]
    apply findSome?_eq_map_find?
    intro entry
    simp [Rename.memberSource?]
  · simp [same, Rename.memberSource?]

/-- The first line for a member under its class gives its source name. -/
theorem foldl_enter_entered? (className name : String) :
    (sections.foldl Section.enter symbols).renames.entered? className name =
      (symbols.renames.entered? className name).or
        (((entriesOf sections className).find? fun entry => entry.bytecodeName == name).map
          MemberEntry.sourceName) := by
  have firstOf :
      (sections.flatMap Section.renames).findSome? (Rename.memberSource? className name) =
        ((entriesOf sections className).find? fun entry => entry.bytecodeName == name).map
          MemberEntry.sourceName := by
    rw [findSome?_flatMap, entriesOf, List.find?_flatMap, List.map_findSome?, findSome?_filter]
    exact congrArg (sections.findSome? ·)
      (funext fun part => findSome?_memberSource? part className name)
  rw [foldl_enter_eq, RenameTable.entered?_foldl_enter, firstOf]

end MappingText

namespace SymbolMap

variable {symbols : SymbolMap}

/-- Recording files records their references one after the other. -/
theorem recordSources_eq_foldl (sources : List SymbolSource) :
    symbols.recordSources sources =
      (sources.flatMap SymbolSource.references).foldl recordReference symbols := by
  rw [recordSources, List.foldl_flatMap]
  rfl

/-- After references are recorded, a member is used if it was or if it is referenced. -/
theorem usesMember_recordSources
    {sources : List SymbolSource}
    {kind : MemberKind}
    {className signature : String} :
    (symbols.recordSources sources).usage.usesMember className signature kind ↔
      (∃ source ∈ sources, ∃ reference ∈ source.references,
        reference.kind = kind ∧ Descriptor.className reference.className = className ∧
          reference.signature = signature) ∨
        symbols.usage.usesMember className signature kind := by
  have references (references : List MemberReference) :
      (references.foldl recordReference symbols).usage.usesMember className signature kind ↔
        (∃ reference ∈ references,
          reference.kind = kind ∧ Descriptor.className reference.className = className ∧
            reference.signature = signature) ∨
          symbols.usage.usesMember className signature kind := by
    induction references generalizing symbols with
    | nil =>
        simp
    | cons reference rest inductionHypothesis =>
        rw [List.foldl_cons, inductionHypothesis, recordReference, recordMember,
          UsageRecord.usesMember_recordMember, List.exists_mem_cons_iff, ← or_assoc]
        exact or_congr_left or_comm
  rw [recordSources_eq_foldl, references]
  simp only [List.mem_flatMap]
  constructor
  · rintro (⟨reference, ⟨source, inSources, inReferences⟩, same⟩ | before)
    · exact .inl ⟨source, inSources, reference, inReferences, same⟩
    · exact .inr before
  · rintro (⟨source, inSources, reference, inReferences, same⟩ | before)
    · exact .inl ⟨reference, ⟨source, inSources, inReferences⟩, same⟩
    · exact .inr before

/-- References can be recorded in any order. -/
theorem recordReference_comm
    (symbols : SymbolMap)
    (first second : MemberReference) :
    (symbols.recordReference first).recordReference second =
      (symbols.recordReference second).recordReference first := by
  simp only [recordReference, recordMember, UsageRecord.recordMember_comm first.kind]

/-- References can be recorded in any order. -/
theorem recordSources_eq_of_perm
    (symbols : SymbolMap)
    {sources others : List SymbolSource}
    (references :
      (sources.flatMap SymbolSource.references).Perm
        (others.flatMap SymbolSource.references)) :
    symbols.recordSources sources = symbols.recordSources others := by
  rw [recordSources_eq_foldl, recordSources_eq_foldl]
  exact references.foldl_eq'
    (fun first _ second _ known => recordReference_comm known first second) symbols

end SymbolMap

end ApkAtlas
