import ApkAtlas.Proofs.Except
import ApkAtlas.Proofs.Symbols.History
import ApkAtlas.Proofs.Table

namespace ApkAtlas

/-!
# What an accepted mapping text says

However the lines of a text are written, a map that is read from them without a failure answers
from its class lines and from the member lines below them. A class goes by the source name on its
line. A member is looked up among the lines under the name of its class, or, where that name has
none, under the name in bytecode of the class that has it for its source name.
-/

open Std (ExtTreeMap)

namespace Rename

/-- The names of the class that an entry is about, the one in bytecode first. -/
def class? : Rename → Option (String × String)
  | .ofClass bytecodeName sourceName => some (bytecodeName, sourceName)
  | .ofMember .. => none

/-- The names of the member of a class that an entry is about, the one in bytecode first. -/
def member? (className : String) : Rename → Option (String × String)
  | .ofClass .. => none
  | .ofMember known bytecodeName sourceName =>
      if known = className then some (bytecodeName, sourceName) else none

/-- The name in bytecode that is entered for a source name. -/
def bytecodeName? (name : String) : Rename → Option String
  | .ofClass bytecodeName sourceName => if sourceName = name then some bytecodeName else none
  | .ofMember .. => none

end Rename

namespace RenameTable

variable {table : RenameTable}

/-- The name whose member lines answer for a class: its own if it has member lines, and else
the first name in bytecode that was entered for it. -/
def answering (table : RenameTable) (className : String) : String :=
  match table.members[className]? with
  | some _ => className
  | none => table.bytecodeNames[className]?.getD className

/-- The members of a class name are those of the class that answers for it. -/
theorem getElem?_membersOf
    {className : String}
    (named : table.bytecodeNames[className]? ≠ some "")
    (name : String) :
    (table.membersOf className)[name]? = table.entered? (table.answering className) name := by
  rw [membersOf, answering]
  cases own : table.members[className]? with
  | some members =>
      simp [entered?, own]
  | none =>
      cases found : table.bytecodeNames[className]? with
      | none =>
          simp [entered?, own]
      | some bytecodeName =>
          have notEmpty : bytecodeName ≠ "" := by
            rintro rfl
            exact named found
          simp only [Option.getD_some]
          rw [entered?]
          cases table.members[bytecodeName]? <;> simp

/-- A member goes by the name entered for its whole signature under the answering name, else by
the one for its bare name, and else by its signature. -/
theorem resolveMember_eq
    {className : String}
    (named : table.bytecodeNames[className]? ≠ some "")
    (signature : String) :
    table.resolveMember className signature =
      ((table.entered? (table.answering className) signature).or
        (table.entered? (table.answering className) (Signature.memberName signature))).getD
          signature := by
  rw [resolveMember, ← getElem?_membersOf named, ← getElem?_membersOf named]
  cases (table.membersOf className)[signature]? <;> rfl

/-- The first rename to a class name counts for the way back. -/
theorem bytecodeNames_enter (entry : Rename) (name : String) :
    (table.enter entry).bytecodeNames[name]? =
      table.bytecodeNames[name]?.or (entry.bytecodeName? name) := by
  cases entry with
  | ofClass bytecodeName sourceName =>
      exact getElem?_insertIfNew_eq_or table.bytecodeNames sourceName bytecodeName name
  | ofMember className bytecodeName sourceName =>
      exact Option.or_none.symm

/-- A class has members if one of its renames is of a member. -/
theorem isSome_members_enter (entry : Rename) (className : String) :
    (table.enter entry).members[className]?.isSome =
      (table.members[className]?.isSome || (entry.member? className).isSome) := by
  cases entry with
  | ofClass bytecodeName sourceName =>
      exact (Bool.or_false _).symm
  | ofMember known bytecodeName sourceName =>
      rw [enter, addMember, ExtTreeMap.getElem?_alter, Rename.member?]
      simp only [Std.LawfulEqCmp.compare_eq_iff_eq]
      by_cases same : known = className <;> simp [same]

/-- The first entry for a source name holds. -/
theorem bytecodeNames_foldl_enter (entries : List Rename) (name : String) :
    (entries.foldl enter table).bytecodeNames[name]? =
      table.bytecodeNames[name]?.or (entries.findSome? (Rename.bytecodeName? name)) := by
  induction entries generalizing table with
  | nil =>
      exact Option.or_none.symm
  | cons entry rest inductionHypothesis =>
      rw [List.foldl_cons, inductionHypothesis, bytecodeNames_enter, Option.or_assoc,
        List.findSome?_cons]
      cases entry.bytecodeName? name <;> rfl

/-- A class has members if an entry is about one of them. -/
theorem isSome_members_foldl_enter (entries : List Rename) (className : String) :
    (entries.foldl enter table).members[className]?.isSome =
      (table.members[className]?.isSome ||
        !(entries.filterMap (Rename.member? className)).isEmpty) := by
  induction entries generalizing table with
  | nil =>
      simp
  | cons entry rest inductionHypothesis =>
      rw [List.foldl_cons, inductionHypothesis, isSome_members_enter, List.filterMap_cons,
        Bool.or_assoc]
      cases entry.member? className <;> rfl

end RenameTable

namespace MappingText

/-- What lines tell, if the section of a class is open in front of them. -/
def toldFrom (openClass : Option String) : List String → List Rename
  | [] => []
  | raw :: rest =>
      match readLine raw with
      | .ok (.classEntry sourceName bytecodeName) =>
          .ofClass bytecodeName sourceName :: toldFrom (some bytecodeName) rest
      | .ok (.memberEntry sourceName bytecodeName) =>
          match openClass with
          | some className =>
              .ofMember className bytecodeName sourceName :: toldFrom openClass rest
          | none => toldFrom openClass rest
      | _ => toldFrom openClass rest

/-- The class lines of a text, each with the name in bytecode first. -/
def classLines (lines : List String) : List (String × String) :=
  (toldFrom none lines).filterMap Rename.class?

/-- The member lines that are listed under the name of a class in bytecode, each with the name in
bytecode first. -/
def memberLines (lines : List String) (className : String) : List (String × String) :=
  (toldFrom none lines).filterMap (Rename.member? className)

/-- The source name that member lines give: that of the first line for the whole signature, else
of the first one for the bare name, and else the signature itself. -/
def sourceNameIn (members : List (String × String)) (signature : String) : String :=
  ((Table.get? signature members).or
    (Table.get? (Signature.memberName signature) members)).getD signature

/-- Class lines agree on a name in bytecode exactly if they agree on the source name. -/
def OneToOne (classes : List (String × String)) : Prop :=
  ∀ first ∈ classes, ∀ second ∈ classes, first.1 = second.1 ↔ first.2 = second.2

instance (classes : List (String × String)) : Decidable (OneToOne classes) :=
  inferInstanceAs (Decidable (∀ first ∈ classes, ∀ second ∈ classes, _))

section Told

/-- Lines that are all accepted are entered one by one. -/
theorem renames_of_fill
    {lines : List String}
    {number : Nat}
    {reading : Reading}
    {symbols : SymbolMap}
    (filled : fill number reading lines = (symbols, none)) :
    symbols.renames =
      (toldFrom reading.openClass lines).foldl RenameTable.enter reading.symbols.renames := by
  induction lines generalizing number reading with
  | nil =>
      cases filled
      rfl
  | cons raw rest inductionHypothesis =>
      rw [fill] at filled
      split at filled
      · cases filled
      · rename_i next stepped
        rw [inductionHypothesis filled]
        obtain ⟨line, read, entered⟩ := exists_of_bind_eq_ok stepped
        rw [toldFrom, read]
        cases line with
        | blank =>
            cases entered
            rfl
        | classEntry sourceName bytecodeName =>
            cases entered
            rfl
        | memberEntry sourceName bytecodeName =>
            simp only [Reading.enter] at entered
            split at entered
            · cases entered
            · rename_i className isOpen
              cases entered
              rw [isOpen]
              rfl

/-- An accepted text is read without an error. -/
theorem parse_of_isNone
    {symbols : SymbolMap}
    {source : String}
    {lines : List String}
    (accepted : (parse symbols source lines).2.isNone) :
    parse symbols source lines = ((parse symbols source lines).1, none) :=
  Prod.ext rfl (Option.isNone_iff_eq_none.mp accepted)

/-- The renames of an accepted text are those that it tells. -/
theorem renames_of_parse
    {lines : List String}
    {source : String}
    {symbols : SymbolMap}
    (read : parse {} source lines = (symbols, none)) :
    symbols.renames = (toldFrom none lines).foldl RenameTable.enter {} := by
  rw [parse] at read
  split at read
  · rename_i filled
    cases read
    exact renames_of_fill filled
  · cases read

/-- No line of a class has an empty name. -/
theorem ne_empty_of_classLine?
    {line : List Char}
    {sourceName bytecodeName : String}
    (read : classLine? line = some (.classEntry sourceName bytecodeName)) :
    bytecodeName ≠ "" := by
  simp only [classLine?, Option.bind_eq_bind, Option.bind_eq_some_iff] at read
  obtain ⟨_, _, target, _, read⟩ := read
  split at read
  · cases read
    rw [ne_eq, ← String.toList_inj, String.toList_ofList]
    simp
  · cases read

/-- No line of a member is one of a class. -/
theorem memberLine?_ne_classEntry (line : List Char) (sourceName bytecodeName : String) :
    memberLine? line ≠ some (.classEntry sourceName bytecodeName) := by
  intro read
  simp only [memberLine?, Option.bind_eq_bind, Option.bind_eq_some_iff] at read
  obtain ⟨_, _, _, _, _, _, _, _, _, _, read⟩ := read
  split at read <;> cases read

/-- The class on a line has a name in bytecode. -/
theorem ne_empty_of_readLine
    {raw sourceName bytecodeName : String}
    (read : readLine raw = .ok (.classEntry sourceName bytecodeName)) :
    bytecodeName ≠ "" := by
  rw [readLine_eq] at read
  split at read
  · split at read
    · cases read
    · split at read
      · split at read
        · rename_i found
          cases read
          exact absurd found (memberLine?_ne_classEntry _ _ _)
        · cases read
      · split at read
        · rename_i found
          cases read
          exact ne_empty_of_classLine? found
        · cases read
  · cases read

variable {openClass : Option String} {lines : List String}

theorem ne_empty_of_mem_toldFrom
    {sourceName bytecodeName : String}
    (told : .ofClass bytecodeName sourceName ∈ toldFrom openClass lines) :
    bytecodeName ≠ "" := by
  fun_induction toldFrom openClass lines with
  | case1 =>
      cases told
  | case2 openClass raw rest sourceOfLine nameOfLine read inductionHypothesis =>
      rcases List.mem_cons.mp told with same | inRest
      · cases same
        exact ne_empty_of_readLine read
      · exact inductionHypothesis inRest
  | case3 raw rest sourceOfLine nameOfLine read className inductionHypothesis =>
      rcases List.mem_cons.mp told with same | inRest
      · cases same
      · exact inductionHypothesis inRest
  | case4 raw rest sourceOfLine nameOfLine read inductionHypothesis =>
      exact inductionHypothesis told
  | case5 openClass raw rest noClass noMember inductionHypothesis =>
      exact inductionHypothesis told

/-- Member lines stand in the section of a class. -/
theorem exists_class_of_mem_toldFrom
    {className sourceName bytecodeName : String}
    (told : .ofMember className bytecodeName sourceName ∈ toldFrom openClass lines) :
    openClass = some className ∨
      ∃ sourceOfClass, .ofClass className sourceOfClass ∈ toldFrom openClass lines := by
  fun_induction toldFrom openClass lines with
  | case1 =>
      cases told
  | case2 openClass raw rest sourceOfLine nameOfLine read inductionHypothesis =>
      right
      rcases List.mem_cons.mp told with same | inRest
      · cases same
      · rcases inductionHypothesis inRest with isOpen | ⟨sourceOfClass, inLines⟩
        · cases isOpen
          exact ⟨sourceOfLine, List.mem_cons_self⟩
        · exact ⟨sourceOfClass, List.mem_cons_of_mem _ inLines⟩
  | case3 raw rest sourceOfLine nameOfLine read known inductionHypothesis =>
      rcases List.mem_cons.mp told with same | inRest
      · cases same
        exact .inl rfl
      · refine (inductionHypothesis inRest).imp_right ?_
        rintro ⟨sourceOfClass, inLines⟩
        exact ⟨sourceOfClass, List.mem_cons_of_mem _ inLines⟩
  | case4 raw rest sourceOfLine nameOfLine read inductionHypothesis =>
      exact inductionHypothesis told
  | case5 openClass raw rest noClass noMember inductionHypothesis =>
      exact inductionHypothesis told

end Told

section Answers

variable {lines : List String} {source : String} {symbols : SymbolMap}

theorem mem_classLines
    {names : String × String} :
    names ∈ classLines lines ↔ .ofClass names.1 names.2 ∈ toldFrom none lines := by
  rw [classLines, List.mem_filterMap]
  constructor
  · rintro ⟨entry, told, about⟩
    cases entry with
    | ofClass bytecodeName sourceName =>
        cases about
        exact told
    | ofMember className bytecodeName sourceName =>
        cases about
  · intro told
    exact ⟨_, told, rfl⟩

/-- What is found for a class name stands on one of its lines. -/
theorem mem_classLines_of_get?
    {sourceName bytecodeName : String}
    (found : Table.get? sourceName ((classLines lines).map Prod.swap) = some bytecodeName) :
    (bytecodeName, sourceName) ∈ classLines lines := by
  obtain ⟨names, isClass, same⟩ := List.mem_map.mp (Table.mem_of_get? found)
  obtain ⟨rfl, rfl⟩ := Prod.mk.inj same
  exact isClass

/-- A class with member lines has a class line. -/
theorem exists_classLine
    {className : String}
    (some_lines : memberLines lines className ≠ []) :
    ∃ sourceName, (className, sourceName) ∈ classLines lines := by
  obtain ⟨names, member⟩ := List.exists_mem_of_ne_nil _ some_lines
  obtain ⟨entry, told, about⟩ := List.mem_filterMap.mp member
  cases entry with
  | ofClass bytecodeName sourceName =>
      cases about
  | ofMember known bytecodeName sourceName =>
      rw [Rename.member?] at about
      split at about
      · rename_i same
        subst same
        rcases exists_class_of_mem_toldFrom told with isOpen | ⟨sourceName, inLines⟩
        · cases isOpen
        · exact ⟨sourceName, mem_classLines.mpr inLines⟩
      · cases about

/-- The first entry of a member counts in its table. -/
theorem get?_members (entries : List Rename) (className name : String) :
    Table.get? name (entries.filterMap (Rename.member? className)) =
      entries.findSome? (Rename.memberSource? className name) := by
  induction entries with
  | nil =>
      rfl
  | cons entry rest inductionHypothesis =>
      rw [List.findSome?_cons, ← inductionHypothesis]
      cases entry with
      | ofClass bytecodeName sourceName =>
          rfl
      | ofMember known bytecodeName sourceName =>
          by_cases sameClass : known = className
          · by_cases sameName : bytecodeName = name <;>
              simp [Rename.member?, Rename.memberSource?, Table.get?, sameClass, sameName]
          · simp [Rename.member?, Rename.memberSource?, sameClass]

/-- The first entry of a class counts in the table of the way back. -/
theorem get?_classes (entries : List Rename) (name : String) :
    Table.get? name ((entries.filterMap Rename.class?).map Prod.swap) =
      entries.findSome? (Rename.bytecodeName? name) := by
  induction entries with
  | nil =>
      rfl
  | cons entry rest inductionHypothesis =>
      rw [List.findSome?_cons, ← inductionHypothesis]
      cases entry with
      | ofClass bytecodeName sourceName =>
          by_cases same : sourceName = name <;>
            simp [Rename.class?, Rename.bytecodeName?, Table.get?, same]
      | ofMember known bytecodeName sourceName =>
          rfl

/-- The name whose member lines answer for a name: itself if it has some, and else the name in
bytecode on the first class line that has it for the source name. -/
def speaker (lines : List String) (name : String) : String :=
  if memberLines lines name = [] then
    (Table.get? name ((classLines lines).map Prod.swap)).getD name
  else
    name

/-- The way back from a class name is that of its first line. -/
theorem bytecodeNames_of_parse
    (read : parse {} source lines = (symbols, none))
    (name : String) :
    symbols.renames.bytecodeNames[name]? =
      Table.get? name ((classLines lines).map Prod.swap) := by
  have noneBefore : ({} : RenameTable).bytecodeNames[name]? = none := by
    simp
  rw [renames_of_parse read, RenameTable.bytecodeNames_foldl_enter, noneBefore, Option.none_or,
    classLines, get?_classes]

/-- The class that answers for a name is the one that the text tells. -/
theorem answering_of_parse
    (read : parse {} source lines = (symbols, none))
    (name : String) :
    symbols.renames.answering name = speaker lines name := by
  have known :
      symbols.renames.members[name]?.isSome = !(memberLines lines name).isEmpty := by
    have noneBefore : ({} : RenameTable).members[name]?.isSome = false := by
      simp
    rw [renames_of_parse read, RenameTable.isSome_members_foldl_enter, noneBefore,
      Bool.false_or, memberLines]
  rw [RenameTable.answering, speaker, bytecodeNames_of_parse read]
  cases own : symbols.renames.members[name]? with
  | none =>
      have noLines : memberLines lines name = [] := by
        simpa [own] using known
      rw [if_pos noLines]
  | some members =>
      have someLines : memberLines lines name ≠ [] := by
        simpa [own] using known
      rw [if_neg someLines]

/-- The members of a class are those that the text tells. -/
theorem entered?_of_parse
    (read : parse {} source lines = (symbols, none))
    (className name : String) :
    symbols.renames.entered? className name = Table.get? name (memberLines lines className) := by
  have noneBefore : ({} : RenameTable).entered? className name = none := by
    simp [RenameTable.entered?]
  rw [renames_of_parse read, RenameTable.entered?_foldl_enter, noneBefore, Option.none_or,
    memberLines, get?_members]

/-- A lookup answers from member lines. -/
theorem resolveMember_of_parse
    (read : parse {} source lines = (symbols, none))
    (name signature : String) :
    symbols.resolveMember name signature =
      sourceNameIn (memberLines lines (speaker lines name)) signature := by
  have named : symbols.renames.bytecodeNames[name]? ≠ some "" := by
    rw [bytecodeNames_of_parse read]
    intro found
    exact ne_empty_of_mem_toldFrom (mem_classLines.mp (mem_classLines_of_get? found)) rfl
  rw [SymbolMap.resolveMember, RenameTable.resolveMember_eq named, answering_of_parse read,
    entered?_of_parse read, entered?_of_parse read, sourceNameIn]

/-- A class goes by the source name on its line. -/
theorem resolveClass_of_parse
    (read : parse {} source lines = (symbols, none))
    (oneToOne : OneToOne (classLines lines))
    {bytecodeName sourceName : String}
    (isClass : (bytecodeName, sourceName) ∈ classLines lines) :
    symbols.resolveClass bytecodeName = sourceName := by
  have noneBefore : ({} : RenameTable).classes[bytecodeName]? = none := by
    simp
  rw [SymbolMap.resolveClass, RenameTable.resolveClass, renames_of_parse read,
    RenameTable.classes_foldl_enter, noneBefore, Option.or_none]
  cases found :
      (toldFrom none lines).reverse.findSome? (Rename.classSource? bytecodeName) with
  | none =>
      have told := List.mem_reverse.mpr (mem_classLines.mp isClass)
      have missing := List.findSome?_eq_none_iff.mp found _ told
      simp [Rename.classSource?] at missing
  | some other =>
      obtain ⟨entry, told, about⟩ := List.exists_of_findSome?_eq_some found
      cases entry with
      | ofClass known otherSource =>
          rw [Rename.classSource?] at about
          split at about
          · rename_i same
            cases about
            subst same
            have alsoClass : (known, other) ∈ classLines lines :=
              mem_classLines.mpr (List.mem_reverse.mp told)
            exact (oneToOne _ alsoClass _ isClass).mp rfl
          · cases about
      | ofMember known _ _ =>
          cases about

end Answers

end MappingText

end ApkAtlas
