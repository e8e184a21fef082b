import ApkAtlas.Proofs.Symbols.History
import Mathlib.Logic.Relation

namespace ApkAtlas

/-!
# Histories of symbol maps

A symbol map is filled by calls that rename and calls that note use. What it answers is
determined by these calls: renames by their order, use by which calls there were. So threads
that share a map and only note use leave the same map behind, in whatever order their calls
come.
-/

/-- A call that notes the use of a class, and of one of its members if a signature is given. -/
structure Use where
  className : String
  signature : Option String := none
  kind : MemberKind := .method
deriving Repr, DecidableEq

/-- A call that changes a symbol map. -/
inductive Call where
  | enter (entry : Rename)
  | note (use : Use)
deriving Repr, DecidableEq

namespace Call

def rename? : Call → Option Rename
  | .enter entry => some entry
  | .note _ => none

def use? : Call → Option Use
  | .enter _ => none
  | .note use => some use

/-- The renames of some calls are those that are entered. -/
theorem mem_filterMap_rename? {entry : Rename} {calls : List Call} :
    entry ∈ calls.filterMap rename? ↔ .enter entry ∈ calls := by
  rw [List.mem_filterMap]
  constructor
  · rintro ⟨_ | _, member, found⟩ <;> cases found
    exact member
  · exact fun member => ⟨_, member, rfl⟩

/-- The uses of some calls are those that are noted. -/
theorem mem_filterMap_use? {use : Use} {calls : List Call} :
    use ∈ calls.filterMap use? ↔ .note use ∈ calls := by
  rw [List.mem_filterMap]
  constructor
  · rintro ⟨_ | _, member, found⟩ <;> cases found
    exact member
  · exact fun member => ⟨_, member, rfl⟩

/-- The source name that was last entered for a class. -/
def lastSource? (calls : List Call) (className : String) : Option String :=
  (calls.filterMap rename?).reverse.findSome? (Rename.classSource? className)

/-- The source name that was first entered for a member of a class. -/
def firstSource? (calls : List Call) (className name : String) : Option String :=
  (calls.filterMap rename?).findSome? (Rename.memberSource? className name)

end Call

namespace UsageRecord

variable {usage : UsageRecord}

def note (usage : UsageRecord) (use : Use) : UsageRecord :=
  match use.signature with
  | none => usage.recordClass use.className
  | some signature => usage.recordMember use.kind use.className signature

/-- A use is one of its class, and changes nothing for other classes. -/
theorem usesClass_note (use : Use) (className : String) :
    (usage.note use).usesClass className ↔
      use.className = className ∨ usage.usesClass className := by
  have inserted :
      (usage.classes.insert use.className).contains className ↔
        use.className = className ∨ usage.classes.contains className := by
    rw [Std.ExtTreeSet.contains_iff_mem, Std.ExtTreeSet.mem_insert,
      Std.LawfulEqCmp.compare_eq_iff_eq, Std.ExtTreeSet.contains_iff_mem]
  rcases use with ⟨known, _ | signature, _ | _⟩ <;> exact inserted

/-- A use is one of its member, and changes nothing for other members. -/
theorem usesMember_note
    (use : Use)
    (className signature : String)
    (kind : MemberKind) :
    (usage.note use).usesMember className signature kind ↔
      use = ⟨className, some signature, kind⟩ ∨ usage.usesMember className signature kind := by
  rcases use with ⟨known, _ | noted, knownKind⟩
  · rw [note, usesMember_recordClass]
    simp
  · rw [note, usesMember_recordMember]
    simp only [Use.mk.injEq, Option.some.injEq]
    tauto

/-- A member is used if that was noted. -/
theorem usesMember_foldl_note
    (uses : List Use)
    (className signature : String)
    (kind : MemberKind) :
    (uses.foldl note usage).usesMember className signature kind ↔
      ⟨className, some signature, kind⟩ ∈ uses ∨
        usage.usesMember className signature kind := by
  induction uses generalizing usage with
  | nil =>
      simp
  | cons use rest inductionHypothesis =>
      rw [List.foldl_cons, inductionHypothesis, usesMember_note, List.mem_cons, ← or_assoc]
      exact or_congr_left (or_comm.trans (or_congr_left eq_comm))

/-- A class is used if a use of it or of a member was noted. -/
theorem usesClass_foldl_note (uses : List Use) (className : String) :
    (uses.foldl note usage).usesClass className ↔
      (∃ use ∈ uses, use.className = className) ∨ usage.usesClass className := by
  induction uses generalizing usage with
  | nil =>
      simp
  | cons use rest inductionHypothesis =>
      rw [List.foldl_cons, inductionHypothesis, usesClass_note, List.exists_mem_cons_iff,
        ← or_assoc]
      exact or_congr_left or_comm

/-- Adding a signature again changes nothing. -/
theorem addSignature_again
    (className signature : String)
    (table : Std.ExtTreeMap String (Std.ExtTreeSet String)) :
    addSignature className signature (addSignature className signature table) =
      addSignature className signature table := by
  have again (signatures : Std.ExtTreeSet String) :
      (signatures.insert signature).insert signature = signatures.insert signature := by
    apply Std.ExtTreeSet.ext_mem
    intro other
    rw [Std.ExtTreeSet.mem_insert, Std.ExtTreeSet.mem_insert, or_self_left]
  apply Std.ExtTreeMap.ext_getElem?
  intro name
  simp only [addSignature, Std.ExtTreeMap.getElem?_alter, Std.LawfulEqCmp.compare_eq_iff_eq]
  by_cases same : className = name
  · subst same
    simp [again]
  · simp [same]

/-- Uses can be noted in any order. -/
theorem note_comm (first second : Use) :
    (usage.note first).note second = (usage.note second).note first := by
  rcases first with ⟨className, _ | signature, _ | _⟩ <;>
    rcases second with ⟨otherClass, _ | other, _ | _⟩ <;>
      simp only [note, recordMember, recordClass, insert_comm _ className,
        addSignature_comm _ className]

/-- Noting a use again changes nothing. -/
theorem note_again (use : Use) : (usage.note use).note use = usage.note use := by
  have again : (usage.classes.insert use.className).insert use.className =
      usage.classes.insert use.className := by
    apply Std.ExtTreeSet.ext_mem
    intro other
    rw [Std.ExtTreeSet.mem_insert, Std.ExtTreeSet.mem_insert, or_self_left]
  rcases use with ⟨className, _ | signature, _ | _⟩ <;>
    simp only [note, recordMember, recordClass, again, addSignature_again]

/-- Noting a use before others that contain it changes nothing. -/
theorem foldl_note_of_mem
    {uses : List Use}
    {use : Use}
    (member : use ∈ uses) :
    uses.foldl note (usage.note use) = uses.foldl note usage := by
  induction uses generalizing usage with
  | nil =>
      cases member
  | cons first rest inductionHypothesis =>
      rw [List.foldl_cons, List.foldl_cons]
      rcases List.mem_cons.mp member with rfl | inRest
      · rw [note_again]
      · rw [note_comm, inductionHypothesis inRest]

/-- Uses that are noted later can be noted before as well. -/
theorem foldl_note_append_of_subset
    {uses others : List Use}
    (subset : ∀ use ∈ uses, use ∈ others) :
    (uses ++ others).foldl note usage = others.foldl note usage := by
  induction uses with
  | nil =>
      rfl
  | cons first rest inductionHypothesis =>
      obtain ⟨inOthers, restInOthers⟩ := List.forall_mem_cons.mp subset
      have absorbed := inductionHypothesis restInOthers
      have member : first ∈ rest ++ others := List.mem_append_right rest inOthers
      rw [List.cons_append, List.foldl_cons, foldl_note_of_mem member, absorbed]

/-- What is used depends on which uses were noted, not on how often or in which order. -/
theorem foldl_note_eq_of_same
    {uses others : List Use}
    (same : ∀ use, use ∈ uses ↔ use ∈ others) :
    uses.foldl note usage = others.foldl note usage := by
  have swapped : (uses ++ others).foldl note usage = (others ++ uses).foldl note usage :=
    List.perm_append_comm.foldl_eq' (fun first _ second _ _ => note_comm first second) usage
  rwa [foldl_note_append_of_subset fun use => (same use).mp,
    foldl_note_append_of_subset fun use => (same use).mpr, eq_comm] at swapped

end UsageRecord

namespace SymbolMap

variable {symbols : SymbolMap}

/-- The map after a call. -/
def perform (symbols : SymbolMap) : Call → SymbolMap
  | .enter (.ofClass bytecodeName sourceName) => symbols.addClass bytecodeName sourceName
  | .enter (.ofMember className bytecodeName sourceName) =>
      symbols.addMember className bytecodeName sourceName
  | .note ⟨className, none, _⟩ => symbols.recordClass className
  | .note ⟨className, some signature, kind⟩ => symbols.recordMember kind className signature

theorem perform_enter (entry : Rename) :
    symbols.perform (.enter entry) = { symbols with renames := symbols.renames.enter entry } := by
  cases entry <;> rfl

theorem perform_note (use : Use) :
    symbols.perform (.note use) = { symbols with usage := symbols.usage.note use } := by
  rcases use with ⟨_, _ | _, _⟩ <;> rfl

/-- The two parts of a map are filled by two kinds of calls. -/
theorem foldl_perform (calls : List Call) :
    calls.foldl perform symbols =
      ⟨(calls.filterMap Call.rename?).foldl RenameTable.enter symbols.renames,
        (calls.filterMap Call.use?).foldl UsageRecord.note symbols.usage⟩ := by
  induction calls generalizing symbols with
  | nil =>
      rfl
  | cons call rest inductionHypothesis =>
      rw [List.foldl_cons, inductionHypothesis]
      cases call with
      | enter entry =>
          rw [perform_enter, List.filterMap_cons, List.filterMap_cons]
          rfl
      | note use =>
          rw [perform_note, List.filterMap_cons, List.filterMap_cons]
          rfl

/-- The map that some calls fill from the empty one. -/
def ofCalls (calls : List Call) : SymbolMap :=
  calls.foldl perform {}

/-- Only the renames among the calls make the rename table, in their order. -/
theorem renames_ofCalls (calls : List Call) :
    (ofCalls calls).renames = (calls.filterMap Call.rename?).foldl RenameTable.enter {} := by
  rw [ofCalls, foldl_perform]

/-- Only the uses among the calls make the record of usage. -/
theorem usage_ofCalls (calls : List Call) :
    (ofCalls calls).usage = (calls.filterMap Call.use?).foldl UsageRecord.note {} := by
  rw [ofCalls, foldl_perform]

/-- A map that answers from its calls. -/
structure Recalls (symbols : SymbolMap) (calls : List Call) : Prop where
  members : ∀ className kind signature,
    signature ∈ symbols.usage.members className kind ↔
      .note ⟨className, some signature, kind⟩ ∈ calls
  usesMember : ∀ className signature kind,
    symbols.usage.usesMember className signature kind ↔
      .note ⟨className, some signature, kind⟩ ∈ calls
  usesAnyMember : ∀ className signature,
    symbols.usage.usesAnyMember className signature ↔
      ∃ kind, .note ⟨className, some signature, kind⟩ ∈ calls
  usesClass : ∀ className,
    symbols.usage.usesClass className ↔
      ∃ signature kind, .note ⟨className, signature, kind⟩ ∈ calls
  resolveClass : ∀ className,
    symbols.resolveClass className = (Call.lastSource? calls className).getD className
  resolveMember : ∀ className name sourceName,
    .enter (.ofMember className name sourceName) ∈ calls →
    ∀ signature,
      symbols.resolveMember className signature =
        ((Call.firstSource? calls className signature).or
          (Call.firstSource? calls className (Signature.memberName signature))).getD signature

/-- A map answers as its calls tell. -/
theorem recalls_ofCalls (calls : List Call) : (ofCalls calls).Recalls calls := by
  have member (className signature : String) (kind : MemberKind) :
      (ofCalls calls).usage.usesMember className signature kind ↔
        .note ⟨className, some signature, kind⟩ ∈ calls := by
    have unused : ¬ ({} : UsageRecord).usesMember className signature kind := by
      cases kind <;> simp [UsageRecord.usesMember, UsageRecord.members, UsageRecord.ofKind]
    rw [usage_ofCalls, UsageRecord.usesMember_foldl_note, or_iff_left unused,
      Call.mem_filterMap_use?]
  have entered (className name : String) :
      (ofCalls calls).renames.entered? className name =
        Call.firstSource? calls className name := by
    rw [renames_ofCalls, RenameTable.entered?_foldl_enter]
    simp [RenameTable.entered?, Call.firstSource?]
  constructor
  · intro className kind signature
    rw [← member, UsageRecord.usesMember, Std.ExtTreeSet.contains_iff_mem]
  · exact member
  · intro className signature
    rw [UsageRecord.usesAnyMember, Bool.or_eq_true, member, member]
    constructor
    · rintro (ofMethod | ofField)
      · exact ⟨.method, ofMethod⟩
      · exact ⟨.field, ofField⟩
    · rintro ⟨_ | _, noted⟩
      · exact .inl noted
      · exact .inr noted
  · intro className
    have unused : ¬ ({} : UsageRecord).usesClass className := by
      simp [UsageRecord.usesClass]
    rw [usage_ofCalls, UsageRecord.usesClass_foldl_note, or_iff_left unused]
    constructor
    · rintro ⟨⟨_, signature, kind⟩, noted, rfl⟩
      exact ⟨signature, kind, Call.mem_filterMap_use?.mp noted⟩
    · rintro ⟨signature, kind, noted⟩
      exact ⟨_, Call.mem_filterMap_use?.mpr noted, rfl⟩
  · intro className
    rw [SymbolMap.resolveClass, RenameTable.resolveClass, renames_ofCalls,
      RenameTable.classes_foldl_enter]
    simp [Call.lastSource?]
  · intro className name sourceName isEntered signature
    have isKnown : ((ofCalls calls).renames.entered? className name).isSome := by
      rw [entered, Call.firstSource?, List.findSome?_isSome_iff]
      exact ⟨_, Call.mem_filterMap_rename?.mpr isEntered, by simp [Rename.memberSource?]⟩
    rw [SymbolMap.resolveMember, RenameTable.resolveMember_of_known isKnown, entered, entered]

end SymbolMap

/-- A symbol map that threads share. -/
structure SharedMap where
  symbols : SymbolMap
  /-- What each thread still has to note. -/
  threads : List (List Use)

namespace SharedMap

/-- Some thread makes its next call, undivided. -/
inductive Step : SharedMap → SharedMap → Prop
  | note
      (symbols : SymbolMap)
      (before after : List (List Use))
      (use : Use)
      (rest : List Use) :
      Step ⟨symbols, before ++ (use :: rest) :: after⟩
        ⟨symbols.perform (.note use), before ++ rest :: after⟩

/-- The map that is left if the threads make their calls one thread after the other. -/
def inTurn (state : SharedMap) : SymbolMap :=
  (state.threads.flatten.map Call.note).foldl SymbolMap.perform state.symbols

/-- Running the threads in turn notes their uses one after the other. -/
theorem inTurn_eq (state : SharedMap) :
    state.inTurn =
      { state.symbols with
        usage := state.threads.flatten.foldl UsageRecord.note state.symbols.usage } := by
  have renames : (state.threads.flatten.map Call.note).filterMap Call.rename? = [] := by
    simp [List.filterMap_map, Call.rename?, Function.comp_def]
  have uses :
      (state.threads.flatten.map Call.note).filterMap Call.use? = state.threads.flatten := by
    simp [List.filterMap_map, Call.use?, Function.comp_def]
  rw [inTurn, SymbolMap.foldl_perform, renames, uses]
  rfl

/-- It does not matter which thread goes on. -/
theorem Step.inTurn_eq
    {state next : SharedMap}
    (step : Step state next) :
    next.inTurn = state.inTurn := by
  cases step with
  | note symbols before after use rest =>
      have first :
          (use :: (before.flatten ++ (rest ++ after.flatten))).Perm
            (before.flatten ++ use :: (rest ++ after.flatten)) :=
        List.perm_middle.symm
      have same :=
        first.foldl_eq' (fun first _ second _ usage => UsageRecord.note_comm first second)
          symbols.usage
      rw [SharedMap.inTurn_eq, SharedMap.inTurn_eq, SymbolMap.perform_note]
      simp only [List.flatten_append, List.flatten_cons, List.cons_append]
      rw [← same, List.foldl_cons]

/-- However threads take turns, what is left to come to stays the same. -/
theorem inTurn_eq_of_run
    {state final : SharedMap}
    (run : Relation.ReflTransGen Step state final) :
    final.inTurn = state.inTurn := by
  induction run with
  | refl =>
      rfl
  | tail _ step inductionHypothesis =>
      rw [step.inTurn_eq, inductionHypothesis]

/-- Where all threads are done, nothing is left to come. -/
theorem inTurn_of_done
    {state : SharedMap}
    (done : ∀ thread ∈ state.threads, thread = []) :
    state.inTurn = state.symbols := by
  rw [inTurn, List.flatten_eq_nil_iff.mpr done]
  rfl

end SharedMap

namespace SymbolMap

/-- A map answers from its calls; renames depend on the calls that rename, and use on which
calls note use; and threads that note use leave behind the same map as if they came in turn. -/
theorem answers_of_calls :
    (∀ calls, (ofCalls calls).Recalls calls) ∧
    (∀ calls others : List Call,
      calls.filterMap Call.rename? = others.filterMap Call.rename? →
      (ofCalls calls).renames = (ofCalls others).renames) ∧
    (∀ calls others : List Call,
      (∀ use, .note use ∈ calls ↔ .note use ∈ others) →
      (ofCalls calls).usage = (ofCalls others).usage) ∧
    ∀ (calls : List Call) (threads : List (List Use)) (final : SharedMap),
      Relation.ReflTransGen SharedMap.Step ⟨ofCalls calls, threads⟩ final →
      (∀ thread ∈ final.threads, thread = []) →
      final.symbols = ofCalls (calls ++ threads.flatten.map .note) := by
  refine ⟨recalls_ofCalls, ?_, ?_, ?_⟩
  · intro calls others same
    rw [renames_ofCalls, renames_ofCalls, same]
  · intro calls others same
    rw [usage_ofCalls, usage_ofCalls]
    apply UsageRecord.foldl_note_eq_of_same
    intro use
    rw [Call.mem_filterMap_use?, Call.mem_filterMap_use?, same]
  · intro calls threads final run done
    rw [← SharedMap.inTurn_of_done done, SharedMap.inTurn_eq_of_run run, SharedMap.inTurn,
      ofCalls, ofCalls, List.foldl_append]

/-- Two renames of one class, three of members with one bare name, and two uses. -/
def mixedCalls : List Call :=
  [ .note ⟨"p.C", some "m()V", .method⟩,
    .enter (.ofClass "a" "p.Old"),
    .enter (.ofMember "a" "b" "run"),
    .enter (.ofMember "a" "b" "inlined"),
    .enter (.ofMember "a" "b(I)V" "whole"),
    .note ⟨"p.D", none, .method⟩,
    .enter (.ofClass "a" "p.C") ]

/-- The same renames with the uses repeated and in another order. -/
def reorderedCalls : List Call :=
  [ .enter (.ofClass "a" "p.Old"),
    .note ⟨"p.D", none, .method⟩,
    .enter (.ofMember "a" "b" "run"),
    .enter (.ofMember "a" "b" "inlined"),
    .note ⟨"p.C", some "m()V", .method⟩,
    .enter (.ofMember "a" "b(I)V" "whole"),
    .enter (.ofClass "a" "p.C"),
    .note ⟨"p.D", none, .method⟩ ]

/-- Two threads, of which the second goes on between the calls of the first. -/
def takenTurns : List (List Use) :=
  [[⟨"p.C", some "x:I", .field⟩, ⟨"p.E", none, .method⟩], [⟨"p.C", some "x:I", .method⟩]]

/-- Calls in two orders and by two threads come to the same answers. -/
theorem mixedCalls_answered :
    (ofCalls mixedCalls).resolveMember "a" "b()V" = "run" ∧
      (ofCalls mixedCalls).resolveMember "a" "b(I)V" = "whole" ∧
      (ofCalls mixedCalls).resolveMember "a" "c:I" = "c:I" ∧
      (ofCalls mixedCalls).renames = (ofCalls reorderedCalls).renames ∧
      (ofCalls mixedCalls).usage = (ofCalls reorderedCalls).usage ∧
      ∃ final,
        Relation.ReflTransGen SharedMap.Step ⟨ofCalls mixedCalls, takenTurns⟩ ⟨final, [[], []]⟩ ∧
          final = ofCalls (mixedCalls ++ takenTurns.flatten.map .note) := by
  obtain ⟨recalls, renamed, used, threads⟩ := answers_of_calls
  have isEntered : .enter (.ofMember "a" "b" "run") ∈ mixedCalls := by
    decide
  have resolved := (recalls mixedCalls).resolveMember _ _ _ isEntered
  have run :
      Relation.ReflTransGen SharedMap.Step ⟨ofCalls mixedCalls, takenTurns⟩
        ⟨_, [[], []]⟩ :=
    .tail (.tail (.tail .refl (.note _ [] _ _ _)) (.note _ [_] [] _ _)) (.note _ [] _ _ _)
  refine ⟨?_, ?_, ?_, renamed _ _ (by decide), used _ _ ?_, _, run, threads _ _ _ run (by simp)⟩
  · rw [resolved]
    decide
  · rw [resolved]
    decide
  · rw [resolved]
    decide
  · intro use
    simp only [mixedCalls, reorderedCalls, List.mem_cons, List.not_mem_nil, reduceCtorEq,
      false_or, or_false]
    tauto

end SymbolMap

end ApkAtlas
