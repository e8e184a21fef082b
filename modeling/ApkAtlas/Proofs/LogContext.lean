import ApkAtlas.Proofs.Logged
import ApkAtlas.Proofs.Table

namespace ApkAtlas

/-!
# Bound context

A block binds values under some keys and takes them away at its end, and what it had covered is
bound again. So the context behind a block is the one before it, up to the order of its keys, as
long as what runs in the block leaves the context as it was. A script is any nesting of such
blocks in which errors are raised and caught at any point: `Script.keepsContext_run`.

A computation whose blocks are not nested goes through them one after another, and of each record
it is known in which block it was emitted and what was bound then: `Passes.contexts`.
-/

namespace LogValues

section Merging

variable {earlier later : LogValues} {key : String}

/-- Values are merged one after the other. -/
theorem merge_cons (earlier : LogValues) (first : String × Datum) (rest : LogValues) :
    merge earlier (first :: rest) = merge (Table.put first.1 first.2 earlier) rest :=
  rfl

/-- A key that the later values lack keeps its earlier value. -/
theorem get?_merge_of_not_mem (absent : key ∉ later.map Prod.fst) :
    Table.get? key (merge earlier later) = Table.get? key earlier := by
  induction later generalizing earlier with
  | nil =>
      rfl
  | cons first rest inductionHypothesis =>
      rw [List.map_cons, List.mem_cons, not_or] at absent
      rw [merge_cons, inductionHypothesis absent.2]
      exact Table.get?_put_of_ne absent.1 _ _

/-- Merging keeps the keys different. -/
theorem nodup_merge (different : (earlier.map Prod.fst).Nodup) (later : LogValues) :
    ((merge earlier later).map Prod.fst).Nodup := by
  induction later generalizing earlier with
  | nil =>
      exact different
  | cons first rest inductionHypothesis =>
      exact inductionHypothesis (Table.nodup_put different first.1 first.2)

/-- Values under new keys are put behind the others. -/
theorem merge_of_apart
    (different : (later.map Prod.fst).Nodup)
    (apart : ∀ key ∈ later.map Prod.fst, key ∉ earlier.map Prod.fst) :
    merge earlier later = earlier ++ later := by
  induction later generalizing earlier with
  | nil =>
      exact (List.append_nil earlier).symm
  | cons first rest inductionHypothesis =>
      obtain ⟨new, different⟩ := List.nodup_cons.mp different
      obtain ⟨ofFirst, ofRest⟩ := List.forall_mem_cons.mp apart
      have added : Table.put first.1 first.2 earlier = earlier ++ [first] :=
        Table.put_of_get?_eq_none (Table.get?_eq_none_of_not_mem ofFirst) first.2
      rw [merge_cons, added, inductionHypothesis different, List.append_assoc,
        List.singleton_append]
      intro key member
      rw [List.map_append, List.mem_append, not_or]
      refine ⟨ofRest key member, ?_⟩
      intro same
      exact new (List.mem_singleton.mp same ▸ member)

/-- A value under one of the keys that are left out does not show. -/
theorem filter_put
    {keys : List String}
    (member : key ∈ keys)
    (value : Datum)
    (table : LogValues) :
    (Table.put key value table).filter (fun bound => !keys.contains bound.1) =
      table.filter fun bound => !keys.contains bound.1 := by
  induction table with
  | nil =>
      simp [Table.put, member]
  | cons first rest inductionHypothesis =>
      obtain ⟨known, old⟩ := first
      by_cases same : known = key
      · subst same
        simp [Table.put, member]
      · rw [Table.put, if_neg same, List.filter_cons, List.filter_cons, inductionHypothesis]

/-- Taking keys away undoes what was put under them. -/
theorem filter_merge
    {keys : List String}
    (covered : ∀ key ∈ later.map Prod.fst, key ∈ keys) :
    (merge earlier later).filter (fun bound => !keys.contains bound.1) =
      earlier.filter fun bound => !keys.contains bound.1 := by
  induction later generalizing earlier with
  | nil =>
      rfl
  | cons first rest inductionHypothesis =>
      obtain ⟨ofFirst, ofRest⟩ := List.forall_mem_cons.mp covered
      rw [merge_cons, inductionHypothesis ofRest, filter_put ofFirst]

end Merging

end LogValues

/-! ## Records -/

namespace LogRecord

/-- Writing offsets as text changes no other value. -/
theorem mem_formatOffsets_iff
    {values : LogValues}
    {key : String}
    (noOffset : key ∉ LogValues.offsetKeys)
    (value : Datum) :
    (key, value) ∈ LogValues.formatOffsets values ↔ (key, value) ∈ values := by
  have sameKey (bound : String × Datum) : (LogValues.formatOffset bound).1 = bound.1 := by
    rw [LogValues.formatOffset.eq_def]
    split
    · split <;> rfl
    · rfl
  have unchanged (bound : String × Datum) (ofKey : bound.1 = key) :
      LogValues.formatOffset bound = bound := by
    obtain ⟨_, old⟩ := bound
    cases ofKey
    cases old with
    | int _ => rw [LogValues.formatOffset, if_neg (by simpa using noOffset)]
    | _ => rfl
  rw [LogValues.formatOffsets, List.mem_map]
  constructor
  · rintro ⟨bound, member, formatted⟩
    have ofKey : bound.1 = key := by
      rw [← sameKey bound, formatted]
    rw [unchanged bound ofKey] at formatted
    rwa [← formatted]
  · intro member
    exact ⟨_, member, unchanged _ rfl⟩

/-- A context key that an event gives no value of its own for has the bound value in the record, if
there is one. -/
theorem mem_values_make_iff
    {context values : LogValues}
    {key : String}
    (different : (context.map Prod.fst).Nodup)
    (isContextKey : key ∈ Journal.contextKeys)
    (absent : key ∉ values.map Prod.fst)
    (level : LogLevel)
    (event : String)
    (value : Datum) :
    (key, value) ∈ (make context level event values).values ↔ (key, value) ∈ context := by
  have apart :
      ∀ key ∈ Journal.contextKeys,
        key ∉ ["event"] ∧ key ∉ ["level"] ∧ key ∉ LogValues.offsetKeys := by
    decide
  obtain ⟨notEvent, notLevel, noOffset⟩ := apart key isContextKey
  have notOwn : key ∉ (LogValues.merge values [("event", .text event)]).map Prod.fst := by
    rw [Table.mem_keys_iff, not_not, LogValues.get?_merge_of_not_mem notEvent]
    exact Table.get?_eq_none_of_not_mem absent
  rw [make, mem_formatOffsets_iff noOffset, ← Table.get?_eq_some_iff,
    LogValues.get?_merge_of_not_mem notLevel, LogValues.get?_merge_of_not_mem notOwn,
    Table.get?_eq_some_iff different]
  exact LogValues.nodup_merge (LogValues.nodup_merge different _) _

end LogRecord

/-! ## Blocks -/

namespace Journal

variable {journal inside : Journal} {values : LogValues}

/-- Leaving a block drops the values of its keys and puts the earlier ones back. -/
theorem context_leave (inside : Journal) (before values : LogValues) :
    (inside.leave before values).context =
      LogValues.merge
        (inside.context.filter fun bound => !(values.map Prod.fst).contains bound.1)
        (before.filter fun bound => (values.map Prod.fst).contains bound.1) :=
  rfl

/-- Leaving a block restores the context, if what ran in it did. -/
theorem context_leave_perm
    (different : (journal.context.map Prod.fst).Nodup)
    (restored : inside.context.Perm (journal.enter values).context) :
    (inside.leave journal.context values).context.Perm journal.context := by
  have others :
      (inside.context.filter fun bound => !(values.map Prod.fst).contains bound.1).Perm
        (journal.context.filter fun bound => !(values.map Prod.fst).contains bound.1) := by
    have kept := restored.filter fun bound => !(values.map Prod.fst).contains bound.1
    rwa [enter, bind, LogValues.filter_merge fun key member => member] at kept
  rw [context_leave, LogValues.merge_of_apart]
  · exact (others.append_right _).trans
      (List.perm_append_comm.trans (List.filter_append_perm _ _))
  · exact different.sublist (List.filter_sublist.map Prod.fst)
  · -- The keys of the block are those that were taken away.
    intro key member again
    obtain ⟨saved, inSaved, rfl⟩ := List.mem_map.mp member
    obtain ⟨other, inOthers, sameKey⟩ := List.mem_map.mp again
    have isKey := (List.mem_filter.mp inSaved).2
    have notKey := (List.mem_filter.mp inOthers).2
    rw [sameKey, isKey] at notKey
    cases notKey

/-- Leaving a block restores the very context, if the block binds other keys. -/
theorem context_leave_of_apart
    (apart : ∀ key ∈ values.map Prod.fst, key ∉ journal.context.map Prod.fst)
    (restored : inside.context = (journal.enter values).context) :
    (inside.leave journal.context values).context = journal.context := by
  have notKey : ∀ bound ∈ journal.context, (values.map Prod.fst).contains bound.1 = false := by
    intro bound member
    rw [← Bool.not_eq_true, List.contains_iff_mem]
    intro isKey
    exact apart bound.1 isKey (List.mem_map_of_mem member)
  have saved :
      (journal.context.filter fun bound => (values.map Prod.fst).contains bound.1) = [] := by
    rw [List.filter_eq_nil_iff]
    intro bound member
    rw [notKey bound member]
    exact Bool.false_ne_true
  have others :
      (journal.context.filter fun bound => !(values.map Prod.fst).contains bound.1) =
        journal.context := by
    rw [List.filter_eq_self]
    intro bound member
    rw [notKey bound member, Bool.not_false]
  rw [context_leave, saved, restored]
  exact (LogValues.filter_merge fun key member => member).trans others

end Journal

namespace Logged

/-- The bound context is the same before and after, however the computation ends. -/
def KeepsContext {Error Value : Type} (action : LoggedExcept Error Value) : Prop :=
  ∀ journal,
    (journal.context.map Prod.fst).Nodup →
      (action journal).2.context.Perm journal.context

section Keeping

variable
  {Error Value Next : Type}
  {action : LoggedExcept Error Value}
  {next : Value → LoggedExcept Error Next}

theorem keepsContext_pure (value : Value) :
    KeepsContext (pure value : LoggedExcept Error Value) :=
  fun _ _ => .refl _

theorem keepsContext_throw (error : Error) :
    KeepsContext (throw error : LoggedExcept Error Value) :=
  fun _ _ => .refl _

theorem keepsContext_log (level : LogLevel) (event : String) (values : LogValues) :
    KeepsContext (log level event values : LoggedExcept Error Unit) :=
  fun _ _ => .refl _

/-- Catching an error keeps the context. -/
theorem KeepsContext.attempt (keeps : KeepsContext action) :
    KeepsContext (attempt action) :=
  keeps

/-- What runs in a block need only keep the context of the block. -/
theorem KeepsContext.within (keeps : KeepsContext action) (values : LogValues) :
    KeepsContext (within values action) := by
  intro journal different
  apply Journal.context_leave_perm different
  exact keeps (journal.enter values) (LogValues.nodup_merge different values)

/-- A sequence keeps the context if its steps do. -/
theorem KeepsContext.bind
    (keeps : KeepsContext action)
    (goesOn : ∀ value, KeepsContext (next value)) :
    KeepsContext (action >>= next) := by
  intro journal different
  have kept := keeps journal different
  cases ended : (action journal).1 with
  | error _ =>
      rw [bind_of_error ended]
      exact kept
  | ok value =>
      rw [bind_of_ok ended]
      have stillDifferent := (kept.map Prod.fst).nodup_iff.mpr different
      exact (goesOn value _ stillDifferent).trans kept

end Keeping

end Logged

/-! ## Scripts of nested blocks -/

/-- What is done with a log: events are emitted, blocks are entered, errors are raised, and what
is guarded goes on with a handler after an error. -/
inductive Script where
  | done
  | raised (fault : Fault)
  | emitted (level : LogLevel) (event : String) (values : LogValues) (rest : Script)
  | block (values : LogValues) (inner rest : Script)
  | guarded (inner handler rest : Script)

namespace Script

/-- Enters a block, unless one of its keys can not be bound. -/
def enterBlock (values : LogValues) (inner : Logged Unit) : Logged Unit :=
  match Journal.unknownKeys values with
  | [] => Logged.within values inner
  | unknown => throw (.external (Journal.unknownKeysError unknown))

/-- Does what a script says. -/
def run : Script → Logged Unit
  | done => return
  | raised fault => throw fault
  | emitted level event values rest => do
      Logged.log level event values
      rest.run
  | block values inner rest => do
      enterBlock values inner.run
      rest.run
  | guarded inner handler rest => do
      match ← Logged.attempt inner.run with
      | .ok () => pure ()
      | .error _ => handler.run
      rest.run

/-- The contexts before and after each block that a script enters. -/
def visits : Script → Journal → List (LogValues × LogValues)
  | done, _ => []
  | raised _, _ => []
  | emitted level event values rest, journal => rest.visits (journal.emit level event values)
  | block values inner rest, journal =>
      let reached := enterBlock values inner.run journal
      if Journal.unknownKeys values = [] then
        (journal.context, reached.2.context) :: inner.visits (journal.enter values) ++
          if reached.1.isOk then rest.visits reached.2 else []
      else
        []
  | guarded inner handler rest, journal =>
      let reached := inner.run journal
      let handled := handler.run reached.2
      inner.visits journal ++
        if reached.1.isOk then
          rest.visits reached.2
        else
          handler.visits reached.2 ++ if handled.1.isOk then rest.visits handled.2 else []

/-- A block keeps the context around it. -/
theorem keepsContext_enterBlock
    {inner : Logged Unit}
    (keeps : Logged.KeepsContext inner)
    (values : LogValues) :
    Logged.KeepsContext (enterBlock values inner) := by
  rw [enterBlock]
  split
  · exact keeps.within values
  · exact Logged.keepsContext_throw _

/-- A script keeps the context, whatever it raises. -/
theorem keepsContext_run (script : Script) : Logged.KeepsContext script.run := by
  induction script with
  | done =>
      exact Logged.keepsContext_pure ()
  | raised fault =>
      exact Logged.keepsContext_throw fault
  | emitted level event values rest ofRest =>
      exact (Logged.keepsContext_log level event values).bind fun _ => ofRest
  | block values inner rest ofInner ofRest =>
      exact (keepsContext_enterBlock ofInner values).bind fun _ => ofRest
  | guarded inner handler rest ofInner ofHandler ofRest =>
      apply ofInner.attempt.bind
      intro ended
      cases ended with
      | ok _ => exact ofRest
      | error _ => exact ofHandler.bind fun _ => ofRest

/-- Each block that a script enters leaves the context as it was. -/
theorem visits_perm
    {script : Script}
    {journal : Journal}
    (different : (journal.context.map Prod.fst).Nodup)
    {visit : LogValues × LogValues}
    (member : visit ∈ script.visits journal) :
    visit.2.Perm visit.1 := by
  induction script generalizing journal with
  | done =>
      cases member
  | raised _ =>
      cases member
  | emitted level event values rest ofRest =>
      have same : ((journal.emit level event values).context.map Prod.fst).Nodup := different
      rw [visits] at member
      exact ofRest same member
  | block values inner rest ofInner ofRest =>
      have kept := keepsContext_enterBlock inner.keepsContext_run values journal different
      have after := (kept.map Prod.fst).nodup_iff.mpr different
      rw [visits] at member
      split at member
      · rcases List.mem_append.mp member with ofBlock | later
        · rcases List.mem_cons.mp ofBlock with rfl | within
          · exact kept
          · exact ofInner (LogValues.nodup_merge different values) within
        · split at later
          · exact ofRest after later
          · cases later
      · cases member
  | guarded inner handler rest ofInner ofHandler ofRest =>
      have kept := inner.keepsContext_run journal different
      have after := (kept.map Prod.fst).nodup_iff.mpr different
      have keptToo := handler.keepsContext_run _ after
      rw [visits] at member
      rcases List.mem_append.mp member with within | member
      · exact ofInner different within
      · split at member
        · exact ofRest after member
        · rcases List.mem_append.mp member with handled | later
          · exact ofHandler after handled
          · split at later
            · exact ofRest ((keptToo.map Prod.fst).nodup_iff.mpr after) later
            · cases later

end Script

/-! ## Going through blocks -/

namespace Logged

/-- An event as it is handed to the log. -/
structure Event where
  level : LogLevel
  name : String
  values : LogValues

namespace Event

/-- The context keys that events of the name give values of their own for: the entry that was
read, and the DEX file of a class that is skipped. -/
def ownKeys (event : Event) : List String :=
  match event.name with
  | "Read archive entry" => ["entry"]
  | "Skipping class" => ["dex"]
  | _ => []

/-- No event has a value of its own under the key of the package. -/
theorem apk_not_mem_ownKeys (event : Event) : "apk" ∉ event.ownKeys := by
  rw [ownKeys]
  split <;> decide

/-- Whether the event gives no value of its own for any other context key. -/
def isPlain (event : Event) : Bool :=
  (event.values.map Prod.fst).all fun key =>
    !Journal.contextKeys.contains key || event.ownKeys.contains key

/-- A plain event leaves the keys of the context alone, but for its own. -/
theorem not_mem_keys
    {event : Event}
    (plain : event.isPlain)
    {key : String}
    (isContextKey : key ∈ Journal.contextKeys)
    (notOwn : key ∉ event.ownKeys) :
    key ∉ event.values.map Prod.fst := by
  intro member
  have known := List.all_eq_true.mp plain key member
  simp [isContextKey, notOwn] at known

end Event

/-- What is bound in a block, and what the code in it does with the journal. -/
structure Block where
  values : LogValues
  effect : Journal → Journal

/-- An event that was emitted, with the block that ran and the bound context. -/
structure Emission where
  during : Option Block
  context : LogValues
  event : Event

namespace Emission

/-- The record of an emission. -/
def record (emission : Emission) : LogRecord :=
  LogRecord.make emission.context emission.event.level emission.event.name emission.event.values

/-- What the block that ran binds; nothing outside of blocks. -/
def bound (emission : Emission) : LogValues :=
  (emission.during.map Block.values).getD []

/-- The emission as one during a block. -/
def inside (block : Block) (emission : Emission) : Emission :=
  { emission with during := some block }

end Emission

/-- How one journal comes from another: plain events are emitted, and blocks are gone through in
which plain events are emitted. -/
inductive Passes : List Block → List Emission → Journal → Journal → Prop where
  | stay {journal : Journal} :
      Passes [] [] journal journal
  | emit
      {blocks : List Block}
      {emissions : List Emission}
      {journal after : Journal}
      {event : Event} :
      event.isPlain →
      Passes blocks emissions (journal.emit event.level event.name event.values) after →
      Passes blocks (⟨none, journal.context, event⟩ :: emissions) journal after
  | enter
      {blocks : List Block}
      {within emissions : List Emission}
      {journal after : Journal}
      {block : Block} :
      Passes [] within (journal.enter block.values) (block.effect (journal.enter block.values)) →
      Passes blocks emissions
        ((block.effect (journal.enter block.values)).leave journal.context block.values) after →
      Passes (block :: blocks) (within.map (.inside block) ++ emissions) journal after

namespace Passes

variable
  {blocks others : List Block}
  {emissions later : List Emission}
  {before between after : Journal}

theorem trans
    (passes : Passes blocks emissions before between)
    (goesOn : Passes others later between after) :
    Passes (blocks ++ others) (emissions ++ later) before after := by
  induction passes with
  | stay =>
      exact goesOn
  | emit plain _ inductionHypothesis =>
      exact .emit plain (inductionHypothesis goesOn)
  | enter ran _ _ inductionHypothesis =>
      rw [List.append_assoc]
      exact .enter ran (inductionHypothesis goesOn)

/-- The new records are those of the emissions. -/
theorem records (passes : Passes blocks emissions before after) :
    after.records = before.records ++ emissions.map Emission.record := by
  induction passes with
  | stay =>
      exact (List.append_nil _).symm
  | emit _ _ inductionHypothesis =>
      rw [inductionHypothesis, List.map_cons]
      exact (List.append_cons _ _ _).symm
  | @enter _ within _ journal _ block _ _ ofBlock inductionHypothesis =>
      have sameRecords : (within.map (.inside block)).map Emission.record =
          within.map Emission.record := by
        rw [List.map_map]
        rfl
      rw [inductionHypothesis, List.map_append, sameRecords, ← List.append_assoc]
      exact congrArg (· ++ _) ofBlock

/-- An emission during a block has the values of the block bound over the context, any other one
the context itself. -/
theorem contexts
    (passes : Passes blocks emissions before after)
    (apart :
      ∀ block ∈ blocks, ∀ key ∈ block.values.map Prod.fst, key ∉ before.context.map Prod.fst) :
    after.context = before.context ∧
      ∀ emission ∈ emissions,
        emission.context = LogValues.merge before.context emission.bound ∧
          ∀ block, emission.during = some block → block ∈ blocks := by
  induction passes with
  | stay =>
      exact ⟨rfl, fun _ member => nomatch member⟩
  | emit _ _ inductionHypothesis =>
      obtain ⟨same, others⟩ := inductionHypothesis apart
      refine ⟨same, ?_⟩
      intro emission member
      rcases List.mem_cons.mp member with rfl | later
      · exact ⟨rfl, fun _ during => nomatch during⟩
      · exact others emission later
  | @enter blocks within _ journal _ block _ _ ofBlock inductionHypothesis =>
      obtain ⟨ofThis, ofOthers⟩ := List.forall_mem_cons.mp apart
      obtain ⟨kept, insides⟩ := ofBlock fun _ member => nomatch member
      have restored := Journal.context_leave_of_apart ofThis kept
      rw [restored] at inductionHypothesis
      obtain ⟨same, others⟩ := inductionHypothesis ofOthers
      refine ⟨same, ?_⟩
      intro emission member
      rcases List.mem_append.mp member with ofWithin | later
      · obtain ⟨inner, inWithin, rfl⟩ := List.mem_map.mp ofWithin
        obtain ⟨context, noBlock⟩ := insides inner inWithin
        have outside : inner.bound = [] := by
          rw [Emission.bound]
          cases during : inner.during with
          | none => rfl
          | some other => cases noBlock other during
        rw [outside] at context
        refine ⟨context, ?_⟩
        rintro _ ⟨⟩
        exact List.mem_cons_self
      · obtain ⟨context, known⟩ := others emission later
        refine ⟨context, ?_⟩
        intro other during
        exact List.mem_cons_of_mem block (known other during)

/-- All events on a passage are plain. -/
theorem plain (passes : Passes blocks emissions before after) :
    ∀ emission ∈ emissions, emission.event.isPlain := by
  induction passes with
  | stay =>
      exact fun _ member => nomatch member
  | emit plain _ inductionHypothesis =>
      exact List.forall_mem_cons.mpr ⟨plain, inductionHypothesis⟩
  | enter _ _ ofBlock inductionHypothesis =>
      intro emission member
      rcases List.mem_append.mp member with ofWithin | later
      · obtain ⟨inner, inWithin, rfl⟩ := List.mem_map.mp ofWithin
        exact ofBlock inner inWithin
      · exact inductionHypothesis emission later

end Passes

/-! ## Computations that go through blocks -/

/-- In any journal the computation goes through the blocks in order, and through no other ones. -/
def GoesThrough
    {Error Value : Type}
    (blocks : List Block)
    (action : LoggedExcept Error Value) : Prop :=
  ∀ journal, ∃ emissions, Passes blocks emissions journal (action journal).2

section Closure

variable
  {Error Value Next Item : Type}
  {blocks others : List Block}
  {action : LoggedExcept Error Value}
  {next : Value → LoggedExcept Error Next}

theorem goesThrough_ofExcept (answer : Except Error Value) :
    GoesThrough [] (ofExcept answer) :=
  fun _ => ⟨[], .stay⟩

theorem goesThrough_pure (value : Value) :
    GoesThrough [] (pure value : LoggedExcept Error Value) :=
  goesThrough_ofExcept (.ok value)

theorem goesThrough_throw (error : Error) :
    GoesThrough [] (throw error : LoggedExcept Error Value) :=
  goesThrough_ofExcept (.error error)

/-- Emitting a plain event enters no block. -/
theorem goesThrough_log
    {level : LogLevel}
    {event : String}
    {values : LogValues}
    (plain : (Event.mk level event values).isPlain) :
    GoesThrough [] (log level event values : LoggedExcept Error Unit) :=
  fun _ => ⟨_, .emit plain .stay⟩

/-- A sequence goes through the blocks of its first step and then through those of the next one,
which has none if the first step fails. -/
theorem GoesThrough.bind
    (goes : GoesThrough blocks action)
    (goesOn : ∀ value journal, (action journal).1 = .ok value → GoesThrough others (next value))
    (stops : ∀ error journal, (action journal).1 = .error error → others = []) :
    GoesThrough (blocks ++ others) (action >>= next) := by
  intro journal
  obtain ⟨emissions, passes⟩ := goes journal
  cases ended : (action journal).1 with
  | error error =>
      rw [bind_of_error ended, stops error journal ended, List.append_nil]
      exact ⟨emissions, passes⟩
  | ok value =>
      rw [bind_of_ok ended]
      obtain ⟨later, passesOn⟩ := goesOn value journal ended (action journal).2
      exact ⟨emissions ++ later, passes.trans passesOn⟩

/-- What follows need not enter a block. -/
theorem GoesThrough.bind_flat
    (goes : GoesThrough blocks action)
    (goesOn : ∀ value, GoesThrough [] (next value)) :
    GoesThrough blocks (action >>= next) := by
  have sequence := goes.bind (fun value _ _ => goesOn value) fun _ _ _ => rfl
  rwa [List.append_nil] at sequence

/-- A step that comes to a value and enters no block can be passed over. -/
theorem GoesThrough.bind_ok
    {value : Value}
    (goes : GoesThrough [] action)
    (ends : Ends action (.ok value))
    (goesOn : GoesThrough others (next value)) :
    GoesThrough others (action >>= next) := by
  apply goes.bind
  · intro found journal ended
    cases (ends journal).symm.trans ended
    exact goesOn
  · intro error journal ended
    cases (ends journal).symm.trans ended

/-- What a step comes to tells whether the blocks of the next one are entered. -/
theorem GoesThrough.bind_of_ends
    {answer : Except Error Value}
    (goes : GoesThrough blocks action)
    (ends : Ends action answer)
    (goesOn : ∀ value, answer = .ok value → GoesThrough others (next value)) :
    GoesThrough (blocks ++ if answer.isOk then others else []) (action >>= next) := by
  apply goes.bind
  · intro value journal ended
    have through : answer = .ok value := (ends journal).symm.trans ended
    rw [through]
    exact goesOn value through
  · intro error journal ended
    rw [(ends journal).symm.trans ended]
    rfl

/-- An answer that is logged before it is handed on. -/
theorem goesThrough_ofExcept_log
    {level : LogLevel}
    {event : String}
    {values : Value → LogValues}
    (plain : ∀ value, (Event.mk level event (values value)).isPlain)
    (answer : Except Error Value) :
    GoesThrough [] (do
      let value ← ofExcept answer
      log level event (values value)
      return value) := by
  apply (goesThrough_ofExcept answer).bind_flat
  intro value
  exact (goesThrough_log (plain value)).bind_flat fun _ => goesThrough_pure value

/-- Renaming errors changes no block that is entered. -/
theorem GoesThrough.adapt
    {Other : Type}
    (goes : GoesThrough blocks action)
    (rename : Error → Other) :
    GoesThrough blocks (action.adapt rename) :=
  goes

/-- Catching an error changes no block that was entered before. -/
theorem GoesThrough.attempt (goes : GoesThrough blocks action) :
    GoesThrough blocks (attempt action) :=
  goes

/-- A block whose inside enters no other one. -/
theorem GoesThrough.within (goes : GoesThrough [] action) (values : LogValues) :
    GoesThrough [⟨values, fun journal => (action journal).2⟩] (within values action) := by
  intro journal
  obtain ⟨_, passes⟩ := goes (journal.enter values)
  exact ⟨_, .enter passes .stay⟩

/-- Steps that enter no block can be repeated for each item. -/
theorem goesThrough_forM
    {step : Item → LoggedExcept Error Unit}
    (goes : ∀ item, GoesThrough [] (step item))
    (items : List Item) :
    GoesThrough [] (items.forM step) := by
  induction items with
  | nil =>
      exact goesThrough_pure ()
  | cons item rest inductionHypothesis =>
      exact (goes item).bind_flat fun _ => inductionHypothesis

end Closure

end Logged

end ApkAtlas
