import ApkAtlas.Log

namespace ApkAtlas.Logged

/-!
# What logged computations come to

A computation that writes log records usually comes to the same whatever was logged and
bound before. Its answer is then put together from the answers of its steps, and where it
succeeds, each of its steps did.
-/

variable {Error Value Next : Type}

/-- In any journal the computation comes to the answer. -/
def Ends (action : LoggedExcept Error Value) (answer : Except Error Value) : Prop :=
  ∀ journal, (action journal).1 = answer

/-- An action comes to one answer. -/
theorem Ends.unique
    {action : LoggedExcept Error Value}
    {first second : Except Error Value}
    (ends : Ends action first)
    (endsToo : Ends action second) :
    first = second :=
  (ends {}).symm.trans (endsToo {})

theorem ends_pure (value : Value) : Ends (pure value : LoggedExcept Error Value) (.ok value) :=
  fun _ => rfl

theorem ends_throw (error : Error) :
    Ends (throw error : LoggedExcept Error Value) (.error error) :=
  fun _ => rfl

theorem ends_ofExcept (answer : Except Error Value) : Ends (ofExcept answer) answer :=
  fun _ => rfl

theorem ends_log (level : LogLevel) (event : String) (values : LogValues) :
    Ends (log level event values : LoggedExcept Error Unit) (.ok ()) :=
  fun _ => rfl

/-- An attempt comes to the answer of what is attempted, whether it is an error or not. -/
theorem ends_attempt
    {block : LoggedExcept Error Value}
    {answer : Except Error Value}
    (ends : Ends block answer) :
    Ends (attempt block) (.ok answer) :=
  fun journal => congrArg Except.ok (ends journal)

section Sequences

variable
  {first : LoggedExcept Error Value}
  {next : Value → LoggedExcept Error Next}
  {journal : Journal}

/-- A step that comes to a value hands it to the next one. -/
theorem bind_of_ok
    {value : Value}
    (ended : (first journal).1 = .ok value) :
    (first >>= next) journal = next value (first journal).2 := by
  simp only [bind, ExceptT.bind, ExceptT.mk, StateT.bind]
  generalize first journal = reached at ended
  obtain ⟨_, later⟩ := reached
  cases ended
  rfl

/-- After an error nothing more is logged. -/
theorem bind_of_error
    {error : Error}
    (ended : (first journal).1 = .error error) :
    (first >>= next) journal = (.error error, (first journal).2) := by
  simp only [bind, ExceptT.bind, ExceptT.mk, StateT.bind]
  generalize first journal = reached at ended
  obtain ⟨_, later⟩ := reached
  cases ended
  rfl

/-- After a value the sequence goes on with it. -/
theorem result_bind_of_ok
    {value : Value}
    (ended : (first journal).1 = .ok value) :
    ((first >>= next) journal).1 = (next value (first journal).2).1 :=
  congrArg Prod.fst (bind_of_ok ended)

/-- After an error the sequence ends with it. -/
theorem result_bind_of_error
    {error : Error}
    (ended : (first journal).1 = .error error) :
    ((first >>= next) journal).1 = .error error :=
  congrArg Prod.fst (bind_of_error ended)

/-- A sequence comes to what its steps come to. -/
theorem Ends.bind
    {answer : Except Error Value}
    {rest : Value → Except Error Next}
    (ends : Ends first answer)
    (goesOn : ∀ value, Ends (next value) (rest value)) :
    Ends (first >>= next) (answer >>= rest) := by
  intro journal
  cases answer with
  | error _ =>
      exact result_bind_of_error (ends journal)
  | ok value =>
      rw [result_bind_of_ok (ends journal)]
      exact goesOn value _

/-- A step that comes to a value can be passed over. -/
theorem Ends.bind_ok
    {value : Value}
    {answer : Except Error Next}
    (ends : Ends first (.ok value))
    (goesOn : Ends (next value) answer) :
    Ends (first >>= next) answer := by
  intro journal
  rw [result_bind_of_ok (ends journal)]
  exact goesOn _

/-- Where a sequence succeeded, its first step did and handed its value on. -/
theorem exists_of_result_bind
    {outcome : Next}
    (through : ((first >>= next) journal).1 = .ok outcome) :
    ∃ value later, (first journal).1 = .ok value ∧ (next value later).1 = .ok outcome := by
  cases ended : (first journal).1 with
  | error _ =>
      cases (result_bind_of_error ended).symm.trans through
  | ok value =>
      exact ⟨value, _, rfl, (result_bind_of_ok ended).symm.trans through⟩

/-- Where a sequence comes to a value, both of its steps did. -/
theorem Ends.exists_of_bind
    {answer : Except Error Value}
    (ends : Ends first answer)
    {outcome : Next}
    (through : ((first >>= next) journal).1 = .ok outcome) :
    ∃ value later, answer = .ok value ∧ (next value later).1 = .ok outcome := by
  obtain ⟨value, later, ended, goesOn⟩ := exists_of_result_bind through
  exact ⟨value, later, (ends journal).symm.trans ended, goesOn⟩

end Sequences

section Blocks

variable {action : LoggedExcept Error Value} {answer : Except Error Value}

/-- A block comes to what it comes to with its values bound. -/
theorem result_within
    (values : LogValues)
    (action : LoggedExcept Error Value)
    (journal : Journal) :
    (within values action journal).1 = (action (journal.enter values)).1 :=
  rfl

/-- A block comes to what the action in it comes to. -/
theorem Ends.within (ends : Ends action answer) (values : LogValues) :
    Ends (within values action) answer :=
  fun journal => ends (journal.enter values)

/-- Renaming errors renames the error that an action comes to. -/
theorem Ends.adapt {Other : Type} (ends : Ends action answer) (rename : Error → Other) :
    Ends (action.adapt rename) (answer.mapError rename) :=
  fun journal => congrArg (Except.mapError rename) (ends journal)

end Blocks

section Lists

variable {Item : Type}

/-- Steps over a list come to what each of them comes to. -/
theorem ends_mapM
    {step : Item → LoggedExcept Error Value}
    {answer : Item → Except Error Value}
    (ends : ∀ item, Ends (step item) (answer item))
    (items : List Item) :
    Ends (items.mapM step) (items.mapM answer) := by
  induction items with
  | nil =>
      exact ends_pure []
  | cons item rest inductionHypothesis =>
      rw [List.mapM_cons, List.mapM_cons]
      apply (ends item).bind
      intro value
      apply inductionHypothesis.bind
      intro values
      exact ends_pure (value :: values)

/-- Steps that come to nothing in particular are all passed over. -/
theorem ends_forM
    {step : Item → LoggedExcept Error Unit}
    (ends : ∀ item, Ends (step item) (.ok ()))
    (items : List Item) :
    Ends (items.forM step) (.ok ()) := by
  induction items with
  | nil =>
      exact ends_pure ()
  | cons item rest inductionHypothesis =>
      exact (ends item).bind_ok inductionHypothesis

end Lists

end ApkAtlas.Logged
