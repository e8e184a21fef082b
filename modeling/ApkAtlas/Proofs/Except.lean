import Mathlib.Data.List.Forall2

namespace ApkAtlas

/-!
# Steps that may fail

A sequence of steps succeeds if each of them does, and fails where the first of them does.
-/

variable {Failure Value Next : Type}

/-- What goes on after another step succeeded did so with its value. -/
theorem exists_of_bind_eq_ok
    {first : Except Failure Value}
    {next : Value → Except Failure Next}
    {outcome : Next}
    (through : first >>= next = .ok outcome) :
    ∃ value, first = .ok value ∧ next value = .ok outcome := by
  cases first with
  | error _ =>
      cases through
  | ok value =>
      exact ⟨value, rfl, through⟩

/-- What is made of a value was made of the value of a step that succeeded. -/
theorem exists_of_map_eq_ok
    {outcome : Except Failure Value}
    {make : Value → Next}
    {made : Next}
    (through : outcome.map make = .ok made) :
    ∃ value, outcome = .ok value ∧ make value = made := by
  cases outcome with
  | error _ =>
      cases through
  | ok value =>
      cases through
      exact ⟨value, rfl, rfl⟩

theorem eq_ok_of_toOption
    {outcome : Except Failure Value}
    {value : Value}
    (some : outcome.toOption = some value) :
    outcome = .ok value := by
  cases outcome with
  | error _ =>
      cases some
  | ok _ =>
      cases some
      rfl

theorem eq_ok_of_mapError
    {Other : Type}
    {rename : Failure → Other}
    {outcome : Except Failure Value}
    {value : Value}
    (through : outcome.mapError rename = .ok value) :
    outcome = .ok value := by
  cases outcome with
  | error _ =>
      cases through
  | ok _ =>
      cases through
      rfl

theorem bind_eq_error_iff
    {first : Except Failure Value}
    {next : Value → Except Failure Next}
    {failure : Failure} :
    first >>= next = .error failure ↔
      first = .error failure ∨ ∃ value, first = .ok value ∧ next value = .error failure := by
  cases first <;> simp [bind, Except.bind]

/-- Changing what an error says does not change which step fails. -/
theorem mapError_bind
    {Other : Type}
    (rename : Failure → Other)
    (first : Except Failure Value)
    (next : Value → Except Failure Next) :
    (first >>= next).mapError rename =
      first.mapError rename >>= fun value => (next value).mapError rename := by
  cases first <;> rfl

theorem mapError_pure
    {Other : Type}
    (rename : Failure → Other)
    (value : Value) :
    (pure value : Except Failure Value).mapError rename = pure value :=
  rfl

/-- Steps over a list that went through have their results side by side. -/
theorem forall₂_of_mapM
    {Item : Type}
    {items : List Item}
    {step : Item → Except Failure Value}
    {results : List Value}
    (through : items.mapM step = .ok results) :
    List.Forall₂ (fun item result => step item = .ok result) items results := by
  induction items generalizing results with
  | nil =>
      cases through
      exact .nil
  | cons item rest inductionHypothesis =>
      rw [List.mapM_cons] at through
      obtain ⟨result, stepped, through⟩ := exists_of_bind_eq_ok through
      obtain ⟨others, restThrough, same⟩ := exists_of_bind_eq_ok through
      cases same
      exact .cons stepped (inductionHypothesis restThrough)

/-- Each result of steps over a list is that of a step. -/
theorem exists_of_mem_results
    {items : List Value}
    {step : Value → Except Failure Next}
    {results : List Next}
    (through : items.mapM step = .ok results)
    {result : Next}
    (member : result ∈ results) :
    ∃ item ∈ items, step item = .ok result := by
  replace through := forall₂_of_mapM through
  induction through with
  | nil =>
      cases member
  | @cons item first _ _ stepped _ inductionHypothesis =>
      rcases List.mem_cons.mp member with rfl | inRest
      · exact ⟨item, List.mem_cons_self, stepped⟩
      · obtain ⟨found, inItems, foundStep⟩ := inductionHypothesis inRest
        exact ⟨found, List.mem_cons_of_mem item inItems, foundStep⟩

/-- Each step over a list has its result among the results. -/
theorem exists_result_of_mem
    {items : List Value}
    {step : Value → Except Failure Next}
    {results : List Next}
    (through : items.mapM step = .ok results)
    {item : Value}
    (member : item ∈ items) :
    ∃ result ∈ results, step item = .ok result := by
  replace through := forall₂_of_mapM through
  induction through with
  | nil =>
      cases member
  | @cons first result _ _ stepped _ inductionHypothesis =>
      rcases List.mem_cons.mp member with rfl | inRest
      · exact ⟨result, List.mem_cons_self, stepped⟩
      · obtain ⟨found, inOthers, foundStep⟩ := inductionHypothesis inRest
        exact ⟨found, List.mem_cons_of_mem result inOthers, foundStep⟩

/-- What is picked from the results of steps over a list can be picked from the items. -/
theorem filterMap_results
    {Item View : Type}
    {items : List Item}
    {step : Item → Except Failure Value}
    {results : List Value}
    (through : items.mapM step = .ok results)
    {view : Value → Option View}
    {viewItem : Item → Option View}
    (same : ∀ item result, step item = .ok result → view result = viewItem item) :
    results.filterMap view = items.filterMap viewItem := by
  replace through := forall₂_of_mapM through
  induction through with
  | nil =>
      rfl
  | cons stepped _ inductionHypothesis =>
      rw [List.filterMap_cons, List.filterMap_cons, same _ _ stepped, inductionHypothesis]

/-- Steps over a list fail exactly with the failure of the first of them that fails. -/
theorem mapM_eq_error_iff
    {Item : Type}
    {step : Item → Except Failure Value}
    {items : List Item}
    {failure : Failure} :
    items.mapM step = .error failure ↔
      ∃ before item after,
        items = before ++ item :: after ∧
          (∀ earlier ∈ before, ∃ value, step earlier = .ok value) ∧
          step item = .error failure := by
  constructor
  · intro failed
    induction items with
    | nil =>
        cases failed
    | cons first rest inductionHypothesis =>
        rw [List.mapM_cons, bind_eq_error_iff] at failed
        rcases failed with failsHere | ⟨value, stepped, failed⟩
        · exact ⟨[], first, rest, rfl, by simp, failsHere⟩
        · rcases bind_eq_error_iff.mp failed with failsLater | ⟨_, _, gathered⟩
          · obtain ⟨before, item, after, rfl, through, failsThere⟩ :=
              inductionHypothesis failsLater
            exact ⟨first :: before, item, after, rfl,
              List.forall_mem_cons.mpr ⟨⟨value, stepped⟩, through⟩, failsThere⟩
          · cases gathered
  · rintro ⟨before, item, after, rfl, through, failsThere⟩
    induction before with
    | nil =>
        rw [List.nil_append, List.mapM_cons, failsThere]
        rfl
    | cons first rest inductionHypothesis =>
        obtain ⟨⟨value, stepped⟩, others⟩ := List.forall_mem_cons.mp through
        rw [List.cons_append, List.mapM_cons, stepped, inductionHypothesis others]
        rfl

/-- Steps over a list go through if each of them does. -/
theorem exists_mapM_eq_ok
    {Item : Type}
    {step : Item → Except Failure Value}
    {items : List Item}
    (through : ∀ item ∈ items, ∃ value, step item = .ok value) :
    ∃ results, items.mapM step = .ok results := by
  cases ended : items.mapM step with
  | ok results =>
      exact ⟨results, rfl⟩
  | error failure =>
      obtain ⟨before, item, after, rfl, _, failed⟩ := mapM_eq_error_iff.mp ended
      obtain ⟨value, stepped⟩ := through item (List.mem_append_right _ List.mem_cons_self)
      cases stepped.symm.trans failed

/-- Steps over a list fail exactly where one of them fails after all before it went
through. -/
theorem foldlM_eq_error_iff
    {State Item : Type}
    {step : State → Item → Except Failure State}
    {items : List Item}
    {start : State}
    {failure : Failure} :
    items.foldlM step start = .error failure ↔
      ∃ before item after reached,
        items = before ++ item :: after ∧
          before.foldlM step start = .ok reached ∧
          step reached item = .error failure := by
  constructor
  · intro failed
    induction items generalizing start with
    | nil =>
        cases failed
    | cons item rest inductionHypothesis =>
        rw [List.foldlM_cons] at failed
        cases stepped : step start item with
        | error _ =>
            rw [stepped] at failed
            cases failed
            exact ⟨[], item, rest, start, rfl, rfl, stepped⟩
        | ok next =>
            rw [stepped] at failed
            obtain ⟨before, failing, after, reached, rfl, through, failsThere⟩ :=
              inductionHypothesis failed
            refine ⟨item :: before, failing, after, reached, rfl, ?_, failsThere⟩
            rw [List.foldlM_cons, stepped]
            exact through
  · rintro ⟨before, item, after, reached, rfl, through, failsThere⟩
    rw [List.foldlM_append, through]
    change (step reached item >>= fun next => after.foldlM step next) = .error failure
    rw [failsThere]
    rfl

end ApkAtlas
