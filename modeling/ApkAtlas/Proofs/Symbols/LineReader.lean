import ApkAtlas.Proofs.Except
import ApkAtlas.Symbols.MappingText

namespace ApkAtlas

/-!
# Reading line by line

A line leads a reader from one state to the next or is refused, and nothing behind a refused line
is looked at. Whether a line is refused may depend on the lines before it, but not on the map that
is being filled. The failure of a text then names its first bad line, and the map holds what the
lines before that one said.
-/

/-- Each line of a text fits in behind those before it. -/
def AllFit (Fits : List String → String → Prop) (lines : List String) : Prop :=
  ∀ before raw after, lines = before ++ raw :: after → Fits before raw

/-- The first line that does not fit in has the number, counted from one. -/
def FirstBad (Fits : List String → String → Prop) (lines : List String) (number : Nat) : Prop :=
  ∃ before raw after, lines = before ++ raw :: after ∧ number = before.length + 1 ∧
    AllFit Fits before ∧ ¬ Fits before raw

namespace Failure

/-- The failure of the same line in a text with more lines before it. -/
def later (count : Nat) (failure : Failure) : Failure :=
  match failure.detail with
  | .mappingFormat number source =>
      { failure with detail := .mappingFormat (number + count) source }
  | _ => failure

end Failure

/-- What a parser of lines does, where the lines that fit in are known and some texts say the
same wherever they stand. -/
structure StopsAtFirstBad
    (Fits : List String → String → Prop)
    (StandsAlone : List String → Prop)
    (parse : SymbolMap → String → List String → SymbolMap × Option Failure) :
    Prop where
  /-- A text is accepted if all of its lines fit in. -/
  accepts : ∀ symbols source lines,
    (parse symbols source lines).2 = none ↔ AllFit Fits lines
  /-- A failure has the number of the first line that does not. -/
  numbers : ∀ symbols source lines (number : Nat),
    (∃ failure, (parse symbols source lines).2 = some failure ∧
      failure.detail = .mappingFormat number source) ↔ FirstBad Fits lines number
  /-- The map holds what the lines before that one said. -/
  keeps : ∀ symbols source lines number, FirstBad Fits lines number →
    parse symbols source (lines.take (number - 1)) = ((parse symbols source lines).1, none)
  /-- A text in two parts is read as one part after the other. -/
  joins : ∀ symbols source front back, StandsAlone back →
    parse symbols source (front ++ back) =
      match parse symbols source front with
      | (filled, none) =>
          ((parse filled source back).1,
            (parse filled source back).2.map (Failure.later front.length))
      | (filled, some failure) => (filled, some failure)

/-- A reader of lines: how it begins with a map, which map it has filled, how a line leads on,
and the words for a line that does not. -/
structure LineReader (State Defect : Type) where
  start : SymbolMap → State
  symbols : State → SymbolMap
  step : State → String → Except Defect State
  words : Defect → String

namespace LineReader

variable {State Defect : Type} (reader : LineReader State Defect)

/-- Reads lines, counted from `number` on, up to the first that is refused. -/
def fill (number : Nat) (state : State) : List String → SymbolMap × Option (Nat × Defect)
  | [] => (reader.symbols state, none)
  | raw :: rest =>
      match reader.step state raw with
      | .error defect => (reader.symbols state, some (number, defect))
      | .ok next => fill (number + 1) next rest

/-- What comes of lines, with the refused one in a failure. -/
def outcome (source : String) : SymbolMap × Option (Nat × Defect) → SymbolMap × Option Failure
  | (filled, none) => (filled, none)
  | (filled, some (number, defect)) =>
      (filled, some (MappingText.lineFailure source number (reader.words defect)))

/-- Reads the lines of a text. -/
def parse (symbols : SymbolMap) (source : String) (lines : List String) :
    SymbolMap × Option Failure :=
  reader.outcome source (reader.fill 1 (reader.start symbols) lines)

/-- The lines that lead on are those that fit in. -/
def Accepts (Fits : List String → String → Prop) : Prop :=
  ∀ symbols before raw reached, before.foldlM reader.step (reader.start symbols) = .ok reached →
    ((∃ next, reader.step reached raw = .ok next) ↔ Fits before raw)

/-- Some texts are read as at the start, wherever they stand. -/
def Restarts (StandsAlone : List String → Prop) : Prop :=
  ∀ number state lines, StandsAlone lines →
    reader.fill number state lines =
      reader.fill number (reader.start (reader.symbols state)) lines

variable {reader}

section Filling

variable {state reached : State} {front : List String}

/-- Lines that lead on are read before the ones behind them. -/
theorem fill_append
    (through : front.foldlM reader.step state = .ok reached)
    (number : Nat)
    (back : List String) :
    reader.fill number state (front ++ back) =
      reader.fill (number + front.length) reached back := by
  induction front generalizing number state with
  | nil =>
      cases through
      rfl
  | cons raw rest inductionHypothesis =>
      rw [List.foldlM_cons] at through
      obtain ⟨next, stepped, through⟩ := exists_of_bind_eq_ok through
      rw [List.cons_append, fill, stepped]
      dsimp only
      rw [inductionHypothesis through, List.length_cons, Nat.add_right_comm, Nat.add_assoc]

theorem fill_of_ok
    (through : front.foldlM reader.step state = .ok reached)
    (number : Nat) :
    reader.fill number state front = (reader.symbols reached, none) := by
  have whole := fill_append through number []
  rwa [List.append_nil] at whole

theorem fill_of_error
    (through : front.foldlM reader.step state = .ok reached)
    {raw : String}
    {defect : Defect}
    (refused : reader.step reached raw = .error defect)
    (number : Nat)
    (back : List String) :
    reader.fill number state (front ++ raw :: back) =
      (reader.symbols reached, some (number + front.length, defect)) := by
  rw [fill_append through, fill, refused]

/-- The numbers of lines are counted from where the text starts. -/
theorem outcome_fill_add
    (source : String)
    (number count : Nat)
    (state : State)
    (lines : List String) :
    reader.outcome source (reader.fill (number + count) state lines) =
      ((reader.outcome source (reader.fill number state lines)).1,
        (reader.outcome source (reader.fill number state lines)).2.map (Failure.later count)) := by
  induction lines generalizing number state with
  | nil =>
      rfl
  | cons raw rest inductionHypothesis =>
      rw [fill, fill]
      cases reader.step state raw with
      | error defect =>
          simp [outcome, MappingText.lineFailure, Failure.later]
      | ok next =>
          dsimp only
          rw [Nat.add_right_comm, inductionHypothesis]

end Filling

section Parsing

variable
  {Fits : List String → String → Prop}
  {StandsAlone : List String → Prop}
  {lines : List String}

theorem allFit_iff
    (accepts : reader.Accepts Fits)
    (symbols : SymbolMap) :
    AllFit Fits lines ↔
      ∃ reached, lines.foldlM reader.step (reader.start symbols) = .ok reached := by
  constructor
  · intro allFit
    cases result : lines.foldlM reader.step (reader.start symbols) with
    | ok reached =>
        exact ⟨reached, rfl⟩
    | error defect =>
        obtain ⟨before, raw, after, reached, split, through, refused⟩ :=
          foldlM_eq_error_iff.mp result
        obtain ⟨next, stepped⟩ :=
          (accepts symbols before raw reached through).mpr (allFit before raw after split)
        cases refused.symm.trans stepped
  · rintro ⟨final, through⟩ before raw after rfl
    rw [List.foldlM_append] at through
    obtain ⟨reached, through, rest⟩ := exists_of_bind_eq_ok through
    rw [List.foldlM_cons] at rest
    obtain ⟨next, stepped, _⟩ := exists_of_bind_eq_ok rest
    exact (accepts symbols before raw reached through).mp ⟨next, stepped⟩

/-- The first line that does not fit in is the one that is refused. -/
theorem firstBad_iff
    (accepts : reader.Accepts Fits)
    (symbols : SymbolMap)
    {number : Nat} :
    FirstBad Fits lines number ↔
      ∃ before raw after reached defect, lines = before ++ raw :: after ∧
        number = before.length + 1 ∧
        before.foldlM reader.step (reader.start symbols) = .ok reached ∧
        reader.step reached raw = .error defect := by
  constructor
  · rintro ⟨before, raw, after, split, isNumber, allFit, bad⟩
    obtain ⟨reached, through⟩ := (allFit_iff accepts symbols).mp allFit
    cases stepped : reader.step reached raw with
    | ok next =>
        exact absurd ((accepts symbols before raw reached through).mp ⟨next, stepped⟩) bad
    | error defect =>
        exact ⟨before, raw, after, reached, defect, split, isNumber, through, stepped⟩
  · rintro ⟨before, raw, after, reached, defect, split, isNumber, through, refused⟩
    refine ⟨before, raw, after, split, isNumber, ?_, ?_⟩
    · exact (allFit_iff accepts symbols).mpr ⟨reached, through⟩
    · intro fits
      obtain ⟨next, stepped⟩ := (accepts symbols before raw reached through).mpr fits
      cases refused.symm.trans stepped

theorem parse_of_ok
    {symbols : SymbolMap}
    {reached : State}
    (through : lines.foldlM reader.step (reader.start symbols) = .ok reached)
    (source : String) :
    reader.parse symbols source lines = (reader.symbols reached, none) := by
  rw [parse, fill_of_ok through, outcome]

theorem parse_of_error
    {symbols : SymbolMap}
    {before : List String}
    {reached : State}
    {raw : String}
    {defect : Defect}
    (through : before.foldlM reader.step (reader.start symbols) = .ok reached)
    (refused : reader.step reached raw = .error defect)
    (source : String)
    (after : List String) :
    reader.parse symbols source (before ++ raw :: after) =
      (reader.symbols reached,
        some (MappingText.lineFailure source (before.length + 1) (reader.words defect))) := by
  rw [parse, fill_of_error through refused, outcome, Nat.add_comm]

/-- A text leads on to its end, or there is a first line that is refused. -/
theorem exists_reached_or_refused
    (reader : LineReader State Defect)
    (symbols : SymbolMap)
    (lines : List String) :
    (∃ reached, lines.foldlM reader.step (reader.start symbols) = .ok reached) ∨
      ∃ before raw after reached defect, lines = before ++ raw :: after ∧
        before.foldlM reader.step (reader.start symbols) = .ok reached ∧
        reader.step reached raw = .error defect := by
  cases result : lines.foldlM reader.step (reader.start symbols) with
  | ok reached =>
      exact .inl ⟨reached, rfl⟩
  | error defect =>
      obtain ⟨before, raw, after, reached, split, through, refused⟩ :=
        foldlM_eq_error_iff.mp result
      exact .inr ⟨before, raw, after, reached, defect, split, through, refused⟩

/-- A reader whose lines are refused for what stands in them and before them stops at the first
bad line of any text. -/
theorem stopsAtFirstBad
    (accepts : reader.Accepts Fits)
    (restarts : reader.Restarts StandsAlone) :
    StopsAtFirstBad Fits StandsAlone reader.parse where
  accepts := by
    intro symbols source lines
    rw [allFit_iff accepts symbols]
    obtain ⟨reached, through⟩ | ⟨before, raw, after, reached, defect, rfl, through, refused⟩ :=
      exists_reached_or_refused reader symbols lines
    · rw [parse_of_ok through]
      exact ⟨fun _ => ⟨reached, through⟩, fun _ => rfl⟩
    · rw [parse_of_error through refused]
      constructor
      · rintro ⟨⟩
      · intro allThrough
        have stops := foldlM_eq_error_iff.mpr ⟨before, raw, after, reached, rfl, through, refused⟩
        obtain ⟨_, throughToo⟩ := allThrough
        cases stops.symm.trans throughToo
  numbers := by
    intro symbols source lines number
    rw [firstBad_iff accepts symbols]
    constructor
    · rintro ⟨failure, failed, isNumber⟩
      obtain ⟨reached, through⟩ | ⟨before, raw, after, reached, defect, rfl, through, refused⟩ :=
        exists_reached_or_refused reader symbols lines
      · rw [parse_of_ok through] at failed
        cases failed
      · rw [parse_of_error through refused] at failed
        cases failed
        rw [MappingText.lineFailure, Failure.Detail.mappingFormat.injEq] at isNumber
        have same : number = before.length + 1 := by
          omega
        exact ⟨before, raw, after, reached, defect, rfl, same, through, refused⟩
    · rintro ⟨before, raw, after, reached, defect, rfl, rfl, through, refused⟩
      rw [parse_of_error through refused]
      exact ⟨_, rfl, rfl⟩
  keeps := by
    intro symbols source lines number firstBad
    obtain ⟨before, raw, after, reached, defect, rfl, rfl, through, refused⟩ :=
      (firstBad_iff accepts symbols).mp firstBad
    rw [Nat.add_sub_cancel, List.take_left, parse_of_error through refused, parse_of_ok through]
  joins := by
    intro symbols source front back alone
    obtain ⟨reached, through⟩ | ⟨before, raw, after, reached, defect, rfl, through, refused⟩ :=
      exists_reached_or_refused reader symbols front
    · rw [parse_of_ok through, parse, fill_append through, restarts _ _ _ alone, outcome_fill_add]
      rfl
    · rw [List.append_assoc, List.cons_append, parse_of_error through refused,
        parse_of_error through refused]

end Parsing

end LineReader

end ApkAtlas
