import ApkAtlas.Proofs.Except
import ApkAtlas.Proofs.Logged
import ApkAtlas.Proofs.Text.Utf8
import ApkAtlas.Symbols.Load

namespace ApkAtlas.SymbolMap

/-!
# Loading is all or nothing

A symbol map is loaded from the lines of two texts, each of which goes on from what the one
before it has filled. Either both are there and all of their lines are accepted, or nothing of
them is kept: a caller that is not strict gets the empty map where a strict one gets the failure.
Only a path that no file can be asked for by stops both callers.
-/

open Logged (Ends)

/-- The lines at a path: none if no path is given, and else those of a file in UTF-8. -/
inductive HasLines (tree : FileTree) : Option FilePath → List String → Prop
  | notGiven : HasLines tree none []
  | ofFile
      {path : FilePath}
      {text : String}
      (noNull : path.hasNull = false)
      (isText : tree.read path = .ok (Text.Utf8.encode text)) :
      HasLines tree (some path) ((Text.lines text.toList).map String.ofList)

/-- What the failures of a text name as its source. -/
def sourceOf (path? : Option FilePath) : String :=
  (path?.map FilePath.toText).getD ""

/-- The mapping text alone fills an empty map. -/
def LoadsMapping (tree : FileTree) (mapping : Option FilePath) (symbols : SymbolMap) : Prop :=
  ∃ lines, HasLines tree mapping lines ∧
    MappingText.parse {} (sourceOf mapping) lines = (symbols, none)

/-- The lines of the mapping text fill an empty map, and the lines of the seed text go on from
there. -/
def Loads
    (tree : FileTree)
    (mapping seeds : Option FilePath)
    (symbols : SymbolMap) :
    Prop :=
  ∃ renamed lines, LoadsMapping tree mapping renamed ∧ HasLines tree seeds lines ∧
    SeedText.parse renamed (sourceOf seeds) lines = (symbols, none)

/-- A path is given, and it has a null character. -/
def IsNull (path? : Option FilePath) : Prop :=
  ∃ path ∈ path?, path.hasNull

/-- The loader gets to a path with a null character. -/
def MeetsNull (tree : FileTree) (mapping seeds : Option FilePath) : Prop :=
  IsNull mapping ∨ (∃ renamed, LoadsMapping tree mapping renamed) ∧ IsNull seeds

section Filling

variable
  {tree : FileTree}
  {parse : SymbolMap → String → List String → SymbolMap × Option Failure}
  {symbols filled : SymbolMap}
  {path? : Option FilePath}

/-- Exactly the lines that a file has are read. -/
theorem readLines_eq_ok_iff
    {path : FilePath}
    {lines : List String} :
    readLines tree path = .ok lines ↔ HasLines tree (some path) lines := by
  constructor
  · intro through
    rw [readLines] at through
    split at through
    · cases through
    rename_i noNull
    rw [Bool.not_eq_true] at noNull
    split at through
    · cases through
    rename_i content isFile
    split at through
    · cases through
    rename_i text isText
    cases through
    cases Text.Utf8.decode_eq_ok_iff.mp isText
    exact .ofFile noNull isFile
  · rintro (_ | ⟨noNull, isText⟩)
    simp only [readLines, noNull, isText, Text.Utf8.decode_encode, Bool.false_eq_true, if_false]

/-- Reading stops for a null character and fails for any other reason. -/
theorem readLines_eq_error
    {path : FilePath}
    {fault : Fault}
    (stops : readLines tree path = .error fault) :
    path.hasNull ∧ fault = .external nullInPath ∨
      path.hasNull = false ∧
        ∃ failure, fault = .failure failure ∧ failure.kind = .mappingFormat := by
  rw [readLines] at stops
  split at stops
  · rename_i hasNull
    cases stops
    exact .inl ⟨hasNull, rfl⟩
  rename_i noNull
  rw [Bool.not_eq_true] at noNull
  refine .inr ⟨noNull, ?_⟩
  split at stops
  · cases stops
    exact ⟨_, rfl, rfl⟩
  split at stops
  · cases stops
    exact ⟨_, rfl, rfl⟩
  · cases stops

/-- A text goes through if its lines are there and are all accepted. -/
theorem fillFrom_eq_ok_iff
    (idle : ∀ symbols source, parse symbols source [] = (symbols, none)) :
    fillFrom parse tree symbols path? = .ok filled ↔
      ∃ lines, HasLines tree path? lines ∧
        parse symbols (sourceOf path?) lines = (filled, none) := by
  cases path? with
  | none =>
      constructor
      · intro through
        cases through
        exact ⟨[], .notGiven, idle _ _⟩
      · rintro ⟨_, ⟨⟩, parsed⟩
        cases (idle _ _).symm.trans parsed
        rfl
  | some path =>
      constructor
      · intro through
        obtain ⟨lines, read, parsed⟩ := exists_of_bind_eq_ok through
        refine ⟨lines, readLines_eq_ok_iff.mp read, ?_⟩
        split at parsed
        · rename_i known isParsed
          cases parsed
          exact isParsed
        · cases parsed
      · rintro ⟨lines, hasLines, parsed⟩
        have parsed : parse symbols path.toText lines = (filled, none) := parsed
        rw [fillFrom, readLines_eq_ok_iff.mpr hasLines]
        simp only [bind, Except.bind, parsed]
        rfl

/-- A text that is not read is named by a path with a null character, or is malformed. -/
theorem fillFrom_eq_error
    (fails : ∀ {symbols source lines filled failure},
      parse symbols source lines = (filled, some failure) → failure.kind = .mappingFormat)
    {fault : Fault}
    (stops : fillFrom parse tree symbols path? = .error fault) :
    IsNull path? ∧ fault = .external nullInPath ∨
      ¬ IsNull path? ∧ ∃ failure, fault = .failure failure ∧ failure.kind = .mappingFormat := by
  cases path? with
  | none =>
      cases stops
  | some path =>
      have isNull_iff : IsNull (some path) ↔ path.hasNull := by
        simp [IsNull]
      rw [isNull_iff, Bool.not_eq_true]
      rcases bind_eq_error_iff.mp stops with unread | ⟨lines, read, rejected⟩
      · exact readLines_eq_error unread
      · have noNull : path.hasNull = false := by
          cases readLines_eq_ok_iff.mp read
          assumption
        refine .inr ⟨noNull, ?_⟩
        split at rejected
        · cases rejected
        · rename_i known failure parsed
          cases rejected
          exact ⟨failure, rfl, fails parsed⟩

/-- A path with a null character ends the loading. -/
theorem fillFrom_of_isNull (isNull : IsNull path?) :
    fillFrom parse tree symbols path? = .error (.external nullInPath) := by
  obtain ⟨path, rfl, hasNull⟩ := isNull
  rw [fillFrom, readLines, if_pos hasNull]
  rfl

end Filling

section Loading

variable {tree : FileTree} {mapping seeds : Option FilePath} {symbols : SymbolMap}

/-- A mapping is rejected for its format only. -/
theorem kind_of_mapping_failure
    {symbols filled : SymbolMap}
    {source : String}
    {lines : List String}
    {failure : Failure}
    (rejected : MappingText.parse symbols source lines = (filled, some failure)) :
    failure.kind = .mappingFormat := by
  rw [MappingText.parse] at rejected
  split at rejected
  · cases rejected
  · cases rejected
    rfl

/-- Seeds are rejected for their format only. -/
theorem kind_of_seed_failure
    {symbols filled : SymbolMap}
    {source : String}
    {lines : List String}
    {failure : Failure}
    (rejected : SeedText.parse symbols source lines = (filled, some failure)) :
    failure.kind = .mappingFormat := by
  rw [SeedText.parse] at rejected
  split at rejected
  · cases rejected
  · cases rejected
    rfl

/-- What a mapping loads is what filling an empty map from it comes to. -/
theorem loadsMapping_iff :
    LoadsMapping tree mapping symbols ↔
      fillFrom MappingText.parse tree {} mapping = .ok symbols :=
  (fillFrom_eq_ok_iff fun _ _ => rfl).symm

/-- What texts load is what reading them comes to. -/
theorem loads_iff : Loads tree mapping seeds symbols ↔ read tree mapping seeds = .ok symbols := by
  have seeded {renamed : SymbolMap} :
      fillFrom SeedText.parse tree renamed seeds = .ok symbols ↔
        ∃ lines, HasLines tree seeds lines ∧
          SeedText.parse renamed (sourceOf seeds) lines = (symbols, none) :=
    fillFrom_eq_ok_iff fun _ _ => rfl
  constructor
  · rintro ⟨renamed, lines, mapped, rest⟩
    rw [read, loadsMapping_iff.mp mapped]
    exact seeded.mpr ⟨lines, rest⟩
  · intro through
    obtain ⟨renamed, mapped, through⟩ := exists_of_bind_eq_ok through
    obtain ⟨lines, rest⟩ := seeded.mp through
    exact ⟨renamed, lines, loadsMapping_iff.mpr mapped, rest⟩

/-- A null character that is met ends the reading. -/
theorem read_of_meetsNull (meetsNull : MeetsNull tree mapping seeds) :
    read tree mapping seeds = .error (.external nullInPath) := by
  rw [read, bind_eq_error_iff]
  rcases meetsNull with isNull | ⟨⟨renamed, mapped⟩, isNull⟩
  · exact .inl (fillFrom_of_isNull isNull)
  · exact .inr ⟨renamed, loadsMapping_iff.mp mapped, fillFrom_of_isNull isNull⟩

/-- Without a null character, reading ends with a malformed text only. -/
theorem read_eq_error
    (noNull : ¬ MeetsNull tree mapping seeds)
    {fault : Fault}
    (stops : read tree mapping seeds = .error fault) :
    ∃ failure, fault = .failure failure ∧ failure.kind = .mappingFormat := by
  rcases bind_eq_error_iff.mp stops with stops | ⟨renamed, mapped, stops⟩
  · rcases fillFrom_eq_error kind_of_mapping_failure stops with ⟨isNull, _⟩ | ⟨_, isFailure⟩
    · exact absurd (.inl isNull) noNull
    · exact isFailure
  · rcases fillFrom_eq_error kind_of_seed_failure stops with ⟨isNull, _⟩ | ⟨_, isFailure⟩
    · exact absurd (.inr ⟨⟨renamed, loadsMapping_iff.mpr mapped⟩, isNull⟩) noNull
    · exact isFailure

/-- Texts that are read are loaded, whether loading is strict or not. -/
theorem ends_load_of_ok
    (through : read tree mapping seeds = .ok symbols)
    (strict : Bool) :
    Ends (load tree mapping seeds strict) (.ok symbols) := by
  rw [load, through]
  exact (Logged.ends_log _ _ _).bind_ok (Logged.ends_pure symbols)

/-- An error that is no failure of a text ends every loading. -/
theorem ends_load_of_external
    {error : ExternalError}
    (stops : read tree mapping seeds = .error (.external error))
    (strict : Bool) :
    Ends (load tree mapping seeds strict) (.error (.external error)) := by
  rw [load, stops]
  exact Logged.ends_throw _

/-- A malformed text comes to an empty map, or to its failure where loading is strict. -/
theorem ends_load_of_failure
    {failure : Failure}
    (fails : read tree mapping seeds = .error (.failure failure)) :
    Ends (load tree mapping seeds false) (.ok {}) ∧
      Ends (load tree mapping seeds true) (.error (.failure failure)) := by
  rw [load, load, fails]
  exact ⟨(Logged.ends_log _ _ _).bind_ok (Logged.ends_pure _), fun _ => rfl⟩

/-- Loading is all or nothing. Texts that can be read and are accepted line by line give their
map to every caller. Any others give the empty map to a caller that is not strict and the failure
of a mapping format to a strict one, unless the loader gets to a path with a null character: that
stops both. -/
theorem load_all_or_nothing (tree : FileTree) (mapping seeds : Option FilePath) :
    (∀ symbols, Loads tree mapping seeds symbols →
      ∀ strict, Ends (load tree mapping seeds strict) (.ok symbols)) ∧
    (MeetsNull tree mapping seeds →
      ∀ strict, Ends (load tree mapping seeds strict) (.error (.external nullInPath))) ∧
    (¬ MeetsNull tree mapping seeds → (∀ symbols, ¬ Loads tree mapping seeds symbols) →
      Ends (load tree mapping seeds false) (.ok {}) ∧
        ∃ failure, failure.kind = .mappingFormat ∧
          Ends (load tree mapping seeds true) (.error (.failure failure))) := by
  refine ⟨?_, ?_, ?_⟩
  · intro symbols loads strict
    exact ends_load_of_ok (loads_iff.mp loads) strict
  · intro meetsNull strict
    exact ends_load_of_external (read_of_meetsNull meetsNull) strict
  · intro noNull notLoaded
    cases result : read tree mapping seeds with
    | ok symbols =>
        exact absurd (loads_iff.mpr result) (notLoaded symbols)
    | error fault =>
        obtain ⟨failure, rfl, kind⟩ := read_eq_error noNull result
        obtain ⟨lenient, strict⟩ := ends_load_of_failure result
        exact ⟨lenient, failure, kind, strict⟩

/-- Where the seed text is missing, nothing of the mapping text is kept. -/
theorem load_of_missingSeeds :
    let tree : FileTree := { nodes := [(["mapping.txt"], .file (Text.Utf8.encode "A -> a:"))] }
    let mapping : Option FilePath := some ⟨0, ["mapping.txt"]⟩
    let seeds : Option FilePath := some ⟨0, ["seeds.txt"]⟩
    ¬ MeetsNull tree mapping seeds ∧ (∀ symbols, ¬ Loads tree mapping seeds symbols) ∧
      Ends (load tree mapping seeds false) (.ok {}) := by
  intro tree mapping seeds
  have noNull : ¬ MeetsNull tree mapping seeds := by
    simp only [MeetsNull, IsNull, mapping, seeds, Option.mem_def, Option.some.injEq,
      exists_eq_left']
    rintro (hasNull | ⟨_, hasNull⟩)
    · revert hasNull
      decide
    · revert hasNull
      decide
  have notLoaded : ∀ symbols, ¬ Loads tree mapping seeds symbols := by
    rintro symbols ⟨renamed, lines, _, hasLines, _⟩
    simp only [seeds] at hasLines
    obtain _ | ⟨_, isText⟩ := hasLines
    cases isText
  exact ⟨noNull, notLoaded, ((load_all_or_nothing tree mapping seeds).2.2 noNull notLoaded).1⟩

/-- A path with a null character stops a caller that is not strict. -/
theorem load_stops_at_null :
    ¬ ∃ symbols, Ends (load {} (some ⟨0, ["a\x00b"]⟩) none false) (.ok symbols) := by
  rintro ⟨symbols, ends⟩
  cases ends {}

end Loading

end ApkAtlas.SymbolMap
