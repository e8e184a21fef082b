import ApkAtlas.Proofs.Package.Contents
import ApkAtlas.Proofs.Package.Notes

namespace ApkAtlas.Package

/-!
# Classes that are declared again

The first declaration of a class makes its node, and each later one makes a warning on the
two files that collide. `origins` knows of each class the file it was taken from, so the
warnings on a class name the files of its declarations one after another:
`Run.warnings_named`.
-/

/-- The warning on a class that was taken from one file and is declared in another. -/
def collision
    (policy : DuplicatePolicy)
    (name knownFile fileName : String) :
    DuplicateWarning :=
  match policy with
  | .lastWins => ⟨name, fileName, knownFile, .lastWins⟩
  | other => ⟨name, knownFile, fileName, other⟩

/-- The warnings on a class that each further declaration replaces. -/
def replacements (name : String) : Entry → List Entry → List DuplicateWarning
  | _, [] => []
  | earlier, later :: rest =>
      ⟨name, later.fileName, earlier.fileName, .lastWins⟩ :: replacements name later rest

/-- The warnings on a class with the given declarations, one for each but the first. Where
the last one wins, each takes the place of the one before; else all give way to the
first. -/
def collisions
    (policy : DuplicatePolicy)
    (name : String) :
    List Entry → List DuplicateWarning
  | [] => []
  | first :: more =>
      match policy with
      | .lastWins => replacements name first more
      | other => more.map fun again => ⟨name, first.fileName, again.fileName, other⟩

theorem replacements_append
    (name : String)
    (first again : Entry)
    (more : List Entry) :
    replacements name first (more ++ [again]) =
      replacements name first more ++
        [⟨name, again.fileName, ((first :: more).getLast (by simp)).fileName, .lastWins⟩] := by
  induction more generalizing first with
  | nil =>
      rfl
  | cons next rest inductionHypothesis =>
      simp [replacements, inductionHypothesis]

section Kept

variable
  {symbols : SymbolMap}
  {policy : DuplicatePolicy}
  {name : String}
  {entries : List Entry}

/-- A further declaration collides with the one that is kept so far. -/
theorem collisions_append
    {kept : Entry}
    (isKept : keptDeclaration? symbols policy name entries = some kept)
    (again : Entry) :
    collisions policy name (entriesNamed symbols name entries ++ [again]) =
      collisions policy name (entriesNamed symbols name entries) ++
        [collision policy name kept.fileName again.fileName] := by
  cases policy with
  | lastWins =>
      obtain ⟨first, more, named⟩ :
          ∃ first more, entriesNamed symbols name entries = first :: more :=
        List.exists_cons_of_ne_nil fun empty => by simp [keptDeclaration?, empty] at isKept
      rw [keptDeclaration?, named, List.getLast?_eq_getLast_of_ne_nil (by simp)] at isKept
      cases isKept
      rw [named]
      exact replacements_append name first again more
  | firstWins =>
      obtain ⟨more, named⟩ := List.head?_eq_some_iff.mp isKept
      rw [named]
      simp [collisions, collision]
  | refuse =>
      obtain ⟨more, named⟩ := List.head?_eq_some_iff.mp isKept
      rw [named]
      simp [collisions, collision]

@[simp] theorem collisions_singleton (first : Entry) : collisions policy name [first] = [] := by
  cases policy <;> rfl

@[simp] theorem className_collision (knownFile fileName : String) :
    (collision policy name knownFile fileName).className = name := by
  cases policy <;> rfl

end Kept

/-! ## What an insertion notes -/

section Insertions

variable
  {symbols : SymbolMap}
  {policy : DuplicatePolicy}
  {fileName : String}
  {progress next : Progress}
  {declared : ClassSymbols}
  {decision : Decision}

/-- The three kinds of note of an insertion. -/
theorem notes_of_insert
    (inserted : insert symbols policy fileName progress declared = .ok (next, decision)) :
    (∃ rejection, decision = .rejected rejection ∧ next.origins = progress.origins) ∨
      (decision = .added ∧
        next.origins = progress.origins.insert (sourceName symbols declared) fileName) ∨
      ∃ otherwise,
        decision =
            .duplicate
              (collision policy (sourceName symbols declared)
                (progress.origins[sourceName symbols declared]?.getD otherwise) fileName) ∧
          next.origins =
            if policy = .lastWins then
              progress.origins.insert (sourceName symbols declared) fileName
            else
              progress.origins := by
  simp only [insert] at inserted
  split at inserted
  · cases inserted
    exact .inl ⟨_, rfl, rfl⟩
  · split at inserted
    · cases inserted
      exact .inl ⟨_, rfl, rfl⟩
    · split at inserted
      · obtain ⟨_, _, written⟩ := exists_of_bind_eq_ok inserted
        cases written
        exact .inr (.inl ⟨rfl, rfl⟩)
      · split at inserted
        · cases inserted
          exact .inl ⟨_, rfl, rfl⟩
        · cases policy with
          | refuse =>
              cases inserted
          | firstWins =>
              cases inserted
              exact .inr (.inr ⟨_, rfl, rfl⟩)
          | lastWins =>
              obtain ⟨_, _, written⟩ := exists_of_bind_eq_ok inserted
              cases written
              exact .inr (.inr ⟨_, rfl, rfl⟩)

end Insertions

namespace Contents

variable
  {symbols : SymbolMap}
  {policy : DuplicatePolicy}
  {entries : List Entry}
  {root : PackageNode}
  {name : String}
  {path : List String}

/-- Where nothing stands at the path of a class, none of its declarations was accepted. -/
theorem entriesNamed_eq_nil
    (contents : Contents symbols policy entries root)
    (split : ClassName.path? name = some path)
    (free : root.labelAt? path = none) :
    entriesNamed symbols name entries = [] := by
  apply List.eq_nil_iff_forall_not_mem.mpr
  intro entry member
  obtain ⟨inEntries, accepted, rfl⟩ := mem_entriesNamed.mp member
  obtain ⟨classPath, label, splitEntry, atClass, _⟩ :=
    contents.accepted entry inEntries accepted
  cases split.symm.trans splitEntry
  cases free.symm.trans atClass

/-- Where a class stands at its path, one of its declarations is kept. -/
theorem exists_keptDeclaration
    (contents : Contents symbols policy entries root)
    (split : ClassName.path? name = some path)
    {known : NodeLabel}
    (atPath : root.labelAt? path = some known)
    (isClass : known.isClass) :
    ∃ kept, keptDeclaration? symbols policy name entries = some kept := by
  obtain ⟨other, kept, splitOther, isKept, _⟩ := contents.classes path known atPath isClass
  have sameName : other = name :=
    (ClassName.qualifiedName_path splitOther).symm.trans (ClassName.qualifiedName_path split)
  exact ⟨kept, sameName ▸ isKept⟩

end Contents

/-! ## What a run has noted -/

/-- What a step of a run notes of its class, whose accepted declarations are known. -/
inductive Noted
    (symbols : SymbolMap)
    (policy : DuplicatePolicy)
    (entries : List Entry)
    (entry : Entry)
    (origins : Std.ExtTreeMap String String) :
    Std.ExtTreeMap String String → Prop where
  | rejected :
      ¬ entry.accepted →
      entry.decision.warning? = none →
      Noted symbols policy entries entry origins origins
  | added :
      entry.accepted →
      entry.decision.warning? = none →
      entriesNamed symbols (entry.sourceName symbols) entries = [] →
      Noted symbols policy entries entry origins
        (origins.insert (entry.sourceName symbols) entry.fileName)
  | duplicate
      {kept : Entry}
      {otherwise : String} :
      entry.accepted →
      entry.decision.warning? =
        some
          (collision policy (entry.sourceName symbols)
            (origins[entry.sourceName symbols]?.getD otherwise) entry.fileName) →
      keptDeclaration? symbols policy (entry.sourceName symbols) entries = some kept →
      Noted symbols policy entries entry origins
        (if policy = .lastWins then
          origins.insert (entry.sourceName symbols) entry.fileName
        else
          origins)

section Runs

variable
  {symbols : SymbolMap}
  {policy : DuplicatePolicy}
  {entries : List Entry}
  {progress next : Progress}

theorem Run.noted_of_insert
    {fileName : String}
    {declared : ClassSymbols}
    {decision : Decision}
    (run : Run symbols policy entries progress)
    (inserted : insert symbols policy fileName progress declared = .ok (next, decision)) :
    Noted symbols policy entries ⟨fileName, declared, decision⟩ progress.origins
      next.origins := by
  rcases notes_of_insert inserted with
    ⟨rejection, rfl, same⟩ | ⟨rfl, same⟩ | ⟨otherwise, rfl, same⟩
  · rw [same]
    exact .rejected Bool.false_ne_true rfl
  · rw [same]
    cases insert_cases inserted with
    | added split _ free _ =>
        exact .added rfl rfl (run.contents.entriesNamed_eq_nil split free)
  · rw [same]
    obtain ⟨kept, isKept⟩ :
        ∃ kept,
          keptDeclaration? symbols policy (sourceName symbols declared) entries =
            some kept := by
      cases insert_cases inserted with
      | kept _ split atPath isClass =>
          exact run.contents.exists_keptDeclaration split atPath isClass
      | replaced _ split _ atPath isClass _ =>
          exact run.contents.exists_keptDeclaration split atPath isClass
    exact .duplicate rfl rfl isKept

/-- A further accepted declaration is kept if it is the first or if the last one wins. -/
theorem keptDeclaration?_append_of_same
    {entry : Entry}
    (accepted : entry.accepted) :
    keptDeclaration? symbols policy (entry.sourceName symbols) (entries ++ [entry]) =
      if policy = .lastWins then
        some entry
      else
        (keptDeclaration? symbols policy (entry.sourceName symbols) entries).or
          (some entry) := by
  have named :
      entriesNamed symbols (entry.sourceName symbols) (entries ++ [entry]) =
        entriesNamed symbols (entry.sourceName symbols) entries ++ [entry] :=
    entriesNamed_append_of_same accepted entries
  cases policy <;> simp [keptDeclaration?, named, List.head?_append]

/-- The origin of a class is the file of its kept declaration. -/
theorem Run.origins
    (run : Run symbols policy entries progress)
    (name : String) :
    progress.origins[name]? =
      (keptDeclaration? symbols policy name entries).map Entry.fileName := by
  induction run generalizing name with
  | start =>
      have nothing : keptDeclaration? symbols policy name [] = none := by
        cases policy <;> rfl
      rw [nothing]
      exact Std.ExtTreeMap.getElem?_empty
  | @step entries progress next fileName declared decision run inserted inductionHypothesis =>
      have noted := run.noted_of_insert inserted
      generalize (⟨fileName, declared, decision⟩ : Entry) = entry at noted ⊢
      generalize next.origins = after at noted ⊢
      by_cases same : entry.sourceName symbols = name
      · subst same
        cases noted with
        | rejected rejected _ =>
            rw [keptDeclaration?_append_of_other fun both => rejected both.1,
              inductionHypothesis]
        | added accepted _ none =>
            rw [Std.ExtTreeMap.getElem?_insert_self, keptDeclaration?_append_of_same accepted]
            cases policy <;> simp [keptDeclaration?, none]
        | duplicate accepted _ isKept =>
            rw [keptDeclaration?_append_of_same accepted]
            split
            · exact Std.ExtTreeMap.getElem?_insert_self
            · rw [inductionHypothesis, isKept]
              rfl
      · rw [keptDeclaration?_append_of_other fun both => same both.2, ← inductionHypothesis]
        cases noted with
        | rejected =>
            rfl
        | added =>
            simp [Std.ExtTreeMap.getElem?_insert, same]
        | duplicate =>
            split
            · simp [Std.ExtTreeMap.getElem?_insert, same]
            · rfl

/-- The warnings of a run on a class name the files of its accepted declarations one after
another. -/
theorem Run.warnings_named
    (run : Run symbols policy entries progress)
    (name : String) :
    (progress.warnings.filter fun warning => warning.className == name) =
      collisions policy name (entriesNamed symbols name entries) := by
  rw [run.warnings]
  induction run with
  | start =>
      rfl
  | @step entries progress next fileName declared decision run inserted inductionHypothesis =>
      have noted := run.noted_of_insert inserted
      have origins := run.origins
      generalize (⟨fileName, declared, decision⟩ : Entry) = entry at noted ⊢
      generalize next.origins = after at noted
      rw [List.filterMap_append, List.filter_append, inductionHypothesis]
      by_cases same : entry.sourceName symbols = name
      · subst same
        cases noted with
        | rejected rejected silent =>
            rw [entriesNamed_append_of_other fun both => rejected both.1]
            simp [silent]
        | added accepted silent none =>
            rw [entriesNamed_append_of_same accepted, none, List.nil_append,
              collisions_singleton]
            simp [silent, collisions]
        | duplicate accepted warned isKept =>
            rw [entriesNamed_append_of_same accepted, collisions_append isKept]
            simp [warned, origins, isKept]
      · rw [entriesNamed_append_of_other fun both => same both.2]
        cases noted with
        | rejected _ silent =>
            simp [silent]
        | added _ silent _ =>
            simp [silent]
        | duplicate _ warned _ =>
            simp [warned, same]

end Runs

end ApkAtlas.Package
