import ApkAtlas.Proofs.Package.Run

namespace ApkAtlas.Package

open PackageNode

/-!
# What a tree contains after a run

`Contents` ties the tree to the classes that were not rejected so far: a class stands
exactly at the path of each, with the label of the declaration that the policy keeps;
packages stand only on the way to classes, and no class stands on the way to another. Each
insertion preserves it, so it holds at the end of every run.
-/

/-- The classes of a name that were not rejected. -/
def entriesNamed (symbols : SymbolMap) (name : String) (entries : List Entry) : List Entry :=
  entries.filter fun entry => entry.accepted && entry.sourceName symbols == name

/-- The declaration of a class that a build keeps: the last one if later declarations
replace earlier ones, else the first. -/
def keptDeclaration?
    (symbols : SymbolMap)
    (policy : DuplicatePolicy)
    (name : String)
    (entries : List Entry) :
    Option Entry :=
  match policy with
  | .lastWins => (entriesNamed symbols name entries).getLast?
  | _ => (entriesNamed symbols name entries).head?

/-- The entries of a name are the accepted ones that resolve to it. -/
theorem mem_entriesNamed
    {symbols : SymbolMap}
    {name : String}
    {entries : List Entry}
    {entry : Entry} :
    entry ∈ entriesNamed symbols name entries ↔
      entry ∈ entries ∧ entry.accepted ∧ entry.sourceName symbols = name := by
  rw [entriesNamed, List.mem_filter, Bool.and_eq_true, beq_iff_eq]

/-- The kept declaration of a name is an accepted entry of this name. -/
theorem mem_of_keptDeclaration?
    {symbols : SymbolMap}
    {policy : DuplicatePolicy}
    {name : String}
    {entries : List Entry}
    {entry : Entry}
    (kept : keptDeclaration? symbols policy name entries = some entry) :
    entry ∈ entries ∧ entry.accepted ∧ entry.sourceName symbols = name := by
  apply mem_entriesNamed.mp
  cases policy with
  | firstWins =>
      exact List.mem_of_head? kept
  | lastWins =>
      exact List.mem_of_getLast? kept
  | refuse =>
      exact List.mem_of_head? kept

/-- A further class that is rejected or goes by another name is none of the name. -/
theorem entriesNamed_append_of_other
    {symbols : SymbolMap}
    {name : String}
    {entry : Entry}
    (other : ¬ (entry.accepted ∧ entry.sourceName symbols = name))
    (entries : List Entry) :
    entriesNamed symbols name (entries ++ [entry]) = entriesNamed symbols name entries := by
  rw [entriesNamed, List.filter_append, List.filter_cons_of_neg, List.filter_nil,
    List.append_nil, entriesNamed]
  simpa using other

/-- A further class that is rejected or goes by another name changes nothing. -/
theorem keptDeclaration?_append_of_other
    {symbols : SymbolMap}
    {policy : DuplicatePolicy}
    {name : String}
    {entries : List Entry}
    {entry : Entry}
    (other : ¬ (entry.accepted ∧ entry.sourceName symbols = name)) :
    keptDeclaration? symbols policy name (entries ++ [entry]) =
      keptDeclaration? symbols policy name entries := by
  have same := entriesNamed_append_of_other other entries
  cases policy <;> simp only [keptDeclaration?, same]

/-- An accepted entry is the last of its name. -/
theorem entriesNamed_append_of_same
    {symbols : SymbolMap}
    {entry : Entry}
    (accepted : entry.accepted)
    (entries : List Entry) :
    entriesNamed symbols (entry.sourceName symbols) (entries ++ [entry]) =
      entriesNamed symbols (entry.sourceName symbols) entries ++ [entry] := by
  rw [entriesNamed, List.filter_append, List.filter_cons_of_pos, List.filter_nil,
    entriesNamed]
  simpa using accepted

/-- What a tree has to do with the classes inserted so far. -/
structure Contents
    (symbols : SymbolMap)
    (policy : DuplicatePolicy)
    (entries : List Entry)
    (root : PackageNode) : Prop where
  distinct : root.Distinct
  /-- Each class has the label of the kept declaration of its name. -/
  classes :
    ∀ path label, root.labelAt? path = some label → label.isClass →
      ∃ name entry,
        ClassName.path? name = some path ∧
          keptDeclaration? symbols policy name entries = some entry ∧
          declaredLabel symbols entry.fileName entry.declared = .ok label
  /-- Each class that was not rejected stands at its path. -/
  accepted :
    ∀ entry ∈ entries, entry.accepted →
      ∃ path label,
        ClassName.path? (entry.sourceName symbols) = some path ∧
          root.labelAt? path = some label ∧ label.isClass
  /-- Packages stand on the way to classes. -/
  packages :
    ∀ path label, root.labelAt? path = some label → ¬ label.isClass → path ≠ [] →
      ∃ entry ∈ entries, entry.accepted ∧
        ∃ classPath,
          ClassName.path? (entry.sourceName symbols) = some classPath ∧
            path <+: classPath ∧ path ≠ classPath
  /-- No class stands on the way to another. -/
  clear :
    ∀ entry ∈ entries, entry.accepted →
      ∀ classPath, ClassName.path? (entry.sourceName symbols) = some classPath →
        ∀ met, met ≠ [] → met <+: classPath → met ≠ classPath →
          ∀ label, root.labelAt? met = some label → ¬ label.isClass

section Placed

variable
  {root next : PackageNode}
  {path other : List String}
  {label found : NodeLabel}

/-- What is newly made on the way to a class is a package. -/
theorem not_isClass_freshPackage?
    (made : freshPackage? path other = some label) :
    ¬ label.isClass ∧ other <+: path := by
  by_cases leading : other <+: path
  · rw [freshPackage?, if_pos leading] at made
    obtain ⟨_, _, rfl⟩ := Option.map_eq_some_iff.mp made
    exact ⟨Bool.false_ne_true, leading⟩
  · rw [freshPackage?, if_neg leading] at made
    cases made

/-- A label after a class was placed is the new one, one from before, or that of a new
package. -/
theorem Placed.labels_cases
    (placed : Placed root path label next)
    (atOther : next.labelAt? other = some found) :
    (other = path ∧ found = label) ∨
      (other ≠ path ∧ root.labelAt? other = some found) ∨
      (other ≠ path ∧ freshPackage? path other = some found) := by
  rw [placed.labels] at atOther
  by_cases same : other = path
  · rw [if_pos same] at atOther
    exact .inl ⟨same, (Option.some.inj atOther).symm⟩
  · rw [if_neg same, Option.or_eq_some_iff] at atOther
    rcases atOther with old | ⟨_, made⟩
    · exact .inr (.inl ⟨same, old⟩)
    · exact .inr (.inr ⟨same, made⟩)

/-- Placing a class leaves the labels at other paths. -/
theorem Placed.labelAt?_of_ne
    (placed : Placed root path label next)
    (different : other ≠ path)
    (atOther : root.labelAt? other = some found) :
    next.labelAt? other = some found := by
  rw [placed.labels, if_neg different, atOther]
  rfl

end Placed

namespace Contents

variable
  {symbols : SymbolMap}
  {policy : DuplicatePolicy}
  {entries : List Entry}
  {root next : PackageNode}

theorem start : Contents symbols policy [] PackageNode.emptyRoot where
  distinct := .node List.nodup_nil fun _ member => nomatch member
  classes path label atPath isClass := by
    cases path with
    | nil =>
        cases atPath
        cases isClass
    | cons _ _ =>
        rw [labelAt?_cons_of_children_nil rfl] at atPath
        cases atPath
  accepted _ member := nomatch member
  packages path label atPath _ longer := by
    obtain ⟨_, _, rfl⟩ := List.exists_cons_of_ne_nil longer
    rw [labelAt?_cons_of_children_nil rfl] at atPath
    cases atPath
  clear _ member := nomatch member

/-- Each class of the tree comes from an accepted entry. -/
theorem exists_accepted
    (contents : Contents symbols policy entries root)
    {path : List String}
    {label : NodeLabel}
    (atPath : root.labelAt? path = some label)
    (isClass : label.isClass) :
    ∃ entry ∈ entries, entry.accepted ∧
      ClassName.path? (entry.sourceName symbols) = some path := by
  obtain ⟨name, entry, split, kept, _⟩ := contents.classes path label atPath isClass
  obtain ⟨member, accepted, rfl⟩ := mem_of_keptDeclaration? kept
  exact ⟨entry, member, accepted, split⟩

/-- A rejected class adds nothing. -/
theorem reject
    (contents : Contents symbols policy entries root)
    {entry : Entry}
    (rejected : ¬ entry.accepted) :
    Contents symbols policy (entries ++ [entry]) root where
  distinct := contents.distinct
  classes path label atPath isClass := by
    obtain ⟨name, known, split, kept, labelled⟩ :=
      contents.classes path label atPath isClass
    refine ⟨name, known, split, ?_, labelled⟩
    rw [keptDeclaration?_append_of_other fun both => rejected both.1]
    exact kept
  accepted known member accepted := by
    rcases List.mem_append.mp member with old | new
    · exact contents.accepted known old accepted
    · cases List.mem_singleton.mp new
      exact absurd accepted rejected
  packages path label atPath isPackage longer := by
    obtain ⟨known, member, rest⟩ := contents.packages path label atPath isPackage longer
    exact ⟨known, List.mem_append_left _ member, rest⟩
  clear known member accepted := by
    rcases List.mem_append.mp member with old | new
    · exact contents.clear known old accepted
    · cases List.mem_singleton.mp new
      exact absurd accepted rejected

/-- A class that is met again and kept leaves the tree as it is. -/
theorem keep
    (contents : Contents symbols policy entries root)
    (firstWins : policy = .firstWins)
    {entry : Entry}
    {path : List String}
    {known : NodeLabel}
    (accepted : entry.accepted)
    (split : ClassName.path? (entry.sourceName symbols) = some path)
    (atPath : root.labelAt? path = some known)
    (isClass : known.isClass) :
    Contents symbols policy (entries ++ [entry]) root where
  distinct := contents.distinct
  classes other label atOther otherIsClass := by
    obtain ⟨name, first, splitOther, kept, labelled⟩ :=
      contents.classes other label atOther otherIsClass
    refine ⟨name, first, splitOther, ?_, labelled⟩
    by_cases same : entry.sourceName symbols = name
    · subst same firstWins
      simp only [keptDeclaration?] at kept ⊢
      rw [entriesNamed_append_of_same accepted, List.head?_append, kept]
      rfl
    · rw [keptDeclaration?_append_of_other fun both => same both.2]
      exact kept
  accepted other member otherAccepted := by
    rcases List.mem_append.mp member with old | new
    · exact contents.accepted other old otherAccepted
    · cases List.mem_singleton.mp new
      exact ⟨path, known, split, atPath, isClass⟩
  packages other label atOther isPackage longer := by
    obtain ⟨first, member, rest⟩ := contents.packages other label atOther isPackage longer
    exact ⟨first, List.mem_append_left _ member, rest⟩
  clear other member otherAccepted := by
    rcases List.mem_append.mp member with old | new
    · exact contents.clear other old otherAccepted
    · cases List.mem_singleton.mp new
      obtain ⟨first, firstMember, firstAccepted, splitFirst⟩ :=
        contents.exists_accepted atPath isClass
      intro classPath splitEntry
      cases split.symm.trans splitEntry
      exact contents.clear first firstMember firstAccepted path splitFirst

/-- A path that is free for a class leads to no other class. -/
theorem eq_of_free
    (contents : Contents symbols policy entries root)
    {path classPath : List String}
    {entry : Entry}
    (free : ∀ known, root.labelAt? path = some known → known.isClass)
    (member : entry ∈ entries)
    (accepted : entry.accepted)
    (split : ClassName.path? (entry.sourceName symbols) = some classPath)
    (longer : path ≠ [])
    (leading : path <+: classPath) :
    path = classPath := by
  by_contra shorter
  obtain ⟨classPath, label, split', atClass, _⟩ := contents.accepted entry member accepted
  cases split.symm.trans split'
  have present : (root.labelAt? path).isSome := by
    apply labelAt?_isSome_of_prefix leading
    rw [atClass]
    rfl
  obtain ⟨known, atPath⟩ := Option.isSome_iff_exists.mp present
  exact contents.clear entry member accepted classPath split path longer leading shorter
    known atPath (free known atPath)

/-- A class that is written at its path joins the contents of the tree, provided that it
is the kept one of its name. -/
theorem place
    (contents : Contents symbols policy entries root)
    {entry : Entry}
    {path : List String}
    {label : NodeLabel}
    (accepted : entry.accepted)
    (split : ClassName.path? (entry.sourceName symbols) = some path)
    (labelled : declaredLabel symbols entry.fileName entry.declared = .ok label)
    (free : ∀ known, root.labelAt? path = some known → known.isClass)
    (kept :
      keptDeclaration? symbols policy (entry.sourceName symbols) (entries ++ [entry]) =
        some entry)
    (placed : Placed root path label next) :
    Contents symbols policy (entries ++ [entry]) next := by
  have isClass := (declaredLabel_eq_ok labelled).2.1
  refine {
    distinct := placed.distinct contents.distinct
    classes := ?_
    accepted := ?_
    packages := ?_
    clear := ?_
  }
  · intro other found atOther foundIsClass
    rcases placed.labels_cases atOther with ⟨rfl, rfl⟩ | ⟨different, old⟩ | ⟨_, made⟩
    · exact ⟨entry.sourceName symbols, entry, split, kept, labelled⟩
    · obtain ⟨name, first, splitOther, keptOther, labelledOther⟩ :=
        contents.classes other found old foundIsClass
      refine ⟨name, first, splitOther, ?_, labelledOther⟩
      rw [keptDeclaration?_append_of_other]
      · exact keptOther
      · rintro ⟨_, rfl⟩
        exact different (Option.some.inj (splitOther.symm.trans split))
    · exact absurd foundIsClass (not_isClass_freshPackage? made).1
  · intro other member otherAccepted
    rcases List.mem_append.mp member with old | new
    · obtain ⟨otherPath, known, splitOther, atOther, knownIsClass⟩ :=
        contents.accepted other old otherAccepted
      by_cases same : otherPath = path
      · refine ⟨otherPath, label, splitOther, ?_, isClass⟩
        rw [placed.labels, if_pos same]
      · exact ⟨otherPath, known, splitOther, placed.labelAt?_of_ne same atOther, knownIsClass⟩
    · cases List.mem_singleton.mp new
      refine ⟨path, label, split, ?_, isClass⟩
      rw [placed.labels, if_pos rfl]
  · intro other found atOther isPackage longer
    rcases placed.labels_cases atOther with ⟨_, rfl⟩ | ⟨_, old⟩ | ⟨different, made⟩
    · exact absurd isClass isPackage
    · obtain ⟨first, member, rest⟩ := contents.packages other found old isPackage longer
      exact ⟨first, List.mem_append_left _ member, rest⟩
    · exact ⟨entry, List.mem_append_right _ List.mem_cons_self, accepted, path, split,
        (not_isClass_freshPackage? made).2, different⟩
  · intro other member otherAccepted classPath splitOther met longer leading shorter
      found atMet
    rcases placed.labels_cases atMet with ⟨rfl, rfl⟩ | ⟨_, old⟩ | ⟨_, made⟩
    · -- The new class stands where something stood on the way to an earlier class.
      rcases List.mem_append.mp member with earlier | new
      · exact absurd
          (contents.eq_of_free free earlier otherAccepted splitOther longer leading) shorter
      · cases List.mem_singleton.mp new
        exact absurd (Option.some.inj (split.symm.trans splitOther)) shorter
    · rcases List.mem_append.mp member with earlier | new
      · exact contents.clear other earlier otherAccepted classPath splitOther met longer
          leading shorter found old
      · cases List.mem_singleton.mp new
        cases split.symm.trans splitOther
        exact placed.clear met longer leading shorter found old
    · exact (not_isClass_freshPackage? made).1

/-- An insertion preserves what a tree has to do with the classes inserted so far. -/
theorem insert
    {progress after : Progress}
    {fileName : String}
    {declared : ClassSymbols}
    {decision : Decision}
    (contents : Contents symbols policy entries progress.root)
    (inserted :
      Package.insert symbols policy fileName progress declared = .ok (after, decision)) :
    Contents symbols policy (entries ++ [⟨fileName, declared, decision⟩]) after.root := by
  cases insert_cases inserted with
  | rejected _ =>
      exact contents.reject Bool.false_ne_true
  | @added path label _ split labelled free placed =>
      refine contents.place rfl split labelled ?_ ?_ placed
      · intro known atPath
        cases free.symm.trans atPath
      · have noneNamed :
            entriesNamed symbols (Package.sourceName symbols declared) entries = [] := by
          apply List.eq_nil_iff_forall_not_mem.mpr
          intro other member
          obtain ⟨old, otherAccepted, sameName⟩ := mem_entriesNamed.mp member
          obtain ⟨otherPath, known, splitOther, atOther, _⟩ :=
            contents.accepted other old otherAccepted
          rw [sameName] at splitOther
          cases split.symm.trans splitOther
          cases free.symm.trans atOther
        have named :=
          @entriesNamed_append_of_same symbols ⟨fileName, declared, .added⟩ rfl entries
        simp only [Entry.sourceName] at named ⊢
        rw [noneNamed] at named
        cases policy <;> simp [keptDeclaration?, named]
  | @kept path known warning firstWins split atPath isClass =>
      exact contents.keep firstWins rfl split atPath isClass
  | @replaced path known label warning _ lastWins split labelled atPath isClass placed =>
      refine contents.place rfl split labelled ?_ ?_ placed
      · intro found atFound
        cases atPath.symm.trans atFound
        exact isClass
      · subst lastWins
        rw [keptDeclaration?, entriesNamed_append_of_same rfl]
        simp

end Contents

/-- The tree at the end of a run contains what the run inserted. -/
theorem Run.contents
    {symbols : SymbolMap}
    {policy : DuplicatePolicy}
    {entries : List Entry}
    {progress : Progress}
    (run : Run symbols policy entries progress) :
    Contents symbols policy entries progress.root := by
  induction run with
  | start =>
      exact .start
  | step _ inserted inductionHypothesis =>
      exact inductionHypothesis.insert inserted

end ApkAtlas.Package
