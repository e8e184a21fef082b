import ApkAtlas.Archive
import ApkAtlas.Platform.Builtin
import Mathlib.Data.List.Forall2
import Mathlib.Data.Nat.Digits.Defs
import Mathlib.Data.Prod.Lex
import Mathlib.Data.String.Basic

namespace ApkAtlas.Archive

/-!
# Loading is ordered by names alone

The ranks of names are in a total order in which no two names share a place. So the order of
loading is that of the names, wherever they stand in the archive, and leaving some of them out
does not change the order of the others.
-/

namespace LoadRank

variable {first second : LoadRank}

/-- What ranks are compared by, the first part first. -/
def key (rank : LoadRank) : Bool ×ₗ Nat ×ₗ String :=
  toLex (rank.isOther, toLex (rank.number, rank.name))

theorem le_iff_key_le : first.le second ↔ first.key ≤ second.key := by
  rw [le, key, key, Prod.Lex.toLex_le_toLex, Prod.Lex.toLex_le_toLex, Bool.lt_iff]
  by_cases sameKind : first.isOther = second.isOther
  · by_cases sameNumber : first.number = second.number
    · simp [sameKind, sameNumber]
    · simp [sameKind, sameNumber]
  · cases ofFirst : first.isOther <;> cases ofSecond : second.isOther <;>
      simp_all

theorem key_injective : Function.Injective key := by
  rintro ⟨_, _, _⟩ ⟨_, _, _⟩ same
  cases same
  rfl

end LoadRank

section Names

variable {names others : List String}

/-- Whether a name is loaded before another one or is the same. -/
def loadsBefore (left right : String) : Bool :=
  (LoadRank.ofName left).le (LoadRank.ofName right)

theorem name_ofName (name : String) : (LoadRank.ofName name).name = name := by
  rw [LoadRank.ofName]
  split <;> rfl

theorem loadsBefore_iff (left right : String) :
    loadsBefore left right ↔ (LoadRank.ofName left).key ≤ (LoadRank.ofName right).key :=
  LoadRank.le_iff_key_le

theorem eq_of_loadsBefore
    {left right : String}
    (before : loadsBefore left right)
    (after : loadsBefore right left) :
    left = right := by
  rw [loadsBefore_iff] at before after
  have same := LoadRank.key_injective (le_antisymm before after)
  rw [← name_ofName left, same, name_ofName]

theorem pairwise_inLoadOrder (names : List String) :
    (inLoadOrder names).Pairwise fun left right => loadsBefore left right := by
  apply List.pairwise_mergeSort
  · intro first second third before after
    exact (loadsBefore_iff _ _).mpr
      (((loadsBefore_iff _ _).mp before).trans ((loadsBefore_iff _ _).mp after))
  · intro first second
    rw [Bool.or_eq_true]
    exact (le_total _ _).imp (loadsBefore_iff _ _).mpr (loadsBefore_iff _ _).mpr

theorem inLoadOrder_perm (names : List String) :
    (inLoadOrder names).Perm (names.filter isDexName) :=
  List.mergeSort_perm _ _

/-- The only names in the order of loading with these members. -/
theorem eq_inLoadOrder
    (perm : others.Perm (names.filter isDexName))
    (ordered : others.Pairwise fun left right => loadsBefore left right) :
    others = inLoadOrder names :=
  List.Perm.eq_of_pairwise (fun _ _ _ _ => eq_of_loadsBefore) ordered
    (pairwise_inLoadOrder names) (perm.trans (inLoadOrder_perm names).symm)

/-- Where the names stand in the archive does not matter. -/
theorem inLoadOrder_of_perm
    (perm : (names.filter isDexName).Perm (others.filter isDexName)) :
    inLoadOrder names = inLoadOrder others :=
  eq_inLoadOrder ((inLoadOrder_perm names).trans perm) (pairwise_inLoadOrder names)

/-- Names that are left out do not change the order of the others. -/
theorem filter_inLoadOrder (keeps : String → Bool) :
    (inLoadOrder names).filter keeps = inLoadOrder (names.filter keeps) := by
  apply eq_inLoadOrder
  · have kept := (inLoadOrder_perm names).filter keeps
    rwa [List.filter_filter, List.filter_congr (fun _ _ => Bool.and_comm _ _),
      ← List.filter_filter] at kept
  · exact (pairwise_inLoadOrder names).filter keeps

end Names

/-! ## Numbered DEX files

A DEX file is numbered if its name is `classes`, decimal digits and `.dex`. The numbered files are
loaded first, in the order of their numbers, and the others after them in the order of their names.
Names tell numbers apart that are written differently, so the order of loading is the only one
that keeps to this: `dexNames_are_ordered`. -/

/-- The name is of the numbered form. Its digits are written in any script, the most significant
first, and a name without digits has the number one. -/
def HasNumber (name : String) (number : Nat) : Prop :=
  ∃ digits values,
    name.toList = "classes".toList ++ digits ++ ".dex".toList ∧
      List.Forall₂ (fun digit value => Text.decimalDigit? digit = some value) digits values ∧
      number = if digits = [] then 1 else Nat.ofDigits 10 values.reverse

/-- The number in a name can be read: if the name is of the numbered form, it does not have too
many digits. -/
def IsReadable (name : String) : Prop :=
  ∀ digits values,
    name.toList = "classes".toList ++ digits ++ ".dex".toList →
      List.Forall₂ (fun digit value => Text.decimalDigit? digit = some value) digits values →
        digits.length ≤ Number.digitLimit

/-- The name is of the numbered form, and its digits are too many to be read. -/
def HasTooMany (name : String) (count : Nat) : Prop :=
  Number.digitLimit < count ∧
    ∃ digits values,
      name.toList = "classes".toList ++ digits ++ ".dex".toList ∧
        List.Forall₂ (fun digit value => Text.decimalDigit? digit = some value) digits values ∧
        digits.length = count

/-- Which of two names comes first in the order of loading. Names are compared by their code
points. -/
inductive ComesFirst (left right : String) : Prop
  | numbered
      {number : Nat}
      (ofLeft : HasNumber left number)
      (isOther : ∀ number, ¬ HasNumber right number)
  | lesser
      {number greater : Nat}
      (ofLeft : HasNumber left number)
      (ofRight : HasNumber right greater)
      (less : number < greater)
  | tied
      {number : Nat}
      (ofLeft : HasNumber left number)
      (ofRight : HasNumber right number)
      (byName : left ≤ right)
  | others
      (leftIsOther : ∀ number, ¬ HasNumber left number)
      (rightIsOther : ∀ number, ¬ HasNumber right number)
      (byName : left ≤ right)

namespace LoadRank

theorem between?_eq_some_iff {beginning ending text middle : List Char} :
    between? beginning ending text = some middle ↔ text = beginning ++ middle ++ ending := by
  rw [between?]
  constructor
  · intro found
    split at found
    · rename_i fits
      rw [Bool.and_eq_true, decide_eq_true_eq, List.isPrefixOf_iff_prefix] at fits
      obtain ⟨⟨rest, rfl⟩, _⟩ := fits
      simp only [List.drop_left] at found
      split at found
      · rename_i ends
        cases found
        conv_lhs => rw [← List.take_append_drop (rest.length - ending.length) rest]
        rw [List.append_assoc, List.append_cancel_left_eq, List.append_cancel_left_eq]
        simpa using ends
      · cases found
    · cases found
  · rintro rfl
    have fits :
        (beginning.isPrefixOf (beginning ++ middle ++ ending) &&
          decide (beginning.length + ending.length ≤ (beginning ++ middle ++ ending).length)) =
            true := by
      simp only [Bool.and_eq_true, List.isPrefixOf_iff_prefix, List.append_assoc,
        List.prefix_append, decide_eq_true_eq, List.length_append, true_and]
      omega
    rw [if_pos fits]
    simp

/-- All characters are digits exactly if each of them has a value. -/
theorem mapM_decimalDigit?_eq_some_iff {digits : List Char} {values : List Nat} :
    digits.mapM Text.decimalDigit? = some values ↔
      List.Forall₂ (fun digit value => Text.decimalDigit? digit = some value) digits values := by
  induction digits generalizing values with
  | nil =>
      rw [List.forall₂_nil_left_iff, List.mapM_nil, Option.pure_def, Option.some.injEq, eq_comm]
  | cons digit rest inductionHypothesis =>
      simp only [List.mapM_cons, Option.bind_eq_bind, Option.bind_eq_some_iff, Option.pure_def,
        Option.some.injEq, List.forall₂_cons_left_iff, inductionHypothesis]
      constructor
      · rintro ⟨value, ofDigit, others, ofRest, rfl⟩
        exact ⟨value, others, ofDigit, ofRest, rfl⟩
      · rintro ⟨value, others, ofDigit, ofRest, rfl⟩
        exact ⟨value, ofDigit, others, ofRest, rfl⟩

theorem ofDigits_eq (values : List Nat) :
    Number.ofDigits 10 values = Nat.ofDigits 10 values.reverse := by
  rw [Number.ofDigits, Nat.ofDigits_eq_foldr, List.foldr_reverse]
  congr
  funext value digit
  rw [Nat.cast_id]
  omega

/-- Exactly the names of the numbered form have digits. -/
theorem digits?_eq_some_iff {name : String} {values : List Nat} :
    digits? name = some values ↔
      ∃ digits,
        name.toList = "classes".toList ++ digits ++ ".dex".toList ∧
          List.Forall₂ (fun digit value => Text.decimalDigit? digit = some value) digits
            values := by
  simp only [digits?, Option.bind_eq_bind, Option.bind_eq_some_iff, between?_eq_some_iff,
    mapM_decimalDigit?_eq_some_iff]

/-- Exactly the names of the numbered form have a number. -/
theorem number?_eq_some_iff {name : String} {number : Nat} :
    number? name = some number ↔ HasNumber name number := by
  simp only [number?, Option.bind_eq_bind, Option.bind_eq_some_iff, digits?_eq_some_iff,
    Option.pure_def, Option.some.injEq, HasNumber]
  constructor
  · rintro ⟨values, ⟨digits, whole, ofDigits⟩, rfl⟩
    refine ⟨digits, values, whole, ofDigits, ?_⟩
    cases ofDigits with
    | nil =>
        rfl
    | cons _ _ =>
        exact ofDigits_eq _
  · rintro ⟨digits, values, whole, ofDigits, rfl⟩
    refine ⟨values, ⟨digits, whole, ofDigits⟩, ?_⟩
    cases ofDigits with
    | nil =>
        rfl
    | cons _ _ =>
        exact ofDigits_eq _

/-- The digits are counted where they are too many. -/
theorem tooLong?_eq_some_iff {name : String} {count : Nat} :
    tooLong? name = some count ↔ HasTooMany name count := by
  simp only [tooLong?, Option.filter_eq_some_iff, Option.map_eq_some_iff, digits?_eq_some_iff,
    decide_eq_true_eq, HasTooMany]
  constructor
  · rintro ⟨⟨values, ⟨digits, whole, ofDigits⟩, rfl⟩, tooMany⟩
    exact ⟨tooMany, digits, values, whole, ofDigits, ofDigits.length_eq⟩
  · rintro ⟨tooMany, digits, values, whole, ofDigits, rfl⟩
    exact ⟨⟨values, ⟨digits, whole, ofDigits⟩, ofDigits.length_eq.symm⟩, tooMany⟩

/-- Exactly the numbers with too many digits are reported. -/
theorem tooLong?_eq_none_iff {name : String} : tooLong? name = none ↔ IsReadable name := by
  simp only [tooLong?, Option.filter_eq_none_iff, Option.map_eq_some_iff, digits?_eq_some_iff,
    decide_eq_true_eq, not_lt]
  constructor
  · intro short digits values whole ofDigits
    rw [ofDigits.length_eq]
    exact short _ ⟨values, ⟨digits, whole, ofDigits⟩, rfl⟩
  · rintro readable _ ⟨values, ⟨digits, whole, ofDigits⟩, rfl⟩
    rw [← ofDigits.length_eq]
    exact readable digits values whole ofDigits

theorem firstLong?_eq_none_iff {names : List String} :
    firstLong? names = none ↔ ∀ name ∈ names, isDexName name → IsReadable name := by
  simp only [firstLong?, List.findSome?_eq_none_iff, List.mem_filter, tooLong?_eq_none_iff, and_imp]

theorem number?_eq_none_iff {name : String} :
    number? name = none ↔ ∀ number, ¬ HasNumber name number := by
  simp only [Option.eq_none_iff_forall_ne_some, ne_eq, number?_eq_some_iff]

end LoadRank

/-- The ranks of names tell which of two comes first. -/
theorem loadsBefore_iff_comesFirst {left right : String} :
    loadsBefore left right ↔ ComesFirst left right := by
  rw [loadsBefore, LoadRank.ofName, LoadRank.ofName]
  constructor
  · intro before
    cases ofLeft : LoadRank.number? left with
    | none =>
        have leftIsOther := LoadRank.number?_eq_none_iff.mp ofLeft
        cases ofRight : LoadRank.number? right with
        | none =>
            have byName : left ≤ right := by
              simpa [ofLeft, ofRight, LoadRank.le] using before
            exact .others leftIsOther (LoadRank.number?_eq_none_iff.mp ofRight) byName
        | some _ =>
            simp [ofLeft, ofRight, LoadRank.le] at before
    | some number =>
        have leftHasNumber := LoadRank.number?_eq_some_iff.mp ofLeft
        cases ofRight : LoadRank.number? right with
        | none =>
            exact .numbered leftHasNumber (LoadRank.number?_eq_none_iff.mp ofRight)
        | some other =>
            have rightHasNumber := LoadRank.number?_eq_some_iff.mp ofRight
            by_cases same : number = other
            · have byName : left ≤ right := by
                simpa [ofLeft, ofRight, LoadRank.le, same] using before
              exact .tied leftHasNumber (same ▸ rightHasNumber) byName
            · have less : number < other := by
                simpa [ofLeft, ofRight, LoadRank.le, same] using before
              exact .lesser leftHasNumber rightHasNumber less
  · intro first
    cases first with
    | numbered ofLeft isOther =>
        rw [LoadRank.number?_eq_some_iff.mpr ofLeft, LoadRank.number?_eq_none_iff.mpr isOther]
        rfl
    | lesser ofLeft ofRight less =>
        rw [LoadRank.number?_eq_some_iff.mpr ofLeft, LoadRank.number?_eq_some_iff.mpr ofRight]
        simpa [LoadRank.le, less.ne] using less
    | tied ofLeft ofRight byName =>
        rw [LoadRank.number?_eq_some_iff.mpr ofLeft, LoadRank.number?_eq_some_iff.mpr ofRight]
        simpa [LoadRank.le] using byName
    | others leftIsOther rightIsOther byName =>
        rw [LoadRank.number?_eq_none_iff.mpr leftIsOther,
          LoadRank.number?_eq_none_iff.mpr rightIsOther]
        simpa [LoadRank.le] using byName

/-- The order of loading is known exactly if all numbers in the names of DEX files can be read. -/
theorem loadOrder_eq_ok_iff {archive : Archive} {names : List String} :
    archive.loadOrder = .ok names ↔
      (∀ name ∈ archive.names, isDexName name → IsReadable name) ∧ archive.dexNames = names := by
  rw [← LoadRank.firstLong?_eq_none_iff, loadOrder]
  cases LoadRank.firstLong? archive.names <;> simp

/-- The order of loading is that of the names, or one of them has a number of too many digits. -/
theorem loadOrder_cases (archive : Archive) :
    ((∀ name ∈ archive.names, isDexName name → IsReadable name) ∧
        archive.loadOrder = .ok archive.dexNames) ∨
      ∃ name ∈ archive.names, isDexName name ∧ ∃ count,
        HasTooMany name count ∧
          archive.loadOrder = .error (.longNumber Number.digitLimit count) := by
  rw [loadOrder, ← LoadRank.firstLong?_eq_none_iff]
  cases long : LoadRank.firstLong? archive.names with
  | none =>
      exact .inl ⟨rfl, rfl⟩
  | some count =>
      obtain ⟨name, member, tooLong⟩ := List.exists_of_findSome?_eq_some long
      obtain ⟨inNames, isDex⟩ := List.mem_filter.mp member
      exact .inr ⟨name, inNames, isDex, count, LoadRank.tooLong?_eq_some_iff.mp tooLong, rfl⟩

/-- The DEX files of an archive are loaded in the one order in which numbered files come first, by
their numbers and then by their names, and the others follow by their names. Where the files stand
in the archive does not matter. The order is known where no number has too many digits. -/
theorem dexNames_are_ordered (archive : Archive) :
    archive.dexNames.Perm (archive.names.filter isDexName) ∧
      archive.dexNames.Pairwise ComesFirst ∧
      (∀ names : List String,
        names.Perm (archive.names.filter isDexName) → names.Pairwise ComesFirst →
          names = archive.dexNames) ∧
      (∀ other : Archive, other.names.Perm archive.names → other.dexNames = archive.dexNames) ∧
      ((∀ name ∈ archive.names, isDexName name → IsReadable name) →
        archive.loadOrder = .ok archive.dexNames) := by
  refine ⟨inLoadOrder_perm archive.names, ?_, ?_, ?_, ?_⟩
  · exact (pairwise_inLoadOrder archive.names).imp loadsBefore_iff_comesFirst.mp
  · intro names perm ordered
    exact eq_inLoadOrder perm (ordered.imp loadsBefore_iff_comesFirst.mpr)
  · intro other perm
    exact inLoadOrder_of_perm (perm.filter isDexName)
  · intro readable
    exact loadOrder_eq_ok_iff.mpr ⟨readable, rfl⟩

/-- An archive without content that lists files of the given names. -/
def ofNames (names : List String) : Archive where
  platform := .builtin
  bytes := #[]
  listings := names.map fun name =>
    { entry := { path := name }
      listedName := name
      flags := 0
      method := 0
      checksum := 0
      storedSize := 0
      rawSize := 0
      start := 0 }

/-- Names with leading zeros, digits of another script, without a number, in a directory and
twice. -/
def mixedNames : List String :=
  ["lib/classes.dex", "classes10.dex", "b.dex", "classes2.dex", "classes.dex", "a.txt",
    "classes1.dex", "classes002.dex", "classes٣.dex", "classes-1.dex", "classes2.dex",
    "classes0.dex"]

/-- The DEX files among the mixed names. -/
def mixedNamesInOrder : List String :=
  ["classes0.dex", "classes.dex", "classes1.dex", "classes002.dex", "classes2.dex",
    "classes2.dex", "classes٣.dex", "classes10.dex", "b.dex", "classes-1.dex",
    "lib/classes.dex"]

/-- The files of the mixed names are loaded in this order, however the archive lists them. -/
theorem dexNames_of_mixedNames :
    (ofNames mixedNames).dexNames = mixedNamesInOrder ∧
      (ofNames mixedNames.reverse).dexNames = (ofNames mixedNames).dexNames ∧
      (ofNames mixedNames).loadOrder = .ok mixedNamesInOrder := by
  obtain ⟨_, _, unique, sameNames, known⟩ := dexNames_are_ordered (ofNames mixedNames)
  have listed (given : List String) : (ofNames given).names = given := by
    simp only [names, entries, ofNames, List.map_map]
    exact List.map_id given
  have ordered : mixedNamesInOrder.Pairwise fun left right => loadsBefore left right := by
    decide
  have inOrder : (ofNames mixedNames).dexNames = mixedNamesInOrder := by
    refine (unique _ ?_ (ordered.imp loadsBefore_iff_comesFirst.mp)).symm
    rw [listed]
    decide
  refine ⟨inOrder, sameNames _ ?_, ?_⟩
  · rw [listed, listed]
    exact mixedNames.reverse_perm
  · rw [← inOrder]
    apply known
    rw [listed, ← LoadRank.firstLong?_eq_none_iff]
    decide

end ApkAtlas.Archive
