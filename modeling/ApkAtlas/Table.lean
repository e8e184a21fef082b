namespace ApkAtlas.Table

/-!
# Tables in the order of entry

A table is a list of pairs of a key and a value in which each key occurs once. A key that
is put again keeps its place, so a table remembers the order in which its keys came.
-/

variable {Key Value : Type} [DecidableEq Key]

/-- Puts a value: a known key keeps its place and gets the new value, a new key comes
last. -/
def put (key : Key) (value : Value) : List (Key × Value) → List (Key × Value)
  | [] => [(key, value)]
  | (known, old) :: rest =>
      if known = key then
        (key, value) :: rest
      else
        (known, old) :: put key value rest

/-- The value under a key. -/
def get? (key : Key) : List (Key × Value) → Option Value
  | [] => none
  | (known, value) :: rest => if known = key then some value else get? key rest

/-- The table without a key. -/
def erase (key : Key) (table : List (Key × Value)) : List (Key × Value) :=
  table.filter fun entry => entry.1 ≠ key

/-- A value that was just put is found. -/
@[simp] theorem get?_put_self (key : Key) (value : Value) (table : List (Key × Value)) :
    get? key (put key value table) = some value := by
  induction table with
  | nil => simp [put, get?]
  | cons first rest inductionHypothesis =>
      obtain ⟨known, old⟩ := first
      by_cases same : known = key
      · simp [put, get?, same]
      · simpa [put, get?, same] using inductionHypothesis

/-- Putting one key leaves the others alone. -/
theorem get?_put_of_ne
    {key other : Key}
    (different : other ≠ key)
    (value : Value)
    (table : List (Key × Value)) :
    get? other (put key value table) = get? other table := by
  induction table with
  | nil => simp [put, get?, Ne.symm different]
  | cons first rest inductionHypothesis =>
      obtain ⟨known, old⟩ := first
      by_cases same : known = key
      · simp [put, get?, same, Ne.symm different]
      · by_cases found : known = other
        · subst found; simp [put, get?, same]
        · simpa [put, get?, same, found] using inductionHypothesis

/-- A new key comes last. -/
theorem put_of_get?_eq_none
    {key : Key}
    {table : List (Key × Value)}
    (free : get? key table = none)
    (value : Value) :
    put key value table = table ++ [(key, value)] := by
  induction table with
  | nil => rfl
  | cons first rest inductionHypothesis =>
      obtain ⟨known, old⟩ := first
      by_cases same : known = key
      · simp [get?, same] at free
      · rw [get?, if_neg same] at free
        rw [put, if_neg same, inductionHypothesis free, List.cons_append]

/-- An erased key is not found. -/
@[simp] theorem get?_erase_self (key : Key) (table : List (Key × Value)) :
    get? key (erase key table) = none := by
  induction table with
  | nil => simp [erase, get?]
  | cons first rest inductionHypothesis =>
      obtain ⟨known, old⟩ := first
      by_cases same : known = key
      · simpa [erase, same] using inductionHypothesis
      · simpa [erase, get?, same] using inductionHypothesis

/-- Erasing one key leaves the others alone. -/
theorem get?_erase_of_ne
    {key other : Key}
    (different : other ≠ key)
    (table : List (Key × Value)) :
    get? other (erase key table) = get? other table := by
  induction table with
  | nil => simp [erase, get?]
  | cons first rest inductionHypothesis =>
      obtain ⟨known, old⟩ := first
      by_cases same : known = key
      · simpa [erase, get?, same, Ne.symm different] using inductionHypothesis
      · by_cases found : known = other
        · subst found; simp [erase, get?, same]
        · simpa [erase, get?, same, found] using inductionHypothesis

end ApkAtlas.Table
