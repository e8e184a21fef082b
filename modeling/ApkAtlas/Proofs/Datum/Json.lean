import ApkAtlas.Proofs.Datum.JsonToken
import ApkAtlas.Proofs.Table
import Mathlib.Data.List.DropRight

namespace ApkAtlas.Datum

/-!
# Written data are read back

Data without byte strings in which no record has a key twice are read back from their indented
JSON as they were, whether it is kept to ASCII or not. The bound on the nesting that the reader
takes is no restriction: a text has at least as many characters as values and brackets.
-/

/-- Data that JSON can tell apart. -/
inductive Plain : Datum → Prop where
  | null : Plain .null
  | bool (value : Bool) : Plain (.bool value)
  | int (value : Int) : Plain (.int value)
  | text (value : String) : Plain (.text value)
  | list {items : List Datum} (each : ∀ item ∈ items, Plain item) : Plain (.list items)
  | record
      {fields : List (String × Datum)}
      (once : (fields.map Prod.fst).Nodup)
      (each : ∀ field ∈ fields, Plain field.2) :
      Plain (.record fields)

/-! ## Blank space -/

/-- A margin is blank, so it is skipped. -/
theorem afterJsonBlank_margin (depth : Nat) (rest : List Char) :
    afterJsonBlank ((jsonMargin depth).toList ++ rest) = afterJsonBlank rest := by
  apply List.dropWhile_append_of_pos
  intro c member
  simp only [jsonMargin, String.toList_append, String.toList_ofList, List.mem_append] at member
  rcases member with isBreak | inIndent
  · rw [List.mem_singleton.mp isBreak]
    rfl
  · rw [List.eq_of_mem_replicate inIndent]
    rfl

/-- Nothing blank is left when blanks were skipped. -/
theorem afterJsonBlank_idempotent (text : List Char) :
    afterJsonBlank (afterJsonBlank text) = afterJsonBlank text :=
  List.dropWhile_idempotent _ _

/-- Blank space before a value does not matter. -/
theorem jsonValue?_congr
    {first second : List Char}
    (same : afterJsonBlank first = afterJsonBlank second)
    (fuel : Nat) :
    jsonValue? fuel first = jsonValue? fuel second := by
  cases fuel with
  | zero =>
      rfl
  | succ fuel =>
      rw [jsonValue?, jsonValue?, same]

/-- Items are read alike behind any blanks. -/
theorem jsonItems?_congr
    {first second : List Char}
    (same : afterJsonBlank first = afterJsonBlank second)
    (fuel : Nat) :
    jsonItems? fuel first = jsonItems? fuel second := by
  cases fuel with
  | zero =>
      rfl
  | succ fuel =>
      rw [jsonItems?, jsonItems?, jsonValue?_congr same]

/-- Fields are read alike behind any blanks. -/
theorem jsonFields?_congr
    {first second : List Char}
    (same : afterJsonBlank first = afterJsonBlank second)
    (fuel : Nat) :
    jsonFields? fuel first = jsonFields? fuel second := by
  cases fuel with
  | zero =>
      rfl
  | succ fuel =>
      rw [jsonFields?, jsonFields?, same]

/-! ## Values -/

/-- A character that can open a value: neither blank nor a closing mark. -/
def opens (c : Char) : Bool :=
  !([' ', '\n', '\r', '\t', ']', '\x7d'].contains c)

/-- What a value begins with is not blank. -/
theorem afterJsonBlank_of_opens
    {c : Char}
    (isOpening : opens c = true)
    (rest : List Char) :
    afterJsonBlank (c :: rest) = c :: rest := by
  apply List.dropWhile_cons_of_neg
  simp [opens] at isOpening
  simp [isOpening]

/-- A character that can open a number. -/
def opensNumber (c : Char) : Bool :=
  c == '-' || c.isDigit

/-- What a number begins with begins a value. -/
theorem opens_of_opensNumber
    {c : Char}
    (isNumber : opensNumber c = true) :
    opens c = true := by
  by_contra closes
  simp only [opens, Bool.not_eq_true, Bool.not_eq_false', List.contains_iff_mem] at closes
  have none : [' ', '\n', '\r', '\t', ']', '\x7d'].all (fun c => !opensNumber c) = true := by
    decide
  have isNone := List.all_eq_true.mp none c closes
  rw [isNumber] at isNone
  cases isNone

/-- A written integer begins as a number does. -/
theorem exists_toString_cons (value : Int) :
    ∃ c more, (toString value).toList = c :: more ∧ opensNumber c = true := by
  cases value with
  | ofNat number =>
      obtain ⟨first, more, digits⟩ := List.exists_cons_of_ne_nil (toDigits_ne_nil number)
      have isDigit : first.isDigit = true :=
        Nat.isDigit_of_mem_toDigits (by decide) (by decide) (digits ▸ List.mem_cons_self)
      exact ⟨first, more, Nat.toList_repr.trans digits, by simp [opensNumber, isDigit]⟩
  | negSucc number =>
      exact ⟨'-', (number + 1).repr.toList, String.toList_append, rfl⟩

/-- Every written value begins as a value does. -/
theorem exists_jsonAt_cons
    (ascii : Bool)
    (depth : Nat)
    (value : Datum) :
    ∃ c more, (jsonAt ascii depth value).toList = c :: more ∧ opens c = true := by
  cases value with
  | null =>
      rw [jsonAt]
      exact ⟨'n', _, rfl, rfl⟩
  | bool value =>
      cases value <;> rw [jsonAt] <;> exact ⟨_, _, rfl, rfl⟩
  | int value =>
      rw [jsonAt]
      obtain ⟨c, more, written, isNumber⟩ := exists_toString_cons value
      exact ⟨c, more, written, opens_of_opensNumber isNumber⟩
  | text value =>
      rw [jsonAt, toList_jsonText]
      exact ⟨'"', _, rfl, rfl⟩
  | bytes value =>
      rw [jsonAt, String.append_assoc, String.toList_append]
      exact ⟨'[', _, rfl, rfl⟩
  | list items =>
      cases items with
      | nil =>
          rw [jsonAt]
          exact ⟨'[', _, rfl, rfl⟩
      | cons item rest =>
          rw [jsonAt, String.append_assoc, String.append_assoc, String.toList_append]
          exact ⟨'[', _, rfl, rfl⟩
  | record fields =>
      cases fields with
      | nil =>
          rw [jsonAt]
          exact ⟨'\x7b', _, rfl, rfl⟩
      | cons field rest =>
          rw [jsonAt, String.append_assoc, String.append_assoc, String.toList_append]
          exact ⟨'\x7b', _, rfl, rfl⟩

/-- A value is read back wherever it is written, whatever it is followed by. -/
def Readable (ascii : Bool) (value : Datum) : Prop :=
  ∀ depth fuel rest, Stops rest → (jsonAt ascii depth value).toList.length ≤ fuel →
    jsonValue? fuel ((jsonAt ascii depth value).toList ++ rest) = some (value, rest)

variable {ascii : Bool}

/-- Of a written value there is at least one character, so the fuel is not used up. -/
theorem readable_of_succ
    {value : Datum}
    (read : ∀ depth fuel rest, Stops rest →
      (jsonAt ascii depth value).toList.length ≤ fuel + 1 →
        jsonValue? (fuel + 1) ((jsonAt ascii depth value).toList ++ rest) = some (value, rest)) :
    Readable ascii value := by
  intro depth fuel rest stops enough
  obtain ⟨c, more, written, -⟩ := exists_jsonAt_cons ascii depth value
  obtain ⟨fuel, rfl⟩ : ∃ less, fuel = less + 1 := by
    apply Nat.exists_eq_add_one.mpr
    rw [written] at enough
    exact Nat.lt_of_lt_of_le (Nat.zero_lt_succ _) enough
  exact read depth fuel rest stops enough

theorem readable_null : Readable ascii .null := by
  apply readable_of_succ
  intro depth fuel rest _ _
  rw [jsonAt, jsonValue?]
  rfl

theorem readable_bool (value : Bool) : Readable ascii (.bool value) := by
  apply readable_of_succ
  intro depth fuel rest _ _
  cases value <;>
    rw [jsonAt, jsonValue?] <;>
    rfl

theorem readable_text (value : String) : Readable ascii (.text value) := by
  apply readable_of_succ
  intro depth fuel rest _ _
  rw [jsonAt, toList_jsonText, List.cons_append, List.append_assoc, jsonValue?,
    afterJsonBlank_of_opens (by decide)]
  simp only [List.singleton_append, jsonString?_jsonBody]
  simp

/-- A written integer is read back. -/
theorem readable_int (value : Int) : Readable ascii (.int value) := by
  apply readable_of_succ
  intro depth fuel rest stops _
  have read := jsonInt?_toString stops value
  obtain ⟨c, more, written, isNumber⟩ := exists_toString_cons value
  rw [written] at read
  have noMark {mark : Char} {others : List Char} (noNumber : opensNumber mark = false) :
      c :: (more ++ rest) ≠ mark :: others := by
    intro same
    rw [(List.cons.inj same).1, noNumber] at isNumber
    cases isNumber
  rw [jsonAt, written, List.cons_append, jsonValue?,
    afterJsonBlank_of_opens (opens_of_opensNumber isNumber)]
  split
  case h_7 =>
    rw [← List.cons_append, read]
    rfl
  all_goals
    rename_i isMark
    exact absurd isMark (noMark rfl)

/-! ## Items -/

/-- The written items of a list with the commas between them. -/
def itemsText (ascii : Bool) (depth : Nat) (items : List Datum) : List Char :=
  (",".intercalate (jsonItems ascii depth items)).toList

/-- A single item stands behind a margin. -/
theorem itemsText_singleton
    (ascii : Bool)
    (depth : Nat)
    (item : Datum) :
    itemsText ascii depth [item] =
      (jsonMargin depth).toList ++ (jsonAt ascii depth item).toList := by
  simp [itemsText, jsonItems]

/-- A comma stands between an item and the next one. -/
theorem itemsText_cons_cons
    (ascii : Bool)
    (depth : Nat)
    (item next : Datum)
    (rest : List Datum) :
    itemsText ascii depth (item :: next :: rest) =
      (jsonMargin depth).toList ++ (jsonAt ascii depth item).toList ++
        ',' :: itemsText ascii depth (next :: rest) := by
  simp [itemsText, jsonItems, String.toList_intercalate]

theorem margin_ne_nil (depth : Nat) : 0 < (jsonMargin depth).toList.length := by
  simp [jsonMargin]

/-- A number ends before a margin. -/
theorem stops_margin (depth : Nat) (rest : List Char) :
    Stops ((jsonMargin depth).toList ++ rest) := by
  intro c first
  have written : (jsonMargin depth).toList ++ rest =
      '\n' :: (List.replicate (2 * depth) ' ' ++ rest) := by
    simp [jsonMargin]
  rw [written] at first
  cases first
  exact .inr rfl

/-- A margin before a value does not matter. -/
theorem jsonValue?_margin
    {item : Datum}
    (readable : Readable ascii item)
    {fuel : Nat}
    (depth : Nat)
    (enough : (jsonAt ascii depth item).toList.length ≤ fuel)
    {rest : List Char}
    (stops : Stops rest) :
    jsonValue? fuel ((jsonMargin depth).toList ++ (jsonAt ascii depth item).toList ++ rest) =
      some (item, rest) := by
  rw [List.append_assoc, jsonValue?_congr (afterJsonBlank_margin depth _)]
  exact readable depth fuel rest stops enough

/-- Items are read back one after another, up to the bracket that closes the list. -/
theorem jsonItems?_itemsText
    {items : List Datum}
    (readable : ∀ item ∈ items, Readable ascii item)
    (named : items ≠ [])
    {depth fuel : Nat}
    (enough : (itemsText ascii depth items).length ≤ fuel)
    {closing rest : List Char}
    (stops : Stops closing)
    (closes : afterJsonBlank closing = ']' :: rest) :
    jsonItems? fuel (itemsText ascii depth items ++ closing) = some (items, rest) := by
  have positive := margin_ne_nil depth
  induction items generalizing fuel with
  | nil =>
      exact absurd rfl named
  | cons item others inductionHypothesis =>
      obtain ⟨ofItem, ofOthers⟩ := List.forall_mem_cons.mp readable
      cases others with
      | nil =>
          rw [itemsText_singleton, List.length_append] at enough
          obtain ⟨fuel, rfl⟩ : ∃ less, fuel = less + 1 := ⟨fuel - 1, by omega⟩
          rw [itemsText_singleton, jsonItems?,
            jsonValue?_margin ofItem depth (by omega) stops]
          simp [closes]
      | cons next more =>
          rw [itemsText_cons_cons, List.length_append, List.length_append,
            List.length_cons] at enough
          obtain ⟨fuel, rfl⟩ : ∃ less, fuel = less + 1 := ⟨fuel - 1, by omega⟩
          have stopsHere : Stops (',' :: (itemsText ascii depth (next :: more) ++ closing)) := by
            intro c first
            cases first
            exact .inl rfl
          rw [itemsText_cons_cons, List.append_assoc, List.cons_append, jsonItems?,
            jsonValue?_margin ofItem depth (by omega) stopsHere]
          have later : jsonItems? fuel (itemsText ascii depth (next :: more) ++ closing) =
              some (next :: more, rest) :=
            inductionHypothesis ofOthers (List.cons_ne_nil _ _) (by omega)
          simp [afterJsonBlank_of_opens, opens, later]

/-! ## Fields -/

/-- A written field behind its margin. -/
def fieldText (ascii : Bool) (depth : Nat) (field : String × Datum) : List Char :=
  '"' :: (jsonBody ascii field.1 ++
    '"' :: ':' :: ' ' :: (jsonAt ascii depth field.2).toList)

/-- The written fields of a record with the commas between them. -/
def fieldsText (ascii : Bool) (depth : Nat) (fields : List (String × Datum)) : List Char :=
  (",".intercalate (jsonFields ascii depth fields)).toList

/-- A single field stands behind a margin. -/
theorem fieldsText_singleton
    (ascii : Bool)
    (depth : Nat)
    (field : String × Datum) :
    fieldsText ascii depth [field] =
      (jsonMargin depth).toList ++ fieldText ascii depth field := by
  simp [fieldsText, jsonFields, fieldText, toList_jsonText]

/-- A comma stands between a field and the next one. -/
theorem fieldsText_cons_cons
    (ascii : Bool)
    (depth : Nat)
    (field next : String × Datum)
    (rest : List (String × Datum)) :
    fieldsText ascii depth (field :: next :: rest) =
      (jsonMargin depth).toList ++ fieldText ascii depth field ++
        ',' :: fieldsText ascii depth (next :: rest) := by
  simp [fieldsText, jsonFields, fieldText, toList_jsonText, String.toList_intercalate]

/-- A written field is read back, as the last one or before others. -/
theorem jsonFields?_fieldText
    {field : String × Datum}
    (readable : Readable ascii field.2)
    {depth fuel : Nat}
    (enough : (jsonAt ascii depth field.2).toList.length ≤ fuel)
    {text rest more : List Char}
    (stops : Stops rest)
    (written : text = (jsonMargin depth).toList ++ fieldText ascii depth field ++ rest) :
    (afterJsonBlank rest = '\x7d' :: more → jsonFields? (fuel + 1) text = some ([field], more)) ∧
      (afterJsonBlank rest = ',' :: more → ∀ others last,
        jsonFields? fuel more = some (others, last) →
          jsonFields? (fuel + 1) text = some (field :: others, last)) := by
  have value :
      jsonValue? fuel (' ' :: ((jsonAt ascii depth field.2).toList ++ rest)) =
        some (field.2, rest) := by
    rw [← readable depth fuel rest stops enough]
    apply jsonValue?_congr
    rfl
  have whole : fieldText ascii depth field ++ rest =
      '"' :: (jsonBody ascii field.1 ++
        '"' :: ':' :: ' ' :: ((jsonAt ascii depth field.2).toList ++ rest)) := by
    simp [fieldText]
  have opening : afterJsonBlank text =
      '"' :: (jsonBody ascii field.1 ++
        '"' :: ':' :: ' ' :: ((jsonAt ascii depth field.2).toList ++ rest)) := by
    rw [written, List.append_assoc, afterJsonBlank_margin, whole, afterJsonBlank_of_opens rfl]
  have colon (after : List Char) : afterJsonBlank (':' :: after) = ':' :: after :=
    afterJsonBlank_of_opens rfl after
  refine ⟨fun closes => ?_, fun continues others last later => ?_⟩
  · rw [jsonFields?, opening]
    simp only [jsonString?_jsonBody, Option.bind_eq_bind, Option.bind_some, colon, value, closes,
      String.ofList_toList]
    rfl
  · rw [jsonFields?, opening]
    simp only [jsonString?_jsonBody, Option.bind_eq_bind, Option.bind_some, colon, value, continues,
      String.ofList_toList, later]
    rfl

/-- Fields are read back one after another, up to the brace that closes the record. -/
theorem jsonFields?_fieldsText
    {fields : List (String × Datum)}
    (readable : ∀ field ∈ fields, Readable ascii field.2)
    (named : fields ≠ [])
    {depth fuel : Nat}
    (enough : (fieldsText ascii depth fields).length ≤ fuel)
    {closing rest : List Char}
    (stops : Stops closing)
    (closes : afterJsonBlank closing = '\x7d' :: rest) :
    jsonFields? fuel (fieldsText ascii depth fields ++ closing) = some (fields, rest) := by
  have positive := margin_ne_nil depth
  have shorter (field : String × Datum) :
      (jsonAt ascii depth field.2).toList.length < (fieldText ascii depth field).length := by
    simp only [fieldText, List.length_cons, List.length_append]
    omega
  induction fields generalizing fuel with
  | nil =>
      exact absurd rfl named
  | cons field others inductionHypothesis =>
      obtain ⟨ofField, ofOthers⟩ := List.forall_mem_cons.mp readable
      have bounded := shorter field
      cases others with
      | nil =>
          rw [fieldsText_singleton, List.length_append] at enough
          obtain ⟨fuel, rfl⟩ : ∃ less, fuel = less + 1 := ⟨fuel - 1, by omega⟩
          rw [fieldsText_singleton]
          exact (jsonFields?_fieldText ofField (by omega) stops rfl).1 closes
      | cons next more =>
          rw [fieldsText_cons_cons, List.length_append, List.length_append,
            List.length_cons] at enough
          obtain ⟨fuel, rfl⟩ : ∃ less, fuel = less + 1 := ⟨fuel - 1, by omega⟩
          have stopsHere : Stops (',' :: (fieldsText ascii depth (next :: more) ++ closing)) := by
            intro c first
            cases first
            exact .inl rfl
          have later : jsonFields? fuel (fieldsText ascii depth (next :: more) ++ closing) =
              some (next :: more, rest) :=
            inductionHypothesis ofOthers (List.cons_ne_nil _ _) (by omega)
          rw [fieldsText_cons_cons, List.append_assoc, List.cons_append]
          exact (jsonFields?_fieldText ofField (by omega) stopsHere rfl).2
            (afterJsonBlank_of_opens rfl _) _ _ later

/-! ## Lists and records -/

/-- Behind blanks the first item begins. -/
theorem exists_afterJsonBlank_items
    (depth : Nat)
    (item : Datum)
    (others : List Datum)
    (closing : List Char) :
    ∃ c more, afterJsonBlank (itemsText ascii depth (item :: others) ++ closing) = c :: more ∧
      opens c = true := by
  obtain ⟨c, more, written, isOpening⟩ := exists_jsonAt_cons ascii depth item
  cases others with
  | nil =>
      refine ⟨c, more ++ closing, ?_, isOpening⟩
      rw [itemsText_singleton, List.append_assoc, afterJsonBlank_margin, written,
        List.cons_append, afterJsonBlank_of_opens isOpening]
  | cons next rest =>
      refine ⟨c, more ++ ',' :: (itemsText ascii depth (next :: rest) ++ closing), ?_, isOpening⟩
      rw [itemsText_cons_cons, List.append_assoc, List.append_assoc, afterJsonBlank_margin,
        written, List.cons_append, List.cons_append, afterJsonBlank_of_opens isOpening]

/-- A list is read back if all its items are. -/
theorem readable_list
    {items : List Datum}
    (readable : ∀ item ∈ items, Readable ascii item) :
    Readable ascii (.list items) := by
  apply readable_of_succ
  intro depth fuel rest _ enough
  cases items with
  | nil =>
      rw [jsonAt, jsonValue?]
      rfl
  | cons item others =>
      let closing := (jsonMargin depth).toList ++ ']' :: rest
      have written : (jsonAt ascii depth (.list (item :: others))).toList ++ rest =
          '[' :: (itemsText ascii (depth + 1) (item :: others) ++ closing) := by
        simp [jsonAt, itemsText, closing]
      have length : (itemsText ascii (depth + 1) (item :: others)).length ≤ fuel := by
        have whole := congrArg List.length written
        simp only [closing, List.length_append, List.length_cons] at whole
        omega
      have closes : afterJsonBlank closing = ']' :: rest := afterJsonBlank_margin depth _
      have read :=
        jsonItems?_itemsText readable (List.cons_ne_nil _ _) length (stops_margin depth _) closes
      obtain ⟨c, more, first, isOpening⟩ :=
        @exists_afterJsonBlank_items ascii (depth + 1) item others closing
      rw [jsonItems?_congr (afterJsonBlank_idempotent _).symm, first] at read
      rw [written, jsonValue?, afterJsonBlank_of_opens (by decide)]
      simp only [first]
      split
      · rename_i isClosing
        rw [(List.cons.inj isClosing).1] at isOpening
        cases isOpening
      · rw [read]
        rfl

/-- Behind blanks the key of the first field begins. -/
theorem exists_afterJsonBlank_fields
    (depth : Nat)
    (field : String × Datum)
    (others : List (String × Datum))
    (closing : List Char) :
    ∃ more, afterJsonBlank (fieldsText ascii depth (field :: others) ++ closing) = '"' :: more := by
  cases others with
  | nil =>
      rw [fieldsText_singleton, List.append_assoc, afterJsonBlank_margin, fieldText,
        List.cons_append, afterJsonBlank_of_opens (by decide)]
      exact ⟨_, rfl⟩
  | cons next rest =>
      rw [fieldsText_cons_cons, List.append_assoc, List.append_assoc, afterJsonBlank_margin,
        fieldText, List.cons_append, afterJsonBlank_of_opens (by decide)]
      exact ⟨_, rfl⟩

/-- A record with different keys is read back if all its values are. -/
theorem readable_record
    {fields : List (String × Datum)}
    (once : (fields.map Prod.fst).Nodup)
    (readable : ∀ field ∈ fields, Readable ascii field.2) :
    Readable ascii (.record fields) := by
  apply readable_of_succ
  intro depth fuel rest _ enough
  cases fields with
  | nil =>
      rw [jsonAt, jsonValue?]
      rfl
  | cons field others =>
      let closing := (jsonMargin depth).toList ++ '\x7d' :: rest
      have written : (jsonAt ascii depth (.record (field :: others))).toList ++ rest =
          '\x7b' :: (fieldsText ascii (depth + 1) (field :: others) ++ closing) := by
        simp [jsonAt, fieldsText, closing]
      have length : (fieldsText ascii (depth + 1) (field :: others)).length ≤ fuel := by
        have whole := congrArg List.length written
        simp only [closing, List.length_append, List.length_cons] at whole
        omega
      have closes : afterJsonBlank closing = '\x7d' :: rest := afterJsonBlank_margin depth _
      have read :=
        jsonFields?_fieldsText readable (List.cons_ne_nil _ _) length (stops_margin depth _) closes
      obtain ⟨more, first⟩ := @exists_afterJsonBlank_fields ascii (depth + 1) field others closing
      rw [jsonFields?_congr (afterJsonBlank_idempotent _).symm, first] at read
      rw [written, jsonValue?, afterJsonBlank_of_opens (by decide)]
      simp only [first]
      split
      · rename_i isClosing
        cases isClosing
      · simp only [read, Option.bind_eq_bind, Option.bind_some, Table.foldl_put_of_nodup once,
          Option.pure_def]

/-- Data that JSON can tell apart are read back wherever they are written. -/
theorem Plain.readable
    {value : Datum}
    (plain : Plain value)
    (ascii : Bool) :
    Readable ascii value := by
  induction plain with
  | null =>
      exact readable_null
  | bool value =>
      exact readable_bool value
  | int value =>
      exact readable_int value
  | text value =>
      exact readable_text value
  | list _ inductionHypothesis =>
      exact readable_list inductionHypothesis
  | record once _ inductionHypothesis =>
      exact readable_record once inductionHypothesis

/-- A plain value is read back from its text. -/
theorem Plain.ofJson?_jsonAt
    {value : Datum}
    (plain : Plain value)
    (ascii : Bool) :
    ofJson? (jsonAt ascii 0 value) = some value := by
  have read := plain.readable ascii 0 ((jsonAt ascii 0 value).toList.length + 1) [] nofun (by omega)
  rw [List.append_nil] at read
  rw [ofJson?, read]
  rfl

/-- What is written as JSON is read back. -/
theorem Plain.ofJson?_toJson
    {value : Datum}
    (plain : Plain value) :
    ofJson? value.toJson = some value :=
  plain.ofJson?_jsonAt false

/-- What is written as JSON in ASCII is read back. -/
theorem Plain.ofJson?_toAsciiJson
    {value : Datum}
    (plain : Plain value) :
    ofJson? value.toAsciiJson = some value :=
  plain.ofJson?_jsonAt true

end ApkAtlas.Datum
