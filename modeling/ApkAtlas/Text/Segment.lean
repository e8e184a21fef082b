namespace ApkAtlas.Text

/-!
# Cutting a text at separators

Names are made of segments between separator characters. These functions cut a text
at every separator, at the first or at the last one, and join pieces again.
-/

/-- The pieces between occurrences of a separator; a text without it is one piece. -/
def segments (separator : Char) : List Char → List (List Char)
  | [] => [[]]
  | c :: rest =>
      if c = separator then
        [] :: segments separator rest
      else
        match segments separator rest with
        | [] => [[c]]
        | piece :: pieces => (c :: piece) :: pieces

/-- The text before the first separator, and the text after it if there is one. -/
def cutFirst (separator : Char) (text : List Char) : List Char × Option (List Char) :=
  let before := text.takeWhile (· != separator)
  match text.drop before.length with
  | [] => (before, none)
  | _ :: after => (before, some after)

/-- The text before the first separator. -/
def beforeFirst (separator : Char) (text : List Char) : List Char :=
  text.takeWhile (· != separator)

/-- The text after the last separator, or all of it when there is none. -/
def afterLast (separator : Char) (text : List Char) : List Char :=
  (text.reverse.takeWhile (· != separator)).reverse

/-- The text before the last separator, or nothing when there is none. -/
def beforeLast? (separator : Char) (text : List Char) : Option (List Char) :=
  match text.reverse.dropWhile (· != separator) with
  | [] => none
  | _ :: before => some before.reverse

/-- Whether `part` occurs somewhere in the text. -/
def contains (part : List Char) : List Char → Bool
  | [] => part.isEmpty
  | c :: rest => part.isPrefixOf (c :: rest) || contains part rest

/-- The text before the first occurrence of `part` and the text after it. -/
def cutAt? (part : List Char) : List Char → Option (List Char × List Char)
  | [] => if part.isEmpty then some ([], []) else none
  | c :: rest =>
      if part.isPrefixOf (c :: rest) then
        some ([], (c :: rest).drop part.length)
      else
        (cutAt? part rest).map fun (before, after) => (c :: before, after)

/-- The text without the occurrences of two equal characters in a row, found from the
left and without overlap. -/
def withoutDouble (twin : Char) : List Char → List Char
  | first :: second :: rest =>
      if first = twin ∧ second = twin then
        withoutDouble twin rest
      else
        first :: withoutDouble twin (second :: rest)
  | short => short

/-- The pieces of `text` with `separator` between them. -/
def join (separator : String) (pieces : List String) : String :=
  separator.intercalate pieces

/-- The pieces of a text between occurrences of a separator. -/
def split (separator : Char) (text : String) : List String :=
  (segments separator text.toList).map String.ofList

/-- There is always at least one piece. -/
theorem segments_ne_nil (separator : Char) (text : List Char) :
    segments separator text ≠ [] := by
  cases text with
  | nil => simp [segments]
  | cons c rest =>
      unfold segments
      split
      · simp
      · split <;> simp

/-- Joining the pieces with the separator gives the text back. -/
theorem intercalate_segments (separator : Char) (text : List Char) :
    [separator].intercalate (segments separator text) = text := by
  induction text with
  | nil => simp [segments]
  | cons c rest inductionHypothesis =>
      cases pieces : segments separator rest with
      | nil => exact absurd pieces (segments_ne_nil separator rest)
      | cons piece more =>
          rw [pieces] at inductionHypothesis
          by_cases same : c = separator
          · simp only [segments, same, ↓reduceIte, pieces, List.intercalate_cons_cons,
              inductionHypothesis, List.nil_append, List.singleton_append]
          · simp only [segments, same, ↓reduceIte, pieces]
            cases more with
            | nil => simpa using inductionHypothesis
            | cons next others =>
                simp only [List.intercalate_cons_cons] at inductionHypothesis ⊢
                simpa using inductionHypothesis

end ApkAtlas.Text
