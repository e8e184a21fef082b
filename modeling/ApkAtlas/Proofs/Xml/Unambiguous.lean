import ApkAtlas.Proofs.Xml.Printed

namespace ApkAtlas.Xml

/-!
# Printing is unambiguous

Names without space and without the characters that end them in a tag leave no doubt where
they end, and what is between quotes or tags is escaped. So a printed document can be cut into
its tags and the content between them in one way only, and the tags in one way into elements:
elements that are printed alike are the same in all that printing shows.
-/

open Markup

section Splitting

variable {Item : Type}

/-- Two lists are split alike if both are split where the inner items end. -/
theorem split_unique
    {inner : Item → Prop}
    {first second rest other : List Item}
    (firstInner : ∀ item ∈ first, inner item)
    (secondInner : ∀ item ∈ second, inner item)
    (restStops : ∀ item ∈ rest.head?, ¬ inner item)
    (otherStops : ∀ item ∈ other.head?, ¬ inner item)
    (same : first ++ rest = second ++ other) :
    first = second ∧ rest = other := by
  induction first generalizing second with
  | nil =>
      cases second with
      | nil =>
          exact ⟨rfl, same⟩
      | cons item more =>
          have atHead : item ∈ rest.head? := by
            rw [List.nil_append] at same
            rw [same]
            rfl
          exact absurd (secondInner item List.mem_cons_self) (restStops item atHead)
  | cons item more inductionHypothesis =>
      cases second with
      | nil =>
          have atHead : item ∈ other.head? := by
            rw [List.nil_append] at same
            rw [← same]
            rfl
          exact absurd (firstInner item List.mem_cons_self) (otherStops item atHead)
      | cons otherItem others =>
          obtain ⟨rfl, behind⟩ := List.cons.inj same
          obtain ⟨rfl, sameRest⟩ :=
            inductionHypothesis (fun item member => firstInner item (List.mem_cons_of_mem _ member))
              (fun item member => secondInner item (List.mem_cons_of_mem _ member)) behind
          exact ⟨rfl, sameRest⟩

/-- What holds of an item holds of the first one of a list that it begins. -/
theorem head?_cons_forall
    {P : Item → Prop}
    {item : Item}
    {rest : List Item}
    (holds : P item) :
    ∀ first ∈ (item :: rest).head?, P first := by
  rintro _ ⟨⟩
  exact holds

end Splitting

namespace Markup

section Escapes

variable {quoted : Bool} {c d : Char} {rest other : List Char}

/-- A written character can be told from what follows it. -/
theorem written_append_inj
    (same : written quoted c ++ rest = written quoted d ++ other) :
    c = d ∧ rest = other := by
  have notAmp (found : entityFor? quoted '&' = none) : False := by
    cases found
  have noSemicolon {c : Char} {name : String} (found : entityFor? quoted c = some name) :
      ∀ letter ∈ name.toList, letter ≠ ';' := by
    rintro _ member rfl
    exact absurd ((isPlainName_of_entityFor? found).2 ';' member) (by decide)
  rw [written, written] at same
  cases ofFirst : entityFor? quoted c with
  | none =>
      cases ofSecond : entityFor? quoted d with
      | none =>
          rw [ofFirst, ofSecond] at same
          exact List.cons.inj same
      | some name =>
          rw [ofFirst, ofSecond] at same
          obtain ⟨rfl, _⟩ := List.cons.inj same
          exact (notAmp ofFirst).elim
  | some name =>
      cases ofSecond : entityFor? quoted d with
      | none =>
          rw [ofFirst, ofSecond] at same
          obtain ⟨rfl, _⟩ := List.cons.inj same
          exact (notAmp ofSecond).elim
      | some otherName =>
          rw [ofFirst, ofSecond] at same
          simp only [List.cons_append, List.append_assoc, List.nil_append, List.cons.injEq,
            true_and] at same
          obtain ⟨sameName, behind⟩ :=
            split_unique (noSemicolon ofFirst) (noSemicolon ofSecond)
              (head?_cons_forall (not_not.mpr rfl)) (head?_cons_forall (not_not.mpr rfl)) same
          rw [String.toList_inj] at sameName
          subst sameName
          have known := predefined?_of_entityFor? ofFirst
          rw [predefined?_of_entityFor? ofSecond, Option.some.injEq] at known
          exact ⟨known.symm, (List.cons.inj behind).2⟩

theorem written_ne_nil (quoted : Bool) (c : Char) : written quoted c ≠ [] := by
  rw [written]
  split <;> exact List.cons_ne_nil _ _

/-- Texts that are written alike are the same. -/
theorem flatMap_written_inj
    {first second : List Char}
    (same : first.flatMap (written quoted) = second.flatMap (written quoted)) :
    first = second := by
  induction first generalizing second with
  | nil =>
      cases second with
      | nil =>
          rfl
      | cons c more =>
          rw [List.flatMap_nil, List.flatMap_cons] at same
          exact absurd (List.append_eq_nil_iff.mp same.symm).1 (written_ne_nil quoted c)
  | cons c more inductionHypothesis =>
      cases second with
      | nil =>
          rw [List.flatMap_nil, List.flatMap_cons] at same
          exact absurd (List.append_eq_nil_iff.mp same).1 (written_ne_nil quoted c)
      | cons d others =>
          rw [List.flatMap_cons, List.flatMap_cons] at same
          obtain ⟨rfl, behind⟩ := written_append_inj same
          rw [inductionHypothesis behind]

theorem ne_lt_of_mem_written (member : d ∈ written false c) : d ≠ '<' := by
  rintro rfl
  rw [written] at member
  split at member
  · rename_i plain
    rw [List.mem_singleton] at member
    subst member
    cases plain
  · rename_i name found
    have letters : ∀ letter ∈ '&' :: (name.toList ++ [';']), letter ≠ '<' := by
      rintro _ inEntity rfl
      simp only [List.mem_cons, List.mem_append, List.not_mem_nil, or_false] at inEntity
      rcases inEntity with isAmp | inName | isSemicolon
      · cases isAmp
      · exact absurd ((isPlainName_of_entityFor? found).2 '<' inName) (by decide)
      · cases isSemicolon
    exact letters '<' member rfl

end Escapes

section Tags

/-- A name without the characters that end it inside a tag. -/
def IsTagName (name : String) : Prop :=
  ∀ c ∈ name.toList, c ∉ [' ', '=', '/', '>']

instance (name : String) : Decidable (IsTagName name) :=
  inferInstanceAs (Decidable (∀ c ∈ name.toList, _))

/-- An assignment to a name that ends where it seems to: the name declares a namespace or does
not look as if it did. -/
structure Assignment.IsLegible (assignment : Assignment) : Prop where
  name : IsTagName assignment.name.raw
  kind :
    assignment.name.nsPrefix = "xmlns" ∨
      assignment.name.nsPrefix = "" ∧ ¬ "xmlns:".toList <+: assignment.name.raw.toList

/-- A tag whose names end where they seem to. -/
def Tag.IsLegible : Tag → Prop
  | .start name assignments _ =>
      IsTagName name ∧ ∀ assignment ∈ assignments, assignment.IsLegible
  | .close name => IsTagName name

variable {rest other : List Char}

/-- Legible names are told apart by their texts. -/
theorem Assignment.IsLegible.name_inj
    {first second : Assignment}
    (firstLegible : first.IsLegible)
    (secondLegible : second.IsLegible)
    (same : first.name.raw = second.name.raw) :
    first.name = second.name := by
  have declared {name : Name} (declares : name.nsPrefix = "xmlns") :
      name.raw.toList = "xmlns:".toList ++ name.localName.toList := by
    rw [Name.toList_raw_of_prefix (by rw [declares]; decide), declares]
    rfl
  obtain ⟨⟨firstPrefix, firstLocal⟩, _⟩ := first
  obtain ⟨⟨secondPrefix, secondLocal⟩, _⟩ := second
  obtain ⟨_, firstKind⟩ := firstLegible
  obtain ⟨_, secondKind⟩ := secondLegible
  dsimp only at firstKind secondKind same ⊢
  rcases firstKind with rfl | ⟨rfl, firstPlain⟩ <;>
    rcases secondKind with rfl | ⟨rfl, secondPlain⟩
  · have sameChars := congrArg String.toList same
    rw [declared rfl, declared rfl, List.append_cancel_left_eq, String.toList_inj] at sameChars
    cases sameChars
    rfl
  · exact absurd ⟨_, (declared rfl).symm⟩ (same ▸ secondPlain)
  · exact absurd ⟨_, (declared rfl).symm⟩ (same ▸ firstPlain)
  · rw [Name.raw_of_no_prefix rfl, Name.raw_of_no_prefix rfl] at same
    cases same
    rfl

/-- A legible assignment can be told from what follows it. -/
theorem Assignment.text_append_inj
    {first second : Assignment}
    (firstLegible : first.IsLegible)
    (secondLegible : second.IsLegible)
    (same : first.text ++ rest = second.text ++ other) :
    first = second ∧ rest = other := by
  have noEquals {assignment : Assignment} (legible : assignment.IsLegible) :
      ∀ c ∈ assignment.name.raw.toList, c ≠ '=' := by
    rintro _ member rfl
    exact legible.name '=' member (by decide)
  have noQuote (value : List Char) : ∀ c ∈ value.flatMap (written true), c ≠ '"' := by
    rintro _ member rfl
    exact not_mem_written_quote value member
  simp only [text, List.cons_append, List.append_assoc, List.nil_append, List.cons.injEq,
    true_and] at same
  obtain ⟨sameName, quoted⟩ :=
    split_unique (noEquals firstLegible) (noEquals secondLegible)
      (head?_cons_forall (not_not.mpr rfl)) (head?_cons_forall (not_not.mpr rfl)) same
  simp only [List.cons.injEq, true_and] at quoted
  obtain ⟨sameValue, behind⟩ :=
    split_unique (noQuote first.value) (noQuote second.value)
      (head?_cons_forall (not_not.mpr rfl)) (head?_cons_forall (not_not.mpr rfl)) quoted
  have names := firstLegible.name_inj secondLegible (String.toList_inj.mp sameName)
  have values := flatMap_written_inj sameValue
  rcases first with ⟨_, _⟩
  rcases second with ⟨_, _⟩
  cases names
  cases values
  exact ⟨rfl, (List.cons.inj behind).2⟩

/-- Behind a name in a tag comes a space or the end of the tag. -/
theorem head?_behind_name
    (assignments : List Assignment)
    (closed : Bool) :
    ∃ c more, assignments.flatMap Assignment.text ++ (Tag.ending closed ++ rest) = c :: more ∧
      (c = ' ' ∨ c = '>') := by
  cases assignments with
  | nil =>
      cases closed
      · exact ⟨_, _, rfl, .inr rfl⟩
      · exact ⟨_, _, rfl, .inl rfl⟩
  | cons assignment others =>
      exact ⟨_, _, rfl, .inl rfl⟩

/-- A tag does not end where an assignment starts. -/
theorem ending_append_ne_text_append
    {assignment : Assignment}
    (legible : assignment.IsLegible)
    (closed : Bool) :
    Tag.ending closed ++ rest ≠ assignment.text ++ other := by
  intro same
  cases closed with
  | false =>
      cases (List.cons.inj same).1
  | true =>
      have behind := (List.cons.inj same).2
      cases spelled : assignment.name.raw.toList with
      | nil =>
          rw [spelled] at behind
          cases (List.cons.inj behind).1
      | cons c more =>
          rw [spelled] at behind
          obtain ⟨rfl, _⟩ := List.cons.inj behind
          exact legible.name '/' (by rw [spelled]; exact List.mem_cons_self) (by decide)

/-- The assignments of a tag, and whether it is closed, can be told from what follows. -/
theorem assignments_append_inj
    {first second : List Assignment}
    {closed otherClosed : Bool}
    (firstLegible : ∀ assignment ∈ first, assignment.IsLegible)
    (secondLegible : ∀ assignment ∈ second, assignment.IsLegible)
    (same :
      first.flatMap Assignment.text ++ (Tag.ending closed ++ rest) =
        second.flatMap Assignment.text ++ (Tag.ending otherClosed ++ other)) :
    first = second ∧ closed = otherClosed ∧ rest = other := by
  induction first generalizing second with
  | nil =>
      cases second with
      | nil =>
          cases closed <;> cases otherClosed
          · exact ⟨rfl, rfl, (List.cons.inj same).2⟩
          · cases (List.cons.inj same).1
          · cases (List.cons.inj same).1
          · exact ⟨rfl, rfl, List.append_cancel_left same⟩
      | cons assignment others =>
          rw [List.flatMap_cons, List.append_assoc] at same
          exact absurd same
            (ending_append_ne_text_append (secondLegible _ List.mem_cons_self) closed)
  | cons assignment more inductionHypothesis =>
      obtain ⟨ofFirst, ofMore⟩ := List.forall_mem_cons.mp firstLegible
      rw [List.flatMap_cons, List.append_assoc] at same
      cases second with
      | nil =>
          exact absurd same.symm (ending_append_ne_text_append ofFirst otherClosed)
      | cons otherAssignment others =>
          obtain ⟨ofSecond, ofOthers⟩ := List.forall_mem_cons.mp secondLegible
          rw [List.flatMap_cons, List.append_assoc] at same
          obtain ⟨rfl, behind⟩ := Assignment.text_append_inj ofFirst ofSecond same
          obtain ⟨rfl, sameEnding⟩ := inductionHypothesis ofMore ofOthers behind
          exact ⟨rfl, sameEnding⟩

/-- A start tag is not an end tag. -/
theorem start_append_ne_close
    {name otherName : String}
    (legible : IsTagName name)
    (assignments : List Assignment)
    (closed : Bool) :
    (Tag.start name assignments closed).text ++ rest ≠ (Tag.close otherName).text ++ other := by
  intro same
  simp only [Tag.text, List.cons_append, List.append_assoc, List.cons.injEq, true_and] at same
  cases spelled : name.toList with
  | nil =>
      obtain ⟨c, more, whole, ends⟩ := @head?_behind_name rest assignments closed
      rw [spelled, List.nil_append, whole] at same
      obtain ⟨rfl, _⟩ := List.cons.inj same
      rcases ends with isSpace | isEnd
      · cases isSpace
      · cases isEnd
  | cons c more =>
      rw [spelled] at same
      obtain ⟨rfl, _⟩ := List.cons.inj same
      exact legible '/' (by rw [spelled]; exact List.mem_cons_self) (by decide)

/-- A tag in writing can be told from what follows it. -/
theorem Tag.text_append_inj
    {first second : Tag}
    (firstLegible : first.IsLegible)
    (secondLegible : second.IsLegible)
    (same : first.text ++ rest = second.text ++ other) :
    first = second ∧ rest = other := by
  have inName {name : String} (legible : IsTagName name) :
      ∀ c ∈ name.toList, ¬ (c = ' ' ∨ c = '>') := by
    rintro _ member (rfl | rfl)
    · exact legible ' ' member (by decide)
    · exact legible '>' member (by decide)
  cases first with
  | start name assignments closed =>
      cases second with
      | close otherName =>
          exact absurd same (start_append_ne_close firstLegible.1 assignments closed)
      | start otherName others otherClosed =>
          simp only [Tag.text, List.cons_append, List.append_assoc, List.cons.injEq,
            true_and] at same
          have stops (assignments : List Assignment) (closed : Bool) (rest : List Char) :
              ∀ c ∈ (assignments.flatMap Assignment.text ++ (ending closed ++ rest)).head?,
                ¬ ¬ (c = ' ' ∨ c = '>') := by
            obtain ⟨c, more, whole, ends⟩ := @head?_behind_name rest assignments closed
            rw [whole]
            exact head?_cons_forall (not_not.mpr ends)
          obtain ⟨sameName, sameInside⟩ :=
            split_unique (inName firstLegible.1) (inName secondLegible.1)
              (stops assignments closed rest) (stops others otherClosed other) same
          obtain ⟨rfl, rfl, behind⟩ :=
            assignments_append_inj firstLegible.2 secondLegible.2 sameInside
          rw [String.toList_inj] at sameName
          subst sameName
          exact ⟨rfl, behind⟩
  | close name =>
      cases second with
      | start otherName others otherClosed =>
          exact absurd same.symm (start_append_ne_close secondLegible.1 others otherClosed)
      | close otherName =>
          simp only [Tag.text, List.cons_append, List.append_assoc, List.nil_append,
            List.cons.injEq, true_and] at same
          obtain ⟨sameName, behind⟩ :=
            split_unique (inName firstLegible) (inName secondLegible)
              (head?_cons_forall (not_not.mpr (.inr rfl)))
              (head?_cons_forall (not_not.mpr (.inr rfl))) same
          rw [String.toList_inj] at sameName
          subst sameName
          exact ⟨rfl, (List.cons.inj behind).2⟩

/-- A legible mark can be told from what follows it. -/
theorem Mark.text_append_inj
    {first second : Mark}
    (firstLegible : first.tag.IsLegible)
    (secondLegible : second.tag.IsLegible)
    (same : first.text ++ rest = second.text ++ other) :
    first = second ∧ rest = other := by
  have inLead (lead : List Char) : ∀ c ∈ lead.flatMap (written false), c ≠ '<' := by
    intro c member
    obtain ⟨_, _, inWritten⟩ := List.mem_flatMap.mp member
    exact ne_lt_of_mem_written inWritten
  have stops (tag : Tag) (rest : List Char) : ∀ c ∈ (tag.text ++ rest).head?, ¬ c ≠ '<' := by
    obtain ⟨inside, whole⟩ := tag.exists_text_cons
    rw [whole]
    exact head?_cons_forall (not_not.mpr rfl)
  rw [Mark.text, Mark.text, List.append_assoc, List.append_assoc] at same
  obtain ⟨sameLead, tagged⟩ :=
    split_unique (inLead first.lead) (inLead second.lead) (stops first.tag rest)
      (stops second.tag other) same
  obtain ⟨sameTag, behind⟩ := Tag.text_append_inj firstLegible secondLegible tagged
  rcases first with ⟨_, _⟩
  rcases second with ⟨_, _⟩
  cases flatMap_written_inj sameLead
  cases sameTag
  exact ⟨rfl, behind⟩

theorem Mark.text_ne_nil (mark : Mark) : mark.text ≠ [] := by
  obtain ⟨inside, whole⟩ := mark.tag.exists_text_cons
  rw [Mark.text, whole]
  exact List.append_ne_nil_of_right_ne_nil _ (List.cons_ne_nil _ _)

/-- A document can be cut into tags and the content between them in one way only. -/
theorem flatMap_text_inj
    {first second : List Mark}
    (firstLegible : ∀ mark ∈ first, mark.tag.IsLegible)
    (secondLegible : ∀ mark ∈ second, mark.tag.IsLegible)
    (same : first.flatMap Mark.text = second.flatMap Mark.text) :
    first = second := by
  induction first generalizing second with
  | nil =>
      cases second with
      | nil =>
          rfl
      | cons mark others =>
          rw [List.flatMap_nil, List.flatMap_cons] at same
          exact absurd (List.append_eq_nil_iff.mp same.symm).1 mark.text_ne_nil
  | cons mark more inductionHypothesis =>
      obtain ⟨ofFirst, ofMore⟩ := List.forall_mem_cons.mp firstLegible
      cases second with
      | nil =>
          rw [List.flatMap_nil, List.flatMap_cons] at same
          exact absurd (List.append_eq_nil_iff.mp same).1 mark.text_ne_nil
      | cons otherMark others =>
          obtain ⟨ofSecond, ofOthers⟩ := List.forall_mem_cons.mp secondLegible
          rw [List.flatMap_cons, List.flatMap_cons] at same
          obtain ⟨rfl, behind⟩ := Mark.text_append_inj ofFirst ofSecond same
          rw [inductionHypothesis ofMore ofOthers behind]

end Tags

end Markup

namespace Element

mutual

/-- What printing shows of an element: names as they are written, declared namespaces, values,
texts and children, but neither the namespaces of attributes nor lines. -/
def outline (element : Element) : Element :=
  match element with
  | ⟨name, attributes, children, namespaces, text, _⟩ =>
      { name, namespaces, text
        attributes := attributes.map fun attr =>
          { name := attr.qualifiedName, value := attr.value }
        children := outlines children }

def outlines : List Element → List Element
  | [] => []
  | element :: rest => outline element :: outlines rest

end

/-- An element whose own names end where they seem to, and whose attributes do not look as if
they declared namespaces. -/
structure IsLegible (element : Element) : Prop where
  name : IsTagName element.name
  namespaces : ∀ entry ∈ element.namespaces, IsTagName entry.1
  attributes : ∀ attr ∈ element.attributes,
    IsTagName attr.qualifiedName ∧ ¬ "xmlns:".toList <+: attr.qualifiedName.toList

instance (element : Element) : Decidable element.IsLegible :=
  decidable_of_iff (_ ∧ _ ∧ _)
    ⟨fun ⟨name, namespaces, attributes⟩ => ⟨name, namespaces, attributes⟩,
      fun ⟨name, namespaces, attributes⟩ => ⟨name, namespaces, attributes⟩⟩

section Outlines

section Parts

variable (element : Element)

@[simp]
theorem name_outline : element.outline.name = element.name := by
  rcases element with ⟨name, attributes, children, namespaces, text, line⟩
  rw [outline]

/-- The attributes of an outline have the qualified names as their names. -/
theorem attributes_outline :
    element.outline.attributes =
      element.attributes.map fun attr => { name := attr.qualifiedName, value := attr.value } := by
  rcases element with ⟨name, attributes, children, namespaces, text, line⟩
  rw [outline]

@[simp]
theorem text_outline : element.outline.text = element.text := by
  rcases element with ⟨name, attributes, children, namespaces, text, line⟩
  rw [outline]

theorem children_outline : element.outline.children = outlines element.children := by
  rcases element with ⟨name, attributes, children, namespaces, text, line⟩
  rw [outline]

end Parts

theorem opening_outline (element : Element) : element.outline.opening = element.opening := by
  rcases element with ⟨name, attributes, children, namespaces, text, line⟩
  rw [outline, opening, opening, List.map_map]
  rfl

mutual

/-- Printing shows an outline only. -/
theorem renderLines_outline
    (indent : String)
    (depth : Nat)
    (element : Element) :
    element.outline.renderLines indent depth = element.renderLines indent depth := by
  have sameTag := opening_outline element
  rcases element with ⟨name, attributes, children, namespaces, text, line⟩
  have sameLines := childLines_outlines indent (depth + 1) children
  have sameShape : (outlines children).isEmpty = children.isEmpty := by
    cases children <;> rfl
  rw [outline] at sameTag ⊢
  simp only [renderLines, sameTag, sameLines, sameShape]

/-- Children are printed like their outlines. -/
theorem childLines_outlines
    (indent : String)
    (depth : Nat)
    (elements : List Element) :
    childLines indent depth (outlines elements) = childLines indent depth elements := by
  cases elements with
  | nil =>
      rfl
  | cons element rest =>
      rw [outlines, childLines, childLines, renderLines_outline indent depth element,
        childLines_outlines indent depth rest]

end

/-- An element is printed like its outline. -/
theorem render_outline (element : Element) : element.outline.render = element.render := by
  rw [render, render, renderWith, renderWith, renderLines_outline]

/-- The assignments of an outline: first the declarations, then the attributes. -/
theorem assignments_outline (element : Element) :
    element.outline.assignments =
      (element.namespaces.map fun entry => ⟨⟨"xmlns", entry.1⟩, entry.2.toList⟩) ++
        element.attributes.map fun attr => ⟨⟨"", attr.qualifiedName⟩, attr.value.toList⟩ := by
  rcases element with ⟨name, attributes, children, namespaces, text, line⟩
  rw [outline, assignments, List.map_map]
  rfl

/-- The start tag of a legible element is legible. -/
theorem IsLegible.startTag
    {element : Element}
    (legible : element.IsLegible)
    (closed : Bool) :
    (element.outline.startTag closed).IsLegible := by
  rw [Element.startTag, Tag.IsLegible, name_outline, assignments_outline]
  refine ⟨legible.name, ?_⟩
  intro assignment member
  rcases List.mem_append.mp member with declared | given
  · obtain ⟨entry, inNamespaces, rfl⟩ := List.mem_map.mp declared
    refine ⟨?_, .inl rfl⟩
    intro c inName
    have hasPrefix : "xmlns" ≠ "" := by
      decide
    rw [Name.toList_raw_of_prefix hasPrefix, List.mem_append, List.mem_cons] at inName
    rcases inName with inXmlns | rfl | inPrefix
    · have plain : ∀ c ∈ "xmlns".toList, c ∉ [' ', '=', '/', '>'] := by
        decide
      exact plain c inXmlns
    · decide
    · exact legible.namespaces entry inNamespaces c inPrefix
  · obtain ⟨attr, inAttributes, rfl⟩ := List.mem_map.mp given
    obtain ⟨isName, notDeclaring⟩ := legible.attributes attr inAttributes
    have raw : Name.raw ⟨"", attr.qualifiedName⟩ = attr.qualifiedName :=
      Name.raw_of_no_prefix rfl
    exact ⟨by rwa [raw], .inr ⟨rfl, by rwa [raw]⟩⟩

mutual

/-- All tags in the print of a legible tree are legible. -/
theorem isLegible_of_mem_marks
    (lead : List Char)
    (depth : Nat)
    (element : Element)
    (legible : ∀ inner ∈ element.subtree, inner.IsLegible) :
    ∀ mark ∈ element.outline.marks lead depth, mark.tag.IsLegible := by
  rcases element with ⟨name, attributes, children, namespaces, text, line⟩
  rw [subtree] at legible
  obtain ⟨own, inside⟩ := List.forall_mem_cons.mp legible
  have start := own.startTag
  rw [outline] at start ⊢
  intro mark member
  rw [marks] at member
  split_ifs at member
  · rw [List.mem_singleton.mp member]
    exact start true
  · rcases List.mem_cons.mp member with rfl | member
    · exact start false
    · rw [List.mem_singleton.mp member]
      exact own.name
  · rcases List.mem_cons.mp member with rfl | member
    · exact start false
    · rcases List.mem_append.mp member with inChildren | member
      · exact isLegible_of_mem_marksAll _ (depth + 1) children inside mark inChildren
      · rw [List.mem_singleton.mp member]
        exact own.name

theorem isLegible_of_mem_marksAll
    (lead : List Char)
    (depth : Nat)
    (elements : List Element)
    (legible : ∀ inner ∈ subtrees elements, inner.IsLegible) :
    ∀ mark ∈ marksAll lead depth (outlines elements), mark.tag.IsLegible := by
  cases elements with
  | nil =>
      exact List.forall_mem_nil _
  | cons element rest =>
      rw [subtrees] at legible
      obtain ⟨inFirst, inRest⟩ := List.forall_mem_append.mp legible
      rw [outlines, marksAll]
      exact List.forall_mem_append.mpr
        ⟨isLegible_of_mem_marks lead depth element inFirst,
          isLegible_of_mem_marksAll _ depth rest inRest⟩

end

end Outlines

section Tags

variable {lead : List Char} {depth : Nat} {element first second : Element}

/-- What the tags of an element are behind its start tag. -/
inductive Inside (depth : Nat) (element : Element) : Bool → List Mark → Prop where
  | empty (childless : element.children = []) (textless : element.text = "") :
      Inside depth element true []
  | text (childless : element.children = []) (hasText : element.text ≠ "") :
      Inside depth element false [⟨element.text.toList, .close element.name⟩]
  | children (hasChildren : element.children ≠ []) :
      Inside depth element false
        (marksAll (textLine depth element.text ++ newLine (depth + 1)) (depth + 1)
            element.children ++
          [⟨newLine depth, .close element.name⟩])

/-- The marks of an element begin with its start tag. -/
theorem exists_inside (lead : List Char) (depth : Nat) (element : Element) :
    ∃ closed inside, element.marks lead depth = ⟨lead, element.startTag closed⟩ :: inside ∧
      Inside depth element closed inside := by
  rcases element with ⟨name, attributes, children, namespaces, text, line⟩
  simp only [marks]
  split_ifs with childless textless
  · exact ⟨_, _, rfl, .empty (by simpa using childless) (by simpa using textless)⟩
  · exact ⟨_, _, rfl, .text (by simpa using childless) (by simpa using textless)⟩
  · exact ⟨_, _, rfl, .children (by simpa using childless)⟩

/-- A start tag tells the name, the namespaces and the attributes of its element. -/
theorem startTag_outline_inj
    {closed otherClosed : Bool}
    (same : first.outline.startTag closed = second.outline.startTag otherClosed) :
    first.name = second.name ∧ first.namespaces = second.namespaces ∧
      first.outline.attributes = second.outline.attributes ∧ closed = otherClosed := by
  rw [startTag, startTag, Tag.start.injEq, assignments_outline, assignments_outline,
    name_outline, name_outline] at same
  obtain ⟨sameName, sameAssignments, sameEnding⟩ := same
  have declared (element : Element) :
      ∀ assignment ∈ element.namespaces.map fun entry : String × String =>
          (⟨⟨"xmlns", entry.1⟩, entry.2.toList⟩ : Assignment),
        assignment.name.nsPrefix = "xmlns" := by
    intro assignment member
    obtain ⟨_, _, rfl⟩ := List.mem_map.mp member
    rfl
  have given (element : Element) :
      ∀ assignment ∈ (element.attributes.map fun attr : Attribute =>
          (⟨⟨"", attr.qualifiedName⟩, attr.value.toList⟩ : Assignment)).head?,
        ¬ assignment.name.nsPrefix = "xmlns" := by
    intro assignment isFirst
    obtain ⟨attr, _, rfl⟩ := List.mem_map.mp (List.mem_of_mem_head? isFirst)
    simp
  obtain ⟨sameDeclared, sameGiven⟩ :=
    split_unique (declared first) (declared second) (given first) (given second) sameAssignments
  have sameNamespaces :=
    congrArg (List.map fun assignment =>
      (assignment.name.localName, String.ofList assignment.value)) sameDeclared
  have sameAttributes :=
    congrArg (List.map fun assignment : Assignment =>
      ({ name := assignment.name.localName, value := String.ofList assignment.value } :
        Attribute)) sameGiven
  simp only [List.map_map, Function.comp_def, String.ofList_toList] at sameNamespaces sameAttributes
  rw [attributes_outline, attributes_outline, sameAttributes]
  simp only [Prod.mk.eta, List.map_id'] at sameNamespaces
  exact ⟨sameName, sameNamespaces, rfl, sameEnding⟩

/-- Outlines with the same start tag, text and children are the same. -/
theorem outline_ext
    {closed otherClosed : Bool}
    (tags : first.outline.startTag closed = second.outline.startTag otherClosed)
    (text : first.text = second.text)
    (children : outlines first.children = outlines second.children) :
    first.outline = second.outline := by
  obtain ⟨name, namespaces, attributes, _⟩ := startTag_outline_inj tags
  rcases first with ⟨_, _, _, _, _, _⟩
  rcases second with ⟨_, _, _, _, _, _⟩
  rw [outline, outline] at attributes ⊢
  simp_all

/-- A closing tag is not where an element begins. -/
theorem close_ne_marks
    {before : List Char}
    {name : String}
    {rest other : List Mark} :
    (⟨before, .close name⟩ :: rest : List Mark) ≠ element.marks lead depth ++ other := by
  intro same
  obtain ⟨closed, more, whole⟩ := exists_marks_cons depth element
  rw [whole] at same
  cases (List.cons.inj same).1

/-- A closing tag is not where a list of elements begins. -/
theorem close_ne_marksAll
    {elements : List Element}
    (hasElements : elements ≠ [])
    {before : List Char}
    {name : String}
    {rest other : List Mark} :
    (⟨before, .close name⟩ :: rest : List Mark) ≠ marksAll lead depth elements ++ other := by
  cases elements with
  | nil =>
      exact absurd rfl hasElements
  | cons element others =>
      rw [marksAll, List.append_assoc]
      exact close_ne_marks

/-- The line of a text tells the text. -/
theorem textLine_inj
    {text otherText : String}
    (same : textLine depth text ++ newLine (depth + 1) =
      textLine depth otherText ++ newLine (depth + 1)) :
    text = otherText := by
  have cut := List.append_cancel_right same
  rw [textLine, textLine] at cut
  split at cut <;> split at cut
  · simp_all
  · simp [newLine] at cut
  · simp [newLine] at cut
  · rw [List.append_cancel_left_eq, String.toList_inj] at cut
    exact cut

mutual

/-- The tags of an element can be told from those behind them, and make up one element only. -/
theorem outline_eq_of_marks
    (depth : Nat)
    (first second : Element)
    {lead otherLead : List Char}
    {rest other : List Mark}
    (same :
      first.outline.marks lead depth ++ rest =
        second.outline.marks otherLead depth ++ other) :
    lead = otherLead ∧ first.outline = second.outline ∧ rest = other := by
  obtain ⟨closed, inside, whole, shape⟩ := exists_inside lead depth first.outline
  obtain ⟨otherClosed, otherInside, otherWhole, otherShape⟩ :=
    exists_inside otherLead depth second.outline
  rw [whole, otherWhole, List.cons_append, List.cons_append] at same
  obtain ⟨sameMark, behind⟩ := List.cons.inj same
  obtain ⟨rfl, tags⟩ := Mark.mk.inj sameMark
  obtain ⟨_, _, _, rfl⟩ := startTag_outline_inj tags
  rcases first with ⟨name, attributes, children, namespaces, text, line⟩
  have ext := outline_ext tags
  rw [← text_outline, ← text_outline second, ← children_outline, ← children_outline second] at ext
  cases shape with
  | empty childless textless =>
      cases otherShape with
      | empty otherChildless otherTextless =>
          exact ⟨rfl, ext (textless.trans otherTextless.symm)
            (childless.trans otherChildless.symm), behind⟩
  | text childless hasText =>
      cases otherShape with
      | text otherChildless otherHasText =>
          obtain ⟨sameClose, behind⟩ := List.cons.inj behind
          obtain ⟨sameText, _⟩ := Mark.mk.inj sameClose
          exact ⟨rfl, ext (String.toList_inj.mp sameText)
            (childless.trans otherChildless.symm), behind⟩
      | children otherHasChildren =>
          rw [List.append_assoc] at behind
          exact absurd behind (close_ne_marksAll otherHasChildren)
  | children hasChildren =>
      cases otherShape with
      | text otherChildless otherHasText =>
          rw [List.append_assoc] at behind
          exact absurd behind.symm (close_ne_marksAll hasChildren)
      | children otherHasChildren =>
          rw [children_outline, children_outline, List.append_assoc, List.append_assoc] at behind
          obtain ⟨sameLead, sameChildren, rfl⟩ :=
            outlines_eq_of_marksAll (depth + 1) children second.children behind
          rw [children_outline] at hasChildren
          refine ⟨rfl, ext (textLine_inj (sameLead hasChildren)) ?_, rfl⟩
          rw [children_outline, children_outline, sameChildren]

/-- The marks of children, up to the closing tag of their parent, tell the outlines. -/
theorem outlines_eq_of_marksAll
    (depth : Nat)
    (first second : List Element)
    {lead otherLead before otherBefore : List Char}
    {name otherName : String}
    {rest other : List Mark}
    (same :
      marksAll lead depth (outlines first) ++ ⟨before, .close name⟩ :: rest =
        marksAll otherLead depth (outlines second) ++ ⟨otherBefore, .close otherName⟩ :: other) :
    (outlines first ≠ [] → lead = otherLead) ∧ outlines first = outlines second ∧
      rest = other := by
  cases first with
  | nil =>
      cases second with
      | nil =>
          exact ⟨fun hasFirst => absurd rfl hasFirst, rfl, (List.cons.inj same).2⟩
      | cons element others =>
          rw [outlines, outlines, marksAll, marksAll, List.append_assoc] at same
          exact absurd same close_ne_marks
  | cons element more =>
      cases second with
      | nil =>
          rw [outlines, outlines, marksAll, marksAll, List.append_assoc] at same
          exact absurd same.symm close_ne_marks
      | cons otherElement others =>
          rw [outlines, outlines, marksAll, marksAll, List.append_assoc, List.append_assoc] at same
          obtain ⟨sameLead, sameFirst, behind⟩ :=
            outline_eq_of_marks depth element otherElement same
          obtain ⟨_, sameOthers, sameRest⟩ := outlines_eq_of_marksAll depth more others behind
          refine ⟨fun _ => sameLead, ?_, sameRest⟩
          rw [outlines, outlines, sameFirst, sameOthers]

end

end Tags

/-- Elements with legible names are printed alike exactly if they have the same outline: names,
declared namespaces, attributes, texts and children. No value, namespace or text, whatever
characters it is made of, is taken for markup or hides any. -/
theorem render_eq_iff
    {first second : Element}
    (firstLegible : ∀ inner ∈ first.subtree, inner.IsLegible)
    (secondLegible : ∀ inner ∈ second.subtree, inner.IsLegible) :
    first.render = second.render ↔ first.outline = second.outline := by
  constructor
  · intro same
    rw [← render_outline, ← render_outline second] at same
    have chars := congrArg String.toList same
    rw [toList_render, toList_render] at chars
    have marks :=
      flatMap_text_inj (isLegible_of_mem_marks _ 0 first firstLegible)
        (isLegible_of_mem_marks _ 0 second secondLegible) (List.append_cancel_left chars)
    rw [← List.append_nil (first.outline.marks _ 0), ← List.append_nil (second.outline.marks _ 0)]
      at marks
    exact (outline_eq_of_marks 0 first second marks).2.1
  · intro same
    rw [← render_outline, same, render_outline]

/-- A text that spells an element on a line of its own, and an attribute whose value spells
another attribute. -/
def disguised : Element :=
  { name := "a"
    attributes := [{ name := "b", value := "1\" c=\"2" }]
    children := [{ name := "d" }]
    text := "<d />" }

/-- The elements and attributes that the values spell. -/
def plainly : Element :=
  { name := "a"
    attributes := [{ name := "b", value := "1" }, { name := "c", value := "2" }]
    children := [{ name := "d" }, { name := "d" }] }

/-- Two legible trees that resemble each other are printed differently. -/
theorem render_disguised_ne :
    (∀ inner ∈ disguised.subtree, inner.IsLegible) ∧
      (∀ inner ∈ plainly.subtree, inner.IsLegible) ∧
      disguised.render ≠ plainly.render := by
  have disguisedLegible : ∀ inner ∈ disguised.subtree, inner.IsLegible := by
    decide
  have plainlyLegible : ∀ inner ∈ plainly.subtree, inner.IsLegible := by
    decide
  refine ⟨disguisedLegible, plainlyLegible, ?_⟩
  intro same
  have outlines := (render_eq_iff disguisedLegible plainlyLegible).mp same
  exact absurd (congrArg (·.attributes.length) outlines) (by decide)

end Element

end ApkAtlas.Xml
