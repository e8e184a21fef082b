import ApkAtlas.Proofs.Xml.Markup.Written

namespace ApkAtlas.Xml

/-!
# Printed elements

The lines of an element are its tags with content between them: margins, line breaks and the
text of the element. Their tokens make up the element again, as far as it can be read in the
scope around it.
-/

open Markup

namespace Element

/-- What is written inside the start tag: the namespaces, then the attributes. -/
def assignments (element : Element) : List Assignment :=
  (element.namespaces.map fun (nsPrefix, uri) => ⟨⟨"xmlns", nsPrefix⟩, uri.toList⟩) ++
    element.attributes.map fun attr => ⟨⟨attr.nsPrefix, attr.name⟩, attr.value.toList⟩

def startTag (element : Element) (closed : Bool) : Tag :=
  .start element.name element.assignments closed

end Element

/-- A line break and the margin of the next line. -/
def newLine (depth : Nat) : List Char :=
  '\n' :: (margin "  " depth).toList

/-- The line of a text at a depth, with the break in front of it. -/
def textLine (depth : Nat) (text : String) : List Char :=
  if text.isEmpty then [] else newLine depth ++ "  ".toList ++ text.toList

namespace Element

mutual

/-- The tags of an element at a depth, behind the given content. -/
def marks (lead : List Char) (depth : Nat) (element : Element) : List Mark :=
  match element with
  | ⟨name, attributes, children, namespaces, text, line⟩ =>
      let start := startTag ⟨name, attributes, children, namespaces, text, line⟩
      if children.isEmpty then
        if text.isEmpty then
          [⟨lead, start true⟩]
        else
          [⟨lead, start false⟩, ⟨text.toList, .close name⟩]
      else
        ⟨lead, start false⟩ ::
          (marksAll (textLine depth text ++ newLine (depth + 1)) (depth + 1) children ++
            [⟨newLine depth, .close name⟩])

/-- The tags of elements on lines of their own; content in front of the first one is given. -/
def marksAll (lead : List Char) (depth : Nat) : List Element → List Mark
  | [] => []
  | element :: rest => marks lead depth element ++ marksAll (newLine depth) depth rest

end

section Lines

theorem mem_newLine
    {depth : Nat}
    {c : Char}
    (member : c ∈ newLine depth) :
    c = '\n' ∨ c = ' ' := by
  rcases List.mem_cons.mp member with isFeed | inMargin
  · exact .inl isFeed
  · rw [margin, String.toList_join, List.mem_flatMap] at inMargin
    obtain ⟨indent, repeated, inIndent⟩ := inMargin
    rw [List.eq_of_mem_replicate repeated] at inIndent
    exact .inr (by simpa using inIndent)

/-- A new line is written as it is. -/
theorem flatMap_written_newLine (depth : Nat) :
    (newLine depth).flatMap (written false) = newLine depth := by
  have plain : ∀ c ∈ newLine depth, written false c = [c] := by
    intro c member
    rcases mem_newLine member with rfl | rfl <;> rfl
  rw [List.flatMap_congr plain, List.flatMap_singleton']

/-- An assignment is printed as its name and its value between quotation marks. -/
theorem toList_assignment (name : Name) (value : String) :
    (assignment name.raw value).toList = Assignment.text ⟨name, value.toList⟩ := by
  simp [assignment, Assignment.text, toList_escapeValue]

/-- A tag opens with its name and its assignments. -/
theorem toList_opening (element : Element) :
    element.opening.toList =
      '<' :: (element.name.toList ++ element.assignments.flatMap Assignment.text) := by
  have declared (nsPrefix uri : String) :
      (assignment ("xmlns:" ++ nsPrefix) uri).toList =
        Assignment.text ⟨⟨"xmlns", nsPrefix⟩, uri.toList⟩ :=
    toList_assignment ⟨"xmlns", nsPrefix⟩ uri
  have given (attr : Attribute) :
      (assignment attr.qualifiedName attr.value).toList =
        Assignment.text ⟨⟨attr.nsPrefix, attr.name⟩, attr.value.toList⟩ :=
    toList_assignment ⟨attr.nsPrefix, attr.name⟩ attr.value
  simp only [opening, assignments, String.toList_append, String.toList_join, List.flatMap_map,
    List.flatMap_append, declared, given, List.append_assoc]
  rfl

/-- What opens a tag and its ending are the text of the start tag. -/
theorem toList_opening_append (element : Element) (closed : Bool) :
    element.opening.toList ++ Tag.ending closed = (element.startTag closed).text := by
  rw [toList_opening, startTag, Tag.text, List.cons_append, List.append_assoc]

/-- The lines of an element, each behind a line break, are its tags in writing. -/
def linesText (lines : List String) : List Char :=
  lines.flatMap fun line => '\n' :: line.toList

/-- The text of lines is that of each of them. -/
theorem linesText_append (first second : List String) :
    linesText (first ++ second) = linesText first ++ linesText second :=
  List.flatMap_append

/-- The line of a text is written behind a new line, unless the text is empty. -/
theorem linesText_textLine (depth : Nat) (text : String) :
    linesText (if text.isEmpty then [] else [margin "  " depth ++ "  " ++ escapeText text]) =
      (textLine depth text).flatMap (written false) := by
  rw [textLine]
  split
  · rfl
  · have blanks : "  ".toList.flatMap (written false) = "  ".toList := rfl
    rw [List.flatMap_append, List.flatMap_append, flatMap_written_newLine, blanks]
    simp [linesText, newLine, toList_escapeText]

/-- The content in front of the first tag comes first. -/
theorem text_marks_append
    (before lead : List Char)
    (depth : Nat)
    (element : Element) :
    (element.marks (before ++ lead) depth).flatMap Mark.text =
      before.flatMap (written false) ++ (element.marks lead depth).flatMap Mark.text := by
  rcases element with ⟨name, attributes, children, namespaces, text, line⟩
  rw [marks, marks]
  split_ifs <;> simp [Mark.text]

/-- What stands before the first mark is written before it. -/
theorem text_marksAll_append
    (before lead : List Char)
    (depth : Nat)
    {elements : List Element}
    (some : elements.isEmpty = false) :
    (marksAll (before ++ lead) depth elements).flatMap Mark.text =
      before.flatMap (written false) ++ (marksAll lead depth elements).flatMap Mark.text := by
  cases elements with
  | nil =>
      cases some
  | cons element rest =>
      rw [marksAll, marksAll, List.flatMap_append, text_marks_append, List.append_assoc,
        List.flatMap_append]

mutual

/-- The lines of an element are the text of its marks. -/
theorem linesText_renderLines (depth : Nat) (element : Element) :
    linesText (element.renderLines "  " depth) =
      (element.marks (newLine depth) depth).flatMap Mark.text := by
  rcases element with ⟨name, attributes, children, namespaces, text, line⟩
  let element : Element := ⟨name, attributes, children, namespaces, text, line⟩
  have opens : (element.startTag false).text = element.opening.toList ++ ['>'] :=
    (toList_opening_append element false).symm
  have closed : (element.startTag true).text = element.opening.toList ++ [' ', '/', '>'] :=
    (toList_opening_append element true).symm
  have inside := linesText_childLines (depth + 1) children
  rw [renderLines, marks]
  by_cases childless : children.isEmpty
  · rw [if_pos childless, if_pos childless]
    by_cases textless : text.isEmpty
    · simp only [if_pos textless, linesText, List.flatMap_cons, List.flatMap_nil, Mark.text]
      rw [closed, flatMap_written_newLine]
      simp [newLine, element]
    · simp only [if_neg textless, linesText, List.flatMap_cons, List.flatMap_nil, Mark.text]
      rw [opens, flatMap_written_newLine]
      simp [newLine, element, toList_escapeText, Tag.text]
  · simp only [if_neg childless, List.flatMap_cons, List.flatMap_append, List.flatMap_nil,
      linesText_append, inside, Mark.text]
    rw [text_marksAll_append _ _ _ (by simpa using childless), opens, flatMap_written_newLine,
      linesText_textLine]
    simp [linesText, newLine, element, Tag.text]

/-- The lines of children are the text of their marks. -/
theorem linesText_childLines (depth : Nat) (elements : List Element) :
    linesText (childLines "  " depth elements) =
      (marksAll (newLine depth) depth elements).flatMap Mark.text := by
  cases elements with
  | nil =>
      rw [childLines, marksAll]
      rfl
  | cons element rest =>
      rw [childLines, marksAll, linesText_append, List.flatMap_append,
        linesText_renderLines depth element, linesText_childLines depth rest]

end

/-- The marks of an element begin with its start tag, whatever stands before it. -/
theorem exists_marks_cons (depth : Nat) (element : Element) :
    ∃ closed rest, ∀ lead,
      element.marks lead depth = ⟨lead, element.startTag closed⟩ :: rest := by
  rcases element with ⟨name, attributes, children, namespaces, text, line⟩
  simp only [marks]
  split_ifs <;> exact ⟨_, _, fun _ => rfl⟩

/-- Between parts stands the separator, so each part but the first has one before it. -/
theorem intercalate_cons
    (separator first : List Char)
    (rest : List (List Char)) :
    separator.intercalate (first :: rest) = first ++ rest.flatMap (separator ++ ·) := by
  induction rest generalizing first with
  | nil =>
      simp
  | cons next rest inductionHypothesis =>
      rw [List.intercalate_cons_cons, inductionHypothesis, List.flatMap_cons, List.append_assoc,
        List.append_assoc]

/-- A document is its declaration and the tags of its root. -/
theorem toList_render (element : Element) :
    element.render.toList =
      declaration.toList ++ (element.marks (newLine 0) 0).flatMap Mark.text := by
  rw [← linesText_renderLines, render, renderWith, String.toList_intercalate, List.map_cons,
    intercalate_cons, List.flatMap_map]
  rfl

end Lines

section Spelling

/-- An element whose names and characters XML allows, apart from what is inside it. -/
structure IsSpelled (element : Element) : Prop where
  name : IsPlainName element.name
  namespaces : ∀ entry ∈ element.namespaces,
    IsPlainName entry.1 ∧ ∀ c ∈ entry.2.toList, isXmlChar c
  attributes : ∀ attr ∈ element.attributes,
    Name.IsLegal ⟨attr.nsPrefix, attr.name⟩ ∧ ∀ c ∈ attr.value.toList, isXmlChar c
  text : ∀ c ∈ element.text.toList, isXmlChar c

instance (element : Element) : Decidable element.IsSpelled :=
  decidable_of_iff (_ ∧ _ ∧ _ ∧ _)
    ⟨fun ⟨name, namespaces, attributes, text⟩ => ⟨name, namespaces, attributes, text⟩,
      fun ⟨name, namespaces, attributes, text⟩ => ⟨name, namespaces, attributes, text⟩⟩

/-- The assignments of an element that is spelled right have legal names and characters. -/
theorem IsSpelled.assignment
    {element : Element}
    (spelled : element.IsSpelled) :
    ∀ assignment ∈ element.assignments,
      assignment.name.IsLegal ∧ ∀ c ∈ assignment.value, isXmlChar c := by
  intro assignment member
  rcases List.mem_append.mp member with declared | given
  · obtain ⟨entry, inNamespaces, rfl⟩ := List.mem_map.mp declared
    have legal := spelled.namespaces entry inNamespaces
    have declares : IsPlainName "xmlns" := by
      decide
    exact ⟨⟨.inr declares, legal.1⟩, legal.2⟩
  · obtain ⟨attr, inAttributes, rfl⟩ := List.mem_map.mp given
    exact spelled.attributes attr inAttributes

/-- The start tag of an element that is spelled right is spelled right. -/
theorem IsSpelled.start
    {element : Element}
    (spelled : element.IsSpelled)
    {lead : List Char}
    (chars : ∀ c ∈ lead, isXmlChar c)
    (closed : Bool) :
    Mark.IsSpelled ⟨lead, element.startTag closed⟩ where
  lead := chars
  tag := ⟨spelled.name, fun assignment member => (spelled.assignment assignment member).1⟩
  values := fun assignment member => (spelled.assignment assignment member).2

theorem isXmlChar_of_mem_newLine
    {depth : Nat}
    {c : Char}
    (member : c ∈ newLine depth) :
    isXmlChar c := by
  rcases mem_newLine member with rfl | rfl <;> decide

theorem isXmlChar_of_mem_textLine
    {depth : Nat}
    {text : String}
    (chars : ∀ c ∈ text.toList, isXmlChar c)
    {c : Char}
    (member : c ∈ textLine depth text) :
    isXmlChar c := by
  rw [textLine] at member
  split at member
  · cases member
  · rw [List.mem_append, List.mem_append] at member
    rcases member with (inNewLine | inMargin) | inText
    · exact isXmlChar_of_mem_newLine inNewLine
    · have blank : ∀ c ∈ "  ".toList, isXmlChar c := by
        decide
      exact blank c inMargin
    · exact chars c inText

mutual

/-- All marks of a tree that is spelled right are spelled right. -/
theorem isSpelled_of_mem_marks
    {lead : List Char}
    (chars : ∀ c ∈ lead, isXmlChar c)
    (depth : Nat)
    (element : Element)
    (spelled : ∀ inner ∈ element.subtree, inner.IsSpelled) :
    ∀ mark ∈ element.marks lead depth, mark.IsSpelled := by
  rcases element with ⟨name, attributes, children, namespaces, text, line⟩
  rw [subtree] at spelled
  obtain ⟨own, inside⟩ := List.forall_mem_cons.mp spelled
  have close {lead : List Char} (chars : ∀ c ∈ lead, isXmlChar c) :
      Mark.IsSpelled ⟨lead, .close name⟩ :=
    ⟨chars, own.name, fun _ member => nomatch member⟩
  intro mark member
  rw [marks] at member
  split_ifs at member
  · rw [List.mem_singleton.mp member]
    exact own.start chars true
  · rcases List.mem_cons.mp member with rfl | member
    · exact own.start chars false
    · rw [List.mem_singleton.mp member]
      exact close own.text
  · rcases List.mem_cons.mp member with rfl | member
    · exact own.start chars false
    · rcases List.mem_append.mp member with inChildren | member
      · refine isSpelled_of_mem_marksAll ?_ (depth + 1) children inside mark inChildren
        intro c inLead
        rcases List.mem_append.mp inLead with inLine | inNewLine
        · exact isXmlChar_of_mem_textLine own.text inLine
        · exact isXmlChar_of_mem_newLine inNewLine
      · rw [List.mem_singleton.mp member]
        exact close fun c => isXmlChar_of_mem_newLine

theorem isSpelled_of_mem_marksAll
    {lead : List Char}
    (chars : ∀ c ∈ lead, isXmlChar c)
    (depth : Nat)
    (elements : List Element)
    (spelled : ∀ inner ∈ subtrees elements, inner.IsSpelled) :
    ∀ mark ∈ marksAll lead depth elements, mark.IsSpelled := by
  cases elements with
  | nil =>
      intro mark member
      cases member
  | cons element rest =>
      rw [subtrees] at spelled
      obtain ⟨inFirst, inRest⟩ := List.forall_mem_append.mp spelled
      intro mark member
      rw [marksAll] at member
      rcases List.mem_append.mp member with first | others
      · exact isSpelled_of_mem_marks chars depth element inFirst mark first
      · exact isSpelled_of_mem_marksAll (fun c => isXmlChar_of_mem_newLine) depth rest inRest mark
          others

end

end Spelling

end Element

end ApkAtlas.Xml
