import ApkAtlas.Proofs.Text.Trim
import ApkAtlas.Proofs.Xml.Markup.Shown
import ApkAtlas.Proofs.Xml.Printed

namespace ApkAtlas.Xml

/-!
# Elements read from their tags

What a printed element is read as is told by the tree alone: its start tag is read in the scope
around it, its children in the scope inside it, and its text without blanks at the ends.
-/

open Markup

namespace Element

/-- The start tag of an element as it is read. -/
def readTag (element : Element) : StartTag :=
  { name := ⟨"", element.name⟩
    attributes := element.assignments.map fun assignment =>
      (assignment.name, (normalizeBreaks assignment.value).map pieceOf) }

mutual

/-- The element that a printed element is read as in a scope, if it can be read. -/
def reread? (scope : Scope) (element : Element) : Option Element :=
  match element with
  | ⟨name, attributes, children, namespaces, text, line⟩ => do
      let (start, inner) ←
        startElement? {} scope (readTag ⟨name, attributes, children, namespaces, text, line⟩)
      let children ← rereadAll? inner children
      return { start with
        children
        text := String.ofList (Text.strip (normalizeBreaks text.toList)) }

def rereadAll? (scope : Scope) : List Element → Option (List Element)
  | [] => some []
  | element :: rest => do
      let first ← reread? scope element
      let others ← rereadAll? scope rest
      return first :: others

end

end Element

section Assembling

namespace Markup

/-- What a start tag that can be read is read as. -/
theorem exists_of_startElement?
    {doctype : Doctype}
    {scope inner : Scope}
    {tag : StartTag}
    {element : Element}
    (started : startElement? doctype scope tag = some (element, inner)) :
    ∃ values attributes,
      attributeValues? doctype tag = some values ∧
        (values.filter fun entry => (declaredPrefix? entry.1).isNone).mapM
            (fun entry => attribute? inner entry.1 entry.2) = some attributes ∧
        element = { name := tag.name.localName, attributes } := by
  simp only [startElement?, Option.bind_eq_bind] at started
  obtain ⟨values, known, started⟩ := Option.bind_eq_some_iff.mp started
  split at started
  · cases started
  obtain ⟨attributes, read, started⟩ := Option.bind_eq_some_iff.mp started
  split at started
  · cases started
  split at started
  · cases started
  cases started
  exact ⟨values, attributes, known, read, rfl⟩

/-- An element that was started has no children yet. -/
theorem startElement?_children
    {doctype : Doctype}
    {scope inner : Scope}
    {tag : StartTag}
    {element : Element}
    (started : startElement? doctype scope tag = some (element, inner)) :
    element.children = [] := by
  obtain ⟨_, _, _, _, rfl⟩ := exists_of_startElement? started
  rfl

namespace OpenElement

variable (opened : OpenElement) (first second : List Char)

/-- Adds children. -/
def addChildren (opened : OpenElement) (children : List Element) : OpenElement :=
  { opened with
    element := { opened.element with children := opened.element.children ++ children } }

/-- The element behind children with the given text in front of the first of them. -/
def receive (opened : OpenElement) (lead : List Char) : List Element → OpenElement
  | [] => opened
  | child :: others => (opened.addText lead).addChildren (child :: others)

theorem addText_nil : opened.addText [] = opened := by
  rw [addText]
  split <;> rfl

theorem scope_addText : (opened.addText first).scope = opened.scope := by
  rw [addText]
  split <;> rfl

theorem name_addText : (opened.addText first).name = opened.name := by
  rw [addText]
  split <;> rfl

/-- Texts that come one after the other are one text. -/
theorem addText_append :
    opened.addText (first ++ second) = (opened.addText first).addText second := by
  by_cases childless : opened.element.children.isEmpty
  · simp [addText, childless]
  · simp [addText, childless]

/-- A text behind a child is not kept. -/
theorem addText_of_children {opened : OpenElement} (some : opened.element.children ≠ []) :
    opened.addText first = opened := by
  rw [addText, if_neg (by simpa using some)]

theorem addChildren_nil : opened.addChildren [] = opened := by
  rcases opened with ⟨⟨_, _, _, _, _, _⟩, _, _, _⟩
  simp [addChildren]

/-- A finished element has the text before its children, and the children. -/
theorem finish_receive
    {opened : OpenElement}
    (childless : opened.element.children = [])
    (textless : opened.text = [])
    (lead : List Char)
    (children : List Element) :
    ((opened.addText lead).addChildren children).finish =
      { opened.element with children, text := String.ofList (Text.strip lead) } := by
  simp [finish, addChildren, addText, childless, textless]

/-- A child comes before those that are received after it. -/
theorem receive_cons (child : Element) (others : List Element) :
    ((opened.addText first).addChild child).receive second others =
      opened.receive first (child :: others) := by
  cases others with
  | nil =>
      rfl
  | cons next rest =>
      rw [receive, receive, addText_of_children]
      · simp [addChildren, addChild]
      · simp [addChild]

end OpenElement

namespace Assembly

variable (root : Option Element) (opened : OpenElement) (outer : List OpenElement) {name : String}

/-- Puts a closed element into the innermost open one, or makes it the root. -/
def attach (assembly : Assembly) (element : Element) : Assembly :=
  match assembly.opened with
  | [] => { opened := [], root := some element }
  | parent :: rest => { assembly with opened := parent.addChild element :: rest }

/-- Closing an element adds it to the one around it. -/
theorem close_cons :
    close { opened := opened :: outer, root } = attach { opened := outer, root } opened.finish := by
  cases outer <;> rfl

/-- A character of content goes to the innermost open element. -/
theorem step?_tokenOf (c : Char) :
    step? {} { opened := opened :: outer, root } (tokenOf c) =
      some { opened := opened.addText [c] :: outer, root } := by
  rw [tokenOf]
  split <;> rfl

/-- Characters of content go to the innermost open element, in order. -/
theorem foldlM_content (text : List Char) :
    (text.map tokenOf).foldlM (step? {}) { opened := opened :: outer, root } =
      some { opened := opened.addText text :: outer, root } := by
  induction text generalizing opened with
  | nil =>
      rw [List.map_nil, List.foldlM_nil, opened.addText_nil]
      rfl
  | cons c rest inductionHypothesis =>
      rw [List.map_cons, List.foldlM_cons, step?_tokenOf, Option.bind_eq_bind, Option.bind_some,
        inductionHypothesis, ← opened.addText_append, List.singleton_append]

/-- A start tag opens an element, or finishes it if it is closed. -/
theorem step?_start
    {assembly : Assembly}
    (room : assembly.opened = [] → assembly.root = none)
    (tag : StartTag)
    (closed : Bool) :
    step? {} assembly (.start tag closed) =
      (startElement? {} assembly.scope tag).map fun (element, inner) =>
        let opened : OpenElement := ⟨element, tag.name, inner, []⟩
        if closed then assembly.attach opened.finish
        else { assembly with opened := opened :: assembly.opened } := by
  have noSecond : (assembly.opened.isEmpty && assembly.root.isSome) = false := by
    cases opened : assembly.opened with
    | nil =>
        rw [room opened]
        rfl
    | cons _ _ =>
        rfl
  rcases assembly with ⟨opened, root⟩
  rw [step?, noSecond]
  cases startElement? {} (Assembly.scope ⟨opened, root⟩) tag with
  | none =>
      rfl
  | some started =>
      simp [close_cons]

/-- The closing tag of the innermost element finishes it. -/
theorem step?_close (named : opened.name = ⟨"", name⟩) :
    step? {} { opened := opened :: outer, root } (.close ⟨"", name⟩) =
      some (attach { opened := outer, root } opened.finish) := by
  simp only [step?, named, if_true, close_cons]

end Assembly

end Markup

end Assembling

namespace Element

open Markup.Assembly (attach foldlM_content step?_close step?_start)

/-- The tokens that the tags of an element are read as. -/
def readTokens (marks : List Mark) : List Token :=
  marks.flatMap fun mark => mark.normalize.tokens

/-- Marks are read one behind the other. -/
theorem readTokens_append (first second : List Mark) :
    readTokens (first ++ second) = readTokens first ++ readTokens second :=
  List.flatMap_append

/-- Before a tag the blanks in front of it are read. -/
theorem readTokens_cons (mark : Mark) (rest : List Mark) :
    readTokens (mark :: rest) =
      (normalizeBreaks mark.lead).map tokenOf ++ mark.tag.normalize.token :: readTokens rest := by
  rw [readTokens, List.flatMap_cons, Mark.tokens, List.append_assoc]
  rfl

/-- A start tag is read with the line breaks in its values normalised. -/
theorem token_normalize_startTag (element : Element) (closed : Bool) :
    (element.startTag closed).normalize.token = .start element.readTag closed := by
  simp [startTag, Tag.normalize, Tag.token, readTag, Assignment.normalize]

/-- Content in front of an element is read first. -/
theorem readTokens_marks (lead : List Char) (depth : Nat) (element : Element) :
    readTokens (element.marks lead depth) =
      (normalizeBreaks lead).map tokenOf ++ readTokens (element.marks [] depth) := by
  rcases element with ⟨name, attributes, children, namespaces, text, line⟩
  rw [marks, marks]
  split_ifs <;> simp only [readTokens_cons, normalizeBreaks, List.map_nil, List.nil_append]

theorem no_return_newLine (depth : Nat) : '\r' ∉ newLine depth := by
  intro member
  rcases mem_newLine member with isFeed | isSpace
  · cases isFeed
  · cases isSpace

/-- The line breaks that are printed are normal. -/
theorem normalizeBreaks_newLine (depth : Nat) :
    normalizeBreaks (newLine depth) = newLine depth := by
  have broken := normalizeBreaks_append_of_not_mem (no_return_newLine depth) []
  rwa [List.append_nil, normalizeBreaks, List.append_nil] at broken

/-- The text of an element with children inside is read without the blanks around it. -/
theorem strip_normalizeBreaks_textLine (depth : Nat) (text : String) :
    Text.strip (normalizeBreaks (textLine depth text ++ newLine (depth + 1))) =
      Text.strip (normalizeBreaks text.toList) := by
  have blank {depth : Nat} : ∀ c ∈ newLine depth, Text.isBlank c := by
    intro c member
    rcases mem_newLine member with rfl | rfl <;> decide
  obtain ⟨back, within, broken⟩ := exists_normalizeBreaks_append text.toList (newLine (depth + 1))
  rw [normalizeBreaks_newLine] at within
  have backBlank : ∀ c ∈ back, Text.isBlank c := fun c member => blank c (within c member)
  rw [textLine]
  split
  · rename_i textless
    have noText : text.toList = [] := by
      simpa using textless
    rw [noText, List.nil_append, normalizeBreaks_newLine]
    exact @Text.strip_append_blank [] _ (List.forall_mem_nil _) blank []
  · have frontBlank : ∀ c ∈ newLine depth ++ "  ".toList, Text.isBlank c := by
      rw [List.forall_mem_append]
      exact ⟨blank, by decide⟩
    have noReturn : '\r' ∉ newLine depth ++ "  ".toList := by
      rw [List.mem_append, not_or]
      exact ⟨no_return_newLine depth, by decide⟩
    rw [List.append_assoc, normalizeBreaks_append_of_not_mem noReturn, broken]
    exact Text.strip_append_blank frontBlank backBlank _

/-- Only a list without elements is read again as one. -/
theorem eq_nil_of_rereadAll?_eq_nil
    {scope : Scope}
    {elements : List Element}
    (read : rereadAll? scope elements = some []) :
    elements = [] := by
  cases elements with
  | nil =>
      rfl
  | cons element rest =>
      rw [rereadAll?] at read
      obtain ⟨first, _, read⟩ := Option.bind_eq_some_iff.mp read
      obtain ⟨others, _, read⟩ := Option.bind_eq_some_iff.mp read
      cases read

/-- A start tag opens its element, or adds it at once if the tag closes itself. -/
theorem foldlM_startTag
    {element : Element}
    {assembly : Markup.Assembly}
    (room : assembly.opened = [] → assembly.root = none)
    (closed : Bool)
    (rest : List Mark) :
    (readTokens (⟨[], element.startTag closed⟩ :: rest)).foldlM
        (Markup.Assembly.step? {}) assembly =
      (startElement? {} assembly.scope element.readTag).bind fun (start, inner) =>
        let opened : OpenElement := ⟨start, ⟨"", element.name⟩, inner, []⟩
        (readTokens rest).foldlM (Markup.Assembly.step? {})
          (if closed then assembly.attach opened.finish
          else { assembly with opened := opened :: assembly.opened }) := by
  rw [readTokens_cons, token_normalize_startTag, normalizeBreaks, List.map_nil, List.nil_append,
    List.foldlM_cons, step?_start room]
  cases startElement? {} assembly.scope element.readTag <;> rfl

/-- An end tag closes the innermost open element behind the content in front of it. -/
theorem foldlM_closeTag
    {opened : OpenElement}
    {name : String}
    (named : opened.name = ⟨"", name⟩)
    (root : Option Element)
    (outer : List OpenElement)
    (lead : List Char) :
    (readTokens [⟨lead, .close name⟩]).foldlM
        (Markup.Assembly.step? {}) { opened := opened :: outer, root } =
      some (attach { opened := outer, root } (opened.addText (normalizeBreaks lead)).finish) := by
  have stillNamed : (opened.addText (normalizeBreaks lead)).name = ⟨"", name⟩ :=
    (opened.name_addText _).trans named
  rw [readTokens_cons, List.foldlM_append, foldlM_content]
  exact (bind_pure _).trans (step?_close root _ outer stillNamed)

-- By induction on the tree, over every assembly that it can be read into: the children are read
-- into the assembly in which their parent is the innermost open element.
mutual

/-- The tokens of an element add it to a tree, in the scope of the innermost open one. -/
theorem foldlM_marks
    (depth : Nat)
    (element : Element)
    (assembly : Markup.Assembly)
    (room : assembly.opened = [] → assembly.root = none) :
    (readTokens (element.marks [] depth)).foldlM (Markup.Assembly.step? {}) assembly =
      (element.reread? assembly.scope).map assembly.attach := by
  rcases element with ⟨name, attributes, children, namespaces, text, line⟩
  let element : Element := ⟨name, attributes, children, namespaces, text, line⟩
  rw [marks, reread?]
  cases started : startElement? {} assembly.scope element.readTag with
  | none =>
      split_ifs <;> rw [foldlM_startTag room, started] <;> rfl
  | some entered =>
      obtain ⟨start, inner⟩ := entered
      have childlessStart : start.children = [] := startElement?_children started
      let opened : OpenElement := ⟨start, ⟨"", name⟩, inner, []⟩
      have entering (closed : Bool) (rest : List Mark) :
          (readTokens (⟨[], element.startTag closed⟩ :: rest)).foldlM
              (Markup.Assembly.step? {}) assembly =
            (readTokens rest).foldlM (Markup.Assembly.step? {})
              (if closed then assembly.attach opened.finish
              else { assembly with opened := opened :: assembly.opened }) := by
        rw [foldlM_startTag room, started]
        rfl
      split_ifs with childless textless
      · have noText : text.toList = [] := by
          simpa using textless
        have finished := opened.finish_receive childlessStart rfl [] []
        rw [opened.addText_nil, opened.addChildren_nil] at finished
        rw [entering, if_pos rfl, List.isEmpty_iff.mp childless, noText, finished]
        rfl
      · have finished := opened.finish_receive childlessStart rfl (normalizeBreaks text.toList) []
        rw [OpenElement.addChildren_nil] at finished
        have closing := foldlM_closeTag (show opened.name = ⟨"", name⟩ from rfl) assembly.root
          assembly.opened text.toList
        rw [finished] at closing
        rw [entering, if_neg (by decide), List.isEmpty_iff.mp childless]
        exact closing
      · have inside := foldlM_marksAll (textLine depth text ++ newLine (depth + 1)) (depth + 1)
          children assembly.root opened assembly.opened
        rw [entering, if_neg (by decide), readTokens_append, List.foldlM_append, inside]
        simp only [Option.bind_eq_bind, Option.bind_some]
        cases read : rereadAll? inner children with
        | none =>
            rfl
        | some found =>
            have notEmpty : found ≠ [] := by
              rintro rfl
              exact childless (List.isEmpty_iff.mpr (eq_nil_of_rereadAll?_eq_nil read))
            obtain ⟨child, others, rfl⟩ := List.exists_cons_of_ne_nil notEmpty
            let lead := normalizeBreaks (textLine depth text ++ newLine (depth + 1))
            -- With a child inside, the margin before the end tag no longer counts as text.
            let full := (opened.addText lead).addChildren (child :: others)
            have finished : full.finish = _ :=
              opened.finish_receive childlessStart rfl lead (child :: others)
            rw [strip_normalizeBreaks_textLine] at finished
            have hasChildren : full.element.children ≠ [] := by
              simp [full, OpenElement.addChildren]
            have named : full.name = ⟨"", name⟩ :=
              opened.name_addText lead
            have closing := foldlM_closeTag named assembly.root assembly.opened (newLine depth)
            rw [OpenElement.addText_of_children _ hasChildren, finished] at closing
            exact closing

/-- Reading the marks of children adds the children that are read again. -/
theorem foldlM_marksAll
    (lead : List Char)
    (depth : Nat)
    (elements : List Element)
    (root : Option Element)
    (opened : OpenElement)
    (outer : List OpenElement) :
    (readTokens (marksAll lead depth elements)).foldlM (Markup.Assembly.step? {})
        { opened := opened :: outer, root } =
      (rereadAll? opened.scope elements).map fun found =>
        { opened := opened.receive (normalizeBreaks lead) found :: outer, root } := by
  cases elements with
  | nil =>
      rfl
  | cons element rest =>
      let led : Markup.Assembly :=
        { opened := opened.addText (normalizeBreaks lead) :: outer, root }
      have sameScope : led.scope = opened.scope :=
        opened.scope_addText _
      have first := foldlM_marks depth element led (fun none => nomatch none)
      rw [sameScope] at first
      rw [marksAll, readTokens_append, readTokens_marks, List.foldlM_append, List.foldlM_append,
        foldlM_content, Option.bind_eq_bind, Option.bind_some, first, rereadAll?]
      cases element.reread? opened.scope with
      | none =>
          rfl
      | some found =>
          let longer := (opened.addText (normalizeBreaks lead)).addChild found
          have others := foldlM_marksAll (newLine depth) depth rest root longer outer
          rw [show longer.scope = opened.scope from opened.scope_addText _] at others
          simp only [Option.map_some, Option.bind_eq_bind, Option.bind_some]
          refine others.trans ?_
          cases rereadAll? opened.scope rest with
          | none =>
              rfl
          | some more =>
              simp [longer, OpenElement.receive_cons]

end

/-- A printed element whose names and characters XML allows is a document that opens with its
start tag, and its text is read as what the element is reread as. -/
theorem exists_text_of_render
    {root : Element}
    (spelled : ∀ inner ∈ root.subtree, inner.IsSpelled) :
    ∃ text, Text.Utf8.encode root.render = document text ∧ OpensTag text ∧
      ofText? false ('\n' :: text) = root.reread? outerScope := by
  obtain ⟨closed, rest, whole⟩ := root.exists_marks_cons 0
  have marksSpelled : ∀ mark ∈ root.marks [] 0, mark.IsSpelled :=
    isSpelled_of_mem_marks (fun _ member => absurd member List.not_mem_nil) 0 root spelled
  have written : root.render =
      String.ofList (declaration.toList ++
        '\n' :: ((root.startTag closed).text ++ rest.flatMap Mark.text)) := by
    apply String.toList_injective
    rw [toList_render, whole, String.toList_ofList, List.flatMap_cons, Mark.text,
      flatMap_written_newLine]
    rfl
  have chars : ∀ c ∈ (root.startTag closed).text ++ rest.flatMap Mark.text, isXmlChar c := by
    intro c member
    have inMarks : c ∈ (root.marks [] 0).flatMap Mark.text := by
      rw [whole]
      exact member
    obtain ⟨mark, isMark, inMark⟩ := List.mem_flatMap.mp inMarks
    exact (marksSpelled mark isMark).isXmlChar inMark
  have legal : ∀ mark ∈ ⟨[], root.startTag closed⟩ :: rest, mark.tag.IsLegal := by
    rw [← whole]
    exact fun mark member => (marksSpelled mark member).tag
  have isStart : (root.startTag closed).IsStart :=
    trivial
  have folded := foldlM_marks 0 root {} (fun _ => rfl)
  rw [whole] at folded
  refine ⟨_, congrArg Text.Utf8.encode written, ?_, ?_⟩
  · obtain ⟨c, inside, opening, starts⟩ := exists_start_cons isStart (legal _ List.mem_cons_self)
    exact ⟨c, inside ++ rest.flatMap Mark.text, by rw [opening]; rfl, starts⟩
  · rw [ofText?_marks isStart legal chars, root?]
    refine (congrArg (Option.bind · _) folded).trans ?_
    change ((root.reread? outerScope).map _).bind _ = _
    cases root.reread? outerScope <;> rfl

end Element

end ApkAtlas.Xml
