import ApkAtlas.Proofs.Table
import ApkAtlas.Proofs.Xml.Reread

namespace ApkAtlas.Xml

/-!
# Elements of plain markup

The elements that are made of trees of markup have attributes in namespaces, but neither
prefixes nor declarations. So what is printed of them is read again without any namespace. What
any printed element is read as is plain: a tree that shows it tells nothing else.
-/

open Markup

namespace Element

/-- An element without declarations and prefixes. -/
structure IsBare (element : Element) : Prop where
  namespaces : element.namespaces = []
  attributes : ∀ attr ∈ element.attributes, attr.nsPrefix = ""

/-- An element without declarations and prefixes, like all elements inside it. -/
def IsBareThroughout (element : Element) : Prop :=
  ∀ inner ∈ element.subtree, inner.IsBare

section Subtrees

theorem subtrees_eq_flatMap (elements : List Element) :
    subtrees elements = elements.flatMap subtree := by
  induction elements with
  | nil =>
      rfl
  | cons element rest inductionHypothesis =>
      rw [subtrees, inductionHypothesis, List.flatMap_cons]

theorem forall_mem_subtree_iff
    {P : Element → Prop}
    {element : Element} :
    (∀ inner ∈ element.subtree, P inner) ↔
      P element ∧ ∀ child ∈ element.children, ∀ inner ∈ child.subtree, P inner := by
  rcases element with ⟨name, attributes, children, namespaces, text, line⟩
  rw [subtree, List.forall_mem_cons, subtrees_eq_flatMap, List.forall_mem_flatMap]

end Subtrees

end Element

section Reading

variable {Item Value : Type}

/-- What holds of all results of a step holds of all values that are found by it. -/
theorem forall_mem_of_mapM
    {step : Item → Option Value}
    {P : Value → Prop}
    {items : List Item}
    {values : List Value}
    (found : items.mapM step = some values)
    (each : ∀ item ∈ items, ∀ value, step item = some value → P value) :
    ∀ value ∈ values, P value := by
  induction items generalizing values with
  | nil =>
      cases found
      exact List.forall_mem_nil _
  | cons item rest inductionHypothesis =>
      rw [List.mapM_cons] at found
      obtain ⟨value, first, found⟩ := Option.bind_eq_some_iff.mp found
      obtain ⟨others, more, found⟩ := Option.bind_eq_some_iff.mp found
      cases found
      obtain ⟨firstHolds, restHold⟩ := List.forall_mem_cons.mp each
      exact List.forall_mem_cons.mpr ⟨firstHolds value first, inductionHypothesis more restHold⟩

namespace Markup

/-- A key tells no prefix. -/
theorem attributeOfKey_nsPrefix
    {key value : String}
    {attr : Attribute}
    (read : attributeOfKey key value = .ok attr) :
    attr.nsPrefix = "" := by
  rw [attributeOfKey] at read
  split at read
  · split at read
    · cases read
      rfl
    · cases read
  · cases read
    rfl

namespace Tree

mutual

/-- What is made of a tree has neither declarations nor prefixes. -/
theorem element_isBare
    {tree : Tree}
    {element : Element}
    (made : tree.element = .ok element) :
    element.IsBareThroughout := by
  rcases tree with ⟨tag, text, keys, trees⟩
  rw [Tree.element] at made
  obtain ⟨attributes, read, made⟩ := exists_of_bind_eq_ok made
  obtain ⟨children, madeChildren, made⟩ := exists_of_bind_eq_ok made
  cases made
  refine Element.forall_mem_subtree_iff.mpr ⟨⟨rfl, ?_⟩, elements_isBare madeChildren⟩
  intro attr member
  obtain ⟨_, _, readAttribute⟩ := exists_of_mem_results read member
  exact attributeOfKey_nsPrefix readAttribute

/-- What is made of trees has neither declarations nor prefixes. -/
theorem elements_isBare
    {trees : List Tree}
    {elements : List Element}
    (made : Tree.elements trees = .ok elements) :
    ∀ element ∈ elements, element.IsBareThroughout := by
  cases trees with
  | nil =>
      cases made
      exact List.forall_mem_nil _
  | cons tree rest =>
      rw [Tree.elements] at made
      obtain ⟨first, madeFirst, made⟩ := exists_of_bind_eq_ok made
      obtain ⟨others, madeOthers, made⟩ := exists_of_bind_eq_ok made
      cases made
      exact List.forall_mem_cons.mpr ⟨element_isBare madeFirst, elements_isBare madeOthers⟩

end

end Tree

end Markup

end Reading

namespace Element

section Rereading

/-- The values of a start tag are those of its assignments. -/
theorem exists_assignment_of_attributeValues?
    {element : Element}
    {values : List (Name × String)}
    (known : attributeValues? {} element.readTag = some values) :
    ∀ entry ∈ values, ∃ assignment ∈ element.assignments, assignment.name = entry.1 := by
  simp only [attributeValues?, Option.bind_eq_bind] at known
  split at known
  · cases known
  obtain ⟨specified, read, known⟩ := Option.bind_eq_some_iff.mp known
  cases known
  rw [List.filterMap_nil, List.append_nil]
  refine forall_mem_of_mapM read ?_
  intro item member value found
  obtain ⟨_, _, found⟩ := Option.bind_eq_some_iff.mp found
  cases found
  obtain ⟨assignment, inAssignments, rfl⟩ := List.mem_map.mp member
  exact ⟨assignment, inAssignments, rfl⟩

/-- An element without declarations and prefixes has values without prefixes. -/
theorem nsPrefix_of_attributeValues?
    {element : Element}
    (bare : element.IsBare)
    {values : List (Name × String)}
    (known : attributeValues? {} element.readTag = some values) :
    ∀ entry ∈ values, entry.1.nsPrefix = "" := by
  intro entry member
  obtain ⟨assignment, inAssignments, same⟩ :=
    exists_assignment_of_attributeValues? known entry member
  rw [assignments, bare.namespaces, List.map_nil, List.nil_append] at inAssignments
  obtain ⟨attr, given, rfl⟩ := List.mem_map.mp inAssignments
  rw [← same]
  exact bare.attributes attr given

theorem startElement?_readTag_namespaceUri
    {scope inner : Scope}
    {element start : Element}
    (bare : element.IsBare)
    (started : startElement? {} scope element.readTag = some (start, inner)) :
    ∀ attr ∈ start.attributes, attr.namespaceUri = "" := by
  obtain ⟨values, attributes, known, read, rfl⟩ := exists_of_startElement? started
  refine forall_mem_of_mapM read ?_
  intro entry member attr found
  have noPrefix := nsPrefix_of_attributeValues? bare known entry (List.mem_filter.mp member).1
  rw [Markup.attribute?, if_pos (by rw [noPrefix]; rfl)] at found
  cases found
  rfl

mutual

/-- Elements without declarations and prefixes are read without namespaces. -/
theorem reread?_namespaceUri
    {scope : Scope}
    {element again : Element}
    (bare : element.IsBareThroughout)
    (read : element.reread? scope = some again) :
    ∀ inner ∈ again.subtree, ∀ attr ∈ inner.attributes, attr.namespaceUri = "" := by
  rcases element with ⟨name, attributes, children, namespaces, text, line⟩
  obtain ⟨own, inside⟩ := forall_mem_subtree_iff.mp bare
  rw [reread?] at read
  obtain ⟨⟨start, within⟩, started, read⟩ := Option.bind_eq_some_iff.mp read
  obtain ⟨found, readChildren, read⟩ := Option.bind_eq_some_iff.mp read
  cases read
  have ownUris := startElement?_readTag_namespaceUri own started
  exact forall_mem_subtree_iff.mpr ⟨ownUris, rereadAll?_namespaceUri inside readChildren⟩

theorem rereadAll?_namespaceUri
    {scope : Scope}
    {elements found : List Element}
    (bare : ∀ element ∈ elements, element.IsBareThroughout)
    (read : rereadAll? scope elements = some found) :
    ∀ again ∈ found, ∀ inner ∈ again.subtree, ∀ attr ∈ inner.attributes,
      attr.namespaceUri = "" := by
  cases elements with
  | nil =>
      cases read
      exact List.forall_mem_nil _
  | cons element rest =>
      rw [rereadAll?] at read
      obtain ⟨first, readFirst, read⟩ := Option.bind_eq_some_iff.mp read
      obtain ⟨others, readRest, read⟩ := Option.bind_eq_some_iff.mp read
      cases read
      obtain ⟨firstBare, restBare⟩ := List.forall_mem_cons.mp bare
      exact List.forall_mem_cons.mpr
        ⟨reread?_namespaceUri firstBare readFirst, rereadAll?_namespaceUri restBare readRest⟩

end

/-- The namespaces of a scope do not close a brace. -/
def IsUnbraced (scope : Scope) : Prop :=
  ∀ entry ∈ scope, '}' ∉ entry.2.toList

theorem isUnbraced_outerScope : IsUnbraced outerScope := by
  rw [IsUnbraced]
  decide

/-- What is declared in a start tag closes no brace either. -/
theorem isUnbraced_of_startElement?
    {doctype : Doctype}
    {scope inner : Scope}
    {tag : StartTag}
    {start : Element}
    (unbraced : IsUnbraced scope)
    (started : startElement? doctype scope tag = some (start, inner)) :
    IsUnbraced inner := by
  simp only [startElement?, Option.bind_eq_bind] at started
  obtain ⟨values, _, started⟩ := Option.bind_eq_some_iff.mp started
  split at started
  · cases started
  rename_i bindable
  obtain ⟨attributes, _, started⟩ := Option.bind_eq_some_iff.mp started
  split at started
  · cases started
  split at started
  · cases started
  cases started
  refine List.forall_mem_append.mpr ⟨?_, unbraced⟩
  intro entry member
  have binds := List.all_eq_true.mp (by simpa using bindable) entry (List.mem_reverse.mp member)
  simp only [canBind, Bool.and_eq_true, Bool.not_eq_true', List.contains_eq_mem,
    decide_eq_false_iff_not] at binds
  exact binds.2

/-- A name that XML allows has no braces. -/
theorem not_mem_of_isPlainName
    {name : String}
    (isName : IsPlainName name) :
    '{' ∉ name.toList ∧ '}' ∉ name.toList :=
  ⟨fun member => absurd (isName.2 _ member) (by decide),
    fun member => absurd (isName.2 _ member) (by decide)⟩

/-- What a start tag is read as is plain, apart from its text. -/
theorem startElement?_readTag_attributes
    {scope inner : Scope}
    {element start : Element}
    (spelled : element.IsSpelled)
    (unbraced : IsUnbraced inner)
    (started : startElement? {} scope element.readTag = some (start, inner)) :
    ∀ attr ∈ start.attributes,
      attr.nsPrefix = "" ∧ '{' ∉ attr.name.toList ∧ '}' ∉ attr.namespaceUri.toList := by
  obtain ⟨values, attributes, known, read, rfl⟩ := exists_of_startElement? started
  refine forall_mem_of_mapM read ?_
  intro entry member attr found
  obtain ⟨assignment, inAssignments, same⟩ :=
    exists_assignment_of_attributeValues? known entry (List.mem_filter.mp member).1
  have legal := (spelled.assignment assignment inAssignments).1
  rw [same] at legal
  have noBrace := (not_mem_of_isPlainName legal.localName).1
  rw [Markup.attribute?] at found
  split at found
  · cases found
    exact ⟨rfl, noBrace, List.not_mem_nil⟩
  · obtain ⟨uri, inScope, rfl⟩ := Option.map_eq_some_iff.mp found
    obtain ⟨declares, _⟩ := Option.filter_eq_some_iff.mp inScope
    exact ⟨rfl, noBrace, unbraced _ (Table.mem_of_get? declares)⟩

mutual

/-- What a printed element is read as is plain. -/
theorem reread?_isPlain
    {scope : Scope}
    (unbraced : IsUnbraced scope)
    {element again : Element}
    (spelled : ∀ inner ∈ element.subtree, inner.IsSpelled)
    (read : element.reread? scope = some again) :
    ∀ inner ∈ again.subtree, inner.IsPlain := by
  rcases element with ⟨name, attributes, children, namespaces, text, line⟩
  obtain ⟨own, inside⟩ := forall_mem_subtree_iff.mp spelled
  rw [reread?] at read
  obtain ⟨⟨start, within⟩, started, read⟩ := Option.bind_eq_some_iff.mp read
  obtain ⟨found, readChildren, read⟩ := Option.bind_eq_some_iff.mp read
  cases read
  have unbracedWithin := isUnbraced_of_startElement? unbraced started
  have attributesPlain := startElement?_readTag_attributes own unbracedWithin started
  obtain ⟨_, _, _, _, rfl⟩ := exists_of_startElement? started
  refine forall_mem_subtree_iff.mpr
    ⟨⟨(not_mem_of_isPlainName own.name).2, rfl, ?_, rfl, attributesPlain⟩, ?_⟩
  · rw [String.toList_ofList, Text.strip_strip]
  · exact rereadAll?_isPlain unbracedWithin inside readChildren

theorem rereadAll?_isPlain
    {scope : Scope}
    (unbraced : IsUnbraced scope)
    {elements found : List Element}
    (spelled : ∀ element ∈ elements, ∀ inner ∈ element.subtree, inner.IsSpelled)
    (read : rereadAll? scope elements = some found) :
    ∀ again ∈ found, ∀ inner ∈ again.subtree, inner.IsPlain := by
  cases elements with
  | nil =>
      cases read
      exact List.forall_mem_nil _
  | cons element rest =>
      rw [rereadAll?] at read
      obtain ⟨first, readFirst, read⟩ := Option.bind_eq_some_iff.mp read
      obtain ⟨others, readRest, read⟩ := Option.bind_eq_some_iff.mp read
      cases read
      obtain ⟨firstSpelled, restSpelled⟩ := List.forall_mem_cons.mp spelled
      exact List.forall_mem_cons.mpr
        ⟨reread?_isPlain unbraced firstSpelled readFirst,
          rereadAll?_isPlain unbraced restSpelled readRest⟩

end

end Rereading

end Element

end ApkAtlas.Xml
