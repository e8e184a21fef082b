import ApkAtlas.Proofs.Except
import ApkAtlas.Proofs.Text.Segment
import ApkAtlas.Proofs.Text.Trim
import ApkAtlas.Proofs.Xml.Markup.Written

namespace ApkAtlas.Xml

/-!
# Parsers that follow XML

A parser gives a tree in which an element is shown: its name, perhaps behind its namespace, its
attributes in their namespaces, its text with blanks around it, and its children. A parser
follows XML if it gives such a tree for each document that is well-formed, and refuses the
others. What is made of the tree is the element that is shown.
-/

namespace Markup

/-- A tag is a name, perhaps behind a namespace in braces. -/
def IsTagOf (tag name : String) : Prop :=
  tag = name ∨ ∃ uri, tag = "\x7b" ++ uri ++ "\x7d" ++ name

namespace Tree

mutual

/-- The tree shows an element with everything inside it. -/
def Shows (tree : Tree) (element : Element) : Prop :=
  match tree with
  | ⟨tag, text, attributes, children⟩ =>
      IsTagOf tag element.name ∧
        Text.strip (text.getD "").toList = Text.strip element.text.toList ∧
        attributes = element.attributes.map (fun attr => (keyOf attr, attr.value)) ∧
        ShowAll children element.children

/-- The trees show the elements, each its own. -/
def ShowAll : List Tree → List Element → Prop
  | [], [] => True
  | tree :: rest, element :: others => Shows tree element ∧ ShowAll rest others
  | _, _ => False

end

end Tree

/-- The document with the usual declaration in front of a text. -/
def document (text : List Char) : Bytes :=
  Text.Utf8.encode (String.ofList (declaration.toList ++ '\n' :: text))

/-- The text opens with the start tag of an element. -/
def OpensTag (text : List Char) : Prop :=
  ∃ c rest, text = '<' :: c :: rest ∧ isNameStart c

/-- The parser gives the root element of a document that is well-formed, and says of any other
document that it is not. -/
structure FollowsXml (parse : Parser) : Prop where
  accepts :
    ∀ text, OpensTag text → ∀ root, ofText? false ('\n' :: text) = some root →
      ∃ tree, parse (document text) = .ok tree ∧ tree.Shows root
  refuses :
    ∀ text, OpensTag text → ofText? false ('\n' :: text) = none →
      ∃ message, parse (document text) = .error (.malformed message)

end Markup

open Markup

/-- An element as a tree can show it. Braces in names and namespaces would be taken for those
around a namespace. -/
structure Element.IsPlain (element : Element) : Prop where
  name : '}' ∉ element.name.toList
  namespaces : element.namespaces = []
  text : Text.strip element.text.toList = element.text.toList
  line : element.line = 0
  attributes : ∀ attr ∈ element.attributes,
    attr.nsPrefix = "" ∧ '{' ∉ attr.name.toList ∧ '}' ∉ attr.namespaceUri.toList

namespace Markup

/-- The key of an attribute tells its namespace and its name. -/
theorem attributeOfKey_keyOf
    {attr : Attribute}
    (noPrefix : attr.nsPrefix = "")
    (noBrace : '{' ∉ attr.name.toList)
    (closes : '}' ∉ attr.namespaceUri.toList) :
    attributeOfKey (keyOf attr) attr.value = .ok attr := by
  rcases attr with ⟨name, value, uri, nsPrefix⟩
  cases noPrefix
  by_cases noUri : uri = ""
  · subst noUri
    have key : keyOf ⟨name, value, "", ""⟩ = name :=
      if_pos rfl
    rw [key, attributeOfKey]
    split
    · rename_i rest opening
      exact absurd (opening ▸ List.mem_cons_self) noBrace
    · rfl
  · have key : (keyOf ⟨name, value, uri, ""⟩).toList =
        '{' :: (uri.toList ++ '}' :: name.toList) := by
      simp [keyOf, noUri]
    rw [attributeOfKey, key]
    simp [Text.cutFirst_append_cons closes]

/-- The attributes of an element are read of their keys. -/
theorem mapM_attributeOfKey
    {attributes : List Attribute}
    (plain : ∀ attr ∈ attributes,
      attr.nsPrefix = "" ∧ '{' ∉ attr.name.toList ∧ '}' ∉ attr.namespaceUri.toList) :
    (attributes.map fun attr => (keyOf attr, attr.value)).mapM
        (fun (key, value) => attributeOfKey key value) = .ok attributes := by
  induction attributes with
  | nil =>
      rfl
  | cons attr rest inductionHypothesis =>
      obtain ⟨⟨noPrefix, noBrace, closes⟩, others⟩ := List.forall_mem_cons.mp plain
      rw [List.map_cons, List.mapM_cons, inductionHypothesis others]
      simp only [attributeOfKey_keyOf noPrefix noBrace closes]
      rfl

/-- A tag tells the name behind the namespace. -/
theorem IsTagOf.afterLast
    {tag name : String}
    (isTag : IsTagOf tag name)
    (noBrace : '}' ∉ name.toList) :
    Text.afterLast '}' tag.toList = name.toList := by
  rcases isTag with rfl | ⟨uri, rfl⟩
  · exact Text.afterLast_of_not_mem noBrace
  · have split :
        ("\x7b" ++ uri ++ "\x7d" ++ name).toList = ('{' :: uri.toList) ++ '}' :: name.toList := by
      simp
    rw [split, Text.afterLast_append_cons noBrace]

namespace Tree

mutual

/-- What is made of a tree is the element that it shows. -/
theorem element_of_shows
    {tree : Tree}
    {element : Element}
    (shows : tree.Shows element)
    (plain : ∀ inner ∈ element.subtree, inner.IsPlain) :
    tree.element = .ok element := by
  rcases tree with ⟨tag, text, keys, trees⟩
  rcases element with ⟨name, attributes, children, namespaces, elementText, line⟩
  rw [Shows] at shows
  obtain ⟨isTag, sameText, rfl, showAll⟩ := shows
  rw [Element.subtree] at plain
  obtain ⟨own, inside⟩ := List.forall_mem_cons.mp plain
  obtain ⟨noBrace, rfl, stripped, rfl, attributesPlain⟩ := own
  rw [element, mapM_attributeOfKey attributesPlain, elements_of_showAll showAll inside,
    isTag.afterLast noBrace, sameText, stripped]
  simp only [String.ofList_toList]
  rfl

/-- What is made of trees are the elements that they show. -/
theorem elements_of_showAll
    {trees : List Tree}
    {elements : List Element}
    (shows : ShowAll trees elements)
    (plain : ∀ inner ∈ Element.subtrees elements, inner.IsPlain) :
    Tree.elements trees = .ok elements := by
  cases trees with
  | nil =>
      cases elements with
      | nil =>
          rfl
      | cons _ _ =>
          exact shows.elim
  | cons tree rest =>
      cases elements with
      | nil =>
          exact shows.elim
      | cons element others =>
          rw [ShowAll] at shows
          rw [Element.subtrees] at plain
          obtain ⟨inFirst, inRest⟩ := List.forall_mem_append.mp plain
          rw [Tree.elements, element_of_shows shows.1 inFirst, elements_of_showAll shows.2 inRest]
          rfl

end

mutual

/-- The tree that is made of an element shows it. -/
theorem shows_ofElement (element : Element) : (ofElement element).Shows element := by
  rcases element with ⟨name, attributes, children, namespaces, text, line⟩
  rw [ofElement, Shows]
  exact ⟨.inl rfl, rfl, rfl, showAll_ofElements children⟩

theorem showAll_ofElements (elements : List Element) :
    ShowAll (ofElements elements) elements := by
  cases elements with
  | nil =>
      trivial
  | cons element rest =>
      rw [ofElements, ShowAll]
      exact ⟨shows_ofElement element, showAll_ofElements rest⟩

end

end Tree

/-- The parser described here follows XML, whatever encodings it knows. -/
theorem reader_followsXml
    (charsets : Charsets)
    (complaint : Bytes → String) :
    FollowsXml (reader charsets complaint) where
  accepts text _ root isRoot := by
    refine ⟨Tree.ofElement root, ?_, Tree.shows_ofElement root⟩
    rw [reader, document, decode_declaration, isRoot]
    rfl
  refuses text _ notWellFormed := by
    refine ⟨complaint (document text), ?_⟩
    rw [reader, document, decode_declaration, notWellFormed]
    rfl

end Markup

end ApkAtlas.Xml
