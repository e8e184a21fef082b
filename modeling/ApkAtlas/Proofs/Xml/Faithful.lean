import ApkAtlas.Proofs.Xml.Reread

namespace ApkAtlas.Xml

/-!
# Elements that are read as what they are

The declarations of an element say which namespaces the prefixes of its attributes stand for.
If they say the same as the attributes themselves, and if values hold no tabs and line breaks,
then the printed element is read with the same names, attributes and children.
-/

open Markup

namespace Element

/-- An attribute whose written name stands for the namespace that it is in. -/
def IsResolved (scope : Scope) (attr : Attribute) : Prop :=
  (attr.nsPrefix = "" ∧ attr.namespaceUri = "" ∧ attr.name ≠ "xmlns") ∨
    (attr.nsPrefix ≠ "" ∧ attr.nsPrefix ≠ "xmlns" ∧
      namespaceOf? scope attr.nsPrefix = some attr.namespaceUri)

instance (scope : Scope) (attr : Attribute) : Decidable (IsResolved scope attr) :=
  inferInstanceAs (Decidable (_ ∧ _ ∧ _ ≠ _ ∨ _ ≠ _ ∧ _ ≠ _ ∧ _ = _))

/-- A value without tabs and line breaks. -/
def IsOneLine (value : String) : Prop :=
  ∀ c ∈ value.toList, isSpace c → c = ' '

instance (value : String) : Decidable (IsOneLine value) :=
  inferInstanceAs (Decidable (∀ c ∈ value.toList, _))

/-- An element in a scope whose start tag is read as what it is. -/
structure IsFaithfulIn (scope : Scope) (element : Element) : Prop where
  prefixes : (element.namespaces.map Prod.fst).Nodup
  bindable : ∀ entry ∈ element.namespaces, canBind entry.1 entry.2 ∧ IsOneLine entry.2
  resolved : ∀ attr ∈ element.attributes,
    IsResolved (element.namespaces.reverse ++ scope) attr ∧ IsOneLine attr.value
  distinct : (element.attributes.map fun attr => (attr.namespaceUri, attr.name)).Nodup

instance (scope : Scope) (element : Element) : Decidable (element.IsFaithfulIn scope) :=
  decidable_of_iff (_ ∧ _ ∧ _ ∧ _)
    ⟨fun ⟨prefixes, bindable, resolved, distinct⟩ => ⟨prefixes, bindable, resolved, distinct⟩,
      fun ⟨prefixes, bindable, resolved, distinct⟩ => ⟨prefixes, bindable, resolved, distinct⟩⟩

mutual

/-- An element in a scope that is read as what it is, with everything inside it. -/
def IsFaithful (scope : Scope) (element : Element) : Prop :=
  match element with
  | ⟨name, attributes, children, namespaces, text, line⟩ =>
      IsFaithfulIn scope ⟨name, attributes, children, namespaces, text, line⟩ ∧
        AreFaithful (namespaces.reverse ++ scope) children

def AreFaithful (scope : Scope) : List Element → Prop
  | [] => True
  | element :: rest => IsFaithful scope element ∧ AreFaithful scope rest

end

mutual

instance decidableIsFaithful (scope : Scope) (element : Element) :
    Decidable (element.IsFaithful scope) :=
  match element with
  | ⟨name, attributes, children, namespaces, text, line⟩ =>
      have := decidableAreFaithful (namespaces.reverse ++ scope) children
      decidable_of_iff
        (IsFaithfulIn scope ⟨name, attributes, children, namespaces, text, line⟩ ∧
          AreFaithful (namespaces.reverse ++ scope) children)
        (by rw [IsFaithful])

instance decidableAreFaithful (scope : Scope) :
    (elements : List Element) → Decidable (AreFaithful scope elements)
  | [] => isTrue (by rw [AreFaithful]; trivial)
  | element :: rest =>
      have := decidableIsFaithful scope element
      have := decidableAreFaithful scope rest
      decidable_of_iff (IsFaithful scope element ∧ AreFaithful scope rest) (by rw [AreFaithful])

end

mutual

/-- What an element says: its name, its attributes in their namespaces and its children. -/
def skeleton (element : Element) : Element :=
  match element with
  | ⟨name, attributes, children, _, _, _⟩ =>
      { name
        attributes := attributes.map fun attr => { attr with nsPrefix := "" }
        children := skeletons children }

def skeletons : List Element → List Element
  | [] => []
  | element :: rest => skeleton element :: skeletons rest

end

section Skeletons

variable (element : Element) (name namespaceUri : String)

/-- The skeletons of a list are those of its elements. -/
theorem skeletons_eq_map (elements : List Element) :
    skeletons elements = elements.map skeleton := by
  induction elements with
  | nil =>
      rfl
  | cons element rest inductionHypothesis =>
      rw [skeletons, inductionHypothesis, List.map_cons]

@[simp]
theorem skeleton_name : element.skeleton.name = element.name := by
  rcases element with ⟨name, attributes, children, namespaces, text, line⟩
  rw [skeleton]

/-- A skeleton keeps the attributes but for their prefixes. -/
theorem skeleton_attributes :
    element.skeleton.attributes =
      element.attributes.map fun attr => { attr with nsPrefix := "" } := by
  rcases element with ⟨name, attributes, children, namespaces, text, line⟩
  rw [skeleton]

/-- The children of a skeleton are the skeletons of the children. -/
theorem skeleton_children : element.skeleton.children = element.children.map skeleton := by
  rcases element with ⟨name, attributes, children, namespaces, text, line⟩
  rw [skeleton, skeletons_eq_map]

/-- A skeleton has the attributes of each name. -/
@[simp]
theorem anyAttribute?_skeleton :
    element.skeleton.anyAttribute? name = element.anyAttribute? name := by
  rw [anyAttribute?, skeleton_attributes, List.find?_map, Option.map_map]
  rfl

/-- A skeleton has the attributes of each name and namespace. -/
@[simp]
theorem attributeIn?_skeleton :
    element.skeleton.attributeIn? name namespaceUri = element.attributeIn? name namespaceUri := by
  rw [attributeIn?, skeleton_attributes, List.find?_map, Option.map_map]
  rfl

/-- A skeleton has the platform attributes of each name. -/
@[simp]
theorem attribute?_skeleton : element.skeleton.attribute? name = element.attribute? name :=
  attributeIn?_skeleton element name androidNamespace

@[simp]
theorem childrenNamed_skeleton :
    element.skeleton.childrenNamed name = (element.childrenNamed name).map skeleton := by
  rw [childrenNamed, skeleton_children, List.filter_map, childrenNamed]
  congr 1
  exact List.filter_congr fun child _ => by rw [Function.comp_apply, skeleton_name]

end Skeletons

section Values

/-- What a written value is read as. -/
def readValue (value : List Char) : String :=
  String.ofList ((normalizeBreaks value).map fun c => if isSpace c then ' ' else c)

/-- Space in a value is read as a blank, anything else as itself. -/
theorem value_pieceOf (c : Char) : (pieceOf c).value = if isSpace c then ' ' else c := by
  rw [pieceOf]
  split
  · rename_i found
    obtain ⟨name, found⟩ := Option.isSome_iff_exists.mp found
    rw [entityFor?] at found
    split_ifs at found with amp lt gt quote <;> simp_all [Piece.value] <;> decide
  · rfl

/-- The characters of a value are read with their line breaks normalised. -/
theorem attributeValue?_pieceOf (value : List Char) :
    attributeValue? {} true ((normalizeBreaks value).map pieceOf) = some (readValue value) := by
  have plain : ∀ piece ∈ (normalizeBreaks value).map pieceOf, ∀ name, piece ≠ .entity name := by
    intro piece member name
    obtain ⟨c, _, rfl⟩ := List.mem_map.mp member
    rw [pieceOf]
    split <;> rintro ⟨⟩
  have expanded :
      Doctype.expandPieces {} (Doctype.depth {}) [] ((normalizeBreaks value).map pieceOf) =
        some ((normalizeBreaks value).map pieceOf) :=
    expandPieces_of_plain {} 0 [] plain
  rw [attributeValue?, expanded]
  simp only [Option.bind_eq_bind, Option.bind_some, List.map_map, if_true, readValue]
  congr 2
  exact List.map_congr_left fun c _ => value_pieceOf c

/-- The values of a printed tag are read, if no name occurs twice. -/
theorem attributeValues?_readTag
    {element : Element}
    (distinct : (element.assignments.map Assignment.name).Nodup) :
    attributeValues? {} element.readTag =
      some (element.assignments.map fun assignment =>
        (assignment.name, readValue assignment.value)) := by
  have names : element.readTag.attributes.map Prod.fst =
      element.assignments.map Assignment.name := by
    rw [readTag, List.map_map]
    rfl
  have noRule (name : Name) : (Doctype.rule? {} element.readTag.name.raw name) = none :=
    rfl
  have specified :
      (element.readTag.attributes.mapM fun entry =>
        (attributeValue? {} true entry.2).bind fun value => pure (entry.1, value)) =
        some (element.assignments.map fun assignment =>
          (assignment.name, readValue assignment.value)) := by
    rw [readTag, List.mapM_map]
    apply mapM_eq_some_map
    intro assignment _
    simp only [Function.comp_apply, attributeValue?_pieceOf]
    rfl
  rw [attributeValues?]
  simp only [names, distinct, decide_true, Bool.not_true, Bool.false_eq_true, if_false, noRule,
    Option.map_none, Option.getD_none, Option.bind_eq_bind, specified, Option.bind_some,
    List.filterMap_nil, List.append_nil]
  rfl

/-- A value on one line is read as it is. -/
theorem readValue_of_isOneLine {value : String} (oneLine : IsOneLine value) :
    readValue value.toList = value := by
  have noReturn : '\r' ∉ value.toList := by
    intro member
    exact absurd (oneLine '\r' member (by decide)) (by decide)
  have broken := normalizeBreaks_append_of_not_mem noReturn []
  rw [List.append_nil, normalizeBreaks, List.append_nil] at broken
  have same : ∀ c ∈ value.toList, (if isSpace c then ' ' else c) = c := by
    intro c member
    split
    · rename_i space
      exact (oneLine c member space).symm
    · rfl
  rw [readValue, broken, List.map_congr_left same, List.map_id', String.ofList_toList]

end Values

section Scopes

variable {scope : Scope} {element : Element}

/-- An attribute that resolves is not a declaration. -/
theorem IsResolved.declaredPrefix?_eq_none
    {attr : Attribute}
    (resolved : IsResolved scope attr) :
    declaredPrefix? ⟨attr.nsPrefix, attr.name⟩ = none := by
  rcases resolved with ⟨noPrefix, _, named⟩ | ⟨some, named, _⟩
  · simp [declaredPrefix?, noPrefix, named]
  · simp [declaredPrefix?, some, named]

/-- An attribute that resolves is read in its own namespace. -/
theorem IsResolved.attribute?_eq_some
    {attr : Attribute}
    (resolved : IsResolved scope attr) :
    Markup.attribute? scope ⟨attr.nsPrefix, attr.name⟩ attr.value =
      some { attr with nsPrefix := "" } := by
  rcases resolved with ⟨noPrefix, noNamespace, _⟩ | ⟨some, _, found⟩
  · simp [Markup.attribute?, noPrefix, noNamespace]
  · simp [Markup.attribute?, some, found]

/-- The prefix of a resolved attribute tells its namespace. -/
theorem IsResolved.namespaceUri_eq
    {attr : Attribute}
    (resolved : IsResolved scope attr) :
    attr.namespaceUri =
      if attr.nsPrefix = "" then "" else (namespaceOf? scope attr.nsPrefix).getD "" := by
  rcases resolved with ⟨noPrefix, noNamespace, _⟩ | ⟨some, _, found⟩
  · rw [if_pos noPrefix, noNamespace]
  · rw [if_neg some, found]
    rfl

theorem IsResolved.nsPrefix_ne
    {attr : Attribute}
    (resolved : IsResolved scope attr) :
    attr.nsPrefix ≠ "xmlns" := by
  rcases resolved with ⟨noPrefix, _, _⟩ | ⟨_, named, _⟩
  · rw [noPrefix]
    decide
  · exact named

theorem IsFaithfulIn.nodup_names (faithful : element.IsFaithfulIn scope) :
    (element.assignments.map Assignment.name).Nodup := by
  rw [assignments, List.map_append, List.map_map, List.map_map, List.nodup_append]
  refine ⟨?_, ?_, ?_⟩
  · have declared := faithful.prefixes.map (f := Name.mk "xmlns") fun _ _ same =>
      (Name.mk.inj same).2
    rwa [List.map_map] at declared
  · apply List.Nodup.of_map fun name : Name =>
      (if name.nsPrefix = "" then ""
        else (namespaceOf? (element.namespaces.reverse ++ scope) name.nsPrefix).getD "",
        name.localName)
    rw [List.map_map]
    have same :
        ∀ attr ∈ element.attributes,
          (attr.namespaceUri, attr.name) =
            (if attr.nsPrefix = "" then ""
              else (namespaceOf? (element.namespaces.reverse ++ scope) attr.nsPrefix).getD "",
              attr.name) :=
      fun attr member => congrArg (·, attr.name) (faithful.resolved attr member).1.namespaceUri_eq
    exact (List.map_congr_left same) ▸ faithful.distinct
  · intro declared inNamespaces given inAttributes same
    obtain ⟨entry, _, rfl⟩ := List.mem_map.mp inNamespaces
    obtain ⟨attr, member, rfl⟩ := List.mem_map.mp inAttributes
    exact (faithful.resolved attr member).1.nsPrefix_ne (Name.mk.inj same).1.symm

/-- The values in a start tag that is read as it was meant. -/
def values (element : Element) : List (Name × String) :=
  (element.namespaces.map fun entry => (⟨"xmlns", entry.1⟩, entry.2)) ++
    element.attributes.map fun attr => (⟨attr.nsPrefix, attr.name⟩, attr.value)

/-- The values of a faithful tag are read as they are. -/
theorem IsFaithfulIn.map_readValue (faithful : element.IsFaithfulIn scope) :
    (element.assignments.map fun assignment => (assignment.name, readValue assignment.value)) =
      element.values := by
  rw [assignments, values, List.map_append, List.map_map, List.map_map]
  congr 1
  · apply List.map_congr_left
    intro entry member
    exact congrArg (Prod.mk _) (readValue_of_isOneLine (faithful.bindable entry member).2)
  · apply List.map_congr_left
    intro attr member
    exact congrArg (Prod.mk _) (readValue_of_isOneLine (faithful.resolved attr member).2)

/-- The values that declare something are those of the namespaces. -/
theorem IsFaithfulIn.declared_values (faithful : element.IsFaithfulIn scope) :
    (element.values.filterMap fun entry =>
      (declaredPrefix? entry.1).map fun nsPrefix => (nsPrefix, entry.2)) =
      element.namespaces := by
  have fromNamespaces :
      ((element.namespaces.map fun entry => ((⟨"xmlns", entry.1⟩ : Name), entry.2)).filterMap
        fun entry => (declaredPrefix? entry.1).map fun nsPrefix => (nsPrefix, entry.2)) =
        element.namespaces := by
    rw [List.filterMap_map]
    exact List.filterMap_some
  have fromAttributes :
      ((element.attributes.map fun attr =>
          ((⟨attr.nsPrefix, attr.name⟩ : Name), attr.value)).filterMap
        fun entry => (declaredPrefix? entry.1).map fun nsPrefix => (nsPrefix, entry.2)) = [] := by
    rw [List.filterMap_map, List.filterMap_eq_nil_iff]
    intro attr member
    simp only [Function.comp_apply, (faithful.resolved attr member).1.declaredPrefix?_eq_none,
      Option.map_none]
  rw [values, List.filterMap_append, fromNamespaces, fromAttributes, List.append_nil]

/-- The values that declare nothing are those of the attributes. -/
theorem IsFaithfulIn.given_values (faithful : element.IsFaithfulIn scope) :
    (element.values.filter fun entry => (declaredPrefix? entry.1).isNone) =
      element.attributes.map fun attr => (⟨attr.nsPrefix, attr.name⟩, attr.value) := by
  have fromNamespaces :
      ((element.namespaces.map fun entry => ((⟨"xmlns", entry.1⟩ : Name), entry.2)).filter
        fun entry => (declaredPrefix? entry.1).isNone) = [] := by
    rw [List.filter_eq_nil_iff, List.forall_mem_map]
    intro entry _
    exact Bool.false_ne_true
  have fromAttributes :
      ∀ entry ∈ element.attributes.map fun attr =>
          ((⟨attr.nsPrefix, attr.name⟩ : Name), attr.value),
        (declaredPrefix? entry.1).isNone := by
    rw [List.forall_mem_map]
    intro attr member
    rw [(faithful.resolved attr member).1.declaredPrefix?_eq_none]
    rfl
  rw [values, List.filter_append, fromNamespaces, List.filter_eq_self.mpr fromAttributes,
    List.nil_append]

/-- A faithful tag is read as an element with the same attributes. -/
theorem IsFaithfulIn.startElement?_eq_some (faithful : element.IsFaithfulIn scope) :
    startElement? {} scope element.readTag =
      some
        ({ name := element.name
           attributes := element.attributes.map fun attr => { attr with nsPrefix := "" } },
          element.namespaces.reverse ++ scope) := by
  have bindable : (element.namespaces.all fun entry => canBind entry.1 entry.2) = true :=
    List.all_eq_true.mpr fun entry member => (faithful.bindable entry member).1
  have read :
      (element.attributes.map fun attr => ((⟨attr.nsPrefix, attr.name⟩ : Name), attr.value)).mapM
          (fun entry =>
            Markup.attribute? (element.namespaces.reverse ++ scope) entry.1 entry.2) =
        some (element.attributes.map fun attr => { attr with nsPrefix := "" }) := by
    rw [List.mapM_map]
    exact mapM_eq_some_map _ fun attr member =>
      (faithful.resolved attr member).1.attribute?_eq_some
  have distinct : ((element.attributes.map fun attr => { attr with nsPrefix := "" }).map
      fun attr => (attr.namespaceUri, attr.name)).Nodup := by
    rw [List.map_map]
    exact faithful.distinct
  rw [startElement?, attributeValues?_readTag faithful.nodup_names, faithful.map_readValue]
  simp only [Option.bind_eq_bind, Option.bind_some, faithful.declared_values, bindable,
    faithful.given_values, read, distinct, decide_true, Bool.not_true, Bool.false_eq_true, if_false]
  rfl

end Scopes

mutual

/-- A faithful element is read with the same names, attributes and children. -/
theorem IsFaithful.exists_reread
    {scope : Scope}
    {element : Element}
    (faithful : element.IsFaithful scope) :
    ∃ again, element.reread? scope = some again ∧ again.skeleton = element.skeleton := by
  rcases element with ⟨name, attributes, children, namespaces, text, line⟩
  rw [IsFaithful] at faithful
  obtain ⟨children', read, same⟩ := AreFaithful.exists_reread faithful.2
  rw [reread?, faithful.1.startElement?_eq_some]
  simp only [Option.bind_eq_bind, Option.bind_some, read]
  refine ⟨_, rfl, ?_⟩
  simp [skeleton, same]

/-- Faithful children are read again with the same skeletons. -/
theorem AreFaithful.exists_reread
    {scope : Scope}
    {elements : List Element}
    (faithful : AreFaithful scope elements) :
    ∃ again, rereadAll? scope elements = some again ∧ skeletons again = skeletons elements := by
  cases elements with
  | nil =>
      exact ⟨[], rfl, rfl⟩
  | cons element rest =>
      rw [AreFaithful] at faithful
      obtain ⟨first, readFirst, sameFirst⟩ := IsFaithful.exists_reread faithful.1
      obtain ⟨others, readRest, sameRest⟩ := AreFaithful.exists_reread faithful.2
      refine ⟨first :: others, ?_, ?_⟩
      · rw [rereadAll?, readFirst, readRest]
        rfl
      · rw [skeletons, skeletons, sameFirst, sameRest]

end

end Element

end ApkAtlas.Xml
