import ApkAtlas.Proofs.Xml.Nesting

namespace ApkAtlas.Xml

/-!
# Namespaces in scope

A namespace goes by what the last mark about it says. Where declarations are nested, that is
the prefix of its innermost open declaration, as long as no inner declaration of the same
namespace has ended: from there on the namespace goes by no prefix, until it is declared anew.
-/

open Chunk
open ApkAtlas.Delimiter (IsInnermost IsOpen exists_closing)

namespace NamespaceMark

def delimiter : NamespaceMark → Delimiter
  | .start _ _ => .opening
  | .finish _ => .closing

def delimiters (marks : List NamespaceMark) : List Delimiter :=
  marks.map delimiter

/-- The namespace that a declaration is for. -/
def declared? : NamespaceMark → Option String
  | .start _ uri => some uri
  | .finish _ => none

/-- The namespace whose declaration ends. -/
def ended? : NamespaceMark → Option String
  | .start _ _ => none
  | .finish uri => some uri

/-- A declaration that ends is the innermost open one then. -/
def Nested (marks : List NamespaceMark) : Prop :=
  ∀ stop < marks.length, ∀ uri ∈ marks[stop]?.bind ended?,
    ∃ position < stop,
      IsInnermost (delimiters (marks.take stop)) position ∧
        marks[position]?.bind declared? = some uri

instance (marks : List NamespaceMark) : Decidable (Nested marks) :=
  inferInstanceAs (Decidable (∀ stop < marks.length, ∀ uri ∈ marks[stop]?.bind ended?,
    ∃ position < stop,
      IsInnermost (delimiters (marks.take stop)) position ∧
        marks[position]?.bind declared? = some uri))

/-- Of the declarations of a namespace that are open at the end, the one at the position is
the innermost, and it declares the prefix. -/
structure InScope
    (marks : List NamespaceMark)
    (uri nsPrefix : String)
    (position : Nat) : Prop where
  declares : marks[position]? = some (.start nsPrefix uri)
  isOpen : IsOpen (delimiters marks) position
  innermost : ∀ other < marks.length, marks[other]?.bind declared? = some uri →
    IsOpen (delimiters marks) other → other ≤ position

instance (marks : List NamespaceMark) (uri nsPrefix : String) (position : Nat) :
    Decidable (InScope marks uri nsPrefix position) :=
  decidable_of_iff
    (marks[position]? = some (.start nsPrefix uri) ∧ IsOpen (delimiters marks) position ∧
      ∀ other < marks.length, marks[other]?.bind declared? = some uri →
        IsOpen (delimiters marks) other → other ≤ position)
    ⟨fun ⟨declares, isOpen, innermost⟩ => ⟨declares, isOpen, innermost⟩,
      fun ⟨declares, isOpen, innermost⟩ => ⟨declares, isOpen, innermost⟩⟩

variable
  {marks : List NamespaceMark}
  {uri nsPrefix : String}
  {position : Nat}

theorem declared?_eq_some_iff :
    marks[position]?.bind declared? = some uri ↔
      ∃ nsPrefix, marks[position]? = some (.start nsPrefix uri) := by
  constructor
  · intro declares
    obtain ⟨mark, found, isDeclared⟩ := Option.bind_eq_some_iff.mp declares
    cases mark with
    | start nsPrefix other =>
        cases isDeclared
        exact ⟨nsPrefix, found⟩
    | finish other =>
        cases isDeclared
  · rintro ⟨nsPrefix, found⟩
    rw [found]
    rfl

/-- No open declaration of a namespace is behind the one in scope. -/
theorem InScope.le_position
    {otherPrefix : String}
    {other : Nat}
    (inScope : InScope marks uri nsPrefix position)
    (declares : marks[other]? = some (.start otherPrefix uri))
    (isOpen : IsOpen (delimiters marks) other) :
    other ≤ position :=
  inScope.innermost other (List.getElem?_eq_some_iff.mp declares).1
    (declared?_eq_some_iff.mpr ⟨otherPrefix, declares⟩) isOpen

/-- The front of nested declarations is nested. -/
theorem Nested.of_append
    {rest : List NamespaceMark}
    (nested : Nested (marks ++ rest)) :
    Nested marks := by
  intro stop inside uri ended
  rw [← List.getElem?_append_left inside] at ended
  have longer : stop < (marks ++ rest).length := by
    rw [List.length_append]
    omega
  obtain ⟨position, before, innermost, declares⟩ := nested stop longer uri ended
  rw [List.take_append_of_le_length inside.le] at innermost
  rw [List.getElem?_append_left (before.trans inside)] at declares
  exact ⟨position, before, innermost, declares⟩

/-- Behind a nested declaration that is not open any more its namespace is marked as ended. -/
theorem Nested.exists_finish
    (nested : Nested marks)
    (declares : marks[position]? = some (.start nsPrefix uri))
    (closed : ¬ IsOpen (delimiters marks) position) :
    ∃ stop, position < stop ∧ marks[stop]? = some (.finish uri) := by
  have opens : (delimiters marks)[position]? = some .opening := by
    rw [delimiters, List.getElem?_map, declares]
    rfl
  obtain ⟨stop, behind, closes, innermost⟩ := exists_closing opens closed
  refine ⟨stop, behind, ?_⟩
  rw [delimiters, List.getElem?_map] at closes
  obtain ⟨mark, found, isClosing⟩ := Option.map_eq_some_iff.mp closes
  cases mark with
  | start _ _ =>
      cases isClosing
  | finish other =>
      have inside := (List.getElem?_eq_some_iff.mp found).1
      obtain ⟨same, _, innermostDeclared, declared⟩ :=
        nested stop inside other (by rw [found]; rfl)
      rw [delimiters, ← List.map_take] at innermost
      -- What the mark ends is the innermost open declaration there, and that is this one.
      have isSame : same = position :=
        IsInnermost.unique innermostDeclared innermost
      rw [isSame, declares] at declared
      cases declared
      exact found

/-- What a namespace goes by is said by the last mark about it. -/
theorem currentPrefix?_eq_some_iff_append :
    currentPrefix? uri marks = some nsPrefix ↔
      ∃ front rest, marks = front ++ NamespaceMark.start nsPrefix uri :: rest ∧
        ∀ mark ∈ rest, mark.uri ≠ uri := by
  rw [currentPrefix?, List.getLast?_filter, Option.bind_eq_some_iff]
  constructor
  · rintro ⟨mark, found, current⟩
    obtain ⟨same, behind, before, split, others⟩ := List.find?_eq_some_iff_append.mp found
    cases mark with
    | finish _ =>
        cases current
    | start _ _ =>
        cases current
        rw [NamespaceMark.uri, decide_eq_true_iff] at same
        refine ⟨before.reverse, behind.reverse, ?_, ?_⟩
        · rw [List.reverse_eq_iff.mp split, same]
          simp
        · simpa using others
  · rintro ⟨front, rest, rfl, others⟩
    refine ⟨.start nsPrefix uri, ?_, rfl⟩
    refine List.find?_eq_some_iff_append.mpr ⟨?_, rest.reverse, front.reverse, ?_, ?_⟩
    · simp [NamespaceMark.uri]
    · simp
    · simpa using others

/-- The current prefix of a namespace is that of its last mark, if it is a declaration. -/
theorem currentPrefix?_eq_some_iff_last :
    currentPrefix? uri marks = some nsPrefix ↔
      ∃ position, marks[position]? = some (NamespaceMark.start nsPrefix uri) ∧
        ∀ (later : Nat) (mark : NamespaceMark),
          position < later → marks[later]? = some mark → mark.uri ≠ uri := by
  rw [currentPrefix?_eq_some_iff_append]
  constructor
  · rintro ⟨front, rest, rfl, others⟩
    refine ⟨front.length, by simp, ?_⟩
    intro later mark behind found
    obtain ⟨offset, rfl⟩ : ∃ offset, later = front.length + (offset + 1) :=
      ⟨later - front.length - 1, by omega⟩
    rw [List.getElem?_append_right (by omega), Nat.add_sub_cancel_left,
      List.getElem?_cons_succ] at found
    exact others mark (List.mem_of_getElem? found)
  · rintro ⟨position, declares, last⟩
    obtain ⟨inside, found⟩ := List.getElem?_eq_some_iff.mp declares
    refine ⟨marks.take position, marks.drop (position + 1), ?_, ?_⟩
    · rw [← found, ← List.drop_eq_getElem_cons inside, List.take_append_drop]
    · intro mark member
      obtain ⟨offset, isMark⟩ := List.getElem?_of_mem member
      rw [List.getElem?_drop] at isMark
      exact last _ mark (by omega) isMark

/-- Where declarations are nested, a namespace goes by the prefix of its innermost open
declaration if none of its declarations has ended behind that one. -/
theorem Nested.currentPrefix?_eq_some_iff (nested : Nested marks) :
    currentPrefix? uri marks = some nsPrefix ↔
      ∃ position, InScope marks uri nsPrefix position ∧
        ∀ stop > position, marks[stop]? ≠ some (.finish uri) := by
  rw [currentPrefix?_eq_some_iff_last]
  constructor
  · rintro ⟨position, declares, last⟩
    have isOpen : IsOpen (delimiters marks) position := by
      by_contra closed
      obtain ⟨stop, behind, ended⟩ := nested.exists_finish declares closed
      exact last stop _ behind ended rfl
    refine ⟨position, ⟨declares, isOpen, ?_⟩, ?_⟩
    · intro other _ otherDeclares _
      by_contra behind
      obtain ⟨_, found⟩ := declared?_eq_some_iff.mp otherDeclares
      exact last other _ (by omega) found rfl
    · intro stop behind ended
      exact last stop _ behind ended rfl
  · rintro ⟨position, inScope, notEnded⟩
    refine ⟨position, inScope.declares, ?_⟩
    intro later mark behind found same
    cases mark with
    | finish other =>
        cases same
        exact notEnded later behind found
    | start otherPrefix other =>
        -- A later declaration is not open, since it would be further inside; so it has ended,
        -- and its end is behind the innermost one.
        cases same
        by_cases isOpen : IsOpen (delimiters marks) later
        · have notBehind := inScope.le_position found isOpen
          omega
        · obtain ⟨stop, further, ended⟩ := nested.exists_finish found isOpen
          exact notEnded stop (by omega) ended

/-- At most one declaration of a namespace is in scope. -/
theorem InScope.unique
    {otherPrefix : String}
    {other : Nat}
    (first : InScope marks uri nsPrefix position)
    (second : InScope marks uri otherPrefix other) :
    position = other :=
  le_antisymm (second.le_position first.declares first.isOpen)
    (first.le_position second.declares second.isOpen)

/-- Behind an inner end of a namespace its outer prefix is lost. -/
theorem Nested.currentPrefix?_eq_none_of_ended
    (nested : Nested marks)
    (inScope : InScope marks uri nsPrefix position)
    {stop : Nat}
    (behind : position < stop)
    (ended : marks[stop]? = some (.finish uri)) :
    currentPrefix? uri marks = none := by
  rw [Option.eq_none_iff_forall_ne_some]
  intro other current
  obtain ⟨same, otherInScope, kept⟩ := nested.currentPrefix?_eq_some_iff.mp current
  rw [← inScope.unique otherInScope] at kept
  exact kept stop behind ended

/-- A namespace that is not in scope has no prefix. -/
theorem Nested.currentPrefix?_eq_none_of_not_inScope
    (nested : Nested marks)
    (notInScope : ∀ nsPrefix position, ¬ InScope marks uri nsPrefix position) :
    currentPrefix? uri marks = none := by
  rw [Option.eq_none_iff_forall_ne_some]
  intro nsPrefix current
  obtain ⟨position, inScope, _⟩ := nested.currentPrefix?_eq_some_iff.mp current
  exact notInScope nsPrefix position inScope

end NamespaceMark

open ApkAtlas.Xml.NamespaceMark (InScope Nested)
open ApkAtlas.Xml.Part (described namespaceMarks opened starts)

theorem Part.exists_namespaceMarks_append (front rest : List Part) :
    ∃ more, namespaceMarks (front ++ rest) = namespaceMarks front ++ more := by
  induction rest using List.reverseRecOn with
  | nil =>
      exact ⟨[], by rw [List.append_nil, List.append_nil]⟩
  | append_singleton rest part inductionHypothesis =>
      obtain ⟨more, appended⟩ := inductionHypothesis
      refine ⟨more ++ (namespaceMark? (front ++ rest) part).toList, ?_⟩
      rw [← List.append_assoc, namespaceMarks_append, appended, List.append_assoc]

/-- An attribute has the current prefix of its namespace, or none. -/
theorem Part.prefix_of_mem_opened
    {parts : List Part}
    {position : Nat}
    {attr : Attribute}
    (member : attr ∈ (opened parts position).attributes) :
    attr.nsPrefix =
      (currentPrefix? attr.namespaceUri (namespaceMarks (parts.take position))).getD "" := by
  rw [opened] at member
  split at member
  · obtain ⟨raw, _, rfl⟩ := List.mem_map.mp member
    rfl
  · cases member

/-- The attributes of the elements are those that the starts of the elements give them. -/
theorem Document.attributes_described
    {buffer : Bytes}
    {document : Document}
    {parts : List Part}
    (decoded : Document.decode buffer = .ok document)
    (read : readParts buffer = .ok parts) :
    List.Forall₂ (fun position element => element.attributes = (opened parts position).attributes)
      (starts parts) document.root.subtree := by
  obtain ⟨others, place, readOthers, listed, _⟩ := Document.exists_listing decoded
  cases readOthers.symm.trans read
  have same : (starts parts).map (described parts) = document.root.subtree.map Element.alone := by
    rw [← Element.map_snd_listing [], listed, List.map_map]
    rfl
  rw [← List.forall₂_eq_eq_eq, List.forall₂_map_left_iff, List.forall₂_map_right_iff] at same
  refine same.imp ?_
  intro position element described
  exact (congrArg Element.attributes described).symm

/-- Where the namespace declarations of a document are nested, an attribute has the prefix of
the innermost open declaration of its namespace if no declaration of the namespace has ended
behind that one, and no prefix otherwise, nor if none is open. -/
theorem Document.prefixes_of_nested_declarations
    {buffer : Bytes}
    {document : Document}
    {parts : List Part}
    (decoded : Document.decode buffer = .ok document)
    (read : readParts buffer = .ok parts)
    (nested : Nested (namespaceMarks parts)) :
    List.Forall₂
      (fun position element =>
        ∀ attr ∈ element.attributes,
          let marks := namespaceMarks (parts.take position)
          let uri := attr.namespaceUri
          (∀ nsPrefix declaration, InScope marks uri nsPrefix declaration →
            ((∀ stop > declaration, marks[stop]? ≠ some (.finish uri)) →
                attr.nsPrefix = nsPrefix) ∧
              ∀ stop > declaration, marks[stop]? = some (.finish uri) →
                attr.nsPrefix = "") ∧
          ((∀ nsPrefix declaration, ¬ InScope marks uri nsPrefix declaration) →
            attr.nsPrefix = ""))
      (starts parts) document.root.subtree := by
  refine (Document.attributes_described decoded read).imp ?_
  intro position element given attr member marks uri
  rw [given] at member
  have goesBy : attr.nsPrefix = (currentPrefix? uri marks).getD "" :=
    Part.prefix_of_mem_opened member
  have nestedFront : Nested marks := by
    obtain ⟨more, appended⟩ :=
      Part.exists_namespaceMarks_append (parts.take position) (parts.drop position)
    rw [List.take_append_drop] at appended
    exact (appended ▸ nested).of_append
  refine ⟨fun nsPrefix declaration inScope => ⟨fun kept => ?_, fun stop behind ended => ?_⟩,
    fun notInScope => ?_⟩
  · rw [goesBy, nestedFront.currentPrefix?_eq_some_iff.mpr ⟨declaration, inScope, kept⟩]
    rfl
  · rw [goesBy, nestedFront.currentPrefix?_eq_none_of_ended inScope behind ended]
    rfl
  · rw [goesBy, nestedFront.currentPrefix?_eq_none_of_not_inScope notInScope]
    rfl

section Redeclaration

/-- Whether nodes nest: each one that ends something ends what started last, with the same
names. -/
def Node.nest : List Node → List Node → Bool
  | opened, [] => opened.isEmpty
  | opened, .startNamespace nsPrefix uri :: rest =>
      nest (.startNamespace nsPrefix uri :: opened) rest
  | opened, .startElement line name attributes :: rest =>
      nest (.startElement line name attributes :: opened) rest
  | .startNamespace nsPrefix uri :: opened, .endNamespace endPrefix endUri :: rest =>
      nsPrefix == endPrefix && uri == endUri && nest opened rest
  | .startElement _ name _ :: opened, .endElement _ endName :: rest =>
      name == endName && nest opened rest
  | _, _ => false

/-- A namespace that is declared anew for one child and has one more element behind it. -/
def redeclaredNodes : List Node :=
  let attr : SourceAttribute := ⟨some "u", "k", .text "v"⟩
  [ .startNamespace "a" "u",
    .startElement 1 "r" [attr],
    .startNamespace "b" "u",
    .startElement 2 "c" [attr],
    .endElement 2 "c",
    .endNamespace "b" "u",
    .startElement 3 "d" [attr],
    .endElement 3 "d",
    .endElement 1 "r",
    .endNamespace "a" "u" ]

def redeclared : Bytes :=
  let pool := poolOf (redeclaredNodes.flatMap Node.texts)
  Document.layOut pool (redeclaredNodes.map (Node.compose pool))

/-- Behind the end of the inner declaration the attribute has no prefix. -/
theorem decode_redeclared :
    ∃ document, Document.decode redeclared = .ok document ∧
      document.root.subtree.map Element.attributes =
        [[⟨"k", "v", "u", "a"⟩], [⟨"k", "v", "u", "b"⟩], [⟨"k", "v", "u", ""⟩]] := by
  have seen :
      (Document.decode redeclared).toOption.map
          (fun document => document.root.subtree.map Element.attributes) =
        some [[⟨"k", "v", "u", "a"⟩], [⟨"k", "v", "u", "b"⟩], [⟨"k", "v", "u", ""⟩]] := by
    decide +kernel
  obtain ⟨document, decoded, attributes⟩ := Option.map_eq_some_iff.mp seen
  exact ⟨document, eq_ok_of_toOption decoded, attributes⟩

theorem readParts_redeclared :
    ∃ parts, Document.readParts redeclared = .ok parts ∧
      starts parts = [2, 4, 7] ∧
      namespaceMarks (parts.take 7) = [.start "a" "u", .start "b" "u", .finish "u"] ∧
      namespaceMarks parts = [.start "a" "u", .start "b" "u", .finish "u", .finish "u"] := by
  have seen :
      (Document.readParts redeclared).toOption.map
          (fun parts => (starts parts, namespaceMarks (parts.take 7), namespaceMarks parts)) =
        some ([2, 4, 7], [.start "a" "u", .start "b" "u", .finish "u"],
          [.start "a" "u", .start "b" "u", .finish "u", .finish "u"]) := by
    decide +kernel
  obtain ⟨parts, read, view⟩ := Option.map_eq_some_iff.mp seen
  obtain ⟨positions, front, all⟩ := by simpa only [Prod.mk.injEq] using view
  exact ⟨parts, eq_ok_of_toOption read, positions, front, all⟩

/-- The declaration of `a` is the innermost open one for the last element, whose attribute has
no prefix. -/
theorem redeclared_loses_outer_prefix :
    Node.nest [] redeclaredNodes = true ∧
      ∃ document parts,
        Document.decode redeclared = .ok document ∧
          Document.readParts redeclared = .ok parts ∧
          (starts parts)[2]? = some 7 ∧
          InScope (namespaceMarks (parts.take 7)) "u" "a" 0 ∧
          (document.root.subtree.map Element.attributes)[2]? = some [⟨"k", "v", "u", ""⟩] := by
  obtain ⟨document, decoded, attributes⟩ := decode_redeclared
  obtain ⟨parts, read, positions, front, _⟩ := readParts_redeclared
  refine ⟨by decide, document, parts, decoded, read, ?_, ?_, ?_⟩
  · rw [positions]
    rfl
  · rw [front]
    decide
  · rw [attributes]
    rfl

/-- The prefixes of a document that declares one namespace twice. -/
theorem redeclared_prefixes :
    ∃ document parts,
      Document.decode redeclared = .ok document ∧
        Document.readParts redeclared = .ok parts ∧
        Nested (namespaceMarks parts) ∧
        List.Forall₂
          (fun position element =>
            ∀ attr ∈ element.attributes,
              let marks := namespaceMarks (parts.take position)
              let uri := attr.namespaceUri
              (∀ nsPrefix declaration, InScope marks uri nsPrefix declaration →
                ((∀ stop > declaration, marks[stop]? ≠ some (.finish uri)) →
                    attr.nsPrefix = nsPrefix) ∧
                  ∀ stop > declaration, marks[stop]? = some (.finish uri) →
                    attr.nsPrefix = "") ∧
              ((∀ nsPrefix declaration, ¬ InScope marks uri nsPrefix declaration) →
                attr.nsPrefix = ""))
          (starts parts) document.root.subtree := by
  obtain ⟨document, decoded, _⟩ := decode_redeclared
  obtain ⟨parts, read, _, _, all⟩ := readParts_redeclared
  have nested : Nested (namespaceMarks parts) := by
    rw [all]
    decide
  exact ⟨document, parts, decoded, read, nested,
    Document.prefixes_of_nested_declarations decoded read nested⟩

end Redeclaration

end ApkAtlas.Xml
