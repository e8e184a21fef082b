import ApkAtlas.Xml.Compiled
import Mathlib.Data.List.Forall2

namespace ApkAtlas.Xml

/-!
# Elements and their places

The place of an element in a tree is the list of child positions that lead to it. A listing
gives the elements of a tree in document order with their places. While a tree is put
together, the elements that are open are listed one after the other, the outermost first,
each behind what it holds already; closing one of them changes nothing in the list.
-/

namespace Element

/-- An element without what is inside it and without the prefixes it declares. -/
def alone (element : Element) : Element :=
  { element with children := [], namespaces := [] }

mutual

/-- The elements of a subtree in document order, each with its place, if the subtree itself
is at the given one. -/
def listing (place : List Nat) (element : Element) : List (List Nat × Element) :=
  match element with
  | ⟨name, attributes, children, namespaces, text, line⟩ =>
      (place, alone ⟨name, attributes, children, namespaces, text, line⟩) ::
        listingFrom place 0 children

def listingFrom (place : List Nat) (position : Nat) : List Element → List (List Nat × Element)
  | [] => []
  | child :: rest => listing (place ++ [position]) child ++ listingFrom place (position + 1) rest

end

/-- The places of all elements of a tree in document order. -/
def places (root : Element) : List (List Nat) :=
  (root.listing []).map Prod.fst

/-- The listing of an element is itself and those below its children. -/
theorem listing_eq (place : List Nat) (element : Element) :
    element.listing place = (place, element.alone) :: listingFrom place 0 element.children := by
  rcases element with ⟨_, _, _, _, _, _⟩
  rw [listing]

/-- Elements are listed in two parts. -/
theorem listingFrom_append
    (place : List Nat)
    (position : Nat)
    (first second : List Element) :
    listingFrom place position (first ++ second) =
      listingFrom place position first ++
        listingFrom place (position + first.length) second := by
  induction first generalizing position with
  | nil =>
      rfl
  | cons child rest inductionHypothesis =>
      rw [List.cons_append, listingFrom, listingFrom, inductionHypothesis, List.append_assoc,
        List.length_cons, Nat.add_right_comm, Nat.add_assoc]

/-- A child that comes last is listed last. -/
theorem listing_addChild (place : List Nat) (parent child : Element) :
    listing place { parent with children := parent.children ++ [child] } =
      parent.listing place ++ child.listing (place ++ [parent.children.length]) := by
  rw [listing_eq, listing_eq place parent, listingFrom_append]
  simp only [listingFrom, Nat.zero_add, List.append_nil, List.cons_append]
  rfl

mutual

/-- A listing has the elements of the tree in their order. -/
theorem map_snd_listing (place : List Nat) (element : Element) :
    (element.listing place).map Prod.snd = element.subtree.map alone := by
  rcases element with ⟨name, attributes, children, namespaces, text, line⟩
  rw [listing, subtree, List.map_cons, List.map_cons, map_snd_listingFrom place 0 children]

theorem map_snd_listingFrom (place : List Nat) (position : Nat) (elements : List Element) :
    (listingFrom place position elements).map Prod.snd = (subtrees elements).map alone := by
  cases elements with
  | nil =>
      rfl
  | cons child rest =>
      rw [listingFrom, subtrees, List.map_append, List.map_append, map_snd_listing,
        map_snd_listingFrom]

end

mutual

/-- The places of a listing lead to the elements of the tree, in the same order. -/
theorem places_lead
    (place : List Nat)
    (element : Element) :
    List.Forall₂
      (fun entry found =>
        ∃ inner, entry.1 = place ++ inner ∧ element.descend? inner = some found)
      (element.listing place) element.subtree := by
  rcases element with ⟨name, attributes, children, namespaces, text, line⟩
  rw [listing, subtree]
  refine .cons ⟨[], (List.append_nil _).symm, rfl⟩ ?_
  refine (placesFrom_lead place 0 children).imp ?_
  rintro entry found ⟨position, child, inner, atEntry, atChild, leads⟩
  refine ⟨position :: inner, by simpa using atEntry, ?_⟩
  simpa only [descend?, atChild] using leads

/-- Each listed place leads through a child to the element that it is listed with. -/
theorem placesFrom_lead
    (place : List Nat)
    (start : Nat)
    (elements : List Element) :
    List.Forall₂
      (fun entry found =>
        ∃ position child inner, entry.1 = place ++ (start + position) :: inner ∧
          elements[position]? = some child ∧ child.descend? inner = some found)
      (listingFrom place start elements) (subtrees elements) := by
  cases elements with
  | nil =>
      exact .nil
  | cons child rest =>
      rw [listingFrom, subtrees]
      apply List.rel_append
      · refine (places_lead (place ++ [start]) child).imp ?_
        rintro entry found ⟨inner, atEntry, leads⟩
        exact ⟨0, child, inner, by simpa using atEntry, rfl, leads⟩
      · refine (placesFrom_lead place (start + 1) rest).imp ?_
        rintro entry found ⟨position, other, inner, atEntry, atChild, leads⟩
        refine ⟨position + 1, other, inner, ?_, atChild, leads⟩
        rw [atEntry, Nat.add_assoc, Nat.add_comm 1]

end

/-- The places of a tree lead to its elements. -/
theorem map_descend?_places (root : Element) :
    root.places.map root.descend? = root.subtree.map some := by
  rw [places, List.map_map, ← List.forall₂_eq_eq_eq, List.forall₂_map_left_iff,
    List.forall₂_map_right_iff]
  refine (places_lead [] root).imp ?_
  rintro entry found ⟨inner, atEntry, leads⟩
  rw [Function.comp_apply, atEntry]
  exact leads

/-- What is listed of elements is below the place of their parent. -/
theorem length_lt_of_mem_listingFrom
    {place : List Nat}
    {position : Nat}
    {elements : List Element}
    {entry : List Nat × Element}
    (member : entry ∈ listingFrom place position elements) :
    place.length < entry.1.length := by
  have below :
      List.Forall₂ (fun entry _ => place.length < entry.1.length ∧ True)
        (listingFrom place position elements) (subtrees elements) := by
    refine (placesFrom_lead place position elements).imp ?_
    rintro entry found ⟨index, child, inner, atEntry, _, _⟩
    rw [atEntry, List.length_append, List.length_cons]
    exact ⟨by omega, trivial⟩
  exact ((List.forall₂_and_left _ _).mp below).1 entry member

/-- The children of an element are what is listed one level below it. -/
theorem map_snd_filter_listingFrom
    (place : List Nat)
    (position : Nat)
    (children : List Element) :
    ((listingFrom place position children).filter
        fun entry => entry.1.length = place.length + 1).map Prod.snd =
      children.map alone := by
  induction children generalizing position with
  | nil =>
      rfl
  | cons child rest inductionHypothesis =>
      have noneBelow :
          (listingFrom (place ++ [position]) 0 child.children).filter
              (fun entry => entry.1.length = place.length + 1) = [] := by
        rw [List.filter_eq_nil_iff]
        intro entry member
        have below := length_lt_of_mem_listingFrom member
        rw [List.length_append, List.length_singleton] at below
        simpa using Nat.ne_of_gt below
      rw [listingFrom, listing_eq, List.cons_append, List.filter_cons_of_pos (by simp),
        List.filter_append, noneBelow, List.nil_append, List.map_cons, inductionHypothesis,
        List.map_cons]

end Element

end ApkAtlas.Xml
