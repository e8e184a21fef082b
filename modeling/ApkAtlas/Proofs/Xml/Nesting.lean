import ApkAtlas.Proofs.Xml.Listing
import ApkAtlas.Proofs.Xml.Parts

namespace ApkAtlas.Xml

/-!
# The tree is the nesting of the chunks

Each part that starts an element gives one element of the tree, in document order. The
elements that are open while parts are added stand for the parts whose elements are open as
delimiters; the listings of what they hold make up the elements started so far.
-/

open Chunk
open ApkAtlas.Delimiter (IsInnermost IsOpen Stack level)

namespace Part

/-- The positions of the parts that start elements. -/
def starts (parts : List Part) : List Nat :=
  gather (fun front part => if part.delimiter = .opening then some front.length else none) parts

/-- The starts and ends of elements among parts. -/
def delimiters (parts : List Part) : List Delimiter :=
  parts.map delimiter

/-- The string of a text part that belongs to the element started at a position, which is
the innermost open one then. -/
def textIn? (position : Nat) (front : List Part) : Part → Option String
  | .text index =>
      if IsInnermost (delimiters front) position then some ((known front).string index) else none
  | _ => none

/-- What the part at a position says of the element it starts. -/
def opened (parts : List Part) (position : Nat) : Element :=
  match parts[position]? with
  | some (.startElement line nameIndex attributes) =>
      let front := parts.take position
      { name := (known front).string nameIndex
        attributes := attributes.map (attributeBehind front)
        line := line }
  | _ => default

/-- The element started at a position, without what is inside it: its text is that of the
text parts that belong to it, one after the other. -/
def described (parts : List Part) (position : Nat) : Element :=
  { opened parts position with text := String.join (gather (textIn? position) parts) }

variable {parts : List Part} {part : Part} {position : Nat}

/-- One more part has one more delimiter. -/
theorem delimiters_append : delimiters (parts ++ [part]) = delimiters parts ++ [part.delimiter] :=
  List.map_append

/-- A part that opens an element is one more start. -/
theorem starts_append_of_opening (opens : part.delimiter = .opening) :
    starts (parts ++ [part]) = starts parts ++ [parts.length] := by
  rw [starts, gather_append, if_pos opens]
  rfl

/-- Any other part is no start. -/
theorem starts_append_of_ne_opening (other : part.delimiter ≠ .opening) :
    starts (parts ++ [part]) = starts parts := by
  rw [starts, gather_append, if_neg other, Option.toList_none, List.append_nil]
  rfl

/-- Starts are positions of parts. -/
theorem lt_length_of_mem_starts (member : position ∈ starts parts) :
    position < parts.length := by
  obtain ⟨index, inRange, found⟩ := List.mem_filterMap.mp member
  have inside := List.mem_range.mp inRange
  obtain ⟨part, _, picked⟩ := Option.bind_eq_some_iff.mp found
  dsimp only at picked
  split at picked
  · cases picked
    rw [List.length_take]
    omega
  · cases picked

theorem nodup_starts (parts : List Part) : (starts parts).Nodup := by
  induction parts using List.reverseRecOn with
  | nil =>
      exact .nil
  | append_singleton parts part inductionHypothesis =>
      by_cases opens : part.delimiter = .opening
      · rw [starts_append_of_opening opens, List.nodup_append]
        refine ⟨inductionHypothesis, List.nodup_singleton _, ?_⟩
        intro position member last isLast
        have inside := lt_length_of_mem_starts member
        rw [List.mem_singleton] at isLast
        omega
      · rwa [starts_append_of_ne_opening opens]

/-- Later parts do not change what is open at an earlier position. -/
theorem opened_append (inside : position < parts.length) :
    opened (parts ++ [part]) position = opened parts position := by
  rw [opened, opened, List.getElem?_append_left inside,
    List.take_append_of_le_length inside.le]

/-- One more part adds its text if the text belongs to the element. -/
theorem described_append (inside : position < parts.length) :
    described (parts ++ [part]) position =
      { described parts position with
        text := (described parts position).text ++
          String.join (textIn? position parts part).toList } := by
  simp only [described, opened_append inside, gather_append, String.join_append]

/-- A part without text for an element leaves its description as it is. -/
theorem described_append_of_no_text
    (inside : position < parts.length)
    (noText : textIn? position parts part = none) :
    described (parts ++ [part]) position = described parts position := by
  rw [described_append inside, noText, Option.toList_none, String.join_nil, String.append_empty]
  rfl

/-- No text belongs to an element that is still to come. -/
theorem gather_textIn?_eq_nil (inside : parts.length ≤ position) :
    gather (textIn? position) parts = [] := by
  rw [gather, List.filterMap_eq_nil_iff]
  intro index _
  rw [Option.bind_eq_none_iff]
  intro part _
  cases part with
  | text textIndex =>
      rw [textIn?, if_neg]
      intro innermost
      have started := innermost.1.lt_length
      rw [delimiters, List.length_map, List.length_take] at started
      omega
  | strings _ | resourceIds _ | startNamespace _ _ | endNamespace _ | startElement _ _ _
  | endElement | unknown =>
      rfl

end Part

/-- The place inside of open elements, the innermost first, at which the next one comes. -/
def nextPlace : List Element → List Nat
  | [] => []
  | parent :: outer => nextPlace outer ++ [parent.children.length]

/-- Open elements, the innermost first, whose listings are the entries of positions, one
listing behind the other; each starts with the position of the open element itself. -/
inductive Aligned (entry : Nat → List Nat × Element) :
    List Element → List Nat → List Nat → Prop where
  | nil : Aligned entry [] [] []
  | cons {element : Element} {outer : List Element} {position : Nat}
      {positions before inner : List Nat}
      (aligned : Aligned entry outer positions before)
      (listed : element.listing (nextPlace outer) = (position :: inner).map entry) :
      Aligned entry (element :: outer) (position :: positions) (before ++ position :: inner)

namespace Aligned

variable
  {entry other : Nat → List Nat × Element}
  {element parent : Element}
  {outer : List Element}
  {position : Nat}
  {positions all : List Nat}

/-- Positions are aligned by what is said of them alone. -/
theorem congr
    (aligned : Aligned entry outer positions all)
    (same : ∀ position ∈ all, entry position = other position) :
    Aligned other outer positions all := by
  induction aligned with
  | nil =>
      exact .nil
  | cons _ listed inductionHypothesis =>
      refine .cons (inductionHypothesis fun position member =>
        same position (List.mem_append_left _ member)) ?_
      rw [listed]
      exact List.map_congr_left fun position member =>
        same position (List.mem_append_right _ member)

/-- The entry of an open element. -/
theorem entry_eq (aligned : Aligned entry (element :: outer) (position :: positions) all) :
    entry position = (nextPlace outer, element.alone) := by
  cases aligned with
  | cons _ listed =>
      rw [Element.listing_eq, List.map_cons] at listed
      exact (List.cons.inj listed).1.symm

/-- Where elements are aligned, the next place is as deep as there are open elements. -/
theorem length_nextPlace (aligned : Aligned entry outer positions all) :
    (nextPlace outer).length = positions.length := by
  induction aligned with
  | nil =>
      rfl
  | cons _ _ inductionHypothesis =>
      rw [nextPlace, List.length_append, inductionHypothesis]
      rfl

/-- A new element without children is opened. -/
theorem push
    (aligned : Aligned entry outer positions all)
    (childless : element.children = [])
    (atPosition : entry position = (nextPlace outer, element.alone)) :
    Aligned entry (element :: outer) (position :: positions) (all ++ [position]) := by
  refine .cons aligned ?_
  rw [Element.listing_eq, childless, List.map_singleton, atPosition]
  rfl

/-- The innermost open element is put into the one around it. -/
theorem pop
    (aligned : Aligned entry (element :: parent :: outer) (position :: positions) all) :
    Aligned entry ({ parent with children := parent.children ++ [element] } :: outer) positions
      all := by
  cases aligned with
  | cons around listed =>
      cases around with
      | cons further listedParent =>
          rw [List.append_assoc, List.cons_append]
          refine .cons further ?_
          rw [nextPlace] at listed
          rw [Element.listing_addChild, listedParent, listed, ← List.map_append]
          rfl

/-- The outermost of open elements holds all entries once the others are put into it. -/
theorem listing_closeAll
    (aligned : Aligned entry (element :: outer) positions all) :
    (Assembly.closeAll element outer).listing [] = all.map entry := by
  induction outer generalizing element positions with
  | nil =>
      cases aligned with
      | cons around listed =>
          cases around
          exact listed
  | cons parent outer inductionHypothesis =>
      cases positions with
      | nil =>
          cases aligned
      | cons position positions =>
          exact inductionHypothesis aligned.pop

/-- The innermost open element changes its text. -/
theorem write
    (aligned : Aligned entry (element :: outer) (position :: positions) all)
    (distinct : all.Nodup)
    (text : String)
    (written : other position = (nextPlace outer, { element with text }.alone))
    (same : ∀ unchanged ∈ all, unchanged ≠ position → entry unchanged = other unchanged) :
    Aligned other ({ element with text } :: outer) (position :: positions) all := by
  cases aligned with
  | @cons _ _ _ _ before inner around listed =>
      obtain ⟨_, distinctInner, apart⟩ := List.nodup_append.mp distinct
      have notInner := (List.nodup_cons.mp distinctInner).1
      refine .cons (around.congr fun unchanged member => ?_) ?_
      · exact same unchanged (List.mem_append_left _ member)
          (apart unchanged member position List.mem_cons_self)
      · rw [Element.listing_eq, List.map_cons] at listed ⊢
        rw [written, (List.cons.inj listed).2]
        congr 1
        apply List.map_congr_left
        intro unchanged member
        refine same unchanged ?_ ?_
        · exact List.mem_append_right _ (List.mem_cons_of_mem _ member)
        · rintro rfl
          exact notInner member

end Aligned

open ApkAtlas.Xml.Part (delimiters delimiters_append described starts)

/-- The place of an element among the places of the elements started in front of it: it is
outermost, or a child of the innermost open element. -/
structure Placed (parts : List Part) (place : Nat → List Nat) (position : Nat) : Prop where
  depth : ((place position).length : Int) = level (delimiters (parts.take position))
  parent :
    (place position = [] ∧ ∀ other, ¬ IsOpen (delimiters (parts.take position)) other) ∨
      ∃ parent child, IsInnermost (delimiters (parts.take position)) parent ∧
        place position = place parent ++ [child]

/-- A start that has its place keeps it behind one more part. -/
theorem Placed.append
    {parts : List Part}
    {part : Part}
    {place later : Nat → List Nat}
    {position : Nat}
    (placed : Placed parts place position)
    (inside : position < parts.length)
    (same : ∀ earlier < parts.length, later earlier = place earlier) :
    Placed (parts ++ [part]) later position := by
  have front : (parts ++ [part]).take position = parts.take position :=
    List.take_append_of_le_length inside.le
  refine ⟨?_, ?_⟩
  · rw [front, same position inside]
    exact placed.depth
  · rw [front, same position inside]
    rcases placed.parent with outermost | ⟨parent, child, innermost, atPosition⟩
    · exact .inl outermost
    · have started := innermost.1.lt_length
      rw [Part.delimiters, List.length_map, List.length_take] at started
      refine .inr ⟨parent, child, innermost, ?_⟩
      rw [same parent (by omega)]
      exact atPosition

/-- What parts have been put together to: a stack of open elements, or a closed root. -/
structure Grown
    (parts : List Part)
    (assembly : Assembly)
    (place : Nat → List Nat)
    (positions : List Nat) : Prop where
  stack : Stack (delimiters parts) positions
  tree :
    (assembly.closed = none ∧
      Aligned (fun position => (place position, described parts position)) assembly.opened
        positions (starts parts)) ∨
    (assembly.opened = [] ∧ positions = [] ∧
      ∃ root, assembly.closed = some root ∧
        root.listing [] =
          (starts parts).map fun position => (place position, described parts position))
  placed : ∀ position ∈ starts parts, Placed parts place position

namespace Grown

variable
  {parts : List Part}
  {part : Part}
  {assembly next : Assembly}
  {place : Nat → List Nat}
  {positions : List Nat}

/-- All starts that have their places keep them behind one more part. -/
theorem placed_append
    (grown : Grown parts assembly place positions) :
    ∀ position ∈ starts parts, Placed (parts ++ [part]) place position :=
  fun position member =>
    (grown.placed position member).append (Part.lt_length_of_mem_starts member) fun _ _ => rfl

/-- A part that neither starts nor ends an element nor adds text changes nothing. -/
theorem keep
    (grown : Grown parts assembly place positions)
    (opened : next.opened = assembly.opened)
    (closed : next.closed = assembly.closed)
    (neutral : part.delimiter = .neutral)
    (noText : ∀ position ∈ starts parts, Part.textIn? position parts part = none) :
    Grown (parts ++ [part]) next place positions := by
  have sameStarts : starts (parts ++ [part]) = starts parts :=
    Part.starts_append_of_ne_opening (by rw [neutral]; decide)
  have same :
      ∀ position ∈ starts parts,
        (place position, described parts position) =
          (place position, described (parts ++ [part]) position) := by
    intro position member
    rw [Part.described_append_of_no_text (Part.lt_length_of_mem_starts member)
      (noText position member)]
  refine ⟨?_, ?_, ?_⟩
  · rw [delimiters_append, neutral]
    exact grown.stack.neutral
  · rw [opened, closed, sameStarts]
    rcases grown.tree with ⟨unclosed, aligned⟩ | ⟨none, noPositions, root, isRoot, listed⟩
    · exact .inl ⟨unclosed, aligned.congr same⟩
    · exact .inr ⟨none, noPositions, root, isRoot, listed.trans (List.map_congr_left same)⟩
  · rw [sameStarts]
    exact grown.placed_append

/-- A new element is the outermost, or a child of the innermost open element. -/
theorem placed_next
    (grown : Grown parts assembly place positions)
    (aligned :
      Aligned (fun position => (place position, described parts position)) assembly.opened
        positions (starts parts))
    {later : Nat → List Nat}
    (same : ∀ earlier < parts.length, later earlier = place earlier)
    (atEnd : later parts.length = nextPlace assembly.opened) :
    Placed (parts ++ [part]) later parts.length := by
  have front : (parts ++ [part]).take parts.length = parts :=
    List.take_left
  refine ⟨?_, ?_⟩
  · rw [front, atEnd, aligned.length_nextPlace, grown.stack.level_eq]
  · rw [front, atEnd]
    have stack := grown.stack
    cases positions with
    | nil =>
        refine .inl ⟨?_, fun other isOpen => nomatch stack.mem_iff.mpr isOpen⟩
        exact List.eq_nil_of_length_eq_zero aligned.length_nextPlace
    | cons position positions =>
        have started := stack.lt_length List.mem_cons_self
        rw [Part.delimiters, List.length_map] at started
        cases opened : assembly.opened with
        | nil =>
            rw [opened] at aligned
            cases aligned
        | cons parent outer =>
            rw [opened] at aligned
            have atParent : place position = nextPlace outer :=
              congrArg Prod.fst aligned.entry_eq
            refine .inr ⟨position, parent.children.length, stack.isInnermost_iff.mpr rfl, ?_⟩
            rw [nextPlace, same position started, atParent]

/-- A part that starts an element. -/
theorem start
    (grown : Grown parts assembly place positions)
    (knows : assembly.Knows parts)
    {header : Header}
    {line nameIndex : Nat}
    {attributes : List RawAttribute}
    (added :
      assembly.step header (.startElement line nameIndex attributes) = .ok next) :
    ∃ place,
      Grown (parts ++ [.startElement line nameIndex attributes]) next place
        (parts.length :: positions) := by
  let part : Part := .startElement line nameIndex attributes
  let newPlace := Function.update place parts.length (nextPlace assembly.opened)
  have atEnd : newPlace parts.length = nextPlace assembly.opened :=
    Function.update_self _ _ _
  have same : ∀ earlier < parts.length, newPlace earlier = place earlier :=
    fun _ inside => Function.update_of_ne inside.ne _ _
  have startsAppend : starts (parts ++ [part]) = starts parts ++ [parts.length] :=
    Part.starts_append_of_opening rfl
  have describedNew :
      described (parts ++ [part]) parts.length =
        { name := assembly.string nameIndex
          attributes := attributes.map assembly.toAttribute
          line := line } := by
    have noText : Part.gather (Part.textIn? parts.length) (parts ++ [part]) = [] := by
      rw [Part.gather_append, Part.gather_textIn?_eq_nil le_rfl]
      rfl
    rw [described, noText, Part.opened, List.getElem?_concat_length]
    simp only [part, List.take_left, knows.string_eq, funext knows.toAttribute_eq,
      String.join_nil]
  rw [Assembly.step] at added
  split at added
  · cases added
  rename_i placed
  cases added
  -- Behind a closed root no element can start, so the open ones are aligned with the stack.
  rcases grown.tree with ⟨unclosed, aligned⟩ | ⟨noneOpen, _, root, isRoot, _⟩
  · refine ⟨newPlace, ?_, .inl ⟨unclosed, ?_⟩, ?_⟩
    · have opening := grown.stack.opening
      rw [Part.delimiters, List.length_map] at opening
      rw [delimiters_append]
      exact opening
    · rw [startsAppend]
      apply Aligned.push
      · refine aligned.congr ?_
        intro position member
        have inside := Part.lt_length_of_mem_starts member
        rw [same position inside, Part.described_append_of_no_text inside rfl]
      · rfl
      · rw [atEnd, describedNew]
        rfl
    · rw [startsAppend]
      intro position member
      rcases List.mem_append.mp member with earlier | last
      · exact (grown.placed position earlier).append (Part.lt_length_of_mem_starts earlier) same
      · rw [List.mem_singleton.mp last]
        exact grown.placed_next aligned same atEnd
  · simp [noneOpen, isRoot] at placed

/-- A part that ends the innermost open element. -/
theorem finish
    (grown : Grown parts assembly place positions)
    {header : Header}
    (added : assembly.step header .endElement = .ok next) :
    ∃ positions, Grown (parts ++ [.endElement]) next place positions := by
  have sameStarts : starts (parts ++ [.endElement]) = starts parts :=
    Part.starts_append_of_ne_opening (by decide)
  have same :
      ∀ position ∈ starts parts,
        (place position, described parts position) =
          (place position, described (parts ++ [.endElement]) position) := by
    intro position member
    rw [Part.described_append_of_no_text (Part.lt_length_of_mem_starts member) rfl]
  rw [Assembly.step] at added
  split at added
  · cases added
  rename_i element outer opened
  cases added
  rcases grown.tree with ⟨unclosed, aligned⟩ | ⟨noneOpen, _⟩
  swap
  · rw [opened] at noneOpen
    cases noneOpen
  have stack := grown.stack
  rw [opened] at aligned
  cases positions with
  | nil =>
      cases aligned
  | cons position positions =>
      refine ⟨positions, ?_, ?_, ?_⟩
      · rw [delimiters_append]
        exact stack.closing
      · rw [sameStarts]
        -- The root is closed with the outermost element, any other one becomes a child.
        cases outer with
        | nil =>
            have noPositions : positions = [] :=
              List.eq_nil_of_length_eq_zero (Nat.succ.inj aligned.length_nextPlace).symm
            have listed := (aligned.congr same).listing_closeAll
            exact .inr ⟨rfl, noPositions, element, rfl, listed⟩
        | cons parent outer =>
            exact .inl ⟨unclosed, (aligned.congr same).pop⟩
      · rw [sameStarts]
        exact grown.placed_append

/-- A part that adds text to the innermost open element. -/
theorem write
    (grown : Grown parts assembly place positions)
    (knows : assembly.Knows parts)
    {header : Header}
    {index : Nat}
    (added : assembly.step header (.text index) = .ok next) :
    Grown (parts ++ [.text index]) next place positions := by
  have sameStarts : starts (parts ++ [.text index]) = starts parts :=
    Part.starts_append_of_ne_opening fun opens => nomatch opens
  have stack := grown.stack
  rw [Assembly.step] at added
  split at added
  · -- Outside of all elements the text is dropped, and no element is the innermost open one.
    rename_i opened
    cases added
    have noneOpen : positions = [] := by
      rcases grown.tree with ⟨_, aligned⟩ | ⟨_, noPositions, _⟩
      · rw [opened] at aligned
        exact List.eq_nil_of_length_eq_zero aligned.length_nextPlace.symm
      · exact noPositions
    refine grown.keep rfl rfl rfl ?_
    intro position _
    rw [Part.textIn?, if_neg]
    intro innermost
    rw [noneOpen] at stack
    cases stack.mem_iff.mpr innermost.1
  · rename_i element outer opened
    cases added
    rcases grown.tree with ⟨unclosed, aligned⟩ | ⟨noneOpen, _⟩
    swap
    · rw [opened] at noneOpen
      cases noneOpen
    rw [opened] at aligned
    cases positions with
    | nil =>
        cases aligned
    | cons innermost positions =>
        have inside := stack.lt_length List.mem_cons_self
        rw [Part.delimiters, List.length_map] at inside
        refine ⟨?_, .inl ⟨unclosed, ?_⟩, ?_⟩
        · rw [delimiters_append]
          exact stack.neutral
        · rw [sameStarts]
          have entry := aligned.entry_eq
          obtain ⟨atPlace, atElement⟩ := Prod.mk.inj entry
          refine aligned.write (Part.nodup_starts parts) _ ?_ ?_
          · rw [Part.described_append inside, Part.textIn?, if_pos (stack.isInnermost_iff.mpr rfl),
              atPlace, atElement, Option.toList_some, ← knows.string_eq]
            simp [Element.alone]
          · intro unchanged member other
            have noText : Part.textIn? unchanged parts (.text index) = none := by
              rw [Part.textIn?, if_neg (fun isInnermost =>
                other (stack.isInnermost_iff.mp isInnermost))]
            rw [Part.described_append_of_no_text (Part.lt_length_of_mem_starts member) noText]
        · rw [sameStarts]
          exact grown.placed_append

/-- One more part. -/
theorem add
    (grown : Grown parts assembly place positions)
    (knows : assembly.Knows parts)
    {header : Header}
    (added : assembly.step header part = .ok next) :
    ∃ place positions, Grown (parts ++ [part]) next place positions := by
  cases part with
  | startElement line nameIndex attributes =>
      obtain ⟨place, started⟩ := grown.start knows added
      exact ⟨place, _, started⟩
  | endElement =>
      obtain ⟨positions, finished⟩ := grown.finish added
      exact ⟨place, positions, finished⟩
  | text index =>
      exact ⟨place, positions, grown.write knows added⟩
  | strings _ | resourceIds _ | startNamespace _ _ | endNamespace _ | unknown =>
      cases added
      exact ⟨place, positions, grown.keep rfl rfl rfl fun _ _ => rfl⟩

/-- The root that the parts lead to, with all elements at their places. -/
theorem listing_root
    (grown : Grown parts assembly place positions)
    {root : Element}
    (isRoot : assembly.root? = some root) :
    root.listing [] =
      (starts parts).map fun position => (place position, described parts position) := by
  rw [Assembly.root?] at isRoot
  rcases grown.tree with ⟨unclosed, aligned⟩ | ⟨noneOpen, _, closed, isClosed, listed⟩
  · split at isRoot
    · rw [unclosed] at isRoot
      cases isRoot
    · rename_i element outer opened
      cases isRoot
      rw [opened] at aligned
      cases positions with
      | nil =>
          cases aligned
      | cons position positions =>
          exact aligned.listing_closeAll
  · rw [noneOpen] at isRoot
    dsimp only at isRoot
    rw [isClosed] at isRoot
    cases isRoot
    exact listed

end Grown

/-- What is reached by reading parts has grown from them. -/
theorem Assembly.Reached.exists_grown
    {parts : List Part}
    {assembly : Assembly}
    (reached : Reached parts assembly) :
    ∃ place positions, Grown parts assembly place positions := by
  induction reached with
  | start =>
      exact ⟨fun _ => [], [], .start, .inl ⟨rfl, .nil⟩, fun _ member => nomatch member⟩
  | add reached added inductionHypothesis =>
      obtain ⟨place, positions, grown⟩ := inductionHypothesis
      exact grown.add reached.knows added

section Listed

variable {parts : List Part} {place : Nat → List Nat} {root : Element}

/-- The root is started first. -/
theorem exists_starts_of_listing
    (listed :
      root.listing [] =
        (starts parts).map fun position => (place position, described parts position)) :
    ∃ position, (starts parts).head? = some position ∧ described parts position = root.alone := by
  rw [Element.listing_eq] at listed
  obtain ⟨position, rest, split, first, _⟩ := List.map_eq_cons_iff.mp listed.symm
  exact ⟨position, by rw [split]; rfl, (Prod.mk.inj first).2⟩

/-- The children of the root are the elements that are started while one is open. -/
theorem children_of_listing
    (listed :
      root.listing [] =
        (starts parts).map fun position => (place position, described parts position))
    (placed : ∀ position ∈ starts parts, Placed parts place position) :
    root.children.map Element.alone =
      ((starts parts).filter fun position =>
        level (delimiters (parts.take position)) = 1).map (described parts) := by
  have sameLevel :
      ∀ position ∈ starts parts,
        decide ((place position).length = 1) =
          decide (level (delimiters (parts.take position)) = 1) := by
    intro position member
    rw [← (placed position member).depth, decide_eq_decide]
    omega
  have rootAbove :
      (root.listing []).filter (fun entry => entry.1.length = 1) =
        (Element.listingFrom [] 0 root.children).filter fun entry => entry.1.length = 1 := by
    rw [Element.listing_eq, List.filter_cons_of_neg (by simp)]
  calc root.children.map Element.alone
      = ((root.listing []).filter fun entry => entry.1.length = 1).map Prod.snd := by
        rw [rootAbove]
        exact (Element.map_snd_filter_listingFrom [] 0 root.children).symm
    _ = ((starts parts).filter fun position => (place position).length = 1).map
          (described parts) := by
        rw [listed, List.filter_map, List.map_map]
        rfl
    _ = _ := by
        rw [List.filter_congr sameLevel]

/-- The first child of the root with a name is the first that is started as such. -/
theorem head?_childrenNamed_of_listing
    (listed :
      root.listing [] =
        (starts parts).map fun position => (place position, described parts position))
    (placed : ∀ position ∈ starts parts, Placed parts place position)
    (name : String) :
    (root.childrenNamed name).head?.map Element.alone =
      ((starts parts).find? fun position =>
        level (delimiters (parts.take position)) = 1 ∧
          (described parts position).name = name).map (described parts) := by
  have children := children_of_listing listed placed
  calc (root.childrenNamed name).head?.map Element.alone
      = (root.children.map Element.alone).find? (·.name == name) := by
        rw [Element.childrenNamed, List.head?_filter, List.find?_map]
        rfl
    _ = _ := by
        rw [children, List.find?_map, List.find?_filter]
        congr 2
        funext position
        simp [Bool.beq_eq_decide_eq]

end Listed

/-- The elements of a decoded document with their places, as its parts tell them. -/
theorem Document.exists_listing
    {buffer : Bytes}
    {document : Document}
    (decoded : Document.decode buffer = .ok document) :
    ∃ parts place,
      readParts buffer = .ok parts ∧
        document.root.listing [] =
          (starts parts).map (fun position => (place position, described parts position)) ∧
        ∀ position ∈ starts parts, Placed parts place position := by
  obtain ⟨parts, assembly, read, reached, finished⟩ := Document.exists_parts decoded
  obtain ⟨place, positions, grown⟩ := reached.exists_grown
  have isRoot : assembly.root? = some document.root := by
    rw [Document.ofAssembly] at finished
    split at finished
    · cases finished
    · rename_i root found
      cases finished
      exact found
  exact ⟨parts, place, read, grown.listing_root isRoot, grown.placed⟩

/-- The elements of a decoded document, in document order, are those that its chunks start, in
the order of the chunks, each with the texts that occur while it is the innermost open one. An
element is as deep as more elements start than end in front of its chunk, and its parent is
the innermost element that is open there. -/
theorem Document.elements_nest_as_chunks
    {buffer : Bytes}
    {document : Document}
    (decoded : Document.decode buffer = .ok document) :
    ∃ parts place,
      readParts buffer = .ok parts ∧
        document.root.subtree.map Element.alone = (starts parts).map (described parts) ∧
        document.root.places = (starts parts).map place ∧
        document.root.places.map document.root.descend? = document.root.subtree.map some ∧
        ∀ position ∈ starts parts, Placed parts place position := by
  obtain ⟨parts, place, read, listed, placed⟩ := Document.exists_listing decoded
  refine ⟨parts, place, read, ?_, ?_, document.root.map_descend?_places, placed⟩
  · rw [← Element.map_snd_listing [], listed, List.map_map]
    rfl
  · rw [Element.places, listed, List.map_map]
    rfl

section MixedContent

/-- The chunk of a text. -/
def textChunk (pool : List String) (text : String) : Composed :=
  { token := Token.characterData
    extension := record [(4, 1), (4, noIndex)]
    payload := record [(4, pool.idxOf text)] }

/-- A text in front of the root, texts around and inside a child that goes by the name of its
parent, and a root that is left open. -/
def mixedContent : Bytes :=
  let pool := ["a", "b", "x", "y"]
  let node := Node.compose pool
  Document.layOut pool
    [ textChunk pool "y",
      node (.startElement 1 "a" []), textChunk pool "x",
      node (.startElement 2 "a" []), textChunk pool "y", node (.endElement 2 "a"),
      node (.startElement 3 "b" []), node (.endElement 3 "b"),
      textChunk pool "y" ]

/-- A document with two elements of a name and texts on both sides of a child. -/
theorem mixedContent_nests :
    ∃ document,
      Document.decode mixedContent = .ok document ∧
        document.root.subtree.map (fun element => (element.name, element.text)) =
          [("a", "xy"), ("a", "y"), ("b", "")] ∧
        document.root.places = [[], [0], [1]] ∧
        ∃ parts place,
          Document.readParts mixedContent = .ok parts ∧
            document.root.subtree.map Element.alone = (starts parts).map (described parts) ∧
            document.root.places = (starts parts).map place ∧
            document.root.places.map document.root.descend? = document.root.subtree.map some ∧
            ∀ position ∈ starts parts, Placed parts place position := by
  have seen :
      (Document.decode mixedContent).toOption.map (fun document =>
        (document.root.subtree.map fun element => (element.name, element.text),
          document.root.places)) =
      some ([("a", "xy"), ("a", "y"), ("b", "")], [[], [0], [1]]) := by
    decide +kernel
  obtain ⟨document, decoded, view⟩ := Option.map_eq_some_iff.mp seen
  replace decoded := eq_ok_of_toOption decoded
  obtain ⟨texts, places⟩ := Prod.mk.inj view
  exact ⟨document, decoded, texts, places, Document.elements_nest_as_chunks decoded⟩

end MixedContent

end ApkAtlas.Xml
