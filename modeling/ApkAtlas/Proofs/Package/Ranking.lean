import ApkAtlas.Proofs.Package.Agreement
import ApkAtlas.Proofs.Package.AttachOrder
import Mathlib.Logic.Function.Basic

namespace ApkAtlas

/-!
# Rankings of children

Children with different names have one ranking: a permutation of them in which each stands
above all that follow. A limit cuts it off, so what is left out stands below what is given.
The ranking depends on the children and not on their order, and rankings that are read at
the same time do not disturb each other.
-/

namespace Package

/-- One node stands above another in a ranking: its value is greater, or it is the same and
its name comes first. -/
def Outranks (metric : Metric) (upper lower : NodeLabel) : Prop :=
  metric.value lower.totals < metric.value upper.totals ∨
    metric.value lower.totals = metric.value upper.totals ∧ upper.name < lower.name

instance (metric : Metric) (upper lower : NodeLabel) :
    Decidable (Outranks metric upper lower) :=
  inferInstanceAs (Decidable (_ ∨ _))

/-- All items, each of them once and above those that follow. -/
structure IsRanking
    {Item : Type}
    (label : Item → NodeLabel)
    (metric : Metric)
    (items ranking : List Item) :
    Prop where
  perm : ranking.Perm items
  sorted : ranking.Pairwise fun upper lower => Outranks metric (label upper) (label lower)

/-- What requests for the largest of some items get: the ranking without a limit, the first
items of it within one, and nothing but an error for a limit that is no count. Whatever is
left out stands below whatever is given. -/
structure AnswersExactly
    {Item : Type}
    (label : Item → NodeLabel)
    (metric : Metric)
    (items : List Item)
    (answer : Option Int → Except ExternalError (List Item))
    (ranking : List Item) :
    Prop where
  isRanking : IsRanking label metric items ranking
  only : ∀ other, IsRanking label metric items other → other = ranking
  unlimited : answer none = .ok ranking
  within :
    ∀ limit : Int, 0 ≤ limit → limit < countBound →
      ∃ given,
        answer (some limit) = .ok given ∧
        given = ranking.take limit.toNat ∧
        given.length = min limit.toNat items.length ∧
        ∀ upper ∈ given, ∀ lower ∈ items, lower ∉ given →
          Outranks metric (label upper) (label lower)
  refused :
    ∀ limit : Int, ¬ (0 ≤ limit ∧ limit < countBound) →
      answer (some limit) = .error (limitError limit)

section Rankings

variable {Item : Type} {label : Item → NodeLabel} {metric : Metric} {items : List Item}

theorem Outranks.asymm
    {upper lower : NodeLabel}
    (outranks : Outranks metric upper lower) :
    ¬ Outranks metric lower upper := by
  rintro (more | ⟨same, names⟩)
  · rcases outranks with less | ⟨same, _⟩ <;> omega
  · rcases outranks with less | ⟨_, names'⟩
    · omega
    · exact lt_asymm names names'

theorem outranks_of_ranksBefore
    {upper lower : NodeLabel}
    (before : ranksBefore metric upper lower)
    (different : upper.name ≠ lower.name) :
    Outranks metric upper lower := by
  rw [ranksBefore_iff] at before
  exact before.imp_right fun ⟨same, names⟩ => ⟨same.symm, lt_of_le_of_ne names different⟩

/-- Items with different names are ranked. -/
theorem isRanking_ranked (names : (items.map fun item => (label item).name).Nodup) :
    IsRanking label metric items (ranked label metric items) where
  perm := List.mergeSort_perm items _
  sorted := by
    have different :
        (ranked label metric items).Pairwise fun upper lower =>
          (label upper).name ≠ (label lower).name :=
      List.pairwise_map.mp (((List.mergeSort_perm items _).map _).nodup_iff.mpr names)
    exact (pairwise_ranked label metric items).imp₂ (fun _ _ => outranks_of_ranksBefore) different

namespace IsRanking

variable {ranking : List Item}

/-- Items have one ranking, in whatever order they come. -/
theorem unique
    (isRanking : IsRanking label metric items ranking)
    {others other : List Item}
    (perm : items.Perm others)
    (isOther : IsRanking label metric others other) :
    other = ranking := by
  apply List.Perm.eq_of_pairwise _ isOther.sorted isRanking.sorted
  · exact isOther.perm.trans (perm.symm.trans isRanking.perm.symm)
  · intro upper lower _ _ forth back
    exact absurd back forth.asymm

/-- What a cut leaves out stands below what it leaves. -/
theorem outranks_of_not_mem_take
    (isRanking : IsRanking label metric items ranking)
    {count : Nat}
    {upper lower : Item}
    (given : upper ∈ ranking.take count)
    (member : lower ∈ items)
    (leftOut : lower ∉ ranking.take count) :
    Outranks metric (label upper) (label lower) := by
  have inRanking := isRanking.perm.mem_iff.mpr member
  have sorted := isRanking.sorted
  rw [← List.take_append_drop count ranking] at inRanking sorted
  have below := (List.mem_append.mp inRanking).resolve_left leftOut
  exact (List.pairwise_append.mp sorted).2.2 upper given lower below

end IsRanking

/-- Requests for the largest of items with different names are answered from their
ranking. -/
theorem answersExactly_largest (names : (items.map fun item => (label item).name).Nodup) :
    AnswersExactly label metric items (fun limit => largest label metric limit items)
      (ranked label metric items) where
  isRanking := isRanking_ranked names
  only _ := (isRanking_ranked names).unique (List.Perm.refl items)
  unlimited := rfl
  within limit counts bounded := by
    refine ⟨_, if_pos ⟨counts, bounded⟩, rfl, ?_, ?_⟩
    · rw [List.length_take, (isRanking_ranked names).perm.length_eq]
    · exact fun _ given _ => (isRanking_ranked names).outranks_of_not_mem_take given
  refused _ noCount := if_neg noCount

/-- The largest items do not depend on the order of the items. -/
theorem largest_eq_of_perm
    {others : List Item}
    (perm : items.Perm others)
    (names : (items.map fun item => (label item).name).Nodup)
    (limit : Option Int) :
    largest label metric limit others = largest label metric limit items := by
  have otherNames := (perm.map fun item => (label item).name).nodup_iff.mp names
  rw [largest, largest, (isRanking_ranked names).unique perm (isRanking_ranked otherNames)]

end Rankings

/-! ## Rankings that are read item by item -/

section Readers

variable {Node : Type} (rank : RankingRequest Node → Except ExternalError (List Node))

/-- The answers to readers that are asked in turn, each with the number of the reader. -/
def serve (readers : Nat → RankingReader Node) :
    List Nat → List (Nat × Except ExternalError (Option Node))
  | [] => []
  | reader :: schedule =>
      (reader, ((readers reader).next rank).1) ::
        serve (Function.update readers reader ((readers reader).next rank).2) schedule

/-- The answers that one reader got. -/
def answersTo
    (reader : Nat)
    (answers : List (Nat × Except ExternalError (Option Node))) :
    List (Except ExternalError (Option Node)) :=
  (answers.filter fun answer => answer.1 = reader).map Prod.snd

/-- The first answers to one reader that is asked alone. -/
def aloneAnswers : RankingReader Node → Nat → List (Except ExternalError (Option Node))
  | _, 0 => []
  | reader, count + 1 => (reader.next rank).1 :: aloneAnswers (reader.next rank).2 count

/-- What a request gives in each place: the items one by one, or the error once, and then
nothing. -/
def answerAt :
    Except ExternalError (List Node) → Nat → Except ExternalError (Option Node)
  | .ok ranking, place => .ok ranking[place]?
  | .error error, 0 => .error error
  | .error _, _ + 1 => .ok none

/-- Each reader is answered as if it were alone. -/
theorem answersTo_serve
    (readers : Nat → RankingReader Node)
    (schedule : List Nat)
    (reader : Nat) :
    answersTo reader (serve rank readers schedule) =
      aloneAnswers rank (readers reader) (schedule.count reader) := by
  -- each step changes one of the readers, so this is about any readers
  induction schedule generalizing readers with
  | nil =>
      rfl
  | cons next schedule inductionHypothesis =>
      have later := inductionHypothesis
        (Function.update readers next ((readers next).next rank).2)
      rw [answersTo] at later
      by_cases same : next = reader
      · subst same
        rw [Function.update_self] at later
        rw [serve, answersTo, List.filter_cons_of_pos (by simp), List.map_cons, later,
          List.count_cons_self, aloneAnswers]
      · rw [Function.update_of_ne (Ne.symm same)] at later
        rw [serve, answersTo, List.filter_cons_of_neg (by simpa using same), later,
          List.count_cons_of_ne same]

theorem aloneAnswers_reading (rest : List Node) (count : Nat) :
    aloneAnswers rank (.reading rest) count =
      (List.range count).map fun place => .ok rest[place]? := by
  induction count generalizing rest with
  | zero =>
      rfl
  | succ count inductionHypothesis =>
      rw [aloneAnswers, RankingReader.next, inductionHypothesis, List.range_succ_eq_map,
        List.map_cons, List.map_map, List.head?_eq_getElem?]
      congr 1
      apply List.map_congr_left
      intro place _
      rw [Function.comp_apply, List.getElem?_tail]

/-- A request is answered item by item. -/
theorem aloneAnswers_asked (request : RankingRequest Node) (count : Nat) :
    aloneAnswers rank (.asked request) count =
      (List.range count).map (answerAt (rank request)) := by
  cases count with
  | zero =>
      rfl
  | succ count =>
      cases ranked : rank request with
      | ok ranking =>
          have asReading :
              aloneAnswers rank (.asked request) (count + 1) =
                aloneAnswers rank (.reading ranking) (count + 1) := by
            rw [aloneAnswers, aloneAnswers, RankingReader.next, RankingReader.next, ranked]
          rw [asReading, aloneAnswers_reading]
          rfl
      | error error =>
          rw [aloneAnswers, RankingReader.next, ranked, aloneAnswers_reading,
            List.range_succ_eq_map, List.map_cons, List.map_map]
          rfl

/-- However many rankings are read, and in whatever order, each request is answered from
its own ranking and from the start. -/
def ReadsApart : Prop :=
  ∀ (readers : Nat → RankingReader Node) (schedule : List Nat) (reader : Nat)
    (request : RankingRequest Node),
    readers reader = .asked request →
      answersTo reader (serve rank readers schedule) =
        (List.range (schedule.count reader)).map (answerAt (rank request))

theorem readsApart : ReadsApart rank := by
  intro readers schedule reader request isAsked
  rw [answersTo_serve, isAsked, aloneAnswers_asked]

end Readers

end Package

/-! ## The children of nodes -/

namespace PackageNode

theorem children_rollUp (node : PackageNode) :
    node.rollUp.children = node.children.map rollUp := by
  cases node
  rw [rollUp_eq]

/-- The ranking of children is the same if they were inserted in another order, and still
the same after totals are derived. -/
theorem largestChildren_eq_of_perm
    {node twin : PackageNode}
    (names : (node.children.map name).Nodup)
    (perm : node.children.Perm twin.children)
    (metric : Metric)
    (limit : Option Int) :
    twin.largestChildren metric limit = node.largestChildren metric limit ∧
      twin.rollUp.largestChildren metric limit = node.rollUp.largestChildren metric limit := by
  refine ⟨Package.largest_eq_of_perm perm names limit, ?_⟩
  apply Package.largest_eq_of_perm
  · rw [children_rollUp, children_rollUp]
    exact perm.map _
  · have sameNames : (node.children.map rollUp).map name = node.children.map name := by
      rw [List.map_map]
      exact List.map_congr_left fun child _ => name_rollUp child
    rw [children_rollUp]
    exact sameNames ▸ names

end PackageNode

namespace Package

/-- Graphs that differ by the order of children rank them alike. -/
theorem Graph.Reordered.largestChildren_eq
    {first second : Graph}
    (reordered : Reordered first second)
    {id : Nat}
    (names : ((first.childIds id).map first.nameOf).Nodup)
    (metric : Metric)
    (limit : Option Int) :
    second.largestChildren id metric limit = first.largestChildren id metric limit := by
  have labels : (fun child => (second.node child).label) = fun child => (first.node child).label :=
    funext fun child => (reordered.label child).symm
  rw [largestChildren, largestChildren, labels]
  exact largest_eq_of_perm (reordered.children id) names limit

/-- Children that are attached in another order are ranked alike, and still so after totals
are derived. -/
theorem Graph.largestChildren_of_attachAll_perm
    {start graph : Graph}
    {id : Nat}
    {order other : List Nat}
    (inside : id < start.nodes.size)
    (perm : order.Perm other)
    (attached : start.attachAll id order = .ok graph)
    (names : ((graph.childIds id).map graph.nameOf).Nodup) :
    ∃ twin,
      start.attachAll id other = .ok twin ∧
      ∀ metric limit,
        twin.largestChildren id metric limit = graph.largestChildren id metric limit ∧
        (graph.Made → (graph.preorder graph.root).isSome →
          twin.rollUp.1.largestChildren id metric limit =
            graph.rollUp.1.largestChildren id metric limit) := by
  obtain ⟨twin, twinAttached, reordered⟩ := attachAll_perm inside perm attached
  refine ⟨twin, twinAttached, fun metric limit =>
    ⟨reordered.largestChildren_eq names metric limit, fun made ends => ?_⟩⟩
  obtain ⟨rolled, twinRolled, rolledUp, twinRolledUp, derived, rolledReordered⟩ :=
    reordered.rollUp made.named.inside made.named.rootInside ends
  rw [rolledUp, twinRolledUp]
  exact rolledReordered.largestChildren_eq (derived.names id ▸ names) metric limit

/--
Rankings are exact. Whatever the metric, the children of a node are given once each, by
falling value and then by rising name, and a limit gives the first of them; no other list
of the children is in this order. A graph that is made by attaching has children with
different names everywhere. The order in which children were inserted makes no difference,
neither before nor after totals are derived, and no reader of a ranking sees what others
have read.
-/
theorem rankings_exact
    {node : PackageNode}
    {graph : Graph}
    {id : Nat}
    (names : (node.children.map PackageNode.name).Nodup)
    (graphNames : ((graph.childIds id).map graph.nameOf).Nodup) :
    (∀ metric,
      (∃ ranking,
        AnswersExactly PackageNode.label metric node.children (node.largestChildren metric)
          ranking) ∧
      ∃ ranking,
        AnswersExactly (fun child => (graph.node child).label) metric (graph.childIds id)
          (graph.largestChildren id metric) ranking) ∧
    (∀ made : Graph, made.Made →
      ∀ other, ((made.childIds other).map made.nameOf).Nodup) ∧
    (∀ twin : PackageNode, node.children.Perm twin.children →
      ∀ metric limit,
        twin.largestChildren metric limit = node.largestChildren metric limit ∧
        twin.rollUp.largestChildren metric limit = node.rollUp.largestChildren metric limit) ∧
    (∀ (start : Graph) (order other : List Nat),
      id < start.nodes.size → order.Perm other → start.attachAll id order = .ok graph →
        ∃ twin,
          start.attachAll id other = .ok twin ∧
          ∀ metric limit,
            twin.largestChildren id metric limit = graph.largestChildren id metric limit ∧
            (graph.Made → (graph.preorder graph.root).isSome →
              twin.rollUp.1.largestChildren id metric limit =
                graph.rollUp.1.largestChildren id metric limit)) ∧
    ReadsApart PackageNode.rank ∧
    ReadsApart graph.rank := by
  refine ⟨?_, ?_, ?_, ?_, readsApart PackageNode.rank, readsApart graph.rank⟩
  · intro metric
    exact ⟨⟨_, answersExactly_largest names⟩, ⟨_, answersExactly_largest graphNames⟩⟩
  · exact fun made isMade => isMade.nodup_names
  · exact fun twin => PackageNode.largestChildren_eq_of_perm names
  · intro start order other inside perm attached
    exact Graph.largestChildren_of_attachAll_perm inside perm attached graphNames

/-- Three nodes to be attached, two of them with the same count of methods. -/
def siblings : Graph where
  nodes :=
    #[ { label := { name := PackageNode.rootName } },
       { label := { name := "z", totals := { methods := 10 } } },
       { label := { name := "w", totals := { methods := 4 } } },
       { label := { name := "y", totals := { methods := 10 } } } ]

/-- The nodes attached to the first one. -/
def family : Graph where
  nodes :=
    #[ { label := { name := PackageNode.rootName }
         children := [("z", 1), ("w", 2), ("y", 3)] },
       { label := { name := "z", totals := { methods := 10 } }, parent := some 0 },
       { label := { name := "w", totals := { methods := 4 } }, parent := some 0 },
       { label := { name := "y", totals := { methods := 10 } }, parent := some 0 } ]

/-- The first two children are the same in both orders of insertion, and a reader gets them
one by one though another one reads in between. -/
theorem rankings_of_family :
    ((family.childIds 0).map family.nameOf).Nodup ∧
    siblings.attachAll 0 [1, 2, 3] = .ok family ∧
    family.largestChildren 0 .methods (some 2) = .ok [3, 1] ∧
    (∃ twin,
      siblings.attachAll 0 [3, 1, 2] = .ok twin ∧
        twin.largestChildren 0 .methods (some 2) = .ok [3, 1]) ∧
    answersTo 1
        (serve family.rank
          (fun reader => .asked ⟨0, .methods, some (1 + reader)⟩) [1, 0, 1, 0, 1, 0]) =
      [.ok (some 3), .ok (some 1), .ok none] := by
  have names : ((family.childIds 0).map family.nameOf).Nodup := by decide
  have attached : siblings.attachAll 0 [1, 2, 3] = .ok family := by rfl
  obtain ⟨exact, -, -, inserted, -, apart⟩ :=
    @rankings_exact PackageNode.emptyRoot family 0 List.nodup_nil names
  obtain ⟨ranking, answers⟩ := (exact .methods).2
  obtain ⟨given, isGiven, isTake, -⟩ := answers.within 2 (by decide) (by decide)
  obtain rfl := answers.only [3, 1, 2] ⟨by decide, by decide⟩
  subst isTake
  obtain ⟨twin, twinAttached, twinAnswers⟩ :=
    inserted siblings [1, 2, 3] [3, 1, 2] (by decide) (by decide) attached
  refine ⟨names, attached, isGiven, ⟨twin, twinAttached, ?_⟩, ?_⟩
  · rw [(twinAnswers .methods (some 2)).1, isGiven]
    rfl
  · rw [apart _ _ 1 ⟨0, .methods, some 2⟩ rfl, Graph.rank, isGiven]
    rfl

/-- A limit that is no count of the machine is refused, though it is not negative. -/
theorem largestChildren_of_hugeLimit :
    ((family.childIds 0).map family.nameOf).Nodup ∧
    (0 : Int) ≤ 9223372036854775808 ∧
    family.largestChildren 0 .methods (some 9223372036854775808) =
      .error ⟨.badValue,
        "Stop argument for islice() must be None or an integer: 0 <= x <= sys.maxsize."⟩ ∧
    ∀ given, family.largestChildren 0 .methods (some 9223372036854775808) ≠ .ok given := by
  have refused :
      family.largestChildren 0 .methods (some 9223372036854775808) =
        .error ⟨.badValue,
          "Stop argument for islice() must be None or an integer: 0 <= x <= sys.maxsize."⟩ :=
    rfl
  refine ⟨by decide, by decide, refused, fun given isGiven => ?_⟩
  rw [refused] at isGiven
  cases isGiven

end Package

end ApkAtlas
