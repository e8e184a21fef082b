import ApkAtlas.Package.Ranking
import ApkAtlas.Proofs.Package.Totals

namespace ApkAtlas

/-!
# Trees that agree

Two trees agree if every path leads to the same label in both. Siblings may then stand in
different orders, yet nothing that is derived from the trees shows it: a walk visits the
same labels, the totals are the same, and so is each ranking of children.
-/

namespace PackageNode

/-- Every path leads to the same label in both trees. -/
def Agrees (first second : PackageNode) : Prop :=
  ∀ path, first.labelAt? path = second.labelAt? path

/-- A label can be looked up in two parts. -/
theorem labelAt?_append (node : PackageNode) (path rest : List String) :
    node.labelAt? (path ++ rest) =
      (node.find? path).bind fun below => below.labelAt? rest := by
  rw [labelAt?, find?_append, Option.map_bind]
  rfl

theorem Distinct.nodup_walk
    {node : PackageNode}
    (distinct : node.Distinct) :
    node.walk.Nodup := by
  apply List.Nodup.of_map Prod.fst
  rw [walk_eq_map, List.map_map]
  exact distinct.nodup_paths

/-- The labels of the children are those that are found by their names. -/
theorem Distinct.mem_map_label_iff
    {node : PackageNode}
    (distinct : node.Distinct)
    {label : NodeLabel} :
    label ∈ node.children.map PackageNode.label ↔
      node.labelAt? [label.name] = some label := by
  rw [List.mem_map, labelAt?_cons, Option.bind_eq_some_iff]
  constructor
  · rintro ⟨child, member, rfl⟩
    exact ⟨child, distinct.child?_name member, rfl⟩
  · rintro ⟨child, found, atTop⟩
    exact ⟨child, mem_of_child? found, Option.some.inj atTop⟩

namespace Agrees

variable {first second : PackageNode}

theorem symm (agrees : first.Agrees second) : second.Agrees first :=
  fun path => (agrees path).symm

/-- Where a path leads to a node in one tree, it does so in the other, and the nodes
agree. -/
theorem exists_find?
    (agrees : first.Agrees second)
    {path : List String}
    {below : PackageNode}
    (found : first.find? path = some below) :
    ∃ other, second.find? path = some other ∧ below.Agrees other := by
  have atPath := agrees path
  rw [labelAt?_of_find? found, labelAt?, eq_comm, Option.map_eq_some_iff] at atPath
  obtain ⟨other, otherFound, _⟩ := atPath
  refine ⟨other, otherFound, ?_⟩
  intro rest
  have atRest := agrees (path ++ rest)
  rw [labelAt?_append, labelAt?_append, found, otherFound] at atRest
  exact atRest

/-- What is the same for nodes that agree is the same at every path. -/
theorem map_find?_eq
    {Value : Type}
    (agrees : first.Agrees second)
    {view : PackageNode → Value}
    {path : List String}
    (same :
      ∀ below other,
        first.find? path = some below → second.find? path = some other →
          below.Agrees other → view below = view other) :
    (first.find? path).map view = (second.find? path).map view := by
  cases found : first.find? path with
  | none =>
      cases otherFound : second.find? path with
      | none =>
          rfl
      | some other =>
          obtain ⟨_, impossible, _⟩ := agrees.symm.exists_find? otherFound
          cases found.symm.trans impossible
  | some below =>
      obtain ⟨other, otherFound, belowAgrees⟩ := agrees.exists_find? found
      rw [otherFound, Option.map_some, Option.map_some, same below other found otherFound
        belowAgrees]

/-- Trees that agree are walked alike, but for the order. -/
theorem walk_perm
    (agrees : first.Agrees second)
    (firstDistinct : first.Distinct)
    (secondDistinct : second.Distinct) :
    first.walk.Perm second.walk := by
  rw [List.perm_ext_iff_of_nodup firstDistinct.nodup_walk secondDistinct.nodup_walk]
  rintro ⟨path, label⟩
  rw [firstDistinct.mem_walk_iff, secondDistinct.mem_walk_iff, agrees path]

/-- Trees that agree have the same sums. -/
theorem classSum_eq
    (agrees : first.Agrees second)
    (firstDistinct : first.Distinct)
    (secondDistinct : second.Distinct)
    (metric : Metric) :
    metric.classSum first = metric.classSum second := by
  have classes : first.classes.Perm second.classes :=
    (agrees.walk_perm firstDistinct secondDistinct).filter _
  exact (classes.map _).sum_eq

/-- Trees that agree do so after totals are derived. -/
theorem rollUp
    (agrees : first.Agrees second)
    (firstDistinct : first.Distinct)
    (secondDistinct : second.Distinct) :
    first.rollUp.Agrees second.rollUp := by
  intro path
  rw [labelAt?, labelAt?, find?_rollUp, find?_rollUp, Option.map_map, Option.map_map]
  apply agrees.map_find?_eq
  intro below other found otherFound belowAgrees
  have totals : below.rollUp.label.totals = other.rollUp.label.totals := by
    apply Metric.totals_ext
    intro metric
    rw [value_rollUp, value_rollUp]
    exact belowAgrees.classSum_eq (firstDistinct.of_find? found)
      (secondDistinct.of_find? otherFound) metric
  have label : below.label = other.label :=
    Option.some.inj (belowAgrees [])
  rw [Function.comp, Function.comp, label_rollUp below, label_rollUp other, totals, label]

/-- Trees that agree have the same labels of children, but for the order. -/
theorem children_perm
    (agrees : first.Agrees second)
    (firstDistinct : first.Distinct)
    (secondDistinct : second.Distinct) :
    (first.children.map PackageNode.label).Perm (second.children.map PackageNode.label) := by
  have nodup {node : PackageNode} (distinct : node.Distinct) :
      (node.children.map PackageNode.label).Nodup := by
    apply List.Nodup.of_map NodeLabel.name
    rw [List.map_map]
    exact distinct.names
  rw [List.perm_ext_iff_of_nodup (nodup firstDistinct) (nodup secondDistinct)]
  intro label
  rw [firstDistinct.mem_map_label_iff, secondDistinct.mem_map_label_iff, agrees]

end Agrees

end PackageNode

/-! ## Rankings -/

namespace Package

variable {metric : Metric}

/-- A higher value ranks first, and of the same values the lesser name. -/
theorem ranksBefore_iff {left right : NodeLabel} :
    ranksBefore metric left right ↔
      metric.value right.totals < metric.value left.totals ∨
        (metric.value left.totals = metric.value right.totals ∧ left.name ≤ right.name) := by
  simp [ranksBefore]

/-- Ranking is transitive. -/
theorem ranksBefore_trans
    (first second third : NodeLabel)
    (left : ranksBefore metric first second)
    (right : ranksBefore metric second third) :
    ranksBefore metric first third := by
  rw [ranksBefore_iff] at left right ⊢
  rcases left with more | ⟨same, names⟩
  · rcases right with more' | ⟨same', _⟩
    · exact .inl (more'.trans more)
    · exact .inl (same' ▸ more)
  · rcases right with more' | ⟨same', names'⟩
    · exact .inl (same ▸ more')
    · exact .inr ⟨same.trans same', names.trans names'⟩

/-- Of two labels one ranks before the other. -/
theorem ranksBefore_total (left right : NodeLabel) :
    ranksBefore metric left right || ranksBefore metric right left := by
  rw [Bool.or_eq_true, ranksBefore_iff, ranksBefore_iff]
  rcases lt_trichotomy (metric.value left.totals) (metric.value right.totals)
    with less | same | more
  · exact .inr (.inl less)
  · exact (le_total left.name right.name).imp (fun names => .inr ⟨same, names⟩)
      fun names => .inr ⟨same.symm, names⟩
  · exact .inl (.inl more)

/-- Labels that rank before each other have the same name. -/
theorem name_eq_of_ranksBefore
    {left right : NodeLabel}
    (forth : ranksBefore metric left right)
    (back : ranksBefore metric right left) :
    left.name = right.name := by
  rw [ranksBefore_iff] at forth back
  rcases forth with more | ⟨_, names⟩
  · rcases back with less | ⟨same, _⟩ <;> omega
  · rcases back with more | ⟨_, names'⟩
    · omega
    · exact names.antisymm names'

/-- Ranked items stand in the order of their labels. -/
theorem pairwise_ranked
    {Item : Type}
    (label : Item → NodeLabel)
    (metric : Metric)
    (items : List Item) :
    (ranked label metric items).Pairwise fun left right =>
      ranksBefore metric (label left) (label right) :=
  List.pairwise_mergeSort
    (fun first second third => ranksBefore_trans (label first) (label second) (label third))
    (fun first second => ranksBefore_total (label first) (label second)) items

/-- The labels of ranked items are their ranked labels. -/
theorem map_label_ranked
    {Item : Type}
    (label : Item → NodeLabel)
    (items : List Item) :
    (ranked label metric items).map label = ranked id metric (items.map label) := by
  rw [ranked, ranked, List.map_mergeSort]
  intro first _ second _
  rfl

/-- A ranking of labels with different names does not depend on their order before. -/
theorem ranked_eq_of_perm
    {first second : List NodeLabel}
    (perm : first.Perm second)
    (names : (first.map NodeLabel.name).Nodup) :
    ranked id metric first = ranked id metric second := by
  apply List.Perm.eq_of_pairwise _ (pairwise_ranked id metric first)
    (pairwise_ranked id metric second)
  · exact ((List.mergeSort_perm first _).trans perm).trans (List.mergeSort_perm second _).symm
  · intro left right inFirst inSecond forth back
    have leftMember := (List.mergeSort_perm first _).mem_iff.mp inFirst
    have rightMember :=
      perm.mem_iff.mpr ((List.mergeSort_perm second _).mem_iff.mp inSecond)
    exact List.inj_on_of_nodup_map names leftMember rightMember
      (name_eq_of_ranksBefore forth back)

/-- A view of a limited list is the limited list of views. -/
theorem map_limited
    {Item Label : Type}
    (label : Item → Label)
    (limit : Option Int)
    (items : List Item) :
    (limited limit items).map (List.map label) = limited limit (items.map label) := by
  cases limit with
  | none =>
      rfl
  | some limit =>
      rw [limited, limited]
      split
      · rw [← List.map_take]
        rfl
      · rfl

end Package

namespace PackageNode

/-- The labels of the first children of a node by a metric. -/
def largestLabels
    (node : PackageNode)
    (metric : Metric)
    (limit : Option Int) :
    Except ExternalError (List NodeLabel) :=
  (node.largestChildren metric limit).map (List.map PackageNode.label)

/-- Trees that agree have the same largest children. -/
theorem Agrees.largestLabels_eq
    {first second : PackageNode}
    (agrees : first.Agrees second)
    (firstDistinct : first.Distinct)
    (secondDistinct : second.Distinct)
    (metric : Metric)
    (limit : Option Int) :
    first.largestLabels metric limit = second.largestLabels metric limit := by
  have names : ((first.children.map PackageNode.label).map NodeLabel.name).Nodup := by
    rw [List.map_map]
    exact firstDistinct.names
  rw [largestLabels, largestLabels, largestChildren, largestChildren, Package.largest,
    Package.largest, Package.map_limited, Package.map_limited, Package.map_label_ranked,
    Package.map_label_ranked,
    Package.ranked_eq_of_perm (agrees.children_perm firstDistinct secondDistinct) names]

/-- Children are ranked alike at every path of trees that agree. -/
theorem Agrees.map_largestLabels
    {first second : PackageNode}
    (agrees : first.Agrees second)
    (firstDistinct : first.Distinct)
    (secondDistinct : second.Distinct)
    (path : List String)
    (metric : Metric)
    (limit : Option Int) :
    (first.find? path).map (fun node => node.largestLabels metric limit) =
      (second.find? path).map fun node => node.largestLabels metric limit := by
  apply agrees.map_find?_eq
  intro below other found otherFound belowAgrees
  exact belowAgrees.largestLabels_eq (firstDistinct.of_find? found)
    (secondDistinct.of_find? otherFound) metric limit

end PackageNode

end ApkAtlas
