import ApkAtlas.Proofs.Except
import ApkAtlas.Proofs.Storage.FileTree
import ApkAtlas.Storage.ReportStore

namespace ApkAtlas

/-!
# Where report keys lead

A key leads to the base directory of its store or to a place below it, with one exception:
a key of which cleaning leaves just two dots. Taking out colons comes after taking out
pairs of dots, so it can put two dots side by side, and as a single name they lead out.
Whatever the key, the file that tells about a report is below the base directory.
-/

namespace ReportKey

/-- What cleaning must leave of a key for the key to lead out of the base directory. -/
def twoDots : List Char :=
  ['.', '.']

theorem mem_withoutDouble
    {twin c : Char}
    (noTwin : c ≠ twin)
    {text : List Char}
    (member : c ∈ text) :
    c ∈ Text.withoutDouble twin text := by
  fun_induction Text.withoutDouble twin text with
  | case1 first second rest twins inductionHypothesis =>
      obtain ⟨rfl, rfl⟩ := twins
      simp only [List.mem_cons, noTwin, false_or] at member
      exact inductionHypothesis member
  | case2 first second rest _ inductionHypothesis =>
      rcases List.mem_cons.mp member with rfl | inRest
      · exact List.mem_cons_self
      · exact List.mem_cons_of_mem _ (inductionHypothesis inRest)
  | case3 short _ =>
      exact member

/-- Cleaning takes out nothing but slashes, dots and colons. -/
theorem mem_clean
    {key : String}
    {c : Char}
    (member : c ∈ key.toList)
    (ordinary : c ∉ ['/', '\\', '.', ':']) :
    c ∈ clean key := by
  simp only [List.mem_cons, List.not_mem_nil, or_false, not_or] at ordinary
  obtain ⟨noSlash, noBackslash, noDot, noColon⟩ := ordinary
  have inFront : c ∈ key.toList.dropWhile fun c => c == '/' || c == '\\' := by
    rw [← List.takeWhile_append_dropWhile (p := fun c => c == '/' || c == '\\')
      (l := key.toList), List.mem_append] at member
    rcases member with stripped | kept
    · have isSlash := List.mem_takeWhile_imp stripped
      simp [noSlash, noBackslash] at isSlash
    · exact kept
  rw [clean, List.mem_filter]
  exact ⟨mem_withoutDouble noDot inFront, by simpa using noColon⟩

/-- Cleaning the key of the file that tells about a report never leaves just two dots. -/
theorem clean_metadataKey_ne (key : String) : clean (metadataKey key) ≠ twoDots := by
  intro same
  have inKey : 'm' ∈ (metadataKey key).toList := by
    simp [metadataKey, metadataSuffix]
  have inClean := mem_clean inKey (by decide)
  rw [same] at inClean
  revert inClean
  decide

/-- A key without separators has no slash. -/
theorem slash_not_mem_flattened (key : List Char) : '/' ∉ flattened key := by
  intro member
  obtain ⟨c, _, flat⟩ := List.mem_map.mp member
  split at flat
  · cases flat
  · rename_i kept
    simp [flat] at kept

/-- Only two dots are left as two dots when separators are replaced. -/
theorem eq_twoDots_of_flattened
    {key : List Char}
    (flat : flattened key = twoDots) :
    key = twoDots := by
  have onlyDots : ∀ c ∈ key, c = '.' := by
    intro c member
    have inFlat : (if c == '/' || c == '\\' then '_' else c) ∈ twoDots := by
      rw [← flat]
      exact List.mem_map_of_mem member
    have isDot : (if c == '/' || c == '\\' then '_' else c) = '.' := by
      simpa [twoDots] using inFlat
    split at isDot
    · cases isDot
    · exact isDot
  have length : key.length = 2 := by
    rw [← List.length_map, ← flattened, flat]
    rfl
  rw [List.eq_replicate_of_mem onlyDots, length]
  rfl

variable {base : List String} {key : String}

/-- A key that would lead out of the base directory becomes one name. -/
theorem names_of_leaving
    (leaving :
      let path := FilePath.ofText (String.ofList (clean key))
      ¬ base <+: FilePath.follow (if path.rootSlashes = 0 then base else []) path.names) :
    names base key = FilePath.namesOf (String.ofList (flattened (clean key))) := by
  rw [names]
  exact if_neg (by simpa [List.isPrefixOf_iff_prefix] using leaving)

/-- Any other key leads from the base directory to where its text leads. -/
theorem append_names_of_staying
    (staying :
      let path := FilePath.ofText (String.ofList (clean key))
      base <+: FilePath.follow (if path.rootSlashes = 0 then base else []) path.names) :
    base ++ names base key =
      let path := FilePath.ofText (String.ofList (clean key))
      FilePath.follow (if path.rootSlashes = 0 then base else []) path.names := by
  simp only [names, List.isPrefixOf_iff_prefix.mpr staying, if_true]
  exact List.prefix_iff_eq_append.mp staying

/-- No key but the exceptional ones leads back on its way. -/
theorem not_mem_names
    (normal : ".." ∉ base)
    (ordinary : clean key ≠ twoDots) :
    ".." ∉ names base key := by
  by_cases stays :
      base <+: FilePath.follow
        (if (FilePath.ofText (String.ofList (clean key))).rootSlashes = 0 then base else [])
        (FilePath.ofText (String.ofList (clean key))).names
  · have noReturn :
        ".." ∉ FilePath.follow
          (if (FilePath.ofText (String.ofList (clean key))).rootSlashes = 0 then base else [])
          (FilePath.ofText (String.ofList (clean key))).names := by
      apply FilePath.not_mem_follow
      split
      · exact normal
      · simp
    simp only [names, List.isPrefixOf_iff_prefix.mpr stays, if_true]
    exact fun member => noReturn (List.mem_of_mem_drop member)
  · rw [names_of_leaving stays, FilePath.namesOf_of_not_mem]
    · split
      · simp
      · intro member
        have flat : ".." = String.ofList (flattened (clean key)) := List.mem_singleton.mp member
        apply ordinary
        apply eq_twoDots_of_flattened
        rw [← String.toList_ofList (l := flattened (clean key)), ← flat]
        rfl
    · simpa using slash_not_mem_flattened (clean key)

/-- Two dots lead from a base directory to the one around it. -/
theorem names_of_twoDots
    (cleaned : clean key = twoDots)
    (below : base ≠ []) :
    names base key = [".."] := by
  have path : FilePath.ofText (String.ofList twoDots) = ⟨0, [".."]⟩ := by
    decide
  have shorter : ¬ base <+: base.dropLast := by
    intro isPrefix
    have length := isPrefix.length_le
    have positive := List.length_pos_iff.mpr below
    rw [List.length_dropLast] at length
    omega
  rw [names_of_leaving]
  · rw [cleaned]
    decide
  · rw [cleaned, path]
    exact shorter

end ReportKey

namespace ReportStore

open ReportKey (twoDots metadataKey)

variable {store : ReportStore} {key : String}

/-- A path is at the base directory of a store or below it, both as it is written and
where it leads. -/
structure Encloses (store : ReportStore) (path : FilePath) : Prop where
  written : store.base <+: path.names
  reached : store.base <+: FilePath.follow [] path.names

/-- A path that starts at the root and leads to the base directory or below it without
turning back. -/
structure Direct (store : ReportStore) (path : FilePath) : Prop where
  absolute : path.rootSlashes = 1
  below : store.base <+: path.names
  noReturn : ".." ∉ path.names

variable {path : FilePath}

/-- The path of a report leads to one name below the base, unless two dots are left of its key. -/
theorem direct_path
    (normal : ".." ∉ store.base)
    (ordinary : ReportKey.clean key ≠ twoDots) :
    store.Direct (store.path key) where
  absolute := rfl
  below := List.prefix_append _ _
  noReturn := by
    simpa [ReportStore.path, FileTree.pathOf] using
      ⟨normal, ReportKey.not_mem_names normal ordinary⟩

/-- A direct path stays in the base directory. -/
theorem Direct.encloses (direct : store.Direct path) : store.Encloses path where
  written := direct.below
  reached := by
    rw [FilePath.follow_of_not_mem direct.noReturn]
    exact direct.below

/-- Following a direct path leads to its names, in any file tree. -/
theorem Direct.follow_origin
    (direct : store.Direct path)
    (tree : FileTree) :
    FilePath.follow (tree.origin path) path.names = path.names := by
  simp [FileTree.origin, direct.absolute, FilePath.follow_of_not_mem direct.noReturn]

/-- Of a store below the root, the exceptional keys lead to the directory around it. -/
theorem follow_path_of_twoDots
    (normal : ".." ∉ store.base)
    (below : store.base ≠ [])
    (cleaned : ReportKey.clean key = twoDots) :
    FilePath.follow [] (store.path key).names = store.base.dropLast := by
  have names : store.placeNames key = [".."] := ReportKey.names_of_twoDots cleaned below
  rw [path, names, FileTree.pathOf, FilePath.follow_append,
    FilePath.follow_of_not_mem normal, List.nil_append]
  rfl

/-- Two dots lead out of the base directory. -/
theorem not_encloses_path_of_twoDots
    (normal : ".." ∉ store.base)
    (below : store.base ≠ [])
    (cleaned : ReportKey.clean key = twoDots) :
    ¬ store.Encloses (store.path key) := by
  intro encloses
  have length := encloses.reached.length_le
  have positive := List.length_pos_iff.mpr below
  rw [follow_path_of_twoDots normal below cleaned, List.length_dropLast] at length
  omega

/-- Nothing outside the base directory changes, except that directories on the way to it
are made where there is nothing. -/
def Unharmed (store : ReportStore) (before after : FileTree) : Prop :=
  ∀ place, ¬ store.base <+: place →
    after.node? place = before.node? place ∨
      (place <+: store.base ∧ before.node? place = none ∧
        after.node? place = some .directory)

theorem Unharmed.refl (tree : FileTree) : store.Unharmed tree tree :=
  fun _ _ => .inl rfl

theorem Unharmed.trans
    {first second third : FileTree}
    (early : store.Unharmed first second)
    (late : store.Unharmed second third) :
    store.Unharmed first third := by
  intro place outside
  rcases early place outside, late place outside with
    ⟨same | ⟨onWay, missing, made⟩, sameLater | ⟨onWayLater, missingLater, madeLater⟩⟩
  · exact .inl (sameLater.trans same)
  · exact .inr ⟨onWayLater, same.symm.trans missingLater, madeLater⟩
  · exact .inr ⟨onWay, missing, sameLater.trans made⟩
  · rw [made] at missingLater
    cases missingLater

/-- An action leaves everything outside the base directory as it is. -/
def Contains {Value : Type} (store : ReportStore) (action : StoreAction Value) : Prop :=
  ∀ tree, store.Unharmed tree (action.run.run tree).2

section Actions

variable {Value Other : Type}

theorem Contains.pure (value : Value) : store.Contains (Pure.pure value) :=
  fun tree => .refl tree

/-- The next action sees the files as the first one leaves them, if that succeeds. -/
theorem run_bind
    (action : StoreAction Value)
    (next : Value → StoreAction Other)
    (tree : FileTree) :
    (action >>= next).run.run tree =
      match action.run.run tree with
      | (.ok value, after) => (next value).run.run after
      | (.error error, after) => (.error error, after) := by
  rw [ExceptT.run_bind, StateT.run_bind]
  rcases action.run.run tree with ⟨_ | _, after⟩ <;> rfl

/-- A sequence stays inside if its steps do. -/
theorem Contains.bind
    {action : StoreAction Value}
    {next : Value → StoreAction Other}
    (first : store.Contains action)
    (later : ∀ value, store.Contains (next value)) :
    store.Contains (action >>= next) := by
  intro tree
  have early := first tree
  rw [run_bind]
  cases ran : action.run.run tree with
  | mk result after =>
      rw [ran] at early
      cases result with
      | ok value =>
          exact early.trans (later value after)
      | error _ =>
          exact early

theorem Contains.get : store.Contains (MonadState.get : StoreAction FileTree) :=
  fun tree => .refl tree

/-- A change takes its step in the file tree, or ends with the problem. -/
theorem run_change
    (path : FilePath)
    (step : FileTree → Except FileProblem FileTree)
    (tree : FileTree) :
    (ReportStore.change path step).run.run tree =
      match step tree with
      | .ok changed => (.ok (), changed)
      | .error problem => (.error (.file problem path.toText), tree) := by
  have opened :
      (ReportStore.change path step).run.run tree =
        ((match step tree with
          | .ok changed => set changed
          | .error problem => throw (.file problem path.toText)) :
            StoreAction Unit).run.run tree :=
    rfl
  rw [opened]
  cases step tree <;> rfl

/-- A change stays inside if its step does. -/
theorem Contains.change
    {path : FilePath}
    {step : FileTree → Except FileProblem FileTree}
    (harmless : ∀ tree after, step tree = .ok after → store.Unharmed tree after) :
    store.Contains (ReportStore.change path step) := by
  intro tree
  rw [run_change]
  cases stepped : step tree with
  | ok after =>
      exact harmless tree after stepped
  | error _ =>
      exact .refl tree

end Actions

/-- Making the directories of a file below the base directory makes directories on the way
to the base directory or below it. -/
theorem Direct.unharmed_makeDirectories
    (direct : store.Direct path)
    {tree after : FileTree}
    (made : tree.makeDirectories [] path.names.dropLast = .ok after) :
    store.Unharmed tree after := by
  intro place outside
  rcases FileTree.node?_of_makeDirectories made place with same | ⟨onWay, missing, isMade⟩
  · exact .inl same
  · have onPath : place <+: path.names := onWay.trans (List.dropLast_prefix _)
    have toBase : place <+: store.base :=
      (List.prefix_or_prefix_of_prefix onPath direct.below).resolve_right outside
    exact .inr ⟨toBase, missing, isMade⟩

/-- Writing at a direct path stays inside. -/
theorem Direct.contains_writeText
    (direct : store.Direct path)
    (content : String) :
    store.Contains (writeText path content) := by
  apply Contains.bind
  · apply Contains.change
    intro tree after made
    exact direct.unharmed_makeDirectories made
  · intro _
    apply Contains.change
    intro tree after written place outside
    obtain ⟨target, located, writes⟩ := exists_of_bind_eq_ok written
    rw [FileTree.eq_follow_of_locate located, direct.follow_origin] at writes
    have different : place ≠ path.names := by
      rintro rfl
      exact outside direct.below
    exact .inl (FileTree.node?_of_write writes different)

/-- Removing at a direct path stays inside. -/
theorem Direct.contains_removeAt (direct : store.Direct path) :
    store.Contains (removeAt path) := by
  apply Contains.bind Contains.get
  intro tree
  split
  · exact Contains.pure false
  · apply Contains.bind
    · apply Contains.change
      intro tree after removed place outside
      obtain ⟨target, located, removes⟩ := exists_of_bind_eq_ok removed
      rw [FileTree.eq_follow_of_locate located, direct.follow_origin] at removes
      have different : place ≠ path.names := by
        rintro rfl
        exact outside direct.below
      exact .inl (FileTree.node?_of_remove removes different)
    · intro _
      exact Contains.pure true

/-- Whatever a direct path leads to is at the base directory or below it. -/
theorem Direct.below_of_find
    (direct : store.Direct path)
    {tree : FileTree}
    {place : List String}
    {node : FileNode}
    (found : tree.find path = .ok (place, node)) :
    store.base <+: place := by
  rw [FileTree.eq_follow_of_find found, direct.follow_origin]
  exact direct.below

/-- The file that tells about a report is below the base directory. So is the report,
exactly if cleaning its key does not leave just two dots; reading, storing and removing
it do not reach outside then. -/
theorem keys_lead_below_base
    (normal : ".." ∉ store.base)
    (key : String) :
    store.Encloses (store.metadataPath key) ∧
      (store.Encloses (store.path key) ↔
        (ReportKey.clean key = twoDots → store.base = [])) ∧
      (ReportKey.clean key ≠ twoDots →
        (∀ path ∈ [store.path key, store.metadataPath key], ∀ tree place node,
          FileTree.find tree path = .ok (place, node) → store.base <+: place) ∧
        (∀ storedAt document given,
          store.Contains (store.save key storedAt document given)) ∧
        store.Contains (store.erase key)) := by
  have metadata : store.Direct (store.metadataPath key) :=
    direct_path normal (ReportKey.clean_metadataKey_ne key)
  refine ⟨metadata.encloses, ⟨?_, ?_⟩, ?_⟩
  · intro encloses cleaned
    by_contra below
    exact not_encloses_path_of_twoDots normal below cleaned encloses
  · intro exceptional
    by_cases cleaned : ReportKey.clean key = twoDots
    · have atRoot := exceptional cleaned
      exact ⟨by simp [atRoot], by simp [atRoot]⟩
    · exact (direct_path normal cleaned).encloses
  · intro ordinary
    have report := direct_path normal ordinary
    refine ⟨?_, ?_, ?_⟩
    · intro path member tree place node found
      rcases List.mem_pair.mp member with rfl | rfl
      · exact report.below_of_find found
      · exact metadata.below_of_find found
    · intro storedAt document given
      apply Contains.bind (report.contains_writeText _)
      intro _
      exact metadata.contains_writeText _
    · apply Contains.bind report.contains_removeAt
      intro known
      apply Contains.bind metadata.contains_removeAt
      intro _
      exact Contains.pure known

/-- Two ways back that only show when colons are taken out become one name. -/
theorem encloses_path_hiddenReturns :
    ".." ∉ ["srv", "reports"] ∧
      ReportKey.clean ":.:./.:./etc/passwd" ≠ twoDots ∧
      (ReportStore.mk ["srv", "reports"]).path ":.:./.:./etc/passwd" =
        ⟨1, ["srv", "reports", ".._.._etc_passwd"]⟩ ∧
      (ReportStore.mk ["srv", "reports"]).Encloses
        ((ReportStore.mk ["srv", "reports"]).path ":.:./.:./etc/passwd") := by
  have normal : ".." ∉ ["srv", "reports"] := by
    decide
  have ordinary : ReportKey.clean ":.:./.:./etc/passwd" ≠ twoDots := by
    decide
  refine ⟨normal, ordinary, by decide, ?_⟩
  exact
    (@keys_lead_below_base ⟨["srv", "reports"]⟩ normal ":.:./.:./etc/passwd").2.1.mpr
      fun cleaned => absurd cleaned ordinary

/-- The key `.:.` leads to the directory around the base directory. -/
theorem not_encloses_path_dotColonDot :
    (ReportStore.mk ["srv", "reports"]).path ".:." = ⟨1, ["srv", "reports", ".."]⟩ ∧
      ¬ (ReportStore.mk ["srv", "reports"]).Encloses
        ((ReportStore.mk ["srv", "reports"]).path ".:.") := by
  have path :
      (ReportStore.mk ["srv", "reports"]).path ".:." = ⟨1, ["srv", "reports", ".."]⟩ := by
    decide
  refine ⟨path, ?_⟩
  rintro ⟨_, reached⟩
  rw [path] at reached
  revert reached
  decide

end ReportStore

end ApkAtlas
