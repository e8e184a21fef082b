import ApkAtlas.Proofs.Datum.Json
import ApkAtlas.Report

namespace ApkAtlas

/-!
# Reports are read back from their records

Each part of a report is read back from the record that is written for it, and so is the whole.
JSON can tell the records apart, as long as no kind of chunk is counted twice.
-/

namespace Checked

variable {Value Other : Type}

@[simp] theorem map_valid (f : Value → Other) (value : Value) :
    f <$> valid value = valid (f value) :=
  rfl

@[simp] theorem seq_valid (f : Value → Other) (value : Value) :
    (valid f <*> valid value) = valid (f value) :=
  rfl

/-- Parts that are all valid are valid together. -/
theorem all_map_valid (values : List Value) : all (values.map valid) = valid values := by
  induction values with
  | nil =>
      rfl
  | cons first rest inductionHypothesis =>
      rw [List.map_cons, all, inductionHypothesis]
      rfl

end Checked

namespace Form

variable {Value : Type}

@[simp] theorem under_valid (name : String) (value : Value) :
    under name (.valid value) = .valid value :=
  rfl

@[simp] theorem text_text (value : String) : text (.text value) = .valid value :=
  rfl

@[simp] theorem number_int (value : Int) : number (.int value) = .valid value :=
  rfl

@[simp] theorem truth_bool (value : Bool) : truth (.bool value) = .valid value :=
  rfl

/-- A text that may be missing is read back. -/
@[simp] theorem optional_optionalText (value : Option String) :
    optional text (Datum.optionalText value) = .valid value := by
  cases value <;> rfl

/-- A number that may be missing is read back. -/
@[simp] theorem optional_optionalInt (value : Option Int) :
    optional number (Datum.optionalInt value) = .valid value := by
  cases value <;> rfl

/-- A truth value that may be missing is read back. -/
@[simp] theorem optional_optionalBool (value : Option Bool) :
    optional truth (Datum.optionalBool value) = .valid value := by
  cases value <;> rfl

/-- A list of written values is read back if each of them is. -/
theorem list_map
    {write : Value → Datum}
    {read : Datum → Checked Value}
    {values : List Value}
    (reads : ∀ value ∈ values, read (write value) = .valid value) :
    list read (.list (values.map write)) = .valid values := by
  have each (index : Nat) :
      (((values.map write).zipIdx index).map fun entry =>
        under (toString entry.2) (read entry.1)) = values.map Checked.valid := by
    induction values generalizing index with
    | nil =>
        rfl
    | cons first rest inductionHypothesis =>
        rw [List.forall_mem_cons] at reads
        rw [List.map_cons, List.zipIdx_cons, List.map_cons, inductionHypothesis reads.2]
        simp only [reads.1]
        rfl
  have opened : list read (.list (values.map write)) =
      Checked.all ((values.map write).zipIdx.map fun entry =>
        under (toString entry.2) (read entry.1)) :=
    rfl
  rw [opened, each, Checked.all_map_valid]

/-- A list of texts is read back. -/
@[simp] theorem list_texts (values : List String) :
    list text (Datum.texts values) = .valid values :=
  list_map fun _ _ => rfl

/-- A table of written numbers is read back. -/
theorem table_map (counts : List (String × Int)) :
    table number (.record (counts.map fun entry => (entry.1, .int entry.2))) = .valid counts := by
  have opened : table number (.record (counts.map fun entry => (entry.1, .int entry.2))) =
      Checked.all (counts.map Checked.valid) := by
    rw [table, List.map_map]
    rfl
  rw [opened, Checked.all_map_valid]

/-- A part that may be missing is read back if it is one when it is there. -/
theorem optional_optionalPart
    {write : Value → Datum}
    {read : Datum → Checked Value}
    (reads : ∀ value, read (write value) = .valid value)
    (isPart : ∀ value, write value ≠ .null)
    (part : Option Value) :
    optional read (Report.optionalPart write part) = .valid part := by
  cases part with
  | none =>
      rfl
  | some value =>
      have written : optional read (write value) = (read (write value)).map some := by
        rw [optional]
        exact isPart value
      rw [Report.optionalPart, written, reads]
      rfl

end Form

/-! ## Parts -/

/-- An intent filter is read back from its form. -/
theorem IntentFilter.ofFields_toDatum (filter : IntentFilter) :
    Form.fields IntentFilter.ofFields filter.toDatum = .valid filter := by
  simp [toDatum, ofFields, Form.fields, Form.texts, Form.withDefault, Table.get?]

/-- A component is read back from its fields, whatever fields follow them. -/
theorem Component.ofFields_append
    (component : Component)
    (more : List (String × Datum)) :
    Component.ofFields (component.toFields ++ more) = .valid component := by
  have filters : Form.list (Form.fields IntentFilter.ofFields)
      (.list (component.intentFilters.map IntentFilter.toDatum)) =
        .valid component.intentFilters :=
    Form.list_map fun filter _ => filter.ofFields_toDatum
  simp [toFields, ofFields, Form.required, Form.withDefault, Table.get?, filters]

/-- A component is read back with its intent filters. -/
theorem Component.ofFields_toDatum (component : Component) :
    Form.fields Component.ofFields component.toDatum = .valid component := by
  have whole := component.ofFields_append []
  rw [List.append_nil] at whole
  exact whole

/-- A provider is read back: its component and its authorities share one form. -/
theorem Provider.ofFields_toDatum (provider : Provider) :
    Form.fields Provider.ofFields provider.toDatum = .valid provider := by
  rw [toDatum, Form.fields, ofFields, Component.ofFields_append]
  simp [Component.toFields, Form.texts, Form.withDefault, Table.get?]

/-- A manifest is read back with all its components. -/
theorem Manifest.ofFields_toDatum (manifest : Manifest) :
    Form.fields Manifest.ofFields manifest.toDatum = .valid manifest := by
  have components (list : List Component) :
      Form.list (Form.fields Component.ofFields) (.list (list.map Component.toDatum)) =
        .valid list :=
    Form.list_map fun component _ => component.ofFields_toDatum
  have providers :
      Form.list (Form.fields Provider.ofFields)
        (.list (manifest.providers.map Provider.toDatum)) = .valid manifest.providers :=
    Form.list_map fun provider _ => provider.ofFields_toDatum
  simp [toDatum, ofFields, Form.fields, Form.required, Form.texts, Form.withDefault, Table.get?,
    components, providers]

/-- The counts of a DEX file are read back. -/
theorem Dex.FileStats.ofFields_toDatum (stats : Dex.FileStats) :
    Form.fields Dex.FileStats.ofFields stats.toDatum = .valid stats := by
  simp [toDatum, ofFields, Form.fields, Form.required, Form.count, Form.withDefault, Table.get?]

/-- An archive entry is read back. -/
theorem ArchiveEntry.ofFields_toDatum (entry : ArchiveEntry) :
    Form.fields ArchiveEntry.ofFields entry.toDatum = .valid entry := by
  simp [toDatum, ofFields, Form.fields, Form.required, Form.count, Form.withDefault, Table.get?]

/-- A package of the resource table is read back. -/
theorem ResourcePackage.ofFields_toDatum (package : ResourcePackage) :
    Form.fields ResourcePackage.ofFields package.toDatum = .valid package := by
  simp [toDatum, ofFields, Form.fields, Form.required, Form.count, Form.withDefault, Table.get?]

/-- A summary of the resource table is read back with its packages and chunk counts. -/
theorem ResourceTable.ofFields_toDatum (table : ResourceTable) :
    Form.fields ResourceTable.ofFields table.toDatum = .valid table := by
  have packages :
      Form.list (Form.fields ResourcePackage.ofFields)
        (.list (table.packages.map ResourcePackage.toDatum)) = .valid table.packages :=
    Form.list_map fun package _ => package.ofFields_toDatum
  have counts := Form.table_map table.chunkCounts
  simp [toDatum, ofFields, Form.fields, Form.count, Form.withDefault, Table.get?, packages, counts]

/-! ## Summaries -/

namespace Datum

/-- No item of a list is nested deeper than the list. -/
theorem depth_le_depthOfItems
    {item : Datum}
    {items : List Datum}
    (member : item ∈ items) :
    item.depth ≤ depthOfItems items := by
  induction items with
  | nil =>
      cases member
  | cons first rest inductionHypothesis =>
      rw [depthOfItems]
      rcases List.mem_cons.mp member with rfl | inRest
      · exact Nat.le_max_left _ _
      · exact (inductionHypothesis inRest).trans (Nat.le_max_right _ _)

end Datum

namespace PackageSummary

/-- The forms of summaries are those of each of them. -/
theorem toData_eq_map (summaries : List PackageSummary) :
    toData summaries = summaries.map toDatum := by
  induction summaries with
  | nil =>
      rw [toData]
      rfl
  | cons first rest inductionHypothesis =>
      rw [toData, inductionHypothesis]
      rfl

/-- The records of children are less deep. -/
theorem depth_child_lt
    {summary child : PackageSummary}
    (member : child ∈ summary.children) :
    child.toDatum.depth < summary.toDatum.depth := by
  obtain ⟨name, kind, totals, dexFile, children⟩ := summary
  have inItems : child.toDatum ∈ children.map toDatum := List.mem_map_of_mem member
  have inList := Datum.depth_le_depthOfItems inItems
  rw [toDatum, toData_eq_map]
  simp only [Datum.depthOfFields, Datum.depth]
  omega

/-- A summary is read back where the depth that is looked into exceeds that of its form. -/
theorem ofDatumWithin_toDatum
    {depth : Nat}
    {summary : PackageSummary}
    (enough : summary.toDatum.depth < depth) :
    ofDatumWithin depth summary.toDatum = .valid summary := by
  induction depth generalizing summary with
  | zero =>
      cases enough
  | succ depth inductionHypothesis =>
      have children :
          Form.list (ofDatumWithin depth) (.list (summary.children.map toDatum)) =
            .valid summary.children := by
        apply Form.list_map
        intro child member
        apply inductionHypothesis
        have less := depth_child_lt member
        omega
      obtain ⟨name, kind, totals, dexFile, list⟩ := summary
      have named : Form.name NodeKind.ofName? (.text kind.name) = .valid kind := by
        cases kind <;> rfl
      simp only at children
      rw [ofDatumWithin, toDatum, toData_eq_map]
      simp [Form.fields, ofFieldsWith, totalsOfFields, Form.required, Form.count,
        Form.withDefault, Table.get?, named, children]

/-- A summary of packages is read back, however deep it is. -/
theorem ofDatum_toDatum (summary : PackageSummary) :
    ofDatum summary.toDatum = .valid summary :=
  ofDatumWithin_toDatum (Nat.lt_succ_self _)

end PackageSummary

/-! ## Documents -/

/-- A report is read back with all its parts. -/
theorem Report.ofFields_toDatum (report : Report) :
    Form.fields Report.ofFields report.toDatum = .valid report := by
  have manifest :=
    Form.optional_optionalPart Manifest.ofFields_toDatum (fun _ => nofun) report.manifest
  have dexFiles :
      Form.list (Form.fields Dex.FileStats.ofFields)
        (.list (report.dexFiles.map Dex.FileStats.toDatum)) = .valid report.dexFiles :=
    Form.list_map fun stats _ => stats.ofFields_toDatum
  have packages :=
    Form.optional_optionalPart PackageSummary.ofDatum_toDatum
      (fun summary => by cases summary; simp [PackageSummary.toDatum]) report.packages
  have resources :=
    Form.optional_optionalPart ResourceTable.ofFields_toDatum (fun _ => nofun) report.resources
  simp [toDatum, ofFields, Form.fields, Form.required, Form.texts, Form.withDefault, Table.get?,
    manifest, dexFiles, packages, resources]

namespace StoredDocument

/-- A document is read back from its record as one of its kind. -/
theorem ofDatum_toDatum (document : StoredDocument) :
    ofDatum document.kind document.toDatum = .valid document := by
  cases document with
  | report content =>
      exact congrArg (Checked.map report) content.ofFields_toDatum
  | manifest content =>
      exact congrArg (Checked.map manifest) content.ofFields_toDatum
  | dexStats content =>
      exact congrArg (Checked.map dexStats) content.ofFields_toDatum
  | entry content =>
      exact congrArg (Checked.map entry) content.ofFields_toDatum
  | summary content =>
      exact congrArg (Checked.map summary) content.ofDatum_toDatum

end StoredDocument

/-! ## Records that JSON can tell apart -/

namespace Datum

theorem Plain.optionalText (value : Option String) : Plain (optionalText value) := by
  cases value with
  | none =>
      exact .null
  | some value =>
      exact .text value

theorem Plain.optionalInt (value : Option Int) : Plain (optionalInt value) := by
  cases value with
  | none =>
      exact .null
  | some value =>
      exact .int value

theorem Plain.optionalBool (value : Option Bool) : Plain (optionalBool value) := by
  cases value with
  | none =>
      exact .null
  | some value =>
      exact .bool value

/-- A list is plain if the form of each of its items is. -/
theorem Plain.list_map
    {Value : Type}
    {write : Value → Datum}
    {values : List Value}
    (each : ∀ value ∈ values, Plain (write value)) :
    Plain (.list (values.map write)) := by
  apply Plain.list
  intro item member
  obtain ⟨value, isValue, rfl⟩ := List.mem_map.mp member
  exact each value isValue

theorem Plain.texts (values : List String) : Plain (texts values) :=
  Plain.list_map fun value _ => .text value

/-- A part that may be missing is plain if it is where it is there. -/
theorem Plain.optionalPart
    {Part : Type}
    {write : Part → Datum}
    {part : Option Part}
    (each : ∀ value ∈ part, Plain (write value)) :
    Plain (Report.optionalPart write part) := by
  cases part with
  | none =>
      exact .null
  | some value =>
      exact each value rfl

end Datum

open Datum (Plain)

theorem IntentFilter.plain_toDatum (filter : IntentFilter) : Plain filter.toDatum := by
  apply Plain.record
  · simp
  · simp [Plain.texts]

/-- The forms of the intent filters are plain. -/
theorem Component.plain_filters (component : Component) :
    Plain (.list (component.intentFilters.map IntentFilter.toDatum)) :=
  Plain.list_map fun filter _ => filter.plain_toDatum

/-- The form of a component is plain. -/
theorem Component.plain_toDatum (component : Component) : Plain component.toDatum := by
  apply Plain.record
  · simp [toFields]
  · simp [toFields, Plain.text, Plain.optionalBool, component.plain_filters]

theorem Provider.plain_toDatum (provider : Provider) : Plain provider.toDatum := by
  apply Plain.record
  · simp [Component.toFields]
  · simp [Component.toFields, Plain.text, Plain.optionalBool, Plain.texts,
      provider.component.plain_filters]

/-- The form of a manifest is plain. -/
theorem Manifest.plain_toDatum (manifest : Manifest) : Plain manifest.toDatum := by
  have components (list : List Component) : Plain (.list (list.map Component.toDatum)) :=
    Plain.list_map fun component _ => component.plain_toDatum
  have providers : Plain (.list (manifest.providers.map Provider.toDatum)) :=
    Plain.list_map fun provider _ => provider.plain_toDatum
  apply Plain.record
  · simp
  · simp [Plain.text, Plain.optionalInt, Plain.optionalText, Plain.texts, components, providers]

theorem Dex.FileStats.plain_toDatum (stats : Dex.FileStats) : Plain stats.toDatum := by
  apply Plain.record
  · simp
  · simp [Plain.text, Plain.int]

theorem ArchiveEntry.plain_toDatum (entry : ArchiveEntry) : Plain entry.toDatum := by
  apply Plain.record
  · simp
  · simp [Plain.text, Plain.int, Plain.bool]

theorem ResourcePackage.plain_toDatum (package : ResourcePackage) : Plain package.toDatum := by
  apply Plain.record
  · simp
  · simp [Plain.text, Plain.int]

/-- The form of a resource table is plain if no kind of chunk is counted twice. -/
theorem ResourceTable.plain_toDatum
    {table : ResourceTable}
    (once : (table.chunkCounts.map Prod.fst).Nodup) :
    Plain table.toDatum := by
  have packages : Plain (.list (table.packages.map ResourcePackage.toDatum)) :=
    Plain.list_map fun package _ => package.plain_toDatum
  have counts :
      Plain (.record (table.chunkCounts.map fun entry => (entry.1, .int entry.2))) := by
    apply Plain.record
    · rw [List.map_map]
      exact once
    · intro field member
      obtain ⟨count, _, rfl⟩ := List.mem_map.mp member
      exact .int count.2
  apply Plain.record
  · simp
  · simp only [List.forall_mem_cons]
    exact ⟨.int _, .int _, packages, counts, List.forall_mem_nil _⟩

/-- The form of a summary of packages is plain at every depth. -/
theorem PackageSummary.plain_toDatum
    {depth : Nat}
    {summary : PackageSummary}
    (bounded : summary.toDatum.depth < depth) :
    Plain summary.toDatum := by
  induction depth generalizing summary with
  | zero =>
      cases bounded
  | succ depth inductionHypothesis =>
      have children : Plain (.list (summary.children.map toDatum)) := by
        apply Plain.list_map
        intro child member
        apply inductionHypothesis
        have less := depth_child_lt member
        omega
      obtain ⟨name, kind, totals, dexFile, list⟩ := summary
      simp only at children
      rw [toDatum, toData_eq_map]
      apply Plain.record
      · simp
      · simp [Plain.text, Plain.int, Plain.optionalText, children]

namespace StoredDocument

/-- No kind of chunk is counted twice in a document. -/
def CountsOnce : StoredDocument → Prop
  | .report content => ∀ table ∈ content.resources, (table.chunkCounts.map Prod.fst).Nodup
  | _ => True

/-- The form of a stored document is plain, so writing it loses nothing. -/
theorem plain_toDatum
    {document : StoredDocument}
    (once : document.CountsOnce) :
    Plain document.toDatum := by
  cases document with
  | report content =>
      have manifest : Plain (Report.optionalPart Manifest.toDatum content.manifest) :=
        Plain.optionalPart fun manifest _ => manifest.plain_toDatum
      have dexFiles : Plain (.list (content.dexFiles.map Dex.FileStats.toDatum)) :=
        Plain.list_map fun stats _ => stats.plain_toDatum
      have packages : Plain (Report.optionalPart PackageSummary.toDatum content.packages) :=
        Plain.optionalPart fun _ _ => PackageSummary.plain_toDatum (Nat.lt_succ_self _)
      have resources : Plain (Report.optionalPart ResourceTable.toDatum content.resources) :=
        Plain.optionalPart fun table isTable => ResourceTable.plain_toDatum (once table isTable)
      apply Plain.record
      · simp
      · simp [Plain.text, Plain.int, Plain.texts, manifest, dexFiles, packages, resources]
  | manifest content =>
      exact content.plain_toDatum
  | dexStats content =>
      exact content.plain_toDatum
  | entry content =>
      exact content.plain_toDatum
  | summary content =>
      exact PackageSummary.plain_toDatum (Nat.lt_succ_self _)

end StoredDocument

end ApkAtlas
