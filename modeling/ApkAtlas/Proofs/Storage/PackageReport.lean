import ApkAtlas.Proofs.Report
import ApkAtlas.Proofs.Storage.DerivedKey
import ApkAtlas.Proofs.Storage.StoreFiles

namespace ApkAtlas

/-!
# Reports on packages

The key of the report on a package has its stem and sixteen digits of its content. The report
can be read back under that key until another one is stored in the same file. Keys of stems
that cleaning leaves alone are listed as they are, and each of them has a file of its own.
-/

namespace Text

/-- The digits of numbers in base sixteen. -/
def hexDigits : List Char :=
  "0123456789abcdef".toList

theorem mem_hexDigits_of_mem_toDigits
    {c : Char}
    {number : Nat}
    (member : c ∈ Nat.toDigits 16 number) :
    c ∈ hexDigits := by
  have single : ∀ digit < 16, Nat.digitChar digit ∈ hexDigits := by
    decide
  induction number using Nat.strongRecOn with
  | ind number inductionHypothesis =>
      rw [Nat.toDigits_eq_if (by decide)] at member
      split at member
      · rename_i small
        exact List.mem_singleton.mp member ▸ single number small
      · rcases List.mem_append.mp member with inFront | isLast
        · exact inductionHypothesis (number / 16) (by omega) inFront
        · exact List.mem_singleton.mp isLast ▸ single _ (Nat.mod_lt _ (by decide))

theorem mem_hexDigits_of_mem_hex
    {c : Char}
    {width number : Nat}
    (member : c ∈ (hex width number).toList) :
    c ∈ hexDigits := by
  rw [hex, String.toList_ofList, List.mem_append] at member
  rcases member with isZero | isDigit
  · rw [List.eq_of_mem_replicate isZero]
    decide
  · exact mem_hexDigits_of_mem_toDigits isDigit

theorem le_length_hex (width number : Nat) : width ≤ (hex width number).toList.length := by
  rw [hex, String.toList_ofList, List.length_append, List.length_replicate]
  omega

end Text

namespace Checksum

theorem mem_hexDigits_of_mem_sha256
    {message : Bytes}
    {c : Char}
    (member : c ∈ (sha256 message).toList) :
    c ∈ Text.hexDigits := by
  rw [sha256, String.toList_join, List.flatMap_map, List.mem_flatMap] at member
  obtain ⟨word, -, inWord⟩ := member
  exact Text.mem_hexDigits_of_mem_hex inWord

theorem le_length_sha256 (message : Bytes) : 16 ≤ (sha256 message).toList.length := by
  have digits (word : UInt32) := Text.le_length_hex 8 word.toNat
  rw [sha256, String.toList_join, List.flatMap_map, Sha256.State.words]
  simp only [List.flatMap_cons, List.length_append]
  have first := digits (Sha256.digest message).a
  have second := digits (Sha256.digest message).b
  omega

end Checksum

namespace FilePath

/-- The stem of a path has no separator. -/
theorem slash_not_mem_stem (text : String) : '/' ∉ (ofText text).stem.toList := by
  have inName : '/' ∉ (ofText text).name.toList := by
    rw [name]
    cases isLast : (ofText text).names.getLast? with
    | none =>
        exact List.not_mem_nil
    | some last =>
        obtain ⟨piece, isPiece, rfl⟩ :=
          List.mem_map.mp (List.mem_of_mem_filter (List.mem_of_getLast? isLast))
        rw [Option.getD_some, String.toList_ofList]
        exact Text.not_mem_of_mem_segments isPiece
  rw [stem, stemOf]
  split
  · exact inName
  · rename_i before isBefore
    split
    · exact inName
    · rw [String.toList_ofList]
      exact fun member => inName ((Text.sublist_of_beforeLast? isBefore).subset member)

end FilePath

namespace ReportKey

/-- A key made of the stem of a package and of digits of its content. -/
structure OfPackage (key stem : String) (digits : List Char) : Prop where
  whole : key.toList = stem.toList ++ '/' :: (digits ++ reportSuffix.toList)
  noSlash : '/' ∉ stem.toList
  hex : ∀ c ∈ digits, c ∈ Text.hexDigits
  length : digits.length = 16

variable {key other stem otherStem : String} {digits otherDigits : List Char}

/-- Behind digits, a text with a single dot at its front is an ending. -/
theorem ending_of_digits
    (hex : ∀ c ∈ digits, c ∈ Text.hexDigits)
    (named : digits ≠ [])
    {more : List Char}
    (ordinary : ∀ c ∈ ['/', '\\', ':'], c ∉ more)
    (noPair : ¬ ['.', '.'] <:+: more) :
    Ending (digits ++ '.' :: 'j' :: more) := by
  have notHex : ∀ c ∈ ['/', '\\', ':', '.'], c ∉ Text.hexDigits := by
    decide
  have absent (c : Char) (isMark : c ∈ ['/', '\\', ':']) : c ∉ digits ++ '.' :: 'j' :: more := by
    have noDigit : c ∉ digits := fun member =>
      notHex c (List.mem_append_left ['.'] isMark) (hex c member)
    have notBetween : ∀ c ∈ ['/', '\\', ':'], c ∉ ['.', 'j'] := by
      decide
    have between := notBetween c isMark
    simp only [List.mem_append, List.mem_cons, not_or] at between ⊢
    exact ⟨noDigit, between.1, between.2.1, ordinary c isMark⟩
  constructor
  case opening =>
    obtain ⟨c, rest, whole⟩ := List.exists_cons_of_ne_nil named
    refine ⟨c, rest ++ '.' :: 'j' :: more, by rw [whole]; rfl, fun isMark => ?_⟩
    apply notHex c _ (hex c (whole ▸ List.mem_cons_self))
    simp only [List.mem_cons, List.not_mem_nil, or_false] at isMark ⊢
    tauto
  case noSlash =>
    exact absent '/' (by decide)
  case noBackslash =>
    exact absent '\\' (by decide)
  case noColon =>
    exact absent ':' (by decide)
  case noPair =>
    rw [List.append_cons]
    apply Text.not_isInfix_append_cons (by decide) _ noPair
    intro isInfix
    have dots := isInfix.sublist.count_le '.'
    have noDot : digits.count '.' = 0 :=
      List.count_eq_zero.mpr fun member => notHex '.' (by decide) (hex '.' member)
    simp [List.count_append, noDot] at dots

theorem OfPackage.named (isKey : OfPackage key stem digits) : digits ≠ [] := by
  rintro rfl
  cases isKey.length

/-- The key of a package ends in digits and the ending of reports. -/
theorem OfPackage.endsIn (isKey : OfPackage key stem digits) :
    EndsIn key stem.toList (digits ++ reportSuffix.toList) where
  whole := isKey.whole
  noSlash := isKey.noSlash
  isEnding := ending_of_digits isKey.hex isKey.named (by decide) (by decide)

/-- The key of the file about the report has a further ending. -/
theorem OfPackage.metadata_endsIn (isKey : OfPackage key stem digits) :
    EndsIn (metadataKey key) stem.toList
      (digits ++ reportSuffix.toList ++ metadataSuffix.toList) where
  whole := by
    rw [metadataKey, String.toList_append, isKey.whole]
    simp
  noSlash := isKey.noSlash
  isEnding := by
    rw [List.append_assoc]
    exact ending_of_digits isKey.hex isKey.named (by decide) (by decide)

/-- Digits with the ending of reports do not end what tells about a report. -/
theorem OfPackage.not_isSuffix
    (isKey : OfPackage key stem digits)
    {name : List Char}
    (inName : digits ++ reportSuffix.toList <:+ name) :
    ¬ metadataSuffix.toList <:+ name := by
  intro isMetadata
  have length := isKey.length
  have noDigit : 'm' ∉ digits := fun member =>
    absurd (isKey.hex 'm' member) (by decide)
  have within : metadataSuffix.toList <:+ digits ++ reportSuffix.toList := by
    apply List.suffix_of_suffix_length_le isMetadata inName
    rw [List.length_append, length]
    decide
  have member : 'm' ∈ digits ++ reportSuffix.toList :=
    within.subset (by decide)
  rcases List.mem_append.mp member with inDigits | inSuffix
  · exact noDigit inDigits
  · revert inSuffix
    decide

/-- The report on one package is never where something is told about the report on another. -/
theorem OfPackage.place_ne
    (isKey : OfPackage key stem digits)
    (isOther : OfPackage other otherStem otherDigits)
    (base : List String) :
    base ++ names base key ≠ base ++ names base (metadataKey other) := by
  intro same
  obtain ⟨front, last, place, inLast⟩ := isKey.endsIn.exists_place base
  obtain ⟨otherFront, otherLast, otherPlace, inOtherLast⟩ :=
    isOther.metadata_endsIn.exists_place base
  rw [place, otherPlace] at same
  rw [(List.append_singleton_inj.mp same).2] at inLast
  exact isKey.not_isSuffix inLast ((List.suffix_append _ _).trans inOtherLast)

end ReportKey

namespace ReportStore

open ReportKey (OfPackage PlainStem metadataKey reportSuffix)

/-- The key that is made for a package is one of its stem. -/
theorem exists_ofPackage
    {tree : FileTree}
    {text key : String}
    (isKey : reportKey tree (FilePath.ofText text) = .ok key) :
    ∃ digits, OfPackage key (FilePath.ofText text).stem digits := by
  obtain ⟨bytes, -, whole⟩ := exists_of_bind_eq_ok isKey
  have isWhole := congrArg String.toList (Except.ok.inj whole)
  refine ⟨(Checksum.sha256 bytes).toList.take 16, ?_, ?_, ?_, ?_⟩
  · rw [← isWhole]
    simp
  · exact FilePath.slash_not_mem_stem text
  · exact fun c member => Checksum.mem_hexDigits_of_mem_sha256 (List.mem_of_mem_take member)
  · rw [List.length_take]
    have long := Checksum.le_length_sha256 bytes
    omega

variable {store : ReportStore} {tree after : FileTree} {key storedAt : String}
  {document : StoredDocument} {given : List (String × Datum)} {outcome : Except StoreError Unit}

/-- A key is listed exactly if it is the way to the file of a report. -/
theorem mem_keys_iff
    (sound : tree.Sound)
    (normal : ".." ∉ store.base) :
    key ∈ store.keys tree ↔
      ∃ names bytes,
        tree.node? (store.base ++ names) = some (.file bytes) ∧ names ≠ [] ∧
          isReportName (names.getLast?.getD "") = true ∧ relativeText names = key := by
  have root : store.placeNames "" = [] :=
    (⟨by decide, by decide, nofun⟩ : ReportKey.Plain "").names_eq store.base
  have noReturn : ".." ∉ store.base ++ store.placeNames "" := by
    rw [root, List.append_nil]
    exact normal
  rw [keys, keysUnder_eq sound noReturn, root, List.append_nil, List.mem_mergeSort, List.mem_map]
  constructor
  · rintro ⟨⟨names, node⟩, member, rfl⟩
    obtain ⟨named, isName, bytes, stands, -⟩ := (mem_reports_iff sound).mp member
    exact ⟨names, bytes, stands, named, isName, rfl⟩
  · rintro ⟨names, bytes, stands, named, isName, rfl⟩
    exact ⟨(names, .file bytes),
      (mem_reports_iff sound).mpr ⟨named, isName, bytes, stands, rfl⟩, rfl⟩

/-! ## Storing one report, and another one -/

variable {other stem otherStem : String} {digits otherDigits : List Char}

theorem not_mem_places
    (normal : ".." ∉ store.base)
    (isKey : OfPackage key stem digits) :
    ".." ∉ store.base ++ store.placeNames key ∧
      ".." ∉ store.base ++ store.placeNames (metadataKey key) := by
  simp only [List.mem_append, not_or]
  exact ⟨⟨normal, ReportKey.not_mem_names normal isKey.endsIn.clean_ne⟩,
    ⟨normal, ReportKey.not_mem_names normal isKey.metadata_endsIn.clean_ne⟩⟩

/-- Saving under the key of a package keeps a tree sound. -/
theorem sound_of_save
    (sound : tree.Sound)
    (normal : ".." ∉ store.base)
    (isKey : OfPackage key stem digits)
    (ran : (store.save key storedAt document given).run.run tree = (outcome, after)) :
    after.Sound := by
  obtain ⟨toReport, toFacts⟩ := not_mem_places normal isKey
  obtain ⟨_, -, -, afterSound, -⟩ := save_spec sound toReport toFacts ran
  exact afterSound

/-- Both files of a key change, other files stay, and no others are new. -/
theorem files_of_save
    (sound : tree.Sound)
    (normal : ".." ∉ store.base)
    (isKey : OfPackage key stem digits)
    (ran : (store.save key storedAt document given).run.run tree = (outcome, after))
    {place : List String}
    (noReport : place ≠ store.base ++ store.placeNames key)
    (noFacts : place ≠ store.base ++ store.placeNames (metadataKey key))
    (bytes : Bytes) :
    after.node? place = some (.file bytes) ↔ tree.node? place = some (.file bytes) := by
  obtain ⟨toReport, toFacts⟩ := not_mem_places normal isKey
  obtain ⟨between, changes, factsChange, -, -⟩ := save_spec sound toReport toFacts ran
  constructor
  · intro stands
    exact changes.file_before noReport (factsChange.file_before noFacts stands)
  · intro stood
    exact factsChange.keeps _ _ (changes.keeps _ _ stood (.inl noReport)) (.inl noFacts)

/-- A report is stored where storing succeeds, and where a file can be replaced. -/
theorem report_of_save
    (sound : tree.Sound)
    (normal : ".." ∉ store.base)
    (isKey : OfPackage key stem digits)
    (ran : (store.save key storedAt document given).run.run tree = (outcome, after))
    (works : outcome = .ok () ∨
      ∃ bytes, tree.node? (store.base ++ store.placeNames key) = some (.file bytes)) :
    after.node? (store.base ++ store.placeNames key) =
      some (.file (Text.Utf8.encode document.toDatum.toJson)) := by
  obtain ⟨toReport, toFacts⟩ := not_mem_places normal isKey
  obtain ⟨between, -, factsChange, -, stands⟩ := save_spec sound toReport toFacts ran
  exact factsChange.keeps _ _ (stands works) (.inl (isKey.place_ne isKey store.base))

/-- A stored report is found under every key that leads to its file. -/
theorem load_of_document
    (sound : tree.Sound)
    (normal : ".." ∉ store.base)
    (isKey : OfPackage key stem digits)
    (once : document.CountsOnce)
    (stands : tree.node? (store.base ++ store.placeNames key) =
      some (.file (Text.Utf8.encode document.toDatum.toJson))) :
    store.load tree key document.kind = .ok document := by
  rw [load_of_file sound (not_mem_places normal isKey).1 stands, documentIn,
    (StoredDocument.plain_toDatum once).ofJson?_toJson]
  simp only [StoredDocument.ofDatum_toDatum]
  rfl

/-- No report is listed where something is told about a report. -/
theorem ne_facts_of_isReportName
    (isKey : OfPackage key stem digits)
    {names : List String}
    (isName : isReportName (names.getLast?.getD "") = true) :
    store.base ++ names ≠ store.base ++ store.placeNames (metadataKey key) := by
  intro same
  obtain ⟨front, last, place, inLast⟩ := isKey.metadata_endsIn.exists_place store.base
  have named : names ≠ [] := by
    rintro rfl
    revert isName
    decide
  rw [last_eq_of_append named (same.trans place), isReportName_iff] at isName
  exact isName.2 ((List.suffix_append _ _).trans inLast)

/-- Storing a report lists its key exactly if cleaning leaves the stem alone. -/
theorem mem_keys_of_save_iff
    (sound : tree.Sound)
    (normal : ".." ∉ store.base)
    (isKey : OfPackage key stem digits)
    (ran : (store.save key storedAt document given).run.run tree = (.ok (), after)) :
    key ∈ store.keys after ↔ PlainStem stem ∨ key ∈ store.keys tree := by
  have afterSound := sound_of_save sound normal isKey ran
  have stored := report_of_save sound normal isKey ran (.inl rfl)
  have unchanged {names : List String} (different : names ≠ store.placeNames key)
      (isName : isReportName (names.getLast?.getD "") = true)
      (bytes : Bytes) :
      after.node? (store.base ++ names) = some (.file bytes) ↔
        tree.node? (store.base ++ names) = some (.file bytes) := by
    apply files_of_save sound normal isKey ran
    · simpa using different
    · exact ne_facts_of_isReportName isKey isName
  rw [mem_keys_iff afterSound normal, mem_keys_iff sound normal]
  constructor
  · rintro ⟨names, bytes, stands, named, isName, whole⟩
    by_cases isPlace : names = store.placeNames key
    · left
      rw [isPlace] at whole
      exact (isKey.endsIn.relativeText_names_iff store.base).mp whole
    · right
      exact ⟨names, bytes, (unchanged isPlace isName bytes).mp stands, named, isName, whole⟩
  · rintro (plainStem | ⟨names, bytes, stood, named, isName, whole⟩)
    · have place := isKey.endsIn.names_eq plainStem store.base
      refine ⟨store.placeNames key, _, stored, ?_, ?_,
        (isKey.endsIn.relativeText_names_iff store.base).mpr plainStem⟩
      · rw [placeNames, place]
        nofun
      · rw [placeNames, place, List.getLast?_cons_cons, List.getLast?_singleton, Option.getD_some,
          isReportName_iff, String.toList_ofList]
        exact ⟨List.suffix_append _ _, isKey.not_isSuffix (List.suffix_refl _)⟩
    · by_cases isPlace : names = store.placeNames key
      · subst isPlace
        exact ⟨_, _, stored, named, isName, whole⟩
      · exact ⟨names, bytes, (unchanged isPlace isName bytes).mpr stood, named, isName, whole⟩

/-- Keys of stems that cleaning leaves alone share no file. -/
theorem path_eq_iff
    (isKey : OfPackage key stem digits)
    (isOther : OfPackage other otherStem otherDigits)
    (plainStem : PlainStem stem)
    (otherPlainStem : PlainStem otherStem) :
    store.path key = store.path other ↔ key = other := by
  refine ⟨fun same => ?_, congrArg store.path⟩
  have names : store.placeNames key = store.placeNames other := by
    simpa [path, FileTree.pathOf] using same
  rw [← (isKey.endsIn.relativeText_names_iff store.base).mpr plainStem,
    ← (isOther.endsIn.relativeText_names_iff store.base).mpr otherPlainStem]
  exact congrArg relativeText names

/-- A report on a package can be read back once it is stored. Its key is listed then exactly if
cleaning leaves the stem of the package alone or the key was listed before. Storing a second
report replaces the first one exactly if both keys lead to one file, which keys of stems that
cleaning leaves alone only do if they are equal. -/
theorem reports_of_packages
    (sound : tree.Sound)
    (normal : ".." ∉ store.base)
    {files otherFiles : FileTree}
    {package otherPackage : String}
    (isKey : reportKey files (FilePath.ofText package) = .ok key)
    (isOther : reportKey otherFiles (FilePath.ofText otherPackage) = .ok other)
    {successor : StoredDocument}
    (once : document.CountsOnce)
    (successorOnce : successor.CountsOnce)
    (ran : (store.save key storedAt document given).run.run tree = (.ok (), after))
    {storedLater : String}
    {givenLater : List (String × Datum)}
    {last : FileTree}
    (ranLater :
      (store.save other storedLater successor givenLater).run.run after = (outcome, last)) :
    (key ∈ store.keys after ↔
        PlainStem (FilePath.ofText package).stem ∨ key ∈ store.keys tree) ∧
      store.load after key document.kind = .ok document ∧
      (store.path key ≠ store.path other → store.load last key document.kind = .ok document) ∧
      (store.path key = store.path other → store.load last key successor.kind = .ok successor) ∧
      (PlainStem (FilePath.ofText package).stem →
        PlainStem (FilePath.ofText otherPackage).stem →
          (store.path key = store.path other ↔ key = other)) := by
  obtain ⟨digits, ofPackage⟩ := exists_ofPackage isKey
  obtain ⟨otherDigits, otherOfPackage⟩ := exists_ofPackage isOther
  have afterSound := sound_of_save sound normal ofPackage ran
  have lastSound := sound_of_save afterSound normal otherOfPackage ranLater
  have stored := report_of_save sound normal ofPackage ran (.inl rfl)
  refine ⟨?_, ?_, ?_, ?_, ?_⟩
  · exact mem_keys_of_save_iff sound normal ofPackage ran
  · exact load_of_document afterSound normal ofPackage once stored
  · intro different
    apply load_of_document lastSound normal ofPackage once
    rw [files_of_save afterSound normal otherOfPackage ranLater]
    · exact stored
    · exact fun same => different (congrArg FileTree.pathOf same)
    · exact ofPackage.place_ne otherOfPackage store.base
  · intro same
    have place : store.base ++ store.placeNames key = store.base ++ store.placeNames other :=
      congrArg FilePath.names same
    apply load_of_document lastSound normal ofPackage successorOnce
    rw [place] at stored ⊢
    exact report_of_save afterSound normal otherOfPackage ranLater (.inr ⟨_, stored⟩)
  · exact path_eq_iff ofPackage otherOfPackage

/-- Three packages with one content. Two of their names differ in a colon only. -/
def copies : FileTree :=
  FileTree.ofFiles ["home"]
    [ ("a:b.apk", #[0x6f, 0x6e, 0x65]),
      ("ab.apk", #[0x6f, 0x6e, 0x65]),
      ("c.apk", #[0x6f, 0x6e, 0x65]) ]

/-- A report that tells packages apart by their names. -/
def reportOn (package : String) : StoredDocument :=
  .report { apkName := package, fileSize := 3, downloadSize := 3 }

/-- Copies of a package have keys with the same digits. -/
theorem reportKey_copies
    {package : String}
    (isCopy : (copies.read (FilePath.ofText package)).toOption = some #[0x6f, 0x6e, 0x65]) :
    reportKey copies (FilePath.ofText package) =
      .ok ((FilePath.ofText package).stem ++ "/" ++ "7692c3ad3540bb80" ++ ".json") := by
  have digits : String.ofList ((Checksum.sha256 #[0x6f, 0x6e, 0x65]).toList.take 16) =
      "7692c3ad3540bb80" := by
    decide +kernel
  cases isRead : copies.read (FilePath.ofText package) with
  | error _ =>
      rw [isRead] at isCopy
      cases isCopy
  | ok bytes =>
      rw [isRead] at isCopy
      cases isCopy
      rw [← digits, reportKey, isRead]
      rfl

/-- Two actions that work one after the other end with a tree. -/
theorem exists_runs
    {first second : StoreAction Unit}
    {tree : FileTree}
    (works : (first.run.run tree).1.isOk = true)
    (worksThen : (second.run.run (first.run.run tree).2).1.isOk = true) :
    ∃ after last,
      first.run.run tree = (.ok (), after) ∧ second.run.run after = (.ok (), last) := by
  have eqOk {outcome : Except StoreError Unit} (isOk : outcome.isOk = true) : outcome = .ok () := by
    cases outcome with
    | error _ =>
        cases isOk
    | ok _ =>
        rfl
  exact ⟨_, _, Prod.ext (eqOk works) rfl, Prod.ext (eqOk worksThen) rfl⟩

/-- Of two names that cleaning leaves alone, the first report stays when the second one is
stored. -/
theorem report_kept_of_copies :
    ".." ∉ ["srv"] ∧ FileTree.Sound {} ∧
      reportKey copies (FilePath.ofText "ab.apk") = .ok "ab/7692c3ad3540bb80.json" ∧
      reportKey copies (FilePath.ofText "c.apk") = .ok "c/7692c3ad3540bb80.json" ∧
      (reportOn "ab.apk").CountsOnce ∧ (reportOn "c.apk").CountsOnce ∧
      ∃ after last,
        ((ReportStore.mk ["srv"]).save "ab/7692c3ad3540bb80.json" "early" (reportOn "ab.apk")
          []).run.run {} = (.ok (), after) ∧
        ((ReportStore.mk ["srv"]).save "c/7692c3ad3540bb80.json" "late" (reportOn "c.apk")
          []).run.run after = (.ok (), last) ∧
        "ab/7692c3ad3540bb80.json" ∈ (ReportStore.mk ["srv"]).keys after ∧
        (ReportStore.mk ["srv"]).load last "ab/7692c3ad3540bb80.json" .report =
          .ok (reportOn "ab.apk") := by
  have normal : ".." ∉ ["srv"] := by
    decide
  have firstKey : reportKey copies (FilePath.ofText "ab.apk") = .ok "ab/7692c3ad3540bb80.json" :=
    reportKey_copies (by decide)
  have secondKey : reportKey copies (FilePath.ofText "c.apk") = .ok "c/7692c3ad3540bb80.json" :=
    reportKey_copies (by decide)
  have once (package : String) : (reportOn package).CountsOnce := nofun
  have stem : (FilePath.ofText "ab.apk").stem = "ab" := by
    decide
  have plainStem : PlainStem "ab" :=
    ⟨⟨by decide, by decide, by simp⟩, by decide⟩
  obtain ⟨after, last, ran, ranLater⟩ :=
    @exists_runs
      ((ReportStore.mk ["srv"]).save "ab/7692c3ad3540bb80.json" "early" (reportOn "ab.apk") [])
      ((ReportStore.mk ["srv"]).save "c/7692c3ad3540bb80.json" "late" (reportOn "c.apk") [])
      {} (by decide +kernel) (by decide +kernel)
  obtain ⟨listed, -, kept, -⟩ :=
    reports_of_packages FileTree.sound_empty normal firstKey secondKey (once _) (once _) ran
      ranLater
  exact ⟨normal, FileTree.sound_empty, firstKey, secondKey, once _, once _, after, last, ran,
    ranLater, listed.mpr (.inl (stem ▸ plainStem)), kept (by decide)⟩

/-- Of two names that differ in a colon only, the first report is not listed under its key, and
the second one replaces it. -/
theorem report_lost_of_copies :
    reportKey copies (FilePath.ofText "a:b.apk") = .ok "a:b/7692c3ad3540bb80.json" ∧
      reportKey copies (FilePath.ofText "ab.apk") = .ok "ab/7692c3ad3540bb80.json" ∧
      ∃ after last,
        ((ReportStore.mk ["srv"]).save "a:b/7692c3ad3540bb80.json" "early" (reportOn "a:b.apk")
          []).run.run {} = (.ok (), after) ∧
        ((ReportStore.mk ["srv"]).save "ab/7692c3ad3540bb80.json" "late" (reportOn "ab.apk")
          []).run.run after = (.ok (), last) ∧
        "a:b/7692c3ad3540bb80.json" ∉ (ReportStore.mk ["srv"]).keys after ∧
        (ReportStore.mk ["srv"]).load last "a:b/7692c3ad3540bb80.json" .report =
          .ok (reportOn "ab.apk") ∧
        reportOn "ab.apk" ≠ reportOn "a:b.apk" := by
  have normal : ".." ∉ (ReportStore.mk ["srv"]).base := by
    decide
  have firstKey : reportKey copies (FilePath.ofText "a:b.apk") = .ok "a:b/7692c3ad3540bb80.json" :=
    reportKey_copies (by decide)
  have secondKey : reportKey copies (FilePath.ofText "ab.apk") = .ok "ab/7692c3ad3540bb80.json" :=
    reportKey_copies (by decide)
  have place : (ReportStore.mk ["srv"]).placeNames "a:b/7692c3ad3540bb80.json" =
      (ReportStore.mk ["srv"]).placeNames "ab/7692c3ad3540bb80.json" := by
    decide +kernel
  obtain ⟨digits, ofPackage⟩ := exists_ofPackage firstKey
  obtain ⟨otherDigits, otherOfPackage⟩ := exists_ofPackage secondKey
  obtain ⟨after, last, ran, ranLater⟩ :=
    @exists_runs
      ((ReportStore.mk ["srv"]).save "a:b/7692c3ad3540bb80.json" "early" (reportOn "a:b.apk") [])
      ((ReportStore.mk ["srv"]).save "ab/7692c3ad3540bb80.json" "late" (reportOn "ab.apk") [])
      {} (by decide +kernel) (by decide +kernel)
  have sound := sound_of_save FileTree.sound_empty normal ofPackage ran
  have soundLater := sound_of_save sound normal otherOfPackage ranLater
  have replaced := report_of_save sound normal otherOfPackage ranLater (.inl rfl)
  refine ⟨firstKey, secondKey, after, last, ran, ranLater, ?_, ?_, by simp [reportOn]⟩
  · rw [mem_keys_of_save_iff FileTree.sound_empty normal ofPackage ran, not_or]
    exact ⟨fun plainStem => plainStem.plain.noColon (by decide), List.not_mem_nil⟩
  · rw [← place] at replaced
    have once : (reportOn "ab.apk").CountsOnce := nofun
    have loaded := load_of_document soundLater normal ofPackage once replaced
    exact loaded

end ReportStore

end ApkAtlas
