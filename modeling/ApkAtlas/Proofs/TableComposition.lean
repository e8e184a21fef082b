import ApkAtlas.Proofs.Chunk.PoolComposition
import ApkAtlas.Proofs.ResourceTable

namespace ApkAtlas.ResourceTable

/-!
# Composed resource tables

A resource table is put together from a pool of strings and packages, each with its number, its
name in a field of fixed size and any chunks. Its summary says all of this again:
`decode_of_composed`.
-/

open Chunk
open Text

/-- A package before it is laid out. -/
structure PackageSource where
  packageId : Nat
  name : String
  /-- What the header holds behind the name. -/
  moreHeader : List UInt8 := []
  children : List Composed := []

/-- A resource table before it is laid out. -/
structure Source where
  /-- The count of packages that the header gives. -/
  declaredPackageCount : Nat := 1
  strings : List String := []
  packages : List PackageSource := []

/-- A name with zeros behind it that fill its field. -/
def nameField (name : String) : List UInt8 :=
  Utf16.encode name ++ List.replicate (nameSize - (Utf16.encode name).length) 0

namespace PackageSource

variable (source : PackageSource)

def chunk : Composed where
  token := Token.tablePackage
  extension := Bytes.ofNumber 4 source.packageId ++ nameField source.name ++ source.moreHeader
  payload := source.children.flatMap Composed.bytes

/-- What a summary says of the package. -/
def described : ResourcePackage where
  packageId := source.packageId
  name := source.name
  typeSpecCount := source.children.countP fun child => child.token = Token.tableTypeSpec
  typeCount := source.children.countP fun child => child.token = Token.tableType
  sizeBytes := source.chunk.bytes.length

/-- The kinds of the package and of the chunks in it. -/
def kinds : List String :=
  (Token.tablePackage :: source.children.map Composed.token).map Token.name

/-- The name fits its field and does not hold the character that ends it, and all numbers fit
theirs. -/
@[mk_iff]
structure Fits : Prop where
  packageId : source.packageId < Bytes.limit 4
  name : (Utf16.encodeUnits source.name).length < 128
  unended : Char.ofNat 0 ∉ source.name.toList
  header : source.chunk.headerSize < Bytes.limit 2
  children : ∀ child ∈ source.children, child.Fits

instance : Decidable source.Fits :=
  decidable_of_iff' _ (fits_iff source)

end PackageSource

namespace Source

variable (source : Source)

def pool : StringPool.Arrangement :=
  StringPool.packed StringPool.utf8Flags StringPool.utf8Entry source.strings

/-- The chunks in the table. -/
def chunks : List Composed :=
  source.pool.chunk :: source.packages.map PackageSource.chunk

def chunk : Composed where
  token := Token.table
  extension := Bytes.ofNumber 4 source.declaredPackageCount
  payload := source.chunks.flatMap Composed.bytes

def compose : Bytes :=
  source.chunk.bytes.toArray

/-- What the summary of the table says. -/
def summary : ResourceTable where
  declaredPackageCount := source.declaredPackageCount
  stringCount := source.strings.length
  packages := source.packages.map PackageSource.described
  chunkCounts :=
    tally
      ([Token.table, Token.stringPool].map Token.name ++
        source.packages.flatMap PackageSource.kinds)

/-- Every string is short enough for one count, and all numbers fit their fields. -/
@[mk_iff]
structure Fits : Prop where
  declaredPackageCount : source.declaredPackageCount < Bytes.limit 4
  strings : ∀ text ∈ source.strings, (Utf8.encode text).size < 0x80
  packages : ∀ package ∈ source.packages, package.Fits
  size : source.chunk.bytes.length < Bytes.limit 4

instance : Decidable source.Fits :=
  decidable_of_iff' _ (fits_iff source)

end Source

section Names

variable {name : String}

/-- A text is encoded in two parts. -/
theorem encode_append (first second : List Char) :
    Utf16.encode (String.ofList (first ++ second)) =
      Utf16.encode (String.ofList first) ++ Utf16.encode (String.ofList second) := by
  simp only [Utf16.encode, Utf16.encodeUnits, Utf16.bytesOf, String.toList_ofList,
    List.flatMap_append]

theorem encode_replicate (count : Nat) :
    Utf16.encode (String.ofList (List.replicate count (Char.ofNat 0))) =
      List.replicate (2 * count) 0 := by
  induction count with
  | zero =>
      rfl
  | succ count inductionHypothesis =>
      have one : Utf16.encode (String.ofList [Char.ofNat 0]) = [0, 0] := by
        decide
      rw [List.replicate_succ, ← List.singleton_append, encode_append, inductionHypothesis, one]
      rfl

/-- The field of a name is a name with characters behind it that end it. -/
theorem nameField_eq (fits : (Utf16.encodeUnits name).length < 128) :
    nameField name =
      Utf16.encode
        (String.ofList
          (name.toList ++
            List.replicate (128 - (Utf16.encodeUnits name).length) (Char.ofNat 0))) := by
  have rest :
      nameSize - (Utf16.encode name).length =
        2 * (128 - (Utf16.encodeUnits name).length) := by
    rw [nameSize, Utf16.length_encode]
    omega
  rw [encode_append, encode_replicate, String.ofList_toList, nameField, rest]

theorem length_nameField (fits : (Utf16.encodeUnits name).length < 128) :
    (nameField name).length = nameSize := by
  rw [nameField, List.length_append, List.length_replicate, Utf16.length_encode, nameSize]
  omega

/-- A name is read back from its field. -/
theorem nameOf_nameField
    (fits : (Utf16.encodeUnits name).length < 128)
    (unended : Char.ofNat 0 ∉ name.toList) :
    nameOf (nameField name).toArray = name := by
  obtain ⟨more, ending⟩ : ∃ more, 128 - (Utf16.encodeUnits name).length = more + 1 :=
    ⟨127 - (Utf16.encodeUnits name).length, by omega⟩
  rw [nameOf, nameField_eq fits, ending, Utf16.decodeLossy_encode, String.toList_ofList,
    List.replicate_succ, beforeFirst_append_cons unended, String.ofList_toList]

end Names

section Reading

variable {buffer : Bytes} {header : Header} {names : List String} {reading : Reading}

/-- Headers have the kinds of the chunks that they cover. -/
theorem map_token_of_covers
    {headers : List Header}
    {chunks : List Composed}
    (covers : List.Forall₂ (fun header chunk => header.Covers buffer chunk) headers chunks) :
    headers.map Header.token = chunks.map Composed.token := by
  induction covers with
  | nil =>
      rfl
  | cons first _ inductionHypothesis =>
      rw [List.map_cons, List.map_cons, first.token, inductionHypothesis]

/-- How many of the chunks have a token does not depend on where they are. -/
theorem number_of_covers
    {headers : List Header}
    {chunks : List Composed}
    (covers : List.Forall₂ (fun header chunk => header.Covers buffer chunk) headers chunks)
    (token : Nat) :
    number token headers = chunks.countP fun chunk => chunk.token = token := by
  have tokens := congrArg (List.countP fun other => other = token) (map_token_of_covers covers)
  rwa [List.countP_map, List.countP_map] at tokens

/-- A number in four bytes is read back. -/
theorem u32_ofNumber {value : Nat} (fits : value < Bytes.limit 4) :
    Bytes.u32 (Bytes.ofNumber 4 value).toArray 0 = value := by
  rw [Bytes.u32, word_ofNumber, Nat.mod_eq_of_lt fits]

/-- The pool of a table is counted, and so are its strings. -/
theorem step_pool
    {source : Source}
    (covers : header.Covers buffer source.pool.chunk)
    (size : source.pool.chunk.bytes.length < Bytes.limit 4)
    (short : ∀ text ∈ source.strings, (Utf8.encode text).size < 0x80)
    (counts : reading.table.chunkCounts = tally names) :
    ∃ next,
      reading.step buffer header = .ok next ∧
        next.table =
          { reading.table with
            stringCount := source.strings.length
            chunkCounts := tally (names ++ [Token.name Token.stringPool]) } := by
  have token : header.token = Token.stringPool := covers.token
  rw [Reading.step, token, if_pos rfl, StringPool.parse_packed_utf8 covers size short]
  refine ⟨_, rfl, ?_⟩
  rw [← count_tally, ← counts, ← token]
  rfl

/-- A package is counted with the chunks in it, and what there is to say of it is added. -/
theorem step_package
    {source : PackageSource}
    (covers : header.Covers buffer source.chunk)
    (fits : source.Fits)
    (counts : reading.table.chunkCounts = tally names) :
    ∃ next,
      reading.step buffer header = .ok next ∧
        next.table =
          { reading.table with
            packages := reading.table.packages ++ [source.described]
            chunkCounts := tally (names ++ source.kinds) } := by
  have token : header.token = Token.tablePackage := covers.token
  have isOther : header.token ≠ Token.stringPool := by
    rw [token]
    decide
  have idSplit :
      source.chunk.extension =
        [] ++ Bytes.ofNumber 4 source.packageId ++ (nameField source.name ++ source.moreHeader) :=
    List.append_assoc _ _ _
  have idRead : header.bytes buffer 8 4 = .ok (Bytes.ofNumber 4 source.packageId).toArray :=
    covers.extension_eq idSplit rfl (Bytes.length_ofNumber _ _)
  have nameRead : header.bytes buffer nameOffset nameSize = .ok (nameField source.name).toArray :=
    covers.extension_eq rfl (by simp [Chunk.leastHeaderSize, nameOffset])
      (length_nameField fits.name)
  obtain ⟨headers, children, childCovers⟩ := covers.exists_children rfl fits.children
  have ran (package : ResourcePackage) :
      Fallible.outcome
          ((header.children buffer).run Reading.innerStep (package, reading.counted header)) =
        .ok
          ({ package with
              typeSpecCount := package.typeSpecCount + number Token.tableTypeSpec headers
              typeCount := package.typeCount + number Token.tableType headers },
            headers.foldl Reading.counted (reading.counted header)) := by
    rw [children, Walk.run, Reading.steps_innerStep]
    rfl
  have countedFirst :
      (reading.counted header).table.chunkCounts = tally (names ++ [Token.name header.token]) := by
    rw [← count_tally, ← counts]
    rfl
  have countedAll := Reading.table_foldl_counted headers countedFirst
  have kinds :
      names ++ [Token.name header.token] ++ headers.map (fun child => Token.name child.token) =
        names ++ source.kinds := by
    have tokens := congrArg (List.map Token.name) (map_token_of_covers childCovers)
    rw [List.map_map] at tokens
    rw [List.append_assoc, PackageSource.kinds, List.map_cons, ← tokens, token]
    rfl
  have described :
      { Reading.opened header source.packageId source.name with
          typeSpecCount := 0 + number Token.tableTypeSpec headers
          typeCount := 0 + number Token.tableType headers } = source.described := by
    simp only [Reading.opened, PackageSource.described, number_of_covers childCovers, zero_add,
      covers.chunkSize]
  rw [Reading.step]
  simp only [if_neg isOther, if_pos token]
  rw [Reading.package_eq, idRead, nameRead]
  simp only [bind, Except.bind, ran, u32_ofNumber fits.packageId,
    nameOf_nameField fits.name fits.unended]
  refine ⟨_, rfl, ?_⟩
  simp only [Reading.withPackage, countedAll, kinds]
  rw [← described]
  rfl

/-- All packages of a table are read one after the other. -/
theorem steps_packages
    {headers : List Header}
    {packages : List PackageSource}
    (covers :
      List.Forall₂ (fun header package => header.Covers buffer package.chunk) headers packages)
    (fits : ∀ package ∈ packages, package.Fits)
    (counts : reading.table.chunkCounts = tally names) :
    ∃ final,
      Walk.steps (Reading.step buffer) reading headers = (final, none) ∧
        final.table =
          { reading.table with
            packages := reading.table.packages ++ packages.map PackageSource.described
            chunkCounts := tally (names ++ packages.flatMap PackageSource.kinds) } := by
  induction covers generalizing reading names with
  | nil =>
      refine ⟨reading, rfl, ?_⟩
      rw [List.map_nil, List.append_nil, List.flatMap_nil, List.append_nil, ← counts]
  | @cons header package headers packages first _ inductionHypothesis =>
      obtain ⟨packageFits, othersFit⟩ := List.forall_mem_cons.mp fits
      obtain ⟨next, stepped, after⟩ := step_package first packageFits counts
      obtain ⟨final, through, reached⟩ :=
        @inductionHypothesis (names ++ package.kinds) next othersFit (by rw [after])
      refine ⟨final, ?_, ?_⟩
      · rw [Walk.steps, stepped]
        exact through
      · rw [reached, after, List.map_cons, List.flatMap_cons]
        simp only [List.append_assoc, List.singleton_append]

end Reading

namespace Source

variable {source : Source}

/-- Every chunk in a table that the format has room for fits. -/
theorem Fits.of_mem_chunks
    (fits : source.Fits)
    {chunk : Composed}
    (member : chunk ∈ source.chunks) :
    chunk.Fits := by
  have inside : chunk.bytes.length ≤ source.chunk.payload.length :=
    Composed.length_bytes_le member
  have size := fits.size
  rw [Composed.length_bytes] at size
  have small : chunk.bytes.length < Bytes.limit 4 := by
    omega
  rcases List.mem_cons.mp member with rfl | inPackages
  · have token : source.pool.chunk.token = Token.stringPool := rfl
    exact ⟨by rw [token]; decide, by rw [pool, StringPool.headerSize_packed]; decide, small⟩
  · obtain ⟨package, packageMember, rfl⟩ := List.mem_map.mp inPackages
    have token : package.chunk.token = Token.tablePackage := rfl
    exact ⟨by rw [token]; decide, (fits.packages package packageMember).header, small⟩

/-- The chunk of a source that fits does so. -/
theorem Fits.chunk (fits : source.Fits) : source.chunk.Fits := by
  have token : source.chunk.token = Token.table := rfl
  refine ⟨by rw [token]; decide, ?_, fits.size⟩
  simp [Source.chunk, Composed.headerSize, Chunk.leastHeaderSize, Bytes.limit_two]

end Source

/-- A composed table is read back: the count that its header gives, the count of its strings, and
of each package the number, the name, the counts of its type specifications and types and its
size. Every chunk is counted under its kind. -/
theorem decode_of_composed
    {source : Source}
    (fits : source.Fits) :
    decode source.compose = .ok source.summary := by
  have whole : source.compose.toList = [] ++ source.chunk.bytes ++ [] := by
    simp [Source.compose]
  obtain ⟨header, read, _, covers⟩ := readHeader_composed fits.chunk whole
  replace read : readHeader source.compose 0 = .ok header := read
  have token : header.token = Token.table := covers.token
  have countSplit :
      source.chunk.extension = [] ++ Bytes.ofNumber 4 source.declaredPackageCount ++ [] :=
    (List.append_nil _).symm
  have countRead :
      header.bytes source.compose 8 4 =
        .ok (Bytes.ofNumber 4 source.declaredPackageCount).toArray :=
    covers.extension_eq countSplit rfl (Bytes.length_ofNumber _ _)
  obtain ⟨headers, children, childCovers⟩ :=
    covers.exists_children rfl fun _ => fits.of_mem_chunks
  obtain ⟨poolHeader, packageHeaders, poolCovers, packageCovers, rfl⟩ :=
    List.forall₂_cons_right_iff.mp childCovers
  have poolFits : source.pool.chunk.Fits := fits.of_mem_chunks List.mem_cons_self
  let start : Reading := ⟨{ declaredPackageCount := source.declaredPackageCount }, []⟩
  have opened : (start.counted header).table.chunkCounts = tally [Token.name Token.table] := by
    rw [← token]
    exact count_tally [] (Token.name header.token)
  obtain ⟨pooled, stepped, afterPool⟩ :=
    step_pool poolCovers poolFits.size fits.strings opened
  obtain ⟨final, through, reached⟩ :=
    steps_packages (List.forall₂_map_right_iff.mp packageCovers) fits.packages
      (congrArg ResourceTable.chunkCounts afterPool)
  have ran :
      Fallible.outcome
          ((header.children source.compose).run (Reading.step source.compose)
            (start.counted header)) =
        .ok final := by
    simp only [children, Walk.run, Walk.steps, stepped, through]
    rfl
  rw [decode_eq_bind, read]
  simp only [bind, Except.bind, if_pos token, countRead, u32_ofNumber fits.declaredPackageCount]
  rw [ran]
  simp only [reached, afterPool]
  rfl

/-- A name that fills its field but for one unit, and ends with a surrogate pair. -/
def longName : String :=
  String.ofList (List.replicate 125 'n') ++ "😀"

/-- A table whose header gives a count of its own. One package has a long name, more in its header
and chunks of all kinds, the other one has nothing. -/
def sampleSource : Source where
  declaredPackageCount := 9
  strings := ["Example", "é😀", ""]
  packages :=
    [ { packageId := 127
        name := longName
        moreHeader := List.replicate 20 7
        children :=
          [ ⟨Token.tableTypeSpec, [1, 0, 0, 0], [5, 6]⟩,
            ⟨Token.tableType, [], []⟩,
            ⟨Token.tablePackage, [], [0]⟩,
            ⟨Token.tableType, [0], []⟩,
            ⟨0x0505, [], [1, 2, 3]⟩ ] },
      { packageId := 4294967295
        name := "" } ]

/-- A table with a package whose name fills its field and one without a name. -/
theorem sampleSource_is_read_back :
    sampleSource.Fits ∧
      decode sampleSource.compose = .ok sampleSource.summary ∧
      sampleSource.summary.stringCount = 3 ∧
      sampleSource.summary.packages =
        [⟨127, longName, 1, 2, 339⟩, ⟨4294967295, "", 0, 0, 268⟩] := by
  have fits : sampleSource.Fits := by
    decide +kernel
  exact ⟨fits, decode_of_composed fits, by decide +kernel, by decide +kernel⟩

end ApkAtlas.ResourceTable
