import ApkAtlas.Proofs.Chunk.PoolArrangement
import ApkAtlas.Proofs.Chunk.Tiling
import ApkAtlas.Proofs.Table
import ApkAtlas.Proofs.Untrusted

namespace ApkAtlas

/-!
# What a resource table is made of

A summary counts the chunk of the table, the chunks in its payload and those in the payload of
each package: every one of them once and under its name, and no other chunk. The chunks of the
table lie back to back, so the sizes that are counted for packages and those of the other chunks
add up to the size of the table.
-/

open Chunk

namespace Chunk.Token

/-- Each known kind of chunk has its name. -/
theorem name_of_mem : ∀ entry ∈ names, name entry.1 = entry.2 := by
  decide

/-- A known name is that of one token only, as the names of unknown tokens start with a digit. -/
theorem name_eq_iff
    {token known : Nat}
    {text : String}
    (member : (known, text) ∈ names) :
    name token = text ↔ token = known := by
  have different : (names.map Prod.snd).Nodup := by
    decide
  have letters : ∀ entry ∈ names, entry.2.toList.head? ≠ some '0' := by
    decide
  constructor
  · intro named
    rw [name] at named
    split at named
    · rename_i other _ found
      have sameToken : other = token := by
        simpa using List.find?_some found
      have same :=
        List.inj_on_of_nodup_map different (List.mem_of_find?_eq_some found) member named
      rw [← sameToken, (Prod.mk.inj same).1]
    · refine absurd ?_ (letters (known, text) member)
      rw [← named, Token.text, Text.markedHex, String.toList_append]
      rfl
  · rintro rfl
    exact name_of_mem (token, text) member

end Chunk.Token

namespace ResourceTable

section Tally

/-- Names with how often each of them occurs, in the order of their first occurrence. -/
def tally (names : List String) : List (String × Int) :=
  names.eraseDups.map fun name => (name, (names.count name : Int))

variable (names : List String) (name : String)

/-- One more name is new, or is there already. -/
theorem eraseDups_concat :
    (names ++ [name]).eraseDups =
      if name ∈ names then names.eraseDups else names.eraseDups ++ [name] := by
  rw [List.eraseDups_append]
  by_cases member : name ∈ names <;> simp [List.removeAll, List.eraseDups_cons, member]

theorem nodup_eraseDups : names.eraseDups.Nodup := by
  induction names using List.reverseRecOn with
  | nil =>
      exact List.nodup_nil
  | append_singleton earlier name inductionHypothesis =>
      rw [eraseDups_concat]
      split
      · exact inductionHypothesis
      · rename_i new
        rw [← List.concat_eq_append, List.nodup_concat]
        exact ⟨fun member => new (List.mem_eraseDups.mp member), inductionHypothesis⟩

/-- A tally has each name once, in the order of first occurrence. -/
theorem keys_tally : (tally names).map Prod.fst = names.eraseDups := by
  rw [tally, List.map_map]
  exact List.map_id _

/-- A tally counts how often a name occurs. -/
theorem get?_tally : (Table.get? name (tally names)).getD 0 = names.count name := by
  have different : ((tally names).map Prod.fst).Nodup := by
    rw [keys_tally]
    exact nodup_eraseDups names
  by_cases member : name ∈ names
  · have entry : (name, (names.count name : Int)) ∈ tally names :=
      List.mem_map_of_mem (List.mem_eraseDups.mpr member)
    rw [(Table.get?_eq_some_iff different).mpr entry, Option.getD_some]
  · have absent : name ∉ (tally names).map Prod.fst := by
      rw [keys_tally, List.mem_eraseDups]
      exact member
    rw [Table.get?_eq_none_of_not_mem absent, List.count_eq_zero_of_not_mem member]
    rfl

/-- Counting one more name. -/
theorem count_tally : count name (tally names) = tally (names ++ [name]) := by
  rw [count, get?_tally]
  by_cases member : name ∈ names
  · have known : name ∈ (tally names).map Prod.fst := by
      rw [keys_tally, List.mem_eraseDups]
      exact member
    have different : ((tally names).map Prod.fst).Nodup := by
      rw [keys_tally]
      exact nodup_eraseDups names
    rw [Table.put_eq_map different known, tally, tally, eraseDups_concat, if_pos member,
      List.map_map]
    apply List.map_congr_left
    intro other _
    by_cases same : other = name
    · simp [same]
    · simp [same, Ne.symm same]
  · have absent : name ∉ (tally names).map Prod.fst := by
      rw [keys_tally, List.mem_eraseDups]
      exact member
    have others (other : String) (among : other ∈ names.eraseDups) :
        (names ++ [name]).count other = names.count other := by
      have different : name ≠ other := fun same => member (same ▸ List.mem_eraseDups.mp among)
      simp [different]
    rw [Table.put_of_get?_eq_none (Table.get?_eq_none_of_not_mem absent), tally, tally,
      eraseDups_concat, if_neg member, List.map_append]
    congr 1
    · apply List.map_congr_left
      intro other among
      rw [others other among]
    · simp

/-- The counts of a tally add up to the number of names. -/
theorem sum_tally : ((tally names).map Prod.snd).sum = names.length := by
  have sameNames : names.eraseDups.Perm names.dedup := by
    rw [List.perm_ext_iff_of_nodup (nodup_eraseDups names) (List.nodup_dedup names)]
    simp
  have counts := (sameNames.map fun name => names.count name).sum_eq
  rw [List.sum_map_count_dedup_eq_length] at counts
  rw [← counts, tally, List.map_map, Nat.cast_list_sum, List.map_map]
  rfl

end Tally

section Chunks

/-- How many of the chunks have a token. -/
def number (token : Nat) (chunks : List Header) : Nat :=
  chunks.countP fun chunk => chunk.token = token

/-- Chunks of a kind are counted in two parts. -/
theorem number_append (token : Nat) (chunks others : List Header) :
    number token (chunks ++ others) = number token chunks + number token others :=
  List.countP_append

theorem number_cons (token : Nat) (chunk : Header) (rest : List Header) :
    number token (chunk :: rest) = number token [chunk] + number token rest :=
  number_append token [chunk] rest

variable (buffer : Bytes)

/-- The chunks in the payload of a package. The payload of any other chunk is not entered. -/
def inside (chunk : Header) : List Header :=
  if chunk.token = Token.tablePackage then (chunk.children buffer).headers else []

/-- The chunks of a table in the order in which they are counted: each package comes in front of
the chunks in it. -/
def nested (chunks : List Header) : List Header :=
  chunks.flatMap fun chunk => chunk :: inside buffer chunk

/-- What is said of the package of a chunk. -/
def packageAt (chunk : Header) : ResourcePackage :=
  { packageId := Bytes.u32 buffer (chunk.offset + 8)
    name := nameOf (Bytes.slice buffer (chunk.offset + nameOffset) nameSize)
    typeSpecCount := number Token.tableTypeSpec (chunk.children buffer).headers
    typeCount := number Token.tableType (chunk.children buffer).headers
    sizeBytes := chunk.chunkSize }

/-- The chunks that are packages. -/
def packageChunks (chunks : List Header) : List Header :=
  chunks.filter fun chunk => chunk.token = Token.tablePackage

end Chunks

namespace Reading

variable {buffer : Bytes}

/-- Counting chunks leaves the rest of a table alone. -/
theorem table_foldl_counted
    {names : List String}
    (chunks : List Header)
    {reading : Reading}
    (counts : reading.table.chunkCounts = tally names) :
    (chunks.foldl counted reading).table =
      { reading.table with
        chunkCounts := tally (names ++ chunks.map fun chunk => Token.name chunk.token) } := by
  induction chunks generalizing reading names with
  | nil =>
      rw [List.foldl_nil, List.map_nil, List.append_nil, ← counts]
  | cons chunk rest inductionHypothesis =>
      have next :
          (reading.counted chunk).table.chunkCounts =
            tally (names ++ [Token.name chunk.token]) := by
        rw [← count_tally, ← counts]
        rfl
      rw [List.foldl_cons, inductionHypothesis next, List.append_assoc, List.map_cons]
      rfl

/-- A chunk in a package is counted for the package if it is of a type, and for the table. -/
theorem innerStep_eq (package : ResourcePackage) (reading : Reading) (chunk : Header) :
    innerStep (package, reading) chunk =
      .ok
        ({ package with
            typeSpecCount := package.typeSpecCount + number Token.tableTypeSpec [chunk]
            typeCount := package.typeCount + number Token.tableType [chunk] },
          reading.counted chunk) := by
  by_cases isSpec : chunk.token = Token.tableTypeSpec
  · simp [innerStep, number, isSpec, Token.tableTypeSpec, Token.tableType]
  · by_cases isType : chunk.token = Token.tableType
    · simp [innerStep, number, isType, Token.tableTypeSpec, Token.tableType]
    · simp [innerStep, number, isSpec, isType]

/-- Chunks in a package are counted, and its type specifications in it as well. -/
theorem steps_innerStep
    (chunks : List Header)
    (package : ResourcePackage)
    (reading : Reading) :
    Walk.steps innerStep (package, reading) chunks =
      (({ package with
          typeSpecCount := package.typeSpecCount + number Token.tableTypeSpec chunks
          typeCount := package.typeCount + number Token.tableType chunks },
        chunks.foldl counted reading), none) := by
  induction chunks generalizing package reading with
  | nil =>
      simp [Walk.steps, number]
  | cons chunk rest inductionHypothesis =>
      rw [Walk.steps, innerStep_eq, number_cons _ chunk rest, number_cons _ chunk rest]
      simp only [inductionHypothesis, List.foldl_cons, Nat.cast_add, add_assoc]

end Reading

section Covering

variable {buffer : Bytes} {header chunk : Header} {chunks : List Header}

/-- What a summary says once the chunk of a table and the given chunks in its payload are read. -/
structure Covers
    (buffer : Bytes)
    (header : Header)
    (chunks : List Header)
    (table : ResourceTable) : Prop where
  counts :
    table.chunkCounts =
      tally ((header :: nested buffer chunks).map fun chunk => Token.name chunk.token)
  packages : table.packages = (packageChunks chunks).map (packageAt buffer)
  walked : ∀ chunk ∈ packageChunks chunks, (chunk.children buffer).stop = none

/-- Any chunk but a package is only counted. -/
theorem Covers.concat_other
    {reading : Reading}
    {next : ResourceTable}
    (covers : Covers buffer header chunks reading.table)
    (isOther : chunk.token ≠ Token.tablePackage)
    (counts : next.chunkCounts = (reading.counted chunk).table.chunkCounts)
    (packages : next.packages = reading.table.packages) :
    Covers buffer header (chunks ++ [chunk]) next := by
  have noPackage : packageChunks (chunks ++ [chunk]) = packageChunks chunks := by
    simp [packageChunks, isOther]
  constructor
  · rw [counts, Reading.counted, covers.counts, count_tally]
    simp [nested, inside, isOther]
  · rw [noPackage, packages, covers.packages]
  · rw [noPackage]
    exact covers.walked

/-- A package is counted with the chunks in it and gets an entry. -/
theorem Covers.concat_package
    {reading next : Reading}
    (covers : Covers buffer header chunks reading.table)
    (isPackage : chunk.token = Token.tablePackage)
    (read : (reading.counted chunk).package buffer chunk = .ok next) :
    Covers buffer header (chunks ++ [chunk]) next.table := by
  have onePackage : packageChunks (chunks ++ [chunk]) = packageChunks chunks ++ [chunk] := by
    simp [packageChunks, isPackage]
  have counts :
      (reading.counted chunk).table.chunkCounts =
        tally
          ((header :: nested buffer chunks).map (fun chunk => Token.name chunk.token) ++
            [Token.name chunk.token]) := by
    rw [Reading.counted, covers.counts, count_tally]
  rw [Reading.package_eq] at read
  obtain ⟨idField, idRead, read⟩ := exists_of_bind_eq_ok read
  obtain ⟨nameField, nameRead, read⟩ := exists_of_bind_eq_ok read
  obtain ⟨inner, ran, same⟩ := exists_of_bind_eq_ok read
  obtain ⟨through, walked⟩ := Fallible.steps_of_outcome_run ran
  rw [Reading.steps_innerStep] at through
  cases through
  cases same
  have after := Reading.table_foldl_counted (chunk.children buffer).headers counts
  constructor
  · simp only [Reading.withPackage, after]
    simp [nested, inside, isPackage]
  · have idNumber : Bytes.u32 idField 0 = Bytes.u32 buffer (chunk.offset + 8) := by
      rw [StringPool.eq_slice_of_bytes idRead]
      exact Fallible.word_slice (by decide)
    have nameBytes := StringPool.eq_slice_of_bytes nameRead
    simp only [Reading.withPackage, after]
    rw [onePackage, List.map_append, ← covers.packages]
    simp [Reading.opened, Reading.counted, packageAt, idNumber, nameBytes]
  · rw [onePackage]
    simpa [or_imp, forall_and, walked] using covers.walked

/-- One more chunk in the payload of a table. -/
theorem Covers.step
    {reading next : Reading}
    (covers : Covers buffer header chunks reading.table)
    (stepped : reading.step buffer chunk = .ok next) :
    Covers buffer header (chunks ++ [chunk]) next.table := by
  rw [Reading.step] at stepped
  dsimp only at stepped
  split at stepped
  · rename_i isPool
    obtain ⟨pool, _, same⟩ := exists_of_bind_eq_ok stepped
    cases same
    have isOther : chunk.token ≠ Token.tablePackage := by
      rw [isPool]
      decide
    exact covers.concat_other isOther rfl rfl
  · split at stepped
    · rename_i isPackage
      exact covers.concat_package isPackage stepped
    · rename_i isOther
      cases stepped
      exact covers.concat_other isOther rfl rfl

/-- All further chunks in the payload of a table, from the next one on. -/
theorem Covers.steps
    {rest : List Header}
    {reading final : Reading}
    (covers : Covers buffer header chunks reading.table)
    (through : Walk.steps (Reading.step buffer) reading rest = (final, none)) :
    Covers buffer header (chunks ++ rest) final.table := by
  induction rest generalizing chunks reading with
  | nil =>
      cases through
      rwa [List.append_nil]
  | cons chunk rest inductionHypothesis =>
      rw [Walk.steps] at through
      split at through
      · cases through
      · rename_i next stepped
        rw [List.append_cons]
        exact inductionHypothesis (covers.step stepped) through

/-- A byte string that is accepted is the chunk of a table, and its summary covers all chunks in
the payload. -/
theorem exists_covers_of_decode
    {table : ResourceTable}
    (decoded : decode buffer = .ok table) :
    ∃ header,
      readHeader buffer 0 = .ok header ∧
        header.token = Token.table ∧
          (header.children buffer).stop = none ∧
            Covers buffer header (header.children buffer).headers table := by
  rw [decode_eq_bind] at decoded
  obtain ⟨header, read, decoded⟩ := exists_of_bind_eq_ok decoded
  split at decoded
  · rename_i isTable
    obtain ⟨countField, _, decoded⟩ := exists_of_bind_eq_ok decoded
    obtain ⟨final, ran, same⟩ := exists_of_bind_eq_ok decoded
    cases same
    obtain ⟨through, walked⟩ := Fallible.steps_of_outcome_run ran
    let start : Reading := ⟨{ declaredPackageCount := Bytes.u32 countField 0 }, []⟩
    have covers : Covers buffer header [] (start.counted header).table :=
      ⟨count_tally [] (Token.name header.token), rfl, by simp [packageChunks]⟩
    exact ⟨header, read, isTable, walked, covers.steps through⟩
  · cases decoded

end Covering

section Accounting

variable {buffer : Bytes} {header : Header} {chunks : List Header}

/-- Chunks in packages come on top of those that are not in one. -/
theorem number_nested (token : Nat) (buffer : Bytes) (chunks : List Header) :
    number token (nested buffer chunks) =
      number token chunks +
        ((packageChunks chunks).map fun chunk =>
          number token (chunk.children buffer).headers).sum := by
  induction chunks with
  | nil =>
      rfl
  | cons chunk rest inductionHypothesis =>
      have split :
          nested buffer (chunk :: rest) =
            [chunk] ++ inside buffer chunk ++ nested buffer rest := by
        simp [nested]
      rw [split, number_append, number_append, inductionHypothesis, number_cons _ chunk rest]
      by_cases isPackage : chunk.token = Token.tablePackage
      · have more : packageChunks (chunk :: rest) = chunk :: packageChunks rest := by
          simp [packageChunks, isPackage]
        rw [more, inside, if_pos isPackage, List.map_cons, List.sum_cons]
        omega
      · have same : packageChunks (chunk :: rest) = packageChunks rest := by
          simp [packageChunks, isPackage]
        rw [same, inside, if_neg isPackage, number, number, number, List.countP_nil]
        omega

theorem length_nested (buffer : Bytes) (chunks : List Header) :
    (nested buffer chunks).length = chunks.length + (chunks.flatMap (inside buffer)).length := by
  induction chunks with
  | nil =>
      rfl
  | cons chunk rest inductionHypothesis =>
      simp only [nested, List.flatMap_cons, List.length_append, List.length_cons] at *
      omega

/-- The type specifications of a summary are those in packages. -/
theorem Covers.typeSpecCount_eq
    {table : ResourceTable}
    (covers : Covers buffer header chunks table) :
    table.typeSpecCount =
      ((packageChunks chunks).map fun chunk =>
        number Token.tableTypeSpec (chunk.children buffer).headers).sum := by
  rw [typeSpecCount, covers.packages, List.map_map, Nat.cast_list_sum, List.map_map]
  rfl

/-- How often a name was counted. -/
theorem Covers.counted
    {table : ResourceTable}
    (covers : Covers buffer header chunks table)
    (name : String) :
    (Table.get? name table.chunkCounts).getD 0 =
      (header :: nested buffer chunks).countP fun chunk => Token.name chunk.token = name := by
  rw [covers.counts, get?_tally, List.count_eq_countP, List.countP_map]
  congr 2

/-- The sizes of chunks that are packages and of those that are not. -/
theorem Covers.sum_sizes
    {table : ResourceTable}
    (covers : Covers buffer header chunks table) :
    ((chunks.filter fun chunk => chunk.token ≠ Token.tablePackage).map Header.chunkSize).sum +
        (table.packages.map ResourcePackage.sizeBytes).sum =
      (chunks.map Header.chunkSize).sum := by
  have split :=
    List.sum_map_filter_add_sum_map_filter_not
      (fun chunk : Header => chunk.token = Token.tablePackage) Header.chunkSize chunks
  have sizes :
      (table.packages.map ResourcePackage.sizeBytes).sum =
        ((packageChunks chunks).map Header.chunkSize).sum := by
    rw [covers.packages, List.map_map, Nat.cast_list_sum, List.map_map]
    rfl
  rw [sizes, ← split, packageChunks]
  push_cast
  exact add_comm _ _

/-- The payload of a chunk whose walk was not stopped is taken up by the chunks in it. -/
theorem headerSize_add_sum_sizes
    (walked : (header.children buffer).stop = none) :
    header.headerSize + ((header.children buffer).headers.map Header.chunkSize).sum =
      header.chunkSize := by
  have tiles := tiles_walk buffer header.dataOffset header.chunkEnd
  have starts : header.dataOffset = header.offset + header.headerSize := rfl
  have ends : header.chunkEnd = header.offset + header.chunkSize := rfl
  have covered := header.headerSize_le
  have total := tiles.total
  rw [tiles.complete walked (by omega)] at total
  rw [Header.children]
  omega

end Accounting

/-- A summary accounts for all chunks and all bytes of a table. The chunks in the payload of the
table and of each package are those of walks that reach the end of the payload. Every chunk is
counted once under its name, names standing in the order of their first occurrence, and there is
one entry for each package in the payload of the table. -/
structure Accounts (buffer : Bytes) (header : Header) (table : ResourceTable) : Prop where
  walked : (header.children buffer).stop = none
  walkedInside :
    ∀ chunk ∈ packageChunks (header.children buffer).headers,
      (chunk.children buffer).stop = none
  counted :
    ∀ name,
      (Table.get? name table.chunkCounts).getD 0 =
        (header :: nested buffer (header.children buffer).headers).countP fun chunk =>
          Token.name chunk.token = name
  order :
    table.chunkCounts.map Prod.fst =
      ((header :: nested buffer (header.children buffer).headers).map fun chunk =>
        Token.name chunk.token).eraseDups
  total :
    (table.chunkCounts.map Prod.snd).sum =
      1 + (header.children buffer).headers.length +
        ((header.children buffer).headers.flatMap (inside buffer)).length
  packages :
    table.packages =
      (packageChunks (header.children buffer).headers).map (packageAt buffer)
  outerTypeSpecs :
    (Table.get? "table_type_spec" table.chunkCounts).getD 0 - table.typeSpecCount =
      number Token.tableTypeSpec (header.children buffer).headers
  sizes :
    header.headerSize +
        (((header.children buffer).headers.filter fun chunk =>
          chunk.token ≠ Token.tablePackage).map Header.chunkSize).sum +
        (table.packages.map ResourcePackage.sizeBytes).sum =
      header.chunkSize

/-- The summary of a byte string accounts for all that the byte string is made of. -/
theorem decode_accounts_for_table
    {buffer : Bytes}
    {table : ResourceTable}
    (decoded : decode buffer = .ok table) :
    ∃ header,
      readHeader buffer 0 = .ok header ∧
        header.token = Token.table ∧ Accounts buffer header table := by
  obtain ⟨header, read, isTable, walked, covers⟩ := exists_covers_of_decode decoded
  refine ⟨header, read, isTable, ?_⟩
  constructor
  · exact walked
  · exact covers.walked
  · exact covers.counted
  · rw [covers.counts, keys_tally]
  · rw [covers.counts, sum_tally, List.length_map, List.length_cons, length_nested]
    push_cast
    ring
  · exact covers.packages
  · have isSpec (chunk : Header) :
        Token.name chunk.token = "table_type_spec" ↔ chunk.token = Token.tableTypeSpec :=
      Token.name_eq_iff (by decide)
    have notSpec : number Token.tableTypeSpec [header] = 0 := by
      simp [number, isTable, Token.table, Token.tableTypeSpec]
    have all := covers.counted "table_type_spec"
    simp only [isSpec] at all
    rw [all, covers.typeSpecCount_eq, ← number, number_cons, notSpec, number_nested]
    push_cast
    ring
  · have sizes := covers.sum_sizes
    have whole := headerSize_add_sum_sizes walked
    omega

/-- A table with a type specification of its own and a package `a` that holds a type
specification, two types and a chunk of an unknown kind. -/
def smallTable : Bytes :=
  ([ [2, 0, 12, 0, 64, 1, 0, 0, 1, 0, 0, 0],
    [2, 2, 8, 0, 8, 0, 0, 0],
    [0, 2, 12, 1, 44, 1, 0, 0, 127, 0, 0, 0, 97], List.replicate 255 0,
    [2, 2, 8, 0, 8, 0, 0, 0],
    [1, 2, 8, 0, 8, 0, 0, 0],
    [1, 2, 8, 0, 8, 0, 0, 0],
    [5, 5, 8, 0, 8, 0, 0, 0] ] : List (List UInt8)).flatten.toArray

/-- How often each kind of chunk occurs in the small table. -/
def smallCounts : List (String × Int) :=
  [("table", 1), ("table_type_spec", 2), ("table_package", 1), ("table_type", 2), ("0x0505", 1)]

/-- Of the two type specifications one is in the package. -/
theorem smallTable_is_accounted_for :
    ∃ table header,
      decode smallTable = .ok table ∧
        table.chunkCounts = smallCounts ∧
          table.typeSpecCount = 1 ∧
            readHeader smallTable 0 = .ok header ∧
              header.token = Token.table ∧ Accounts smallTable header table := by
  have figures :
      (decode smallTable).map (fun table => (table.chunkCounts, table.typeSpecCount)) =
        .ok (smallCounts, 1) := by
    decide +kernel
  obtain ⟨table, decoded, same⟩ := exists_of_map_eq_ok figures
  obtain ⟨counts, specs⟩ := Prod.mk.inj same
  obtain ⟨header, accounts⟩ := decode_accounts_for_table decoded
  exact ⟨table, header, decoded, counts, specs, accounts⟩

end ResourceTable

end ApkAtlas
