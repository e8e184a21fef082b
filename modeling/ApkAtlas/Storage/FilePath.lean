import ApkAtlas.Text.Segment

namespace ApkAtlas

/-!
# File paths

A path is a list of names, seen from the working directory or from the root of the file
system. Empty names and single dots between slashes mean nothing and are left out, so
two texts that differ only in them are the same path.
-/

/-- A path in its shortest equal form. -/
structure FilePath where
  /-- How many slashes open the path: none, one, or two, which some systems keep apart. -/
  rootSlashes : Nat := 0
  names : List String
deriving Repr, DecidableEq, Inhabited

namespace FilePath

/-- How many leading slashes of a text open its path: exactly two stay two, and any other
number counts as one. -/
def rootSlashesOf (text : List Char) : Nat :=
  match (text.takeWhile (· == '/')).length with
  | 0 => 0
  | 2 => 2
  | _ => 1

/-- The names of a text between slashes. -/
def namesOf (text : String) : List String :=
  (Text.split '/' text).filter fun name => !(name.isEmpty || name == ".")

/-- The path that a text names. -/
def ofText (text : String) : FilePath :=
  ⟨rootSlashesOf text.toList, namesOf text⟩

/-- The path as text; the working directory itself is a dot. -/
def toText (path : FilePath) : String :=
  let body := "/".intercalate path.names
  match path.rootSlashes with
  | 0 => if path.names.isEmpty then "." else body
  | count => String.ofList (List.replicate count '/') ++ body

/-- Whether a name of the path has a null character in it. No file can be asked for by such
a path. -/
def hasNull (path : FilePath) : Bool :=
  path.names.any fun name => name.toList.contains '\x00'

/-- Goes from a place along some names; two dots lead back, and the root leads back to
itself. -/
def follow (place : List String) : List String → List String
  | [] => place
  | name :: rest =>
      follow (if name = ".." then place.dropLast else place ++ [name]) rest

/-- The last name of a path. -/
def name (path : FilePath) : String :=
  path.names.getLast?.getD ""

/-- A name before its last dot, unless the dot opens or ends the name. -/
def stemOf (name : String) : String :=
  let text := name.toList
  let ending := Text.afterLast '.' text
  match Text.beforeLast? '.' text with
  | none => name
  | some before =>
      if before.isEmpty || ending.isEmpty then name else String.ofList before

/-- The dot and what follows it at the end of a name, unless the dot opens or ends the
name. -/
def suffixOf (name : String) : String :=
  String.ofList (name.toList.drop (stemOf name).toList.length)

/-- The last name without its ending. -/
def stem (path : FilePath) : String :=
  stemOf path.name

end FilePath

/-!
# Where reports are kept

A report is kept under a key. The key names a place below the base directory: marks that
could lead out of it are taken out of the key, and a key that would lead out all the same
becomes a single name.
-/

namespace ReportKey

/-- The key without what could lead out of a directory: slashes at the front, pairs of
dots, colons. -/
def clean (key : String) : List Char :=
  let front := key.toList.dropWhile fun c => c == '/' || c == '\\'
  (Text.withoutDouble '.' front).filter (· ≠ ':')

/-- The key as a single name. -/
def flattened (key : List Char) : List Char :=
  key.map fun c => if c == '/' || c == '\\' then '_' else c

/-- The names that lead from the base directory to the place of a key. -/
def names (base : List String) (key : String) : List String :=
  let path := FilePath.ofText (String.ofList (clean key))
  let place := FilePath.follow (if path.rootSlashes = 0 then base else []) path.names
  if base.isPrefixOf place then
    place.drop base.length
  else
    FilePath.namesOf (String.ofList (flattened (clean key)))

/-- The ending of the file that tells about a report. -/
def metadataSuffix : String :=
  ".meta.json"

/-- The ending of reports. -/
def reportSuffix : String :=
  ".json"

/-- The key of what tells about the report under a key. -/
def metadataKey (key : String) : String :=
  key ++ metadataSuffix

end ReportKey

end ApkAtlas
