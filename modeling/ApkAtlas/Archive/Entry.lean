import ApkAtlas.Text.Segment

namespace ApkAtlas

/-!
# Archive entries

What an archive's directory tells about one entry.
-/

/-- One entry of an archive. -/
structure ArchiveEntry where
  path : String
  /-- The size of the content. -/
  rawSize : Int := 0
  /-- The size that the content takes in the archive. -/
  downloadSize : Int := 0
  isDirectory : Bool := false
deriving Repr, DecidableEq, Inhabited

namespace ArchiveEntry

/-- What follows the last dot of the last name of the path. -/
def extension (entry : ArchiveEntry) : String :=
  let name := Text.afterLast '/' entry.path.toList
  if name.contains '.' then String.ofList (Text.afterLast '.' name) else ""

/-- The first entries with their paths in order, entries of one path as they come. -/
def sortedByPath (entries : List ArchiveEntry) : List ArchiveEntry :=
  entries.mergeSort fun left right => decide (left.path ≤ right.path)

end ArchiveEntry

end ApkAtlas
