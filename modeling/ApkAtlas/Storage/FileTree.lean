import ApkAtlas.Bytes
import ApkAtlas.Failure
import ApkAtlas.Storage.FilePath
import ApkAtlas.Table

namespace ApkAtlas

/-!
# File trees

The files that an operation can see form a tree. A place in it is a list of names from the
root; reading, writing and removing are functions on trees and refuse what a file system
refuses.
-/

/-- What stands at a place. -/
inductive FileNode where
  | directory
  | file (content : Bytes)
deriving Repr, DecidableEq

namespace FileNode

/-- Whether the node is a directory. -/
def isDirectory : FileNode → Bool
  | .directory => true
  | .file _ => false

end FileNode

/-- Why a file system refuses. -/
inductive FileProblem where
  | missing
  | exists
  | isDirectory
  | notDirectory
deriving Repr, DecidableEq

namespace FileProblem

/-- The number and the words of a problem. -/
def words : FileProblem → String
  | .missing => "[Errno 2] No such file or directory"
  | .exists => "[Errno 17] File exists"
  | .isDirectory => "[Errno 21] Is a directory"
  | .notDirectory => "[Errno 20] Not a directory"

/-- The kind of error of a problem. -/
def kind : FileProblem → Failure.ExternalKind
  | .missing => .fileMissing
  | .exists => .fileExists
  | .isDirectory => .isDirectory
  | .notDirectory => .notDirectory

/-- The problem with a path as an error. -/
def toError (problem : FileProblem) (path : String) : ExternalError :=
  ⟨problem.kind, problem.words ++ ": " ++ Text.quoted path⟩

end FileProblem

/-- The files and directories that can be seen, by the names that lead to them from the
root of the file system. -/
structure FileTree where
  /-- The working directory. -/
  home : List String := []
  nodes : List (List String × FileNode) := []
deriving Repr, DecidableEq

namespace FileTree

/-- What stands at a place; the root is always there. -/
def node? (tree : FileTree) : List String → Option FileNode
  | [] => some .directory
  | place => Table.get? place tree.nodes

/-- The place from which a path leads. -/
def origin (tree : FileTree) (path : FilePath) : List String :=
  if path.rootSlashes = 0 then tree.home else []

/-- The place that a path names without a look at what is there. -/
def resolve (tree : FileTree) (path : FilePath) : List String :=
  FilePath.follow (tree.origin path) path.names

/-- The path that leads to a place from the root. -/
def pathOf (place : List String) : FilePath :=
  ⟨1, place⟩

/-- Goes on from a directory by names, of which all but the last must be directories. -/
def walk (tree : FileTree) : List String → List String → Except FileProblem (List String)
  | place, [] => .ok place
  | place, name :: rest =>
      match tree.node? place with
      | none => .error .missing
      | some (.file _) => .error .notDirectory
      | some .directory =>
          walk tree (if name = ".." then place.dropLast else place ++ [name]) rest

/-- The place that a path leads to, where the last name may be a new one. -/
def locate (tree : FileTree) (path : FilePath) : Except FileProblem (List String) :=
  tree.walk (tree.origin path) path.names

/-- The place and the node that a path leads to. -/
def find (tree : FileTree) (path : FilePath) :
    Except FileProblem (List String × FileNode) := do
  let place ← tree.locate path
  match tree.node? place with
  | none => throw .missing
  | some node => return (place, node)

/-- Whether a path leads to something. -/
def holds (tree : FileTree) (path : FilePath) : Bool :=
  (tree.find path).isOk

/-- The content of the file that a path leads to. -/
def read (tree : FileTree) (path : FilePath) : Except FileProblem Bytes := do
  match ← tree.find path with
  | (_, .file content) => return content
  | (_, .directory) => throw .isDirectory

/-- Puts a node at a place. -/
def put (tree : FileTree) (place : List String) (node : FileNode) : FileTree :=
  { tree with nodes := Table.put place node tree.nodes }

/-- Makes the directories from `done` on along the given names, as far as they are not
there. -/
def makeDirectories
    (tree : FileTree)
    (done : List String) :
    List String → Except FileProblem FileTree
  | [] => .ok tree
  | name :: rest =>
      let place := done ++ [name]
      match tree.node? place with
      | some .directory => makeDirectories tree place rest
      | some (.file _) =>
          if rest.isEmpty then .error .exists else .error .notDirectory
      | none => makeDirectories (tree.put place .directory) place rest

/-- Writes a file at a place whose directory is there. -/
def write
    (tree : FileTree)
    (place : List String)
    (content : Bytes) :
    Except FileProblem FileTree :=
  match tree.node? place with
  | some .directory => .error .isDirectory
  | _ => .ok (tree.put place (.file content))

/-- Removes the file at a place. -/
def remove (tree : FileTree) (place : List String) : Except FileProblem FileTree :=
  match tree.node? place with
  | none => .error .missing
  | some .directory => .error .isDirectory
  | some (.file _) => .ok { tree with nodes := Table.erase place tree.nodes }

/-- Everything strictly below a place, by the names from there on. -/
def below (tree : FileTree) (place : List String) : List (List String × FileNode) :=
  tree.nodes.filterMap fun (here, node) =>
    if place.isPrefixOf here && place.length < here.length then
      some (here.drop place.length, node)
    else
      none

/-- The tree with a file added at a place, and its directories with it. -/
def withFile (tree : FileTree) (place : List String) (content : Bytes) : FileTree :=
  match tree.makeDirectories [] place.dropLast with
  | .error _ => tree
  | .ok grown => grown.put place (.file content)

/-- The tree that holds a working directory and the given files, by their paths from
there. -/
def ofFiles (home : List String) (files : List (String × Bytes)) : FileTree :=
  let empty : FileTree := { home }
  let start := (empty.makeDirectories [] home).toOption.getD empty
  files.foldl
    (fun tree (path, content) => tree.withFile (home ++ FilePath.namesOf path) content) start

end FileTree

end ApkAtlas
