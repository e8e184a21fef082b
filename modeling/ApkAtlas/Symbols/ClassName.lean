import ApkAtlas.Failure
import ApkAtlas.Text.Segment

namespace ApkAtlas.ClassName

/-!
# Class names

A dotted class name is the path of its class in the package tree: package segments and
the class segment behind them, none of which is empty.
-/

/-- The path of a class, unless some segment of its name is empty. -/
def path? (name : String) : Option (List String) :=
  let segments := Text.split '.' name
  if segments.any String.isEmpty then none else some segments

/-- Why a class cannot stand in the tree. -/
inductive Defect where
  | emptySegment
  | packageAtClass
  | classAtPackage (segment : String)
deriving Repr, DecidableEq

namespace Defect

/-- The defect of the named class in words. -/
def text (name : String) : Defect → String
  | .emptySegment =>
      "Cannot split class name " ++ Text.quoted name ++ " into package segments"
  | .packageAtClass => "Class " ++ name ++ " collides with a package of the same name"
  | .classAtPackage segment =>
      "Package segment " ++ Text.quoted segment ++ " of " ++ name ++ " is already a class"

end Defect

/-- A class that was left out of the tree. -/
structure Rejection where
  className : String
  fileName : String
  defect : Defect
deriving Repr, DecidableEq

namespace Rejection

/-- What is wrong in words. -/
def text (rejection : Rejection) : String :=
  rejection.defect.text rejection.className

/-- The rejection as a failure. -/
def toFailure (rejection : Rejection) : Failure :=
  { text := rejection.text
    detail := .invalidClassName rejection.className rejection.fileName }

end Rejection

/-- The path of a class declared in a file. -/
def path (name fileName : String) : Except Rejection (List String) :=
  match path? name with
  | some segments => .ok segments
  | none => .error ⟨name, fileName, .emptySegment⟩

end ApkAtlas.ClassName
