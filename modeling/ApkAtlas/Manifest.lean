import ApkAtlas.Number.Literal
import ApkAtlas.Xml.Compiled
import ApkAtlas.Xml.Markup.Tree

namespace ApkAtlas

/-!
# Manifests

The manifest of a package is an XML document, compiled or plain, that names the package,
its versions, the permissions it asks for and its components.
-/

/-- What an intent filter lets through. -/
structure IntentFilter where
  actions : List String := []
  categories : List String := []
deriving Repr, DecidableEq, Inhabited

/-- A component of an application. -/
structure Component where
  /-- The class of the component as declared; it may start with a dot. -/
  name : String
  /-- Whether other applications may use it, where this is said. -/
  exported : Option Bool := none
  intentFilters : List IntentFilter := []
deriving Repr, DecidableEq, Inhabited

namespace Component

/-- The last segment of the name. -/
def simpleName (component : Component) : String :=
  String.ofList (Text.afterLast '.' component.name.toList)

/-- Whether the component starts the application. -/
def isLauncher (component : Component) : Bool :=
  component.intentFilters.any fun filter =>
    filter.actions.contains "android.intent.action.MAIN" &&
      filter.categories.contains "android.intent.category.LAUNCHER"

end Component

/-- A content provider. -/
structure Provider where
  component : Component
  authorities : List String := []
deriving Repr, DecidableEq, Inhabited

/-- What a manifest says. -/
structure Manifest where
  packageName : String
  versionCode : Option Int := none
  versionName : Option String := none
  minSdkVersion : Option Int := none
  targetSdkVersion : Option Int := none
  applicationLabel : Option String := none
  permissions : List String := []
  activities : List Component := []
  services : List Component := []
  receivers : List Component := []
  providers : List Provider := []
  usesFeatures : List String := []
deriving Repr, DecidableEq, Inhabited

namespace Manifest

open Xml

/-- The archive entry that holds the manifest. -/
def entryName : String :=
  "AndroidManifest.xml"

/-- The activity that starts the application. -/
def launcher? (manifest : Manifest) : Option Component :=
  manifest.activities.find? Component.isLauncher

/-- The `name` of an element, or the empty text. -/
def nameOf (element : Element) : String :=
  (element.attribute? "name").getD ""

/-- The integer that a text is a literal of. -/
def number? (text : Option String) : Option Int :=
  text.bind Number.ofLiteral?

/-- The intent filter of an element. -/
def intentFilter (element : Element) : IntentFilter :=
  ⟨(element.childrenNamed "action").map nameOf, (element.childrenNamed "category").map nameOf⟩

/-- The component of an element. -/
def component (element : Element) : Component :=
  { name := nameOf element
    exported := (element.attribute? "exported").map (· == "true")
    intentFilters := (element.childrenNamed "intent-filter").map intentFilter }

/-- The provider of an element. Authorities are separated by semicolons. -/
def provider (element : Element) : Provider :=
  { component := component element
    authorities :=
      (Text.split ';' ((element.attribute? "authorities").getD "")).filter (!·.isEmpty) }

/-- What the manifest with the given root element says. -/
def ofElement (root : Element) : Manifest :=
  let sdk := (root.childrenNamed "uses-sdk").head?
  let application := (root.childrenNamed "application").head?
  let components (name : String) : List Component :=
    match application with
    | none => []
    | some application => (application.childrenNamed name).map component
  { packageName := (root.anyAttribute? "package").getD ""
    versionCode := number? (root.attribute? "versionCode")
    versionName := root.attribute? "versionName"
    minSdkVersion := number? (sdk.bind (·.attribute? "minSdkVersion"))
    targetSdkVersion := number? (sdk.bind (·.attribute? "targetSdkVersion"))
    applicationLabel := application.bind (·.attribute? "label")
    permissions := (root.childrenNamed "uses-permission").map nameOf
    activities := components "activity" ++ components "activity-alias"
    services := components "service"
    receivers := components "receiver"
    providers :=
      match application with
      | none => []
      | some application => (application.childrenNamed "provider").map provider
    usesFeatures := ((root.childrenNamed "uses-feature").map nameOf).filter (!·.isEmpty) }

/-- Whether a byte string is plain text: its first byte behind space opens a tag. -/
def isPlain (bytes : Bytes) : Bool :=
  let isSpaceByte (byte : UInt8) : Bool := byte == 0x20 || (0x09 ≤ byte && byte ≤ 0x0D)
  (bytes.toList.dropWhile isSpaceByte).head? == some 0x3C

/-- The failure of a plain manifest that is no XML document. -/
def notWellFormed (message : String) : Failure :=
  { text := "Unparsable text manifest: " ++ message
    cause := some ⟨.external .malformedMarkup, message⟩
    detail := .validation (some entryName) .null }

/-- The root element of a plain manifest. What the parser cannot read at all is no failure
of the manifest. -/
def decodePlain (parse : Markup.Parser) (bytes : Bytes) : Except Fault Element :=
  match parse bytes with
  | .ok tree => tree.element.mapError .external
  | .error (.malformed message) => .error (.failure (notWellFormed message))
  | .error (.unreadable error) => .error (.external error)

/-- The root element of a manifest, compiled or plain. -/
def decode (parse : Markup.Parser) (bytes : Bytes) : Except Fault Element :=
  if isPlain bytes then
    decodePlain parse bytes
  else
    match Document.decode bytes with
    | .ok document => .ok document.root
    | .error error => .error error.toFault

/-- The root element of a manifest, with the log records of reading it. -/
def decodeLogged (parse : Markup.Parser) (bytes : Bytes) : Logged Element :=
  if isPlain bytes then
    Logged.ofExcept (decodePlain parse bytes)
  else do
    let document ← (Document.decodeLogged bytes).adapt Chunk.DecodeError.toFault
    return document.root

end Manifest

end ApkAtlas
