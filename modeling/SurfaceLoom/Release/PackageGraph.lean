import SurfaceLoom.Lib.CodeUnits
import SurfaceLoom.Lib.DepthFirst
import SurfaceLoom.Lib.OrderedMap
import SurfaceLoom.Release.Shape

/-! # The packages of a release

A release names its packages; each is checked, and they are put in an order in which each
stands after the release packages it depends on. -/
namespace SurfaceLoom.Release.PackageGraph
open SurfaceLoom.Lib

def packageFields : List String :=
  ["name", "version", "dependencies", "peerDependencies", "peerDependenciesMeta",
    "optionalDependencies", "exports", "bin", "assets", "license"]

def isDigit (c : Char) : Bool := '0' ≤ c && c ≤ '9'

/-- `0|[1-9]\d*` -/
def numericIdentifier : List Char → Bool
  | [] => false
  | c :: rest => if c = '0' then rest.isEmpty else isDigit c && rest.all isDigit

/-- `0|[1-9]\d*|[0-9A-Za-z-]*[A-Za-z-][0-9A-Za-z-]*` -/
def prereleaseIdentifier (text : List Char) : Bool :=
  numericIdentifier text ||
    (text.all fun c => isDigit c || c.isAlpha || c = '-') && text.any fun c => c.isAlpha || c = '-'

def strictSemverPattern (version : String) : Bool :=
  let core := version.toList.takeWhile (· ≠ '-')
  let prerelease := version.toList.dropWhile (· ≠ '-')
  ((core.splitOn '.').length = 3 && (core.splitOn '.').all numericIdentifier) &&
    (prerelease.isEmpty || ((prerelease.drop 1).splitOn '.').all prereleaseIdentifier)

/-- `/^(?:file|link|workspace):/` -/
def isLocalRange (range : String) : Bool :=
  "file:".toList.isPrefixOf range.toList || "link:".toList.isPrefixOf range.toList ||
    "workspace:".toList.isPrefixOf range.toList

inductive DependencyField
  | dependencies
  | peerDependencies
  | optionalDependencies
  deriving DecidableEq

def DependencyField.name : DependencyField → String
  | .dependencies => "dependencies"
  | .peerDependencies => "peerDependencies"
  | .optionalDependencies => "optionalDependencies"

def dependencyFields : List DependencyField :=
  [.dependencies, .peerDependencies, .optionalDependencies]

/-- A checked package. Its other fields are checked and not read again. -/
structure Package where
  name : String
  version : String
  dependencies : List (String × String)
  peerDependencies : List (String × String)
  optionalDependencies : List (String × String)

def Package.field (item : Package) : DependencyField → List (String × String)
  | .dependencies => item.dependencies
  | .peerDependencies => item.peerDependencies
  | .optionalDependencies => item.optionalDependencies

/-! ## Checking one package -/

def dependencyEntries (label : String) : Fields → Checked (List (String × String))
  | [] => .ok []
  | (name, range) :: rest => do
    let name ← string (.string name) (label ++ " name") anyText
    let range ← string range (label ++ "." ++ name) anyText
    let rest ← dependencyEntries label rest
    .ok ((name, range) :: rest)

def dependencyMap (value : Value) (label : String) : Checked (List (String × String)) :=
  match value with
  | .undefined => .ok []
  | value => do
    let input ← dictionary value label
    dependencyEntries label input

/-- One of the three dependency fields of a package. -/
def dependencyField (allowLocalDependencies : Bool) (item : Fields) (name : String)
    (which : DependencyField) : Checked (List (String × String)) := do
  let ranges ← dependencyMap (field item which.name) (name ++ "." ++ which.name)
  if !allowLocalDependencies && ranges.any fun entry => isLocalRange entry.2 then
    fail .localDependency "Final package dependencies must be publishable."
  else .ok ranges

def peerMetadataEntries (peerDependencies : List (String × String)) (label : String) :
    Fields → Checked Unit
  | [] => .ok ()
  | (name, value) :: rest => do
    let _ ← string (.string name) (label ++ " name") anyText
    if !hasOwn peerDependencies name then
      fail .unknownPeerMetadata (label ++ "." ++ name ++ " does not name a declared peer dependency.")
    else do
      let metadata ← record value (label ++ "." ++ name) ["optional"] ["optional"]
      match field metadata "optional" with
      | .boolean _ => peerMetadataEntries peerDependencies label rest
      | _ => fail .invalidPeerMetadata (label ++ "." ++ name ++ ".optional must be boolean.")

def peerDependencyMetadata (value : Value) (peerDependencies : List (String × String))
    (label : String) : Checked Unit :=
  match value with
  | .undefined => .ok ()
  | value => do
    let input ← dictionary value label
    peerMetadataEntries peerDependencies label input

mutual

def jsonValue (value : Value) (label : String) : Checked Unit :=
  match value with
  | .null | .boolean _ | .string _ | .number true => .ok ()
  | .array items => jsonItems items label 0
  | .object fields =>
    if fields.any fun entry => isAccessor entry.2 then
      fail .invalidRecord (label ++ " must contain only string data properties.")
    else jsonFields fields label
  | _ => fail .invalidRecord (label ++ " must be a plain object.")

def jsonItems (items : List Value) (label : String) (index : Nat) : Checked Unit :=
  match items with
  | [] => .ok ()
  | item :: rest => do
    jsonValue item (itemLabel label index)
    jsonItems rest label (index + 1)

def jsonFields (fields : Fields) (label : String) : Checked Unit :=
  match fields with
  | [] => .ok ()
  | (key, value) :: rest => do
    jsonValue value (label ++ "." ++ key)
    jsonFields rest label

end

def assetNames (label : String) (index : Nat) : List Value → Checked (List String)
  | [] => .ok []
  | entry :: rest => do
    let name ← string entry (itemLabel label index) anyText
    let rest ← assetNames label (index + 1) rest
    .ok (name :: rest)

/-- What is checked of a package besides its dependencies. -/
def checkMetadata (item : Fields) (name : String) (peerDependencies : List (String × String)) :
    Checked Unit := do
  peerDependencyMetadata (field item "peerDependenciesMeta") peerDependencies
    (name ++ ".peerDependenciesMeta")
  jsonValue (field item "exports") (name ++ ".exports")
  jsonValue (field item "bin") (name ++ ".bin")
  let assets ← list (field item "assets") (name ++ ".assets")
  let names ← assetNames (name ++ ".assets") 0 assets
  if !decide names.Nodup then fail .duplicateAsset (name ++ ".assets contains duplicates.")
  let license ← string (field item "license") (name ++ ".license") anyText
  if license ≠ "MIT" then fail .packageLicense (name ++ " must declare MIT.")

/-- The body of the loop over the packages, up to the map. -/
def checkPackage (allowLocalDependencies : Bool) (input : Value) (index : Nat) :
    Checked Package := do
  let label := itemLabel "packages" index
  let item ← record input label packageFields packageFields
  let name ← string (field item "name") (label ++ ".name") anyText
  let version ← string (field item "version") (label ++ ".version") strictSemverPattern
  let dependencies ← dependencyField allowLocalDependencies item name .dependencies
  let peerDependencies ← dependencyField allowLocalDependencies item name .peerDependencies
  let optionalDependencies ← dependencyField allowLocalDependencies item name .optionalDependencies
  checkMetadata item name peerDependencies
  .ok ⟨name, version, dependencies, peerDependencies, optionalDependencies⟩

/-! ## The order -/

abbrev Packages := OrderedMap String Package

def addPackages (allowLocalDependencies : Bool) : List Value → Nat → Packages → Checked Packages
  | [], _, byName => .ok byName
  | input :: rest, index, byName => do
    let item ← checkPackage allowLocalDependencies input index
    if byName.has item.name then fail .duplicatePackage ("Duplicate package " ++ item.name ++ ".")
    else addPackages allowLocalDependencies rest (index + 1) (byName.set item.name item)

/-- The dependencies of a package in the order they are visited; those that are not packages
of the release are passed over, unless they should be. -/
def successors (byName : Packages) (name : String) : List (Except Failure String) :=
  match byName.get? name with
  | none => [.error .typeError]
  | some item => dependencyFields.flatMap fun which =>
    (CodeUnits.sort ((item.field which).map Prod.fst)).filterMap fun dependency =>
      if byName.has dependency then some (.ok dependency)
      else if "@surfaceloom/".toList.isPrefixOf dependency.toList then
        some (.error (.contract .missingPackageDependency
          (name ++ " depends on absent " ++ dependency ++ ".")))
      else none

def failureOf : DepthFirst.Failure String Failure → Failure
  | .cycle name =>
    .contract .dependencyCycle ("Release package dependency cycle includes " ++ name ++ ".")
  | .refused error => error
  | .tooDeep => .tooDeep

def topologicalOrder (byName : Packages) (packageNames : List String) : Checked (List String) :=
  match DepthFirst.search (successors byName) (byName.size + 1) packageNames with
  | .ok state => .ok state.output
  | .error failure => .error (failureOf failure)

def requirePackages (byName : Packages) : List String → Checked Unit
  | [] => .ok ()
  | name :: rest =>
    if byName.has name then requirePackages byName rest
    else fail .missingPackage ("Missing release package " ++ name ++ ".")

def refuseOthers (packageNames : List String) : List String → Checked Unit
  | [] => .ok ()
  | name :: rest =>
    if packageNames.contains name then refuseOthers packageNames rest
    else fail .unexpectedPackage ("Unexpected release package " ++ name ++ ".")

/-- The pinned versions of one field of an input package, which is read again. -/
def checkPins (byName : Packages) (name : Value) : Value → Checked Unit
  | .object fields =>
    let off := fields.find? fun entry =>
      match byName.get? entry.1, entry.2 with
      | some dependency, .string range => range ≠ dependency.version
      | some _, _ => true
      | none, _ => false
    match off, name with
    | none, _ => .ok ()
    | some entry, .string name => fail .dependencyVersion (name ++ " must pin " ++ entry.1 ++ " to " ++
        ((byName.get? entry.1).map Package.version).getD "" ++ ".")
    | some _, _ => .error .typeError
  | _ => .error .typeError

def checkVersions (byName : Packages) : List Value → Checked Unit
  | [] => .ok ()
  | .object item :: rest => do
    checkPins byName (field item "name") (field item "dependencies")
    checkPins byName (field item "name") (field item "peerDependencies")
    checkPins byName (field item "name") (field item "optionalDependencies")
    checkVersions byName rest
  | _ :: _ => .error .typeError

/-- Packages that are published pin one another. -/
def requireVersions (allowLocalDependencies : Bool) (byName : Packages) (packages : List Value) :
    Checked Unit :=
  if allowLocalDependencies then .ok () else checkVersions byName packages

structure PackageSet where
  packages : List Value
  byName : Packages
  buildOrder : List String

def validatePackageSet (value : Value) (allowLocalDependencies : Bool) (packageNames : List String) :
    Checked PackageSet := do
  let packages ← list value "packages"
  if packages.length ≠ packageNames.length then
    fail .packageCount ("Release must contain exactly " ++ toString packageNames.length ++ " packages.")
  else do
    let byName ← addPackages allowLocalDependencies packages 0 .empty
    requirePackages byName packageNames
    refuseOthers packageNames byName.keys
    requireVersions allowLocalDependencies byName packages
    let buildOrder ← topologicalOrder byName packageNames
    .ok ⟨packages, byName, buildOrder⟩

end SurfaceLoom.Release.PackageGraph
