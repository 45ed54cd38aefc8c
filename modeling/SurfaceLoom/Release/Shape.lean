import Mathlib.Tactic.Common
import SurfaceLoom.Lib.Checked

/-! # Shapes of release data

The checks that release data from outside passes through. A value is a tree; a property
with a getter, or a hole of an array, is a leaf of its own, and so is everything that is
neither plain data nor a plain object. -/
namespace SurfaceLoom.Release

inductive Code
  | invalidRecord
  | unexpectedField
  | accessor
  | missingField
  | invalidArray
  | invalidString
  | packageCount
  | localDependency
  | unknownPeerMetadata
  | invalidPeerMetadata
  | invalidPackageMetadata
  | duplicateAsset
  | packageLicense
  | duplicatePackage
  | missingPackage
  | unexpectedPackage
  | dependencyVersion
  | dependencyCycle
  | missingPackageDependency
  deriving DecidableEq

/-- `typeError` is what the language throws; `tooDeep` stands for a recursion without end. -/
inductive Failure
  | contract (code : Code) (message : String)
  | typeError
  | tooDeep
  deriving DecidableEq

inductive Value
  | undefined
  | null
  | boolean (value : Bool)
  | number (finite : Bool)
  | string (value : String)
  | array (items : List Value)
  | object (fields : List (String × Value))
  | accessor
  | foreign

abbrev Fields := List (String × Value)

abbrev Checked (α : Type) := Except Failure α

def fail {α : Type} (code : Code) (message : String) : Checked α := .error (.contract code message)

/-- The value of a field; `undefined` when there is none. -/
def field (fields : Fields) (key : String) : Value :=
  ((fields.find? fun entry => entry.1 = key).map Prod.snd).getD .undefined

def hasOwn {α : Type} (fields : List (String × α)) (key : String) : Bool :=
  fields.any fun entry => entry.1 = key

def isAccessor : Value → Bool
  | .accessor => true
  | _ => false

/-- The loop over the keys of a record. -/
def recordKeys (label : String) (allowed : List String) : Fields → Checked Unit
  | [] => .ok ()
  | (key, value) :: rest =>
    if !allowed.contains key then
      fail .unexpectedField (label ++ " contains unexpected field " ++ key ++ ".")
    else if isAccessor value then
      fail .accessor (label ++ "." ++ key ++ " must be a data property.")
    else recordKeys label allowed rest

def requiredKeys (label : String) (fields : Fields) : List String → Checked Unit
  | [] => .ok ()
  | key :: rest =>
    if hasOwn fields key then requiredKeys label fields rest
    else fail .missingField (label ++ "." ++ key ++ " is required.")

def record (value : Value) (label : String) (allowed required : List String) : Checked Fields :=
  match value with
  | .object fields => do
    recordKeys label allowed fields
    requiredKeys label fields required
    .ok fields
  | _ => fail .invalidRecord (label ++ " must be a plain object.")

def dictionary (value : Value) (label : String) : Checked Fields :=
  match value with
  | .object fields =>
    if fields.any fun entry => isAccessor entry.2 then
      fail .invalidRecord (label ++ " must contain only string data properties.")
    else .ok fields
  | _ => fail .invalidRecord (label ++ " must be a plain object.")

/-- `${label}[${index}]` -/
def itemLabel (label : String) (index : Nat) : String := label ++ "[" ++ toString index ++ "]"

def listItems (label : String) (index : Nat) : List Value → Checked Unit
  | [] => .ok ()
  | item :: rest =>
    if isAccessor item then
      fail .invalidArray (itemLabel label index ++ " must be an own data property.")
    else listItems label (index + 1) rest

def list (value : Value) (label : String) : Checked (List Value) :=
  match value with
  | .array items => do
    listItems label 0 items
    .ok items
  | _ => fail .invalidArray (label ++ " must be an array.")

def anyText (_ : String) : Bool := true

def string (value : Value) (label : String) (pattern : String → Bool) : Checked String :=
  match value with
  | .string text =>
    if text = "" || text.toList.contains (Char.ofNat 0) || !pattern text then
      fail .invalidString (label ++ " is invalid.")
    else .ok text
  | _ => fail .invalidString (label ++ " is invalid.")

theorem record_ok {value : Value} {label : String} {allowed required : List String}
    {fields : Fields} (h : record value label allowed required = .ok fields) :
    value = .object fields := by
  cases value with
  | object fields' =>
    simp only [record] at h
    obtain ⟨-, -, h⟩ := Lib.Checked.bind_ok.mp h
    obtain ⟨-, -, h⟩ := Lib.Checked.bind_ok.mp h
    cases h
    rfl
  | _ => cases h

theorem dictionary_ok {value : Value} {label : String} {fields : Fields}
    (h : dictionary value label = .ok fields) : value = .object fields := by
  cases value with
  | object fields' =>
    simp only [dictionary] at h
    split at h
    · cases h
    · cases h
      rfl
  | _ => cases h

theorem list_ok {value : Value} {label : String} {items : List Value}
    (h : list value label = .ok items) : value = .array items := by
  cases value with
  | array items' =>
    simp only [list] at h
    obtain ⟨-, -, h⟩ := Lib.Checked.bind_ok.mp h
    cases h
    rfl
  | _ => cases h

theorem string_ok {value : Value} {label text : String} {pattern : String → Bool}
    (h : string value label pattern = .ok text) : value = .string text := by
  cases value with
  | string text' =>
    simp only [string] at h
    split at h
    · cases h
    · cases h
      rfl
  | _ => cases h

end SurfaceLoom.Release
