import SurfaceLoom.Lib.Checked
import SurfaceLoom.Lib.Json

/-! # Case specifications

`defineCaseSpec`: the meaning of a test case, checked before a runner executes it. A
leaf that is neither a text nor a flag is a number here; no rule accepts one. -/
namespace SurfaceLoom.Core
open SurfaceLoom.Lib

/-! ## Side effects -/

inductive SideEffectLevel
  | readOnly
  | reversible
  | writesLocal
  | externalEffect
  | securitySensitive
  deriving DecidableEq, Repr

def sideEffectLevels : List SideEffectLevel :=
  [.readOnly, .reversible, .writesLocal, .externalEffect, .securitySensitive]

def getSideEffectRank (level : SideEffectLevel) : Nat := sideEffectLevels.idxOf level

def compareSideEffectLevel (left right : SideEffectLevel) : Int :=
  getSideEffectRank left - getSideEffectRank right

def isSideEffectAtMost (level maximum : SideEffectLevel) : Bool :=
  compareSideEffectLevel level maximum ≤ 0

/-- Levels are ordered as they are listed. -/
instance : LinearOrder SideEffectLevel :=
  LinearOrder.lift' getSideEffectRank fun left right h => by
    cases left <;> cases right <;> first | rfl | cases h

@[simp] theorem isSideEffectAtMost_iff {level maximum : SideEffectLevel} :
    isSideEffectAtMost level maximum = true ↔ level ≤ maximum := by
  have hle : level ≤ maximum ↔ getSideEffectRank level ≤ getSideEffectRank maximum := Iff.rfl
  rw [hle, isSideEffectAtMost, compareSideEffectLevel, decide_eq_true_eq]
  omega

/-! ## Platforms -/

inductive TestPlatform
  | macos
  | windows
  | web
  deriving DecidableEq, Repr

def testPlatforms : List TestPlatform := [.macos, .windows, .web]

/-- The text a value of an enumeration is written as. -/
class Word (α : Type) where
  word : α → String

instance : Word String := ⟨id⟩

instance : Word SideEffectLevel where
  word
    | .readOnly => "readOnly"
    | .reversible => "reversible"
    | .writesLocal => "writesLocal"
    | .externalEffect => "externalEffect"
    | .securitySensitive => "securitySensitive"

instance : Word TestPlatform where
  word
    | .macos => "macos"
    | .windows => "windows"
    | .web => "web"

/-- The allowed value that is written as this text. -/
def choose {α : Type} [Word α] (allowed : List α) (text : String) : Option α :=
  allowed.find? fun a => Word.word a = text

theorem mem_of_choose {α : Type} [Word α] {allowed : List α} {text : String} {a : α}
    (h : choose allowed text = some a) : a ∈ allowed ∧ Word.word a = text := by
  have hword := List.find?_some h
  exact ⟨List.mem_of_find?_eq_some h, of_decide_eq_true hword⟩

/-- A value is chosen by its own word when no other value is written alike. -/
theorem choose_word {α : Type} [Word α] {allowed : List α} {a : α} (hmem : a ∈ allowed)
    (hinj : ∀ b ∈ allowed, Word.word b = Word.word a → b = a) :
    choose allowed (Word.word a) = some a := by
  cases hfind : choose allowed (Word.word a) with
  | none => exact absurd (decide_eq_true rfl) (List.find?_eq_none.mp hfind a hmem)
  | some b =>
    obtain ⟨hb, hword⟩ := mem_of_choose hfind
    rw [hinj b hb hword]

/-! ## Texts -/

/-- What `trim` strips. -/
def isSpace (c : Char) : Bool :=
  (9 ≤ c.toNat && c.toNat ≤ 13) || c = ' ' || c.toNat = 0xA0 || c.toNat = 0x1680 ||
    (0x2000 ≤ c.toNat && c.toNat ≤ 0x200A) || c.toNat = 0x2028 || c.toNat = 0x2029 ||
    c.toNat = 0x202F || c.toNat = 0x205F || c.toNat = 0x3000 || c.toNat = 0xFEFF

def isBlank (text : String) : Bool := text.toList.all isSpace

/-- The `length` of a text, in UTF-16 code units. -/
def utf16Length (text : String) : Nat :=
  (text.toList.map fun c => if c.toNat < 0x10000 then 1 else 2).sum

/-- The first and last code points of the ranges of the script Han. -/
def hanRanges : List (Nat × Nat) :=
  [(0x2E80, 0x2E99), (0x2E9B, 0x2EF3), (0x2F00, 0x2FD5), (0x3005, 0x3005), (0x3007, 0x3007),
    (0x3021, 0x3029), (0x3038, 0x303B), (0x3400, 0x4DBF), (0x4E00, 0x9FFF), (0xF900, 0xFA6D),
    (0xFA70, 0xFAD9), (0x16FE2, 0x16FE3), (0x16FF0, 0x16FF1), (0x20000, 0x2A6DF),
    (0x2A700, 0x2B739), (0x2B740, 0x2B81D), (0x2B820, 0x2CEA1), (0x2CEB0, 0x2EBE0),
    (0x2EBF0, 0x2EE5D), (0x2F800, 0x2FA1D), (0x30000, 0x3134A), (0x31350, 0x323AF)]

def isHan (c : Char) : Bool :=
  hanRanges.any fun range => range.1 ≤ c.toNat && c.toNat ≤ range.2

def containsHan (text : String) : Bool := text.toList.any isHan

def stableIdentifierTail (c : Char) : Bool := c.isAlphanum || c ∈ ['.', '_', ':', '@', '-']

/-- `^[A-Za-z0-9][A-Za-z0-9._:@-]*$` -/
def stableIdentifierChars : List Char → Bool
  | [] => false
  | c :: rest => c.isAlphanum && rest.all stableIdentifierTail

/-- `^[A-Za-z]{2,3}(?:-[A-Za-z0-9]{2,8})*$` -/
def languageTagChars (chars : List Char) : Bool :=
  match chars.splitOn '-' with
  | first :: rest =>
    first.all Char.isAlpha && 2 ≤ first.length && first.length ≤ 3 &&
      rest.all fun part => part.all Char.isAlphanum && 2 ≤ part.length && part.length ≤ 8
  | [] => false

/-- `locale.toLowerCase().startsWith("zh")` for a language tag. -/
def isChinese (locale : String) : Bool := (locale.toList.take 2).map Char.toLower = ['z', 'h']

/-! ## Specifications -/

structure CaseSuite where
  id : String
  name : String
  deriving DecidableEq

structure CaseClause where
  id : String
  text : String
  deriving DecidableEq

structure CaseSpec where
  id : String
  locale : String
  platforms : List TestPlatform
  suite : CaseSuite
  name : String
  sourceName : Option String
  intent : String
  preconditions : List CaseClause
  acceptanceCriteria : List CaseClause
  sideEffect : SideEffectLevel
  tags : Option (List String)
  deriving DecidableEq

/-- Which rule a specification breaks, and what breaks it. -/
inductive CaseSpecError
  | notObject (label : String)
  | unknownField (label key : String)
  | notString (label : String)
  | empty (label : String)
  | tooLong (label : String)
  | characters (label : String)
  | languageTag (label : String)
  | notArray (label : String)
  | noPlatform
  | unknownPlatform
  | duplicatePlatform (platform : TestPlatform)
  | unknownSideEffect
  | noCriterion
  | duplicate (label text : String)
  | notChinese (label : String)
  deriving DecidableEq

variable {ν : Type}

abbrev Record (ν : Type) := List (String × Json ν)

def exactKeys (label : String) (value : Option (Json ν)) (allowed : List String) :
    Except CaseSpecError (Record ν) :=
  match value with
  | some (.object fields) =>
    match fields.find? fun field => field.1 ∉ allowed with
    | some field => .error (.unknownField label field.1)
    | none => .ok fields
  | _ => .error (.notObject label)

def nonEmpty (label : String) (value : Option (Json ν)) : Except CaseSpecError String :=
  match value with
  | some (.string text) => if isBlank text then .error (.empty label) else .ok text
  | _ => .error (.notString label)

def stableIdentifier (label : String) (value : Option (Json ν)) : Except CaseSpecError String := do
  let text ← nonEmpty label value
  if utf16Length text > 200 then .error (.tooLong label)
  else if stableIdentifierChars text.toList then .ok text
  else .error (.characters label)

def locale (label : String) (value : Option (Json ν)) : Except CaseSpecError String := do
  let text ← nonEmpty label value
  if languageTagChars text.toList then .ok text else .error (.languageTag label)

def array (label : String) (value : Option (Json ν)) : Except CaseSpecError (List (Json ν)) :=
  match value with
  | some (.array items) => .ok items
  | _ => .error (.notArray label)

/-- `seen` holds the platforms in front. -/
def platformList (seen : List TestPlatform) :
    List (Json ν) → Except CaseSpecError (List TestPlatform)
  | [] => .ok []
  | value :: rest =>
    match value with
    | .string text =>
      match choose testPlatforms text with
      | none => .error .unknownPlatform
      | some platform =>
        if platform ∈ seen then .error (.duplicatePlatform platform)
        else do
          let rest ← platformList (platform :: seen) rest
          .ok (platform :: rest)
    | _ => .error .unknownPlatform

def validatePlatforms (value : Option (Json ν)) : Except CaseSpecError (List TestPlatform) := do
  let values ← array "platforms" value
  if values = [] then .error .noPlatform else platformList [] values

def validateClauses (label : String) (identifiers : List String) :
    List (Json ν) → Except CaseSpecError (List CaseClause)
  | [] => .ok []
  | value :: rest => do
    let fields ← exactKeys label (some value) ["id", "text"]
    let id ← stableIdentifier (label ++ " id") (Json.get? fields "id")
    let text ← nonEmpty label (Json.get? fields "text")
    if id ∈ identifiers then .error (.duplicate (label ++ " id") id)
    else do
      let rest ← validateClauses label (id :: identifiers) rest
      .ok (⟨id, text⟩ :: rest)

def validateTextList (label : String) (seen : List String) :
    List (Json ν) → Except CaseSpecError (List String)
  | [] => .ok []
  | value :: rest => do
    let text ← nonEmpty label (some value)
    if text ∈ seen then .error (.duplicate label text)
    else do
      let rest ← validateTextList label (text :: seen) rest
      .ok (text :: rest)

/-- The texts a Chinese specification must write in Chinese. -/
def canonicalTexts (spec : CaseSpec) : List (String × String) :=
  [("suite name", spec.suite.name), ("case name", spec.name), ("case intent", spec.intent)] ++
    spec.preconditions.map (fun item => ("precondition", item.text)) ++
    spec.acceptanceCriteria.map (fun item => ("acceptance criterion", item.text))

def validateCanonicalLanguage (spec : CaseSpec) : Except CaseSpecError Unit :=
  if isChinese spec.locale then
    match (canonicalTexts spec).find? fun text => !containsHan text.2 with
    | some text => .error (.notChinese text.1)
    | none => .ok ()
  else .ok ()

def caseSpecFields : List String :=
  ["id", "locale", "platforms", "suite", "name", "sourceName", "intent", "preconditions",
    "acceptanceCriteria", "sideEffect", "tags"]

def sideEffectLevel (value : Option (Json ν)) : Except CaseSpecError SideEffectLevel :=
  match value with
  | some (.string text) =>
    match choose sideEffectLevels text with
    | some level => .ok level
    | none => .error .unknownSideEffect
  | _ => .error .unknownSideEffect

/-- A field that may be left out. -/
def optional {α β : Type} (value : Option α) (read : α → Except CaseSpecError β) :
    Except CaseSpecError (Option β) :=
  match value with
  | none => .ok none
  | some value => (read value).map some

def defineCaseSpec (value : Json ν) : Except CaseSpecError CaseSpec := do
  let spec ← exactKeys "case spec" (some value) caseSpecFields
  let suite ← exactKeys "case suite" (Json.get? spec "suite") ["id", "name"]
  let id ← stableIdentifier "case id" (Json.get? spec "id")
  let locale ← locale "case locale" (Json.get? spec "locale")
  let platforms ← validatePlatforms (Json.get? spec "platforms")
  let suiteId ← stableIdentifier "suite id" (Json.get? suite "id")
  let suiteName ← nonEmpty "suite name" (Json.get? suite "name")
  let name ← nonEmpty "case name" (Json.get? spec "name")
  let sourceName ← optional (Json.get? spec "sourceName") fun value =>
    nonEmpty "case source name" (some value)
  let intent ← nonEmpty "case intent" (Json.get? spec "intent")
  let sideEffect ← sideEffectLevel (Json.get? spec "sideEffect")
  let preconditions ← array "preconditions" (Json.get? spec "preconditions")
  let acceptanceCriteria ← array "acceptance criteria" (Json.get? spec "acceptanceCriteria")
  let tags ← optional (Json.get? spec "tags") fun value => array "tags" (some value)
  if acceptanceCriteria = [] then .error .noCriterion
  else do
    let preconditions ← validateClauses "precondition" [] preconditions
    let acceptanceCriteria ← validateClauses "acceptance criterion" [] acceptanceCriteria
    let tags ← optional tags (validateTextList "tag" [])
    let checked := ⟨id, locale, platforms, ⟨suiteId, suiteName⟩, name, sourceName, intent,
      preconditions, acceptanceCriteria, sideEffect, tags⟩
    let _ ← validateCanonicalLanguage checked
    .ok checked

end SurfaceLoom.Core
