import SurfaceLoom.Core.CaseSpec

/-! # Execution plans

What a case declares before it runs: its specification, the host and the surfaces it
needs and the effects it may have. Inputs are plain data; an absent member stands for
`undefined`, a number for any value that is neither data nor text. -/
namespace SurfaceLoom.Test.Plan
open SurfaceLoom.Lib SurfaceLoom.Core

inductive ExecutionPolicyErrorCode
  | invalidInput
  | incompatibleEffectSummary
  | casePlatformUnsupported
  | hostUnsupported
  | missingSurface
  | surfaceKindMismatch
  | missingCapability
  | effectLimitExceeded
  | undeclaredEffect
  | resourceDenied
  | operationDenied
  | boundaryDenied
  | externalEffectDenied
  | securitySensitiveDenied
  | unknownRecoveryDenied
  deriving DecidableEq, Repr

inductive Phase
  | plan
  | preflight
  | authorize
  deriving DecidableEq, Repr

structure ExecutionPolicyError where
  code : ExecutionPolicyErrorCode
  phase : Phase
  details : List (String × String)
  deriving DecidableEq

abbrev Checked (α : Type) := Except ExecutionPolicyError α

def invalid {α : Type} (path : String) : Checked α :=
  .error ⟨.invalidInput, .plan, [("path", path)]⟩

variable {ν : Type}

/-! ## Plain data -/

def record (value : Option (Json ν)) (path : String) (keys : Option (List String)) :
    Checked (Record ν) :=
  match value with
  | some (.object fields) =>
    if keys.all fun keys => fields.all fun field => field.1 ∈ keys then .ok fields
    else invalid path
  | _ => invalid path

def items (value : Option (Json ν)) (path : String) : Checked (List (Json ν)) :=
  match value with
  | some (.array values) => if values.length > 10000 then invalid path else .ok values
  | _ => invalid path

def choice {α : Type} [Word α] (value : Option (Json ν)) (allowed : List α) (path : String) :
    Checked α :=
  match value with
  | some (.string text) =>
    match choose allowed text with
    | some value => .ok value
    | none => invalid path
  | _ => invalid path

def choices {α : Type} [Word α] [DecidableEq α] (value : Option (Json ν)) (allowed : List α)
    (path : String) : Checked (List α) := do
  let values ← items value path
  let result ← values.mapM fun item => choice (some item) allowed path
  if result.Nodup then .ok result else invalid path

def identifierTail (c : Char) : Bool := c.isAlphanum || c ∈ ['.', '_', ':', '@', '/', '-']

/-- A letter or a digit, then letters, digits and `.`, `_`, `:`, `@`, `/`, `-`; at most 200
characters. -/
def isIdentifier (text : String) : Bool :=
  match text.toList with
  | [] => false
  | c :: rest => c.isAlphanum && rest.all identifierTail && rest.length ≤ 199

abbrev Identifier := { text : String // isIdentifier text = true }

def identifier (value : Option (Json ν)) (path : String) : Checked Identifier :=
  match value with
  | some (.string text) => if h : isIdentifier text = true then .ok ⟨text, h⟩ else invalid path
  | _ => invalid path

def flag (value : Option (Json ν)) (path : String) : Checked Bool :=
  match value with
  | some (.bool value) => .ok value
  | _ => invalid path

/-! ## Effects -/

inductive EffectOperation
  | read
  | write
  | execute
  deriving DecidableEq, Repr

inductive EffectBoundary
  | local_
  | external
  deriving DecidableEq, Repr

inductive EffectRecovery
  | notNeeded
  | resettable
  | unknown
  deriving DecidableEq, Repr

def effectOperations : List EffectOperation := [.read, .write, .execute]
def effectBoundaries : List EffectBoundary := [.local_, .external]
def effectRecoveries : List EffectRecovery := [.notNeeded, .resettable, .unknown]

instance : Word EffectOperation where
  word
    | .read => "read"
    | .write => "write"
    | .execute => "execute"

instance : Word EffectBoundary where
  word
    | .local_ => "local"
    | .external => "external"

instance : Word EffectRecovery where
  word
    | .notNeeded => "notNeeded"
    | .resettable => "resettable"
    | .unknown => "unknown"

/-- The resource is an exact logical id. -/
structure EffectDescriptor where
  resource : Identifier
  operation : EffectOperation
  boundary : EffectBoundary
  securitySensitive : Bool
  recovery : EffectRecovery
  deriving DecidableEq

def effectFields : List String :=
  ["resource", "operation", "boundary", "securitySensitive", "recovery"]

def defineEffect (value : Json ν) : Checked EffectDescriptor := do
  let input ← record (some value) "effect" (some effectFields)
  let resource ← identifier (Json.get? input "resource") "effect.resource"
  let operation ← choice (Json.get? input "operation") effectOperations "effect.operation"
  let boundary ← choice (Json.get? input "boundary") effectBoundaries "effect.boundary"
  let securitySensitive ← flag (Json.get? input "securitySensitive") "effect.securitySensitive"
  let recovery ← choice (Json.get? input "recovery") effectRecoveries "effect.recovery"
  .ok ⟨resource, operation, boundary, securitySensitive, recovery⟩

/-- A descriptor as the data it is. -/
def EffectDescriptor.toJson (effect : EffectDescriptor) : Json ν :=
  .object [("resource", .string effect.resource), ("operation", .string (Word.word effect.operation)),
    ("boundary", .string (Word.word effect.boundary)),
    ("securitySensitive", .bool effect.securitySensitive),
    ("recovery", .string (Word.word effect.recovery))]

/-- A descriptor is defined once and for all: defining it again changes nothing, so what
takes a descriptor need not define it. -/
@[simp] theorem defineEffect_toJson (effect : EffectDescriptor) :
    defineEffect (effect.toJson : Json ν) = .ok effect := by
  obtain ⟨⟨resource, hresource⟩, operation, boundary, securitySensitive, recovery⟩ := effect
  have hidentifier : identifier (some (.string resource : Json ν)) "effect.resource" =
      .ok ⟨resource, hresource⟩ := dif_pos hresource
  show (identifier (some (.string resource : Json ν)) "effect.resource" >>= _) = _
  rw [hidentifier]
  cases operation <;> cases boundary <;> cases recovery <;> rfl

def effectSideEffectLevel (effect : EffectDescriptor) : SideEffectLevel :=
  if effect.securitySensitive then .securitySensitive
  else if effect.boundary = .external then .externalEffect
  else if effect.operation = .read then .readOnly
  else if effect.recovery = .resettable then .reversible
  else .writesLocal

def sameEffect (left right : EffectDescriptor) : Bool :=
  left.resource = right.resource && left.operation = right.operation &&
    left.boundary = right.boundary && left.securitySensitive = right.securitySensitive &&
    left.recovery = right.recovery

@[simp] theorem sameEffect_iff {left right : EffectDescriptor} :
    sameEffect left right = true ↔ left = right := by
  cases left
  cases right
  simp [sameEffect, and_assoc]

/-! ## Plans -/

inductive HostOS
  | macos
  | windows
  | linux
  deriving DecidableEq, Repr

inductive SurfaceKind
  | browser
  | desktop
  | system
  deriving DecidableEq, Repr

def hostOS : List HostOS := [.macos, .windows, .linux]
def surfaceKinds : List SurfaceKind := [.browser, .desktop, .system]

instance : Word HostOS where
  word
    | .macos => "macos"
    | .windows => "windows"
    | .linux => "linux"

instance : Word SurfaceKind where
  word
    | .browser => "browser"
    | .desktop => "desktop"
    | .system => "system"

def desktopCapabilities : List String :=
  ["app.launch", "app.attach", "app.quit", "app.terminate", "ui.inspect", "ui.invoke",
    "ui.set-value", "ui.wait", "window.inspect", "window.manage", "menu.invoke",
    "keyboard.inject", "pointer.inject", "clipboard.read", "clipboard.write",
    "drag-drop.perform", "screenshot.capture", "browser.navigate", "browser.dom.inspect",
    "browser.dom.invoke", "browser.trace", "browser.network.observe", "browser.console.observe",
    "browser.network.proxy", "browser.storage.export", "system.open-save-panel",
    "system.permission.inspect", "system.notification.inspect", "system.status-area.inspect",
    "system.elevation.observe"]

structure SurfaceCapabilities where
  kind : SurfaceKind
  capabilities : List String
  deriving DecidableEq

abbrev Surfaces := List (Identifier × SurfaceCapabilities)

structure ExecutionRequirements where
  host : Option (List HostOS)
  surfaces : Surfaces
  deriving DecidableEq

inductive EffectDeclaration
  | legacy (maximum : SideEffectLevel)
  | precise (effects : List EffectDescriptor)
  deriving DecidableEq

structure ExecutionEnvironment where
  platform : TestPlatform
  host : HostOS
  surfaces : Surfaces
  deriving DecidableEq

/-- A plan that `defineExecutionPlan` made: a precise one declares each effect once, and
none above the level of its specification. -/
structure ExecutionPlan where
  spec : CaseSpec
  requirements : ExecutionRequirements
  effectDeclaration : EffectDeclaration
  bounded : ∀ effects, effectDeclaration = .precise effects →
    ∀ effect ∈ effects, effectSideEffectLevel effect ≤ spec.sideEffect
  nodup : ∀ effects, effectDeclaration = .precise effects → effects.Nodup

/-- The members of an array of objects. -/
def recordItems (value : Option (Json ν)) (path label : String) : Checked (List (Json ν)) := do
  let values ← items value path
  values.mapM fun value => (record (some value) label none).map .object

def snapshotSpec (value : Option (Json ν)) : Checked CaseSpec := do
  let input ← record value "plan.spec" none
  let suite ← record (Json.get? input "suite") "plan.spec.suite" none
  let platforms ← items (Json.get? input "platforms") "plan.spec.platforms"
  let preconditions ← recordItems (Json.get? input "preconditions") "plan.spec.preconditions"
    "plan.spec.precondition"
  let acceptanceCriteria ← recordItems (Json.get? input "acceptanceCriteria")
    "plan.spec.acceptanceCriteria" "plan.spec.criterion"
  let tags ← match Json.get? input "tags" with
    | none => .ok []
    | some tags => (items (some tags) "plan.spec.tags").map fun tags => [("tags", Json.array tags)]
  let data := input ++ [("suite", .object suite), ("platforms", .array platforms),
    ("preconditions", .array preconditions), ("acceptanceCriteria", .array acceptanceCriteria)] ++
    tags
  match defineCaseSpec (.object data) with
  | .ok spec => .ok spec
  | .error _ => invalid "plan.spec"

def snapshotSurface (path : String) (field : String × Json ν) :
    Checked (Identifier × SurfaceCapabilities) := do
  let id ← identifier (some (.string field.1 : Json ν)) (path ++ ".id")
  let surface ← record (some field.2) (path ++ "." ++ field.1) (some ["kind", "capabilities"])
  let kind ← choice (Json.get? surface "kind") surfaceKinds (path ++ "." ++ field.1 ++ ".kind")
  let capabilities ← choices (Json.get? surface "capabilities") desktopCapabilities
    (path ++ "." ++ field.1 ++ ".capabilities")
  .ok (id, ⟨kind, capabilities⟩)

def snapshotSurfaces (value : Option (Json ν)) (path : String) : Checked Surfaces := do
  let input ← record value path none
  input.mapM (snapshotSurface path)

def snapshotHost (value : Json ν) : Checked (List HostOS) := do
  let host ← record (some value) "requirements.host" (some ["os"])
  let os ← choices (Json.get? host "os") hostOS "requirements.host.os"
  if os = [] then invalid "requirements.host.os" else .ok os

def snapshotRequirements (value : Option (Json ν)) : Checked ExecutionRequirements := do
  let input ← record value "requirements" (some ["host", "surfaces"])
  let surfaces ← snapshotSurfaces (Json.get? input "surfaces") "requirements.surfaces"
  match Json.get? input "host" with
  | none => .ok ⟨none, surfaces⟩
  | some host => (snapshotHost host).map fun os => ⟨some os, surfaces⟩

def snapshotEnvironment (value : Json ν) : Checked ExecutionEnvironment := do
  let input ← record (some value) "environment" (some ["platform", "host", "surfaces"])
  let host ← record (Json.get? input "host") "environment.host" (some ["os"])
  let platform ← choice (Json.get? input "platform") testPlatforms "environment.platform"
  let os ← choice (Json.get? host "os") hostOS "environment.host.os"
  let surfaces ← snapshotSurfaces (Json.get? input "surfaces") "environment.surfaces"
  .ok ⟨platform, os, surfaces⟩

/-- The loop over the declared effects; `existing` holds those in front. -/
def checkEffects (maximum : SideEffectLevel) (existing : List EffectDescriptor) :
    List EffectDescriptor → Checked Unit
  | [] => .ok ()
  | effect :: rest =>
    if ¬ isSideEffectAtMost (effectSideEffectLevel effect) maximum then
      .error ⟨.incompatibleEffectSummary, .plan, [("resource", effect.resource)]⟩
    else if existing.any fun item => sameEffect item effect then invalid "plan.effects"
    else checkEffects maximum (existing ++ [effect]) rest

theorem checkEffects_ok {maximum : SideEffectLevel} {existing effects : List EffectDescriptor} :
    checkEffects maximum existing effects = .ok () ↔
      (∀ effect ∈ effects, effectSideEffectLevel effect ≤ maximum) ∧ effects.Nodup ∧
        ∀ effect ∈ effects, effect ∉ existing := by
  induction effects generalizing existing with
  | nil => simp [checkEffects]
  | cons effect rest ih =>
    simp only [checkEffects, isSideEffectAtMost_iff, List.any_eq_true, sameEffect_iff,
      exists_eq_right, List.forall_mem_cons, List.nodup_cons]
    by_cases hlevel : effectSideEffectLevel effect ≤ maximum
    · by_cases hmem : effect ∈ existing
      · rw [if_neg (not_not.mpr hlevel), if_pos hmem]
        constructor
        · intro h
          cases h
        · intro h
          exact absurd hmem h.2.2.1
      · rw [if_neg (not_not.mpr hlevel), if_neg hmem, ih]
        simp only [List.mem_append, List.mem_singleton, not_or]
        constructor
        · rintro ⟨hlevels, hnodup, hnew⟩
          exact ⟨⟨hlevel, hlevels⟩, ⟨fun h => (hnew effect h).2 rfl, hnodup⟩, hmem,
            fun item hitem => (hnew item hitem).1⟩
        · rintro ⟨hlevels, hnodup, hnew⟩
          exact ⟨hlevels.2, hnodup.2, fun item hitem => ⟨hnew.2 item hitem, fun heq =>
            hnodup.1 (heq ▸ hitem)⟩⟩
    · rw [if_pos hlevel]
      constructor
      · intro h
        cases h
      · intro h
        exact absurd h.1.1 hlevel

/-- `input.effects`, read and checked against the level of the specification. -/
def declareEffects (spec : CaseSpec) (value : Option (Json ν)) :
    Checked { declaration : EffectDeclaration //
      (∀ effects, declaration = .precise effects →
        ∀ effect ∈ effects, effectSideEffectLevel effect ≤ spec.sideEffect) ∧
      ∀ effects, declaration = .precise effects → effects.Nodup } := do
  match value with
  | none => .ok ⟨.legacy spec.sideEffect, nofun, nofun⟩
  | some value => do
    let values ← items (some value) "plan.effects"
    let effects ← values.mapM defineEffect
    match h : checkEffects spec.sideEffect [] effects with
    | .error error => .error error
    | .ok () => .ok ⟨.precise effects,
        fun _ heq => EffectDeclaration.precise.inj heq ▸ (checkEffects_ok.mp h).1,
        fun _ heq => EffectDeclaration.precise.inj heq ▸ (checkEffects_ok.mp h).2.1⟩

def defineExecutionPlan (value : Json ν) : Checked ExecutionPlan := do
  let input ← record (some value) "plan" (some ["spec", "requirements", "effects"])
  let spec ← snapshotSpec (Json.get? input "spec")
  let requirements ← snapshotRequirements (Json.get? input "requirements")
  let declaration ← declareEffects spec (Json.get? input "effects")
  .ok ⟨spec, requirements, declaration, declaration.2.1, declaration.2.2⟩

/-! ## Requirements -/

def checkCapabilities (id : Identifier) (available : List String) :
    List String → Checked Unit
  | [] => .ok ()
  | capability :: rest =>
    if capability ∈ available then checkCapabilities id available rest
    else .error ⟨.missingCapability, .preflight, [("surface", id), ("capability", capability)]⟩

def checkSurfaces (available : Surfaces) : Surfaces → Checked Unit
  | [] => .ok ()
  | (id, requirement) :: rest =>
    match available.find? fun surface => surface.1 = id with
    | none => .error ⟨.missingSurface, .preflight, [("surface", id)]⟩
    | some (_, surface) =>
      if surface.kind ≠ requirement.kind then
        .error ⟨.surfaceKindMismatch, .preflight, [("surface", id)]⟩
      else do
        checkCapabilities id surface.capabilities requirement.capabilities
        checkSurfaces available rest

/-- The platform a host runs natively, as both are written. -/
def runsOn (platform : TestPlatform) (host : HostOS) : Bool :=
  platform = .web || Word.word platform = Word.word host

def checkExecutionRequirements (plan : ExecutionPlan) (environment : ExecutionEnvironment) :
    Checked Unit :=
  if environment.platform ∉ plan.spec.platforms then
    .error ⟨.casePlatformUnsupported, .preflight,
      [("platform", Word.word environment.platform)]⟩
  else if ¬ runsOn environment.platform environment.host ∨
      (plan.requirements.host.any fun os => environment.host ∉ os) then
    .error ⟨.hostUnsupported, .preflight, [("os", Word.word environment.host)]⟩
  else checkSurfaces environment.surfaces plan.requirements.surfaces

end SurfaceLoom.Test.Plan
