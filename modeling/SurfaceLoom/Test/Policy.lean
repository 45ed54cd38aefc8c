import Mathlib.Data.List.Nodup
import SurfaceLoom.Test.Plan

/-! # The effect policy gate

A policy denotes the set of effects it authorizes, a plan the set it declares. The gate
lets an action happen only with an effect in both, and it is only built for a plan whose
declared effects are all authorized. -/
namespace SurfaceLoom.Test.Policy
open SurfaceLoom.Lib SurfaceLoom.Lib.Checked SurfaceLoom.Core SurfaceLoom.Test.Plan

variable {ν : Type}

/-! ## Policies -/

structure EffectGrant where
  resource : Identifier
  operations : List EffectOperation
  boundaries : List EffectBoundary
  allowSecuritySensitive : Bool
  allowUnknownRecovery : Bool
  deriving DecidableEq

/-- No resource has two grants. -/
structure ResolvedEffectPolicy where
  maximumSideEffect : SideEffectLevel
  grants : List EffectGrant
  unique : (grants.map EffectGrant.resource).Nodup

def grantFields : List String :=
  ["resource", "operations", "boundaries", "allowSecuritySensitive", "allowUnknownRecovery"]

/-- A flag that is `false` when it is left out. -/
def readFlag (value : Option (Json ν)) (path : String) : Checked Bool :=
  match value with
  | none => .ok false
  | some value => flag (some value) path

def snapshotGrant (value : Json ν) : Checked EffectGrant := do
  let input ← record (some value) "grant" (some grantFields)
  let operations ← choices (Json.get? input "operations") effectOperations "grant.operations"
  let boundaries ← choices
    (some ((Json.get? input "boundaries").getD (.array [.string "local"]))) effectBoundaries
    "grant.boundaries"
  if operations = [] ∨ boundaries = [] then invalid "grant"
  else do
    let resource ← identifier (Json.get? input "resource") "grant.resource"
    let allowSecuritySensitive ← readFlag (Json.get? input "allowSecuritySensitive")
      "grant.allowSecuritySensitive"
    let allowUnknownRecovery ← readFlag (Json.get? input "allowUnknownRecovery")
      "grant.allowUnknownRecovery"
    .ok ⟨resource, operations, boundaries, allowSecuritySensitive, allowUnknownRecovery⟩

def readMaximum (value : Option (Json ν)) : Checked SideEffectLevel :=
  match value with
  | none => .ok .writesLocal
  | some value => choice (some value) sideEffectLevels "policy.maximumSideEffect"

def snapshotEffectPolicy (value : Json ν) : Checked ResolvedEffectPolicy := do
  let input ← record (some value) "policy" (some ["maximumSideEffect", "grants"])
  let maximumSideEffect ← readMaximum (Json.get? input "maximumSideEffect")
  let values ← items (some ((Json.get? input "grants").getD (.array []))) "policy.grants"
  let grants ← values.mapM snapshotGrant
  if h : (grants.map EffectGrant.resource).Nodup then .ok ⟨maximumSideEffect, grants, h⟩
  else invalid "policy.grants"

/-! ## What a policy authorizes -/

/-- A grant for exactly the resource, operation and boundary of an effect, with the
permissions the effect needs. -/
structure EffectGrant.Covers (grant : EffectGrant) (effect : EffectDescriptor) : Prop where
  resource : grant.resource = effect.resource
  operation : effect.operation ∈ grant.operations
  boundary : effect.boundary ∈ grant.boundaries
  securitySensitive : effect.securitySensitive = true → grant.allowSecuritySensitive = true
  unknownRecovery : effect.recovery = .unknown → grant.allowUnknownRecovery = true

def ResolvedEffectPolicy.authorized (policy : ResolvedEffectPolicy) : Set EffectDescriptor :=
  {effect | effectSideEffectLevel effect ≤ policy.maximumSideEffect ∧
    ∃ grant ∈ policy.grants, grant.Covers effect}

/-- What a plan allows: nothing above its level and, when it is precise, what it lists. -/
def declared (plan : ExecutionPlan) : Set EffectDescriptor :=
  {effect | effectSideEffectLevel effect ≤ plan.spec.sideEffect ∧
    ∀ effects, plan.effectDeclaration = .precise effects → effect ∈ effects}

theorem declared_of_mem {plan : ExecutionPlan} {effects : List EffectDescriptor}
    (hprecise : plan.effectDeclaration = .precise effects) {effect : EffectDescriptor}
    (hmem : effect ∈ effects) : effect ∈ declared plan := by
  refine ⟨plan.bounded effects hprecise effect hmem, fun effects' hprecise' => ?_⟩
  rw [hprecise] at hprecise'
  exact EffectDeclaration.precise.inj hprecise' ▸ hmem

/-! ## The gate -/

structure ExecutionPolicyGate where
  plan : ExecutionPlan
  policy : ResolvedEffectPolicy

def checkGrant (grant : EffectGrant) (effect : EffectDescriptor) (phase : Phase) : Checked Unit :=
  let denied (code : ExecutionPolicyErrorCode) : Checked Unit :=
    .error ⟨code, phase, [("resource", effect.resource)]⟩
  if effect.operation ∉ grant.operations then denied .operationDenied
  else if effect.boundary ∉ grant.boundaries then
    denied (if effect.boundary = .external then .externalEffectDenied else .boundaryDenied)
  else if effect.securitySensitive ∧ ¬ grant.allowSecuritySensitive then
    denied .securitySensitiveDenied
  else if effect.recovery = .unknown ∧ ¬ grant.allowUnknownRecovery then
    denied .unknownRecoveryDenied
  else .ok ()

def checkPolicy (policy : ResolvedEffectPolicy) (effect : EffectDescriptor) (phase : Phase) :
    Checked Unit :=
  if ¬ isSideEffectAtMost (effectSideEffectLevel effect) policy.maximumSideEffect then
    .error ⟨.effectLimitExceeded, phase, [("resource", effect.resource)]⟩
  else
    match policy.grants.find? fun item => item.resource = effect.resource with
    | none => .error ⟨.resourceDenied, phase, [("resource", effect.resource)]⟩
    | some grant => checkGrant grant effect phase

/-- The loop of the constructor over the effects of a precise plan. -/
def checkPolicies (policy : ResolvedEffectPolicy) : List EffectDescriptor → Checked Unit
  | [] => .ok ()
  | effect :: rest => do
    checkPolicy policy effect .preflight
    checkPolicies policy rest

def checkDeclaration (policy : ResolvedEffectPolicy) : EffectDeclaration → Checked Unit
  | .legacy _ => .ok ()
  | .precise effects => checkPolicies policy effects

def ExecutionPolicyGate.create (plan : ExecutionPlan) (environment policy : Json ν) :
    Checked ExecutionPolicyGate := do
  let policy ← snapshotEffectPolicy policy
  let environment ← snapshotEnvironment environment
  checkExecutionRequirements plan environment
  if ¬ isSideEffectAtMost plan.spec.sideEffect policy.maximumSideEffect then
    .error ⟨.effectLimitExceeded, .preflight,
      [("maximum", Word.word policy.maximumSideEffect)]⟩
  else do
    checkDeclaration policy plan.effectDeclaration
    .ok ⟨plan, policy⟩

/-- An error of `defineEffect` is one of the authorization. -/
def ExecutionPolicyGate.define (effect : Json ν) : Checked EffectDescriptor :=
  (defineEffect effect).mapError fun error =>
    if error.code = .invalidInput then { error with phase := .authorize } else error

/-- A precise plan does not list the effect. -/
def undeclared (declaration : EffectDeclaration) (checked : EffectDescriptor) : Bool :=
  match declaration with
  | .legacy _ => false
  | .precise effects => !effects.any fun item => sameEffect item checked

def ExecutionPolicyGate.check (gate : ExecutionPolicyGate) (effect : Json ν) :
    Checked EffectDescriptor := do
  let checked ← define effect
  if ¬ isSideEffectAtMost (effectSideEffectLevel checked) gate.plan.spec.sideEffect then
    .error ⟨.incompatibleEffectSummary, .authorize, [("resource", checked.resource)]⟩
  else if undeclared gate.plan.effectDeclaration checked then
    .error ⟨.undeclaredEffect, .authorize, [("resource", checked.resource)]⟩
  else do
    checkPolicy gate.policy checked .authorize
    .ok checked

/-- What `dispatch` did: the descriptors the action was called with, and how the promise
settled. -/
structure Dispatched (ε α : Type) where
  calls : List EffectDescriptor
  result : Except (ExecutionPolicyError ⊕ ε) α

/-- `action` is nothing when it is no function. -/
def ExecutionPolicyGate.dispatch {ε α : Type} (gate : ExecutionPolicyGate) (effect : Json ν)
    (action : Option (EffectDescriptor → Except ε α)) : Dispatched ε α :=
  match action with
  | none => ⟨[], .error (.inl ⟨.invalidInput, .plan, [("path", "action")]⟩)⟩
  | some action =>
    match gate.check effect with
    | .error error => ⟨[], .error (.inl error)⟩
    | .ok authorized => ⟨[authorized], (action authorized).mapError .inr⟩

/-! ## The checks decide the sets -/

theorem checkGrant_ok {grant : EffectGrant} {effect : EffectDescriptor} {phase : Phase}
    (hresource : grant.resource = effect.resource) :
    checkGrant grant effect phase = .ok () ↔ grant.Covers effect := by
  unfold checkGrant
  by_cases hoperation : effect.operation ∈ grant.operations
  · by_cases hboundary : effect.boundary ∈ grant.boundaries
    · by_cases hsensitive : effect.securitySensitive ∧ ¬ grant.allowSecuritySensitive
      · simp only [hoperation, hboundary, hsensitive, if_false, not_true]
        exact ⟨nofun, fun h => absurd (h.securitySensitive hsensitive.1) hsensitive.2⟩
      · by_cases hunknown : effect.recovery = .unknown ∧ ¬ grant.allowUnknownRecovery
        · simp only [hoperation, hboundary, hsensitive, hunknown, not_true, if_false]
          exact ⟨nofun, fun h => absurd (h.unknownRecovery hunknown.1) hunknown.2⟩
        · simp only [hoperation, hboundary, hsensitive, hunknown, not_true, if_false, true_iff]
          refine ⟨hresource, hoperation, hboundary, fun h => ?_, fun h => ?_⟩
          · by_contra hdenied
            exact hsensitive ⟨h, hdenied⟩
          · by_contra hdenied
            exact hunknown ⟨h, hdenied⟩
    · simp only [hoperation, hboundary, not_true, not_false_eq_true, if_true, if_false]
      exact ⟨nofun, fun h => absurd h.boundary hboundary⟩
  · simp only [hoperation, not_false_eq_true, if_true]
    exact ⟨nofun, fun h => absurd h.operation hoperation⟩

/-- The grant that is found is the only one for its resource. -/
theorem find_grant {policy : ResolvedEffectPolicy} {grant : EffectGrant}
    (hmem : grant ∈ policy.grants) :
    policy.grants.find? (fun item => item.resource = grant.resource) = some grant := by
  have hunique := policy.unique
  cases hfind : policy.grants.find? fun item => item.resource = grant.resource with
  | none => exact absurd (decide_eq_true rfl) (List.find?_eq_none.mp hfind grant hmem)
  | some found =>
    have hresource : found.resource = grant.resource := by simpa using List.find?_some hfind
    have heq := List.inj_on_of_nodup_map hunique (List.mem_of_find?_eq_some hfind) hmem hresource
    rw [heq]

/-- Whatever the phase, the policy is passed by the effects it authorizes. -/
@[simp] theorem checkPolicy_ok {policy : ResolvedEffectPolicy} {effect : EffectDescriptor}
    {phase : Phase} : checkPolicy policy effect phase = .ok () ↔ effect ∈ policy.authorized := by
  unfold checkPolicy
  by_cases hlevel : effectSideEffectLevel effect ≤ policy.maximumSideEffect
  · rw [if_neg (not_not.mpr (isSideEffectAtMost_iff.mpr hlevel))]
    refine ⟨fun h => ⟨hlevel, ?_⟩, fun ⟨_, grant, hmem, hcovers⟩ => ?_⟩
    · cases hfind : policy.grants.find? fun item => item.resource = effect.resource with
      | none =>
        rw [hfind] at h
        cases h
      | some grant =>
        rw [hfind] at h
        have hresource : grant.resource = effect.resource := by simpa using List.find?_some hfind
        exact ⟨grant, List.mem_of_find?_eq_some hfind, (checkGrant_ok hresource).mp h⟩
    · have hfind := find_grant hmem
      rw [hcovers.resource] at hfind
      rw [hfind]
      exact (checkGrant_ok hcovers.resource).mpr hcovers
  · rw [if_pos (fun h => hlevel (isSideEffectAtMost_iff.mp h))]
    exact ⟨nofun, fun h => absurd h.1 hlevel⟩

theorem checkPolicies_ok {policy : ResolvedEffectPolicy} {effects : List EffectDescriptor} :
    checkPolicies policy effects = .ok () ↔ ∀ effect ∈ effects, effect ∈ policy.authorized := by
  induction effects with
  | nil => simp [checkPolicies]
  | cons effect rest ih =>
    simp only [checkPolicies, bind_ok, List.forall_mem_cons, ih]
    constructor
    · rintro ⟨_, h, hrest⟩
      exact ⟨checkPolicy_ok.mp h, hrest⟩
    · rintro ⟨h, hrest⟩
      exact ⟨(), checkPolicy_ok.mpr h, hrest⟩

theorem define_ok {effect : Json ν} {checked : EffectDescriptor} :
    ExecutionPolicyGate.define effect = .ok checked ↔ defineEffect effect = .ok checked := by
  unfold ExecutionPolicyGate.define
  cases defineEffect effect with
  | error error => exact ⟨nofun, nofun⟩
  | ok found => exact Iff.rfl

/-- A plan without an effect refuses it, whether the plan is precise or not. -/
theorem declared_iff {plan : ExecutionPlan} {effect : EffectDescriptor}
    (hlevel : effectSideEffectLevel effect ≤ plan.spec.sideEffect) :
    effect ∈ declared plan ↔ undeclared plan.effectDeclaration effect = false := by
  unfold undeclared
  cases hdeclaration : plan.effectDeclaration with
  | legacy maximum =>
    refine ⟨fun _ => rfl, fun _ => ⟨hlevel, fun effects hprecise => ?_⟩⟩
    rw [hdeclaration] at hprecise
    cases hprecise
  | precise effects =>
    simp only [Bool.not_eq_false', List.any_eq_true, sameEffect_iff, exists_eq_right]
    refine ⟨fun h => h.2 effects hdeclaration, fun hmem => ⟨hlevel, fun effects' hprecise => ?_⟩⟩
    rw [hdeclaration] at hprecise
    exact EffectDeclaration.precise.inj hprecise ▸ hmem

/-- A check succeeds for what the plan declares and the policy authorizes. -/
theorem check_ok {gate : ExecutionPolicyGate} {effect : Json ν} {checked : EffectDescriptor} :
    gate.check effect = .ok checked ↔
      defineEffect effect = .ok checked ∧ checked ∈ declared gate.plan ∧
        checked ∈ gate.policy.authorized := by
  simp only [ExecutionPolicyGate.check, bind_ok, define_ok, isSideEffectAtMost_iff]
  constructor
  · rintro ⟨found, hfound, h⟩
    by_cases hlevel : effectSideEffectLevel found ≤ gate.plan.spec.sideEffect
    · rw [if_neg (not_not.mpr hlevel)] at h
      cases hundeclared : undeclared gate.plan.effectDeclaration found with
      | true =>
        rw [if_pos hundeclared] at h
        cases h
      | false =>
        rw [if_neg (by simp [hundeclared])] at h
        obtain ⟨_, hpolicy, heq⟩ := bind_ok.mp h
        cases heq
        exact ⟨hfound, (declared_iff hlevel).mpr hundeclared, checkPolicy_ok.mp hpolicy⟩
    · rw [if_pos hlevel] at h
      cases h
  · rintro ⟨hdefine, hdeclared, hauthorized⟩
    have hundeclared := (declared_iff hdeclared.1).mp hdeclared
    refine ⟨checked, hdefine, ?_⟩
    rw [if_neg (not_not.mpr hdeclared.1), if_neg (by simp [hundeclared])]
    exact bind_ok.mpr ⟨(), checkPolicy_ok.mpr hauthorized, rfl⟩

/-- A gate is built for a plan whose declared effects the policy authorizes. -/
theorem create_ok {plan : ExecutionPlan} {environment policy : Json ν}
    {gate : ExecutionPolicyGate}
    (h : ExecutionPolicyGate.create plan environment policy = .ok gate) :
    gate.plan = plan ∧ snapshotEffectPolicy policy = .ok gate.policy ∧
      plan.spec.sideEffect ≤ gate.policy.maximumSideEffect ∧
      ∀ effects, plan.effectDeclaration = .precise effects →
        ∀ effect ∈ effects, effect ∈ gate.policy.authorized := by
  unfold ExecutionPolicyGate.create at h
  obtain ⟨resolved, hresolved, h⟩ := bind_ok.mp h
  obtain ⟨_, -, h⟩ := bind_ok.mp h
  obtain ⟨_, -, h⟩ := bind_ok.mp h
  by_cases hlevel : plan.spec.sideEffect ≤ resolved.maximumSideEffect
  · rw [if_neg (not_not.mpr (isSideEffectAtMost_iff.mpr hlevel))] at h
    obtain ⟨_, hchecked, h⟩ := bind_ok.mp h
    cases h
    refine ⟨rfl, hresolved, hlevel, fun effects hprecise => ?_⟩
    rw [hprecise] at hchecked
    exact checkPolicies_ok.mp hchecked
  · rw [if_pos (fun h => hlevel (isSideEffectAtMost_iff.mp h))] at h
    cases h

theorem mem_calls {ε α : Type} {gate : ExecutionPolicyGate} {effect : Json ν}
    {action : Option (EffectDescriptor → Except ε α)} {called : EffectDescriptor}
    (h : called ∈ (gate.dispatch effect action).calls) : gate.check effect = .ok called := by
  cases action with
  | none => cases h
  | some action =>
    unfold ExecutionPolicyGate.dispatch at h
    cases hcheck : gate.check effect with
    | error error =>
      simp only [hcheck] at h
      cases h
    | ok authorized =>
      simp only [hcheck, List.mem_singleton] at h
      rw [h]

/-! ## Soundness and completeness -/

/-- An action is only called with an effect a grant covers, below the levels of the policy
and of the specification and, for a precise plan, declared. A gate for a precise plan
refuses none of the effects it declares. -/
theorem effect_policy_gate {ε α : Type} (plan : ExecutionPlan) (environment policy : Json ν)
    (gate : ExecutionPolicyGate)
    (h : ExecutionPolicyGate.create plan environment policy = .ok gate) :
    snapshotEffectPolicy policy = .ok gate.policy ∧
    (∀ (effect : Json ν) (action : Option (EffectDescriptor → Except ε α)),
      ∀ called ∈ (gate.dispatch effect action).calls,
        (∃ grant ∈ gate.policy.grants, grant.Covers called) ∧
        effectSideEffectLevel called ≤ gate.policy.maximumSideEffect ∧
        effectSideEffectLevel called ≤ plan.spec.sideEffect ∧
        ∀ effects, plan.effectDeclaration = .precise effects → called ∈ effects) ∧
    ∀ effects, plan.effectDeclaration = .precise effects →
      ∀ effect ∈ effects, gate.check (effect.toJson : Json ν) = .ok effect := by
  obtain ⟨hplan, hpolicy, -, hauthorized⟩ := create_ok h
  refine ⟨hpolicy, fun effect action called hcalled => ?_, fun effects hprecise effect hmem => ?_⟩
  · obtain ⟨-, hdeclared, hlevel, hgrant⟩ := check_ok.mp (mem_calls hcalled)
    rw [hplan] at hdeclared
    exact ⟨hgrant, hlevel, hdeclared.1, hdeclared.2⟩
  · refine check_ok.mpr ⟨defineEffect_toJson effect, ?_, hauthorized effects hprecise effect hmem⟩
    rw [hplan]
    exact declared_of_mem hprecise hmem

/-! ## A gate in use -/

/-- An effect a test declares: an external write to a document that can be reset. -/
def demoEffect : EffectDescriptor :=
  ⟨⟨"fixture.document", by decide⟩, .write, .external, false, .resettable⟩

def demoSpec : Json Unit :=
  .object [("id", .string "case.demo"), ("locale", .string "en-US"),
    ("platforms", .array [.string "macos"]),
    ("suite", .object [("id", .string "suite.demo"), ("name", .string "Demo")]),
    ("name", .string "Saves a document"), ("intent", .string "Saving keeps the text."),
    ("preconditions", .array []),
    ("acceptanceCriteria", .array [.object [("id", .string "saved"), ("text", .string "Saved.")]]),
    ("sideEffect", .string "externalEffect")]

def demoPlan : Checked ExecutionPlan :=
  defineExecutionPlan (.object [("spec", demoSpec), ("requirements", .object
    [("surfaces", .object [])]), ("effects", .array [demoEffect.toJson])])

def demoEnvironment : Json Unit :=
  .object [("platform", .string "macos"), ("host", .object [("os", .string "macos")]),
    ("surfaces", .object [])]

def demoPolicy : Json Unit :=
  .object [("maximumSideEffect", .string "externalEffect"), ("grants", .array [.object
    [("resource", .string "fixture.document"), ("operations", .array [.string "write"]),
      ("boundaries", .array [.string "external"])]])]

/-- The plan is precise, the gate is built, and the declared effect passes it. -/
theorem demoPlan_effect_policy_gate : ∃ (plan : ExecutionPlan) (gate : ExecutionPolicyGate),
    demoPlan = .ok plan ∧ plan.effectDeclaration = .precise [demoEffect] ∧
      ExecutionPolicyGate.create plan demoEnvironment demoPolicy = .ok gate ∧
      gate.check (demoEffect.toJson : Json Unit) = .ok demoEffect := by
  have hplan : (demoPlan.toOption.any fun plan =>
      plan.effectDeclaration = .precise [demoEffect] ∧
        (ExecutionPolicyGate.create plan demoEnvironment demoPolicy).toOption.isSome) = true := by
    decide +kernel
  cases hdemo : demoPlan with
  | error error =>
    rw [hdemo] at hplan
    cases hplan
  | ok plan =>
    rw [hdemo] at hplan
    obtain ⟨hprecise, hcreate⟩ := of_decide_eq_true hplan
    cases hgate : ExecutionPolicyGate.create plan demoEnvironment demoPolicy with
    | error error =>
      rw [hgate] at hcreate
      cases hcreate
    | ok gate =>
      have h := @effect_policy_gate Unit Unit Unit plan demoEnvironment demoPolicy gate hgate
      exact ⟨plan, gate, rfl, hprecise, hgate, h.2.2 _ hprecise _ (List.mem_singleton_self _)⟩

end SurfaceLoom.Test.Policy
