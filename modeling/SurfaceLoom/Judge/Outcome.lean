import SurfaceLoom.Judge.Request

/-! # The outcome of a judge

What `normalizeProviderOutcome` makes of an answer, and that a classification it lets
through is supported by the request. -/
namespace SurfaceLoom.Judge.Outcome
open SurfaceLoom.Lib.Checked SurfaceLoom.Judge.Data SurfaceLoom.Judge.Request

def maxReasons : Nat := 16
def maxObservedFacts : Nat := 32
def maxHypotheses : Nat := 32

structure ProviderUsage where
  inputTokens : Option Nat
  outputTokens : Option Nat
  totalTokens : Option Nat

structure ProviderMetadata where
  provider : String
  model : String
  requestId : Option String
  latencyMs : Option Nat
  usage : Option ProviderUsage

/-- A backend cause is never observed. -/
inductive FactScope
  | ui
  | artifact
  deriving DecidableEq

inductive HypothesisScope
  | ui
  | artifact
  | backend
  deriving DecidableEq

structure ObservedFact where
  scope : FactScope
  statement : String
  evidenceRefs : List String

structure Hypothesis where
  scope : HypothesisScope
  statement : String
  evidenceRefs : List String
  verificationNeeded : String

structure Support where
  reasons : List String
  evidenceRefs : List String
  observedFacts : List ObservedFact
  hypotheses : List Hypothesis
  providerMetadata : ProviderMetadata

inductive ProviderFailureKind
  | aborted
  | deadlineExceeded
  | authentication
  | rateLimited
  | server
  | invalidResponse
  | provider
  deriving DecidableEq

def ProviderFailureKind.name : ProviderFailureKind → String
  | .aborted => "aborted"
  | .deadlineExceeded => "deadlineExceeded"
  | .authentication => "authentication"
  | .rateLimited => "rateLimited"
  | .server => "server"
  | .invalidResponse => "invalidResponse"
  | .provider => "provider"

structure ProviderFailure where
  kind : ProviderFailureKind
  message : String
  retryable : Bool

inductive JudgeOutcome
  | classified (label : String) (confidence : ℚ) (support : Support)
  | insufficient (reason : String) (support : Support)
  | providerFailure (failure : ProviderFailure) (providerMetadata : Option ProviderMetadata)

/-! ## The checks on an answer -/

def permittedRef (permitted : List String) (value : JsData) (path : String) : Contract String := do
  let ref ← text value path 128
  if ref ∈ permitted then .ok ref else contractError path "does not reference request evidence"

def refs (value : JsData) (path : String) (permitted : List String) (allowEmpty : Bool) :
    Contract (List String) := do
  let items ← array value path maxEvidenceItems
  let result ← mapItems (permittedRef permitted) path items
  if ¬ allowEmpty ∧ result = [] then contractError path "must not be empty"
  else do
    unique result path
    .ok result

/-- A member that may be absent. -/
def optional {α : Type} (fields : Fields) (key path : String)
    (check : JsData → String → Contract α) : Contract (Option α) :=
  match get fields key with
  | .undefined => .ok none
  | value => (check value (path ++ "." ++ key)).map some

def usage (value : JsData) (path : String) : Contract ProviderUsage := do
  let input ← record value path
  exactKeys input ["inputTokens", "outputTokens", "totalTokens"] path
  let inputTokens ← optional input "inputTokens" path finiteInteger
  let outputTokens ← optional input "outputTokens" path finiteInteger
  let totalTokens ← optional input "totalTokens" path finiteInteger
  .ok ⟨inputTokens, outputTokens, totalTokens⟩

def metadata (value : JsData) (path : String) : Contract ProviderMetadata := do
  let input ← record value path
  exactKeys input ["provider", "model", "requestId", "latencyMs", "usage"] path
  let provider ← text (get input "provider") (path ++ ".provider") 128
  let model ← text (get input "model") (path ++ ".model") 128
  let requestId ← optional input "requestId" path fun value path => text value path 256
  let latencyMs ← optional input "latencyMs" path finiteInteger
  let usage ← optional input "usage" path usage
  .ok ⟨provider, model, requestId, latencyMs, usage⟩

def controlledFailureMessage : ProviderFailureKind → String
  | .aborted => "Judge invocation was aborted"
  | .deadlineExceeded => "Judge deadline was exceeded"
  | .authentication => "Provider authentication failed"
  | .rateLimited => "Provider rate limit was reached"
  | .server => "Provider server failed"
  | .invalidResponse => "Provider response failed contract validation"
  | .provider => "Provider invocation failed"

/-- The references of a fact or a hypothesis are among those of the outcome. -/
def includedRefs (value : JsData) (path : String) (permitted outcomeRefs : List String)
    (allowEmpty : Bool) : Contract (List String) := do
  let evidenceRefs ← refs value path permitted allowEmpty
  if ∃ ref ∈ evidenceRefs, ref ∉ outcomeRefs then
    contractError path "must be included in outcome evidenceRefs"
  else .ok evidenceRefs

def factScope (value : JsData) (path : String) : Contract FactScope :=
  match value with
  | .string "ui" => .ok .ui
  | .string "artifact" => .ok .artifact
  | _ => contractError path "must be ui or artifact; backend causes are hypotheses"

def fact (permitted outcomeRefs : List String) (value : JsData) (path : String) :
    Contract ObservedFact := do
  let input ← record value path
  exactKeys input ["kind", "scope", "statement", "evidenceRefs"] path
  match get input "kind" with
  | .string "observed" => do
    let scope ← factScope (get input "scope") (path ++ ".scope")
    let evidenceRefs ← includedRefs (get input "evidenceRefs") (path ++ ".evidenceRefs") permitted
      outcomeRefs false
    let statement ← text (get input "statement") (path ++ ".statement") 2000
    .ok ⟨scope, statement, evidenceRefs⟩
  | _ => contractError (path ++ ".kind") "must be observed"

def facts (value : JsData) (path : String) (permitted outcomeRefs : List String) :
    Contract (List ObservedFact) := do
  let items ← array value path maxObservedFacts
  mapItems (fact permitted outcomeRefs) path items

def hypothesisScope (value : JsData) (path : String) : Contract HypothesisScope :=
  match value with
  | .string "ui" => .ok .ui
  | .string "artifact" => .ok .artifact
  | .string "backend" => .ok .backend
  | _ => contractError path "must be ui, artifact, or backend"

def hypothesis (permitted outcomeRefs : List String) (value : JsData) (path : String) :
    Contract Hypothesis := do
  let input ← record value path
  exactKeys input ["kind", "scope", "statement", "evidenceRefs", "verificationNeeded"] path
  match get input "kind" with
  | .string "hypothesis" => do
    let scope ← hypothesisScope (get input "scope") (path ++ ".scope")
    let evidenceRefs ← includedRefs (get input "evidenceRefs") (path ++ ".evidenceRefs") permitted
      outcomeRefs true
    let statement ← text (get input "statement") (path ++ ".statement") 2000
    let verificationNeeded ←
      text (get input "verificationNeeded") (path ++ ".verificationNeeded") 2000
    .ok ⟨scope, statement, evidenceRefs, verificationNeeded⟩
  | _ => contractError (path ++ ".kind") "must be hypothesis"

def hypotheses (value : JsData) (path : String) (permitted outcomeRefs : List String) :
    Contract (List Hypothesis) := do
  let items ← array value path maxHypotheses
  mapItems (hypothesis permitted outcomeRefs) path items

def reason (value : JsData) (path : String) : Contract String := text value path 2000

def support (input : Fields) (request : JudgeRequest) (required : Bool) : Contract Support := do
  let permitted := request.evidenceIds
  let evidenceRefs ← refs (get input "evidenceRefs") "outcome.evidenceRefs" permitted (!required)
  let items ← array (get input "reasons") "outcome.reasons" maxReasons
  let reasons ← mapItems reason "outcome.reasons" items
  if reasons = [] then contractError "outcome.reasons" "must not be empty"
  else do
    let observedFacts ←
      facts (get input "observedFacts") "outcome.observedFacts" permitted evidenceRefs
    if required ∧ observedFacts = [] then
      contractError "outcome.observedFacts"
        "classified outcomes require directly observed support"
    else do
      let hypotheses ←
        hypotheses (get input "hypotheses") "outcome.hypotheses" permitted evidenceRefs
      let providerMetadata ← metadata (get input "providerMetadata") "outcome.providerMetadata"
      .ok ⟨reasons, evidenceRefs, observedFacts, hypotheses, providerMetadata⟩

def normalizeClassified (input : Fields) (baseline : JudgeRequest) : Contract JudgeOutcome :=
  if baseline.evidence = [] then
    contractError "outcome.status" "cannot classify without current-request evidence"
  else do
    exactKeys input ["status", "label", "confidence", "reasons", "evidenceRefs", "observedFacts",
      "hypotheses", "providerMetadata"] "outcome"
    match get input "label" with
    | .string label =>
      if label ∉ baseline.allowedLabels then
        contractError "outcome.label" "is not one of request.allowedLabels"
      else match get input "confidence" with
        | .number (some confidence) =>
          if confidence < 0 ∨ confidence > 1 then
            contractError "outcome.confidence" "must be a finite number from 0 through 1"
          else (support input baseline true).map (.classified label confidence)
        | _ => contractError "outcome.confidence" "must be a finite number from 0 through 1"
    | _ => contractError "outcome.label" "is not one of request.allowedLabels"

def normalizeInsufficient (input : Fields) (baseline : JudgeRequest) : Contract JudgeOutcome := do
  exactKeys input ["status", "reason", "reasons", "evidenceRefs", "observedFacts", "hypotheses",
    "providerMetadata"] "outcome"
  let reason ← text (get input "reason") "outcome.reason" 2000
  (support input baseline false).map (.insufficient reason)

def failureKinds : List ProviderFailureKind :=
  [.aborted, .deadlineExceeded, .authentication, .rateLimited, .server, .invalidResponse, .provider]

def normalizeKind (value : JsData) : Contract ProviderFailureKind :=
  match value with
  | .string s =>
    match failureKinds.find? fun kind => kind.name = s with
    | some kind => .ok kind
    | none => contractError "outcome.failure.kind" "is unknown"
  | _ => contractError "outcome.failure.kind" "is unknown"

def normalizeFailure (input : Fields) : Contract JudgeOutcome := do
  exactKeys input ["status", "failure", "providerMetadata"] "outcome"
  let failure ← record (get input "failure") "outcome.failure"
  exactKeys failure ["kind", "message", "retryable"] "outcome.failure"
  let kind ← normalizeKind (get failure "kind")
  match get failure "retryable" with
  | .boolean retryable => do
    let _ ← text (get failure "message") "outcome.failure.message" 2000
    let providerMetadata ← optional input "providerMetadata" "outcome" metadata
    .ok (.providerFailure ⟨kind, controlledFailureMessage kind, retryable⟩ providerMetadata)
  | _ => contractError "outcome.failure.retryable" "must be boolean"

def normalizeProviderOutcome (value : JsData) (request : JudgeRequest) : Contract JudgeOutcome := do
  let baseline ← normalizeJudgeRequest request.toData
  let copy ← sanitizeUntrusted value "outcome" outcomeDataBudget
  let input ← record copy "outcome"
  match get input "status" with
  | .string "classified" => normalizeClassified input baseline
  | .string "insufficient" => normalizeInsufficient input baseline
  | .string "providerFailure" => normalizeFailure input
  | _ => contractError "outcome.status" "must be classified, insufficient, or providerFailure"

/-! ## What an accepted classification cites -/

theorem refs_ok {value : JsData} {path : String} {permitted : List String} {allowEmpty : Bool}
    {result : List String} (h : refs value path permitted allowEmpty = .ok result) :
    (∀ ref ∈ result, ref ∈ permitted) ∧ (allowEmpty = false → result ≠ []) := by
  obtain ⟨items, -, h⟩ := bind_ok.mp h
  obtain ⟨refs, hrefs, h⟩ := bind_ok.mp h
  split at h
  · cases h
  · rename_i hempty
    obtain ⟨-, -, h⟩ := bind_ok.mp h
    cases h
    refine ⟨fun ref href => ?_, fun hrequired => ?_⟩
    · obtain ⟨item, path', hitem⟩ := mapItems_mem hrefs href
      obtain ⟨ref', -, hpermitted⟩ := bind_ok.mp hitem
      split at hpermitted
      · rename_i hmem
        cases hpermitted
        exact hmem
      · cases hpermitted
    · rw [hrequired] at hempty
      simpa using hempty

theorem includedRefs_ok {value : JsData} {path : String} {permitted outcomeRefs : List String}
    {allowEmpty : Bool} {result : List String}
    (h : includedRefs value path permitted outcomeRefs allowEmpty = .ok result) :
    (∀ ref ∈ result, ref ∈ permitted ∧ ref ∈ outcomeRefs) ∧ (allowEmpty = false → result ≠ []) := by
  obtain ⟨refs, hrefs, h⟩ := bind_ok.mp h
  obtain ⟨hpermitted, hsome⟩ := refs_ok hrefs
  split at h
  · cases h
  · rename_i hincluded
    cases h
    refine ⟨fun ref href => ⟨hpermitted ref href, ?_⟩, hsome⟩
    by_contra hout
    exact hincluded ⟨ref, href, hout⟩

theorem fact_ok {permitted outcomeRefs : List String} {value : JsData} {path : String}
    {f : ObservedFact} (h : fact permitted outcomeRefs value path = .ok f) :
    (∀ ref ∈ f.evidenceRefs, ref ∈ permitted ∧ ref ∈ outcomeRefs) ∧ f.evidenceRefs ≠ [] := by
  obtain ⟨input, -, h⟩ := bind_ok.mp h
  obtain ⟨-, -, h⟩ := bind_ok.mp h
  split at h
  · obtain ⟨scope, -, h⟩ := bind_ok.mp h
    obtain ⟨evidenceRefs, hrefs, h⟩ := bind_ok.mp h
    obtain ⟨statement, -, h⟩ := bind_ok.mp h
    cases h
    obtain ⟨hincluded, hsome⟩ := includedRefs_ok hrefs
    exact ⟨hincluded, hsome rfl⟩
  · cases h

theorem hypothesis_ok {permitted outcomeRefs : List String} {value : JsData} {path : String}
    {hyp : Hypothesis} (h : hypothesis permitted outcomeRefs value path = .ok hyp) :
    ∀ ref ∈ hyp.evidenceRefs, ref ∈ permitted ∧ ref ∈ outcomeRefs := by
  obtain ⟨input, -, h⟩ := bind_ok.mp h
  obtain ⟨-, -, h⟩ := bind_ok.mp h
  split at h
  · obtain ⟨scope, -, h⟩ := bind_ok.mp h
    obtain ⟨evidenceRefs, hrefs, h⟩ := bind_ok.mp h
    obtain ⟨statement, -, h⟩ := bind_ok.mp h
    obtain ⟨verificationNeeded, -, h⟩ := bind_ok.mp h
    cases h
    exact (includedRefs_ok hrefs).1
  · cases h

/-- Every reference names evidence of the request, and those of facts and hypotheses
are among the references of the outcome. -/
structure Cites (request : JudgeRequest) (support : Support) : Prop where
  outcome : ∀ ref ∈ support.evidenceRefs, ref ∈ request.evidenceIds
  facts : ∀ fact ∈ support.observedFacts, fact.evidenceRefs ≠ [] ∧
    ∀ ref ∈ fact.evidenceRefs, ref ∈ request.evidenceIds ∧ ref ∈ support.evidenceRefs
  hypotheses : ∀ hypothesis ∈ support.hypotheses, ∀ ref ∈ hypothesis.evidenceRefs,
    ref ∈ request.evidenceIds ∧ ref ∈ support.evidenceRefs

theorem support_ok {input : Fields} {request : JudgeRequest} {required : Bool} {s : Support}
    (h : support input request required = .ok s) :
    Cites request s ∧ (required = true → s.observedFacts ≠ [] ∧ s.evidenceRefs ≠ []) := by
  obtain ⟨evidenceRefs, hrefs, h⟩ := bind_ok.mp h
  obtain ⟨items, -, h⟩ := bind_ok.mp h
  obtain ⟨reasons, -, h⟩ := bind_ok.mp h
  split at h
  · cases h
  obtain ⟨observedFacts, hfacts, h⟩ := bind_ok.mp h
  split at h
  · cases h
  rename_i hobserved
  obtain ⟨hypotheses, hhypotheses, h⟩ := bind_ok.mp h
  obtain ⟨providerMetadata, -, h⟩ := bind_ok.mp h
  cases h
  obtain ⟨hpermitted, hsome⟩ := refs_ok hrefs
  obtain ⟨factItems, -, hfacts⟩ := bind_ok.mp hfacts
  obtain ⟨hypothesisItems, -, hhypotheses⟩ := bind_ok.mp hhypotheses
  refine ⟨⟨hpermitted, fun f hf => ?_, fun hyp hhyp => ?_⟩, fun hrequired => ⟨?_, ?_⟩⟩
  · obtain ⟨item, path, hitem⟩ := mapItems_mem hfacts hf
    exact (fact_ok hitem).symm
  · obtain ⟨item, path, hitem⟩ := mapItems_mem hhypotheses hhyp
    exact hypothesis_ok hitem
  · exact fun hnone => hobserved ⟨hrequired, hnone⟩
  · exact hsome (by rw [hrequired]; rfl)

/-- An outcome a caller may rely on: a classification has an allowed label and observed
support, and whatever is cited is evidence of the request. -/
def Supported (request : JudgeRequest) : JudgeOutcome → Prop
  | .classified label _ support => label ∈ request.allowedLabels ∧ support.observedFacts ≠ [] ∧
    support.evidenceRefs ≠ [] ∧ Cites request support
  | .insufficient _ support => Cites request support
  | .providerFailure _ _ => True

theorem normalizeProviderOutcome_supported {value : JsData} {request : JudgeRequest}
    {outcome : JudgeOutcome} (hrequest : normalizeJudgeRequest request.toData = .ok request)
    (h : normalizeProviderOutcome value request = .ok outcome) : Supported request outcome := by
  unfold normalizeProviderOutcome at h
  rw [hrequest] at h
  obtain ⟨baseline, hbaseline, h⟩ := bind_ok.mp h
  cases hbaseline
  obtain ⟨copy, -, h⟩ := bind_ok.mp h
  obtain ⟨input, -, h⟩ := bind_ok.mp h
  split at h
  · unfold normalizeClassified at h
    split at h
    · cases h
    obtain ⟨-, -, h⟩ := bind_ok.mp h
    split at h
    · split at h
      · cases h
      rename_i hlabel
      split at h
      · split at h
        · cases h
        · obtain ⟨s, hs, rfl⟩ := map_ok.mp h
          obtain ⟨hcites, hrequired⟩ := support_ok hs
          exact ⟨not_not.mp hlabel, (hrequired rfl).1, (hrequired rfl).2, hcites⟩
      · cases h
    · cases h
  · obtain ⟨-, -, h⟩ := bind_ok.mp h
    obtain ⟨reason, -, h⟩ := bind_ok.mp h
    obtain ⟨s, hs, rfl⟩ := map_ok.mp h
    exact (support_ok hs).1
  · obtain ⟨-, -, h⟩ := bind_ok.mp h
    obtain ⟨failure, -, h⟩ := bind_ok.mp h
    obtain ⟨-, -, h⟩ := bind_ok.mp h
    obtain ⟨kind, -, h⟩ := bind_ok.mp h
    split at h
    · obtain ⟨-, -, h⟩ := bind_ok.mp h
      obtain ⟨providerMetadata, -, h⟩ := bind_ok.mp h
      cases h
      trivial
    · cases h
  · cases h

end SurfaceLoom.Judge.Outcome
