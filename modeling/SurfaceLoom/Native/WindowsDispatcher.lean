import Mathlib.Data.Finset.Card
import SurfaceLoom.Lib.OrderedMap
import SurfaceLoom.Native.Wire

/-! # The Windows native dispatcher

`NativeV1Dispatcher` answers one prepared request at a time. Everything an
execution reads from outside (the cancellation token, the remaining time, the
backend's answer) is a field of `Reads`, in the order of the reads; the
payload adapter and the serializer are fields of `WindowsHost`. -/
namespace SurfaceLoom.Native.WindowsDispatcher
open SurfaceLoom.Lib SurfaceLoom.Native.Wire

/-- What the body of `ExecuteCore` can throw. -/
inductive HostException
  | protocol (code : String) (category : NativeErrorCategory) (message : String)
  | hostOperation (code : String)
  | other
  deriving DecidableEq

inductive SessionOwnership
  | owned
  | external
  | system
  deriving DecidableEq

inductive SessionSurface
  | window
  | process
  | desktop
  deriving DecidableEq

structure NativeV1Handle where
  hostInstanceId : String
  sessionId : String
  handleId : String
  deriving DecidableEq

/-- What the dispatch delegate returns, by the runtime types `TransformResult`
distinguishes: `report` is the doctor or capability report. An element is its
id; its snapshot is not read. -/
inductive DispatchResult (ρ : Type)
  | report (value : ρ)
  | session (sessionId : String) (ownership : SessionOwnership) (surface : SessionSurface)
      (root : String)
  | element (elementId : String)
  | elements (elementIds : List String)
  | batch (clauses : List (Nat × List String))
  | other (value : ρ)

/-- What goes on the wire as `result`. -/
inductive WireResult (ρ : Type)
  | hostDescriptor
  | session (sessionId ownership surface : String) (root : NativeV1Handle)
  | element (handle : NativeV1Handle)
  | elements (handles : List NativeV1Handle)
  | batch (clauses : List (Nat × List NativeV1Handle))
  | raw (value : DispatchResult ρ)

structure SessionState where
  ownership : String
  handles : Finset String
  deriving DecidableEq

abbrev Sessions := OrderedMap String SessionState

/-- The parts of the host an execution calls. `buildLegacyRequest` is the
payload adapter, `actionRoot` the checked root of an action payload, and
`serializes` says whether a response fits the bounded wire writer. -/
structure WindowsHost (π l ρ : Type) where
  hostInstanceId : String
  buildLegacyRequest : NativeRequest π → Nat → Except HostException l
  actionRoot : l → Except HostException String
  serializes : NativeResponse (WireResult ρ) → Bool

structure Reads (ρ : Type) where
  cancelledOnAdmission : Bool
  remainingOnAdmission : Nat
  cancelledBeforeSubmission : Bool
  remainingBeforeSubmission : Nat
  cancelledForCode : Bool
  cancelledForCategory : Bool
  dispatch : Except HostException (DispatchResult ρ)
  remainingAfterDispatch : Nat
  remainingOnPublication : Nat

def operationRegistryLimit : Nat := 100000

def methods : List NativeMethodDescriptor :=
  [⟨"host.handshake", .observe, ["bootstrap"]⟩,
   ⟨"host.doctor", .observe, ["host"]⟩,
   ⟨"capabilities.get", .observe, ["host"]⟩,
   ⟨"session.launch", .lifecycle, ["host"]⟩,
   ⟨"session.attach", .lifecycle, ["host"]⟩,
   ⟨"session.desktop", .lifecycle, ["host"]⟩,
   ⟨"session.release", .lifecycle, ["session"]⟩,
   ⟨"session.close", .lifecycle, ["session"]⟩,
   ⟨"session.terminate", .lifecycle, ["session"]⟩,
   ⟨"element.find", .observe, ["session", "handle"]⟩,
   ⟨"element.findAll", .observe, ["session", "handle"]⟩,
   ⟨"element.queryBatch", .observe, ["session", "handle"]⟩,
   ⟨"element.get", .observe, ["handle"]⟩,
   ⟨"element.action", .mutate, ["handle"]⟩]

section Execute

variable {π l ρ : Type}

/-! ## Responses -/

def success (request : NativeRequest π) (result : WireResult ρ) :
    NativeResponse (WireResult ρ) where
  id := request.id
  result := some result
  error := none
  operation := request.call.operationID.map fun id => ⟨id, .executed⟩

/-- `provenOutcome` overrides what the submission flag says. -/
def failure (request : NativeRequest π) (code : String) (category : NativeErrorCategory)
    (message : String) (submitted : Bool)
    (provenOutcome : Option NativeOperationOutcome) : NativeResponse (WireResult ρ) :=
  let operation : Option NativeOperationReceipt := request.call.operationID.map fun id =>
    ⟨id, provenOutcome.getD (if submitted then .unknown else .notExecuted)⟩
  let safeRetry := operation.map (·.outcome) = some .notExecuted ∧ code ≠ "operation_id_reused"
  { id := request.id
    result := none
    error := some ⟨code, category, message, if safeRetry then .safe else .never⟩
    operation }

/-- Rewrite a response on its way out: the operation receipt stays, and a
retry is safe only if it already was. -/
def outboundFailure (request : NativeRequest π) (original : NativeResponse (WireResult ρ))
    (code : String) (category : NativeErrorCategory) (message : String) :
    NativeResponse (WireResult ρ) :=
  let safeRetry := original.outcome = some .notExecuted ∧ original.RetrySafe
  { id := request.id
    result := none
    error := some ⟨code, category, message, if safeRetry then .safe else .never⟩
    operation := original.operation }

def categoryFor (code : String) : NativeErrorCategory :=
  if code = "invalid_request" then .invalidRequest
  else if code ∈ ["method_not_found", "capability_unsupported", "action_not_supported"] then
    .unsupported
  else if code ∈ ["session_not_found", "element_handle_unknown", "executable_not_found"] then
    .notFound
  else if code = "ownership_required" then .permissionDenied
  else if code ∈ ["action_target_changed", "target_already_running"] then .conflict
  else .backend

def safeMessageFor (code : String) : String :=
  match code with
  | "invalid_request" => "The method payload is invalid."
  | "method_not_found" => "The requested method is not advertised."
  | "capability_unsupported" => "The requested native capability is unsupported."
  | "session_not_found" => "The native session is not active."
  | "element_handle_unknown" => "The handle is not active in this session."
  | "ownership_required" => "This lifecycle action requires an owned session."
  | "action_target_changed" => "The checked target changed before completion could be proven."
  | "executable_not_found" => "The requested executable was not found."
  | _ => "The Windows backend could not prove a successful result."

/-- The three catch clauses of `ExecuteCore`. -/
def caught (request : NativeRequest π) (exception : HostException) (submitted : Bool) :
    NativeResponse (WireResult ρ) :=
  match exception with
  | .protocol code category message => failure request code category message submitted none
  | .hostOperation code =>
    failure request code (categoryFor code) (safeMessageFor code) submitted none
  | .other =>
    failure request "host_internal_error" .internal
      "The Windows native host failed unexpectedly." submitted none

/-! ## Admission -/

def validateDispatchContract (host : WindowsHost π l ρ) (sessions : Sessions)
    (request : NativeRequest π) : Except HostException Unit :=
  match methods.find? fun m => m.name = request.call.name with
  | none => .error (.protocol "method_not_found" .unsupported
      "The requested method is not advertised.")
  | some method =>
    if method.intent ≠ request.call.intent ∨ request.call.scope.kind ∉ method.scopeKinds then
      .error (.protocol "method_contract_mismatch" .invalidRequest
        "The call intent or scope does not match the advertised method descriptor.")
    else if request.call.scope ≠ .bootstrap ∧
        request.call.scope.hostInstanceID ≠ some host.hostInstanceId then
      .error (.protocol "host_instance_stale" .conflict
        "The call targets a stale host instance.")
    else
      let ownershipRequired (session : SessionState) : Except HostException Unit :=
        if request.call.name ∈ ["session.close", "session.terminate"] ∧
            session.ownership ≠ "owned" then
          .error (.protocol "ownership_required" .permissionDenied
            "This lifecycle action requires an owned session.")
        else .ok ()
      let sessionNotFound : Except HostException Unit :=
        .error (.protocol "session_not_found" .notFound "The native session is not active.")
      match request.call.scope with
      | .session _ sessionId =>
        match sessions.get? sessionId with
        | none => sessionNotFound
        | some session => ownershipRequired session
      | .handle _ sessionId handleId =>
        match sessions.get? sessionId with
        | none => sessionNotFound
        | some session =>
          if handleId ∈ session.handles then ownershipRequired session
          else .error (.protocol "element_handle_unknown" .notFound
            "The handle does not belong to this session.")
      | .bootstrap | .host _ => .ok ()

/-- The set of consumed operation ids after admission. An observation carries
no operation id. -/
def registerOperationId (usedOperationIds : Finset String) (request : NativeRequest π) :
    Except HostException (Finset String) :=
  match request.call.operationID with
  | none => .ok usedOperationIds
  | some operationId =>
    if usedOperationIds.card ≥ operationRegistryLimit then
      .error (.protocol "operation_registry_full" .conflict
        "The operation registry reached its safety limit.")
    else if operationId ∈ usedOperationIds then
      .error (.protocol "operation_id_reused" .conflict "The operation id was already consumed.")
    else .ok (insert operationId usedOperationIds)

/-! ## Submission -/

def sessionId? : NativeScope → Option String
  | .session _ sessionId | .handle _ sessionId _ => some sessionId
  | .bootstrap | .host _ => none

/-- The session of the call's scope; a missing one is an ordinary exception. -/
def scopeSession (sessions : Sessions) (request : NativeRequest π) :
    Except HostException (String × SessionState) :=
  match sessionId? request.call.scope with
  | none => .error .other
  | some sessionId =>
    match sessions.get? sessionId with
    | none => .error .other
    | some session => .ok (sessionId, session)

def validatePayloadHandleReferences (host : WindowsHost π l ρ) (sessions : Sessions)
    (request : NativeRequest π) (legacyRequest : l) : Except HostException Unit :=
  if request.call.name ≠ "element.action" then .ok ()
  else do
    let root ← host.actionRoot legacyRequest
    let (_, state) ← scopeSession sessions request
    if root ∈ state.handles then .ok () else .error (.hostOperation "element_handle_unknown")

/-- Everything between registration and submission: the legacy request to
submit, or the response that ends the request here. -/
def beforeSubmission (host : WindowsHost π l ρ) (sessions : Sessions) (request : NativeRequest π)
    (reads : Reads ρ) : Except (NativeResponse (WireResult ρ)) l :=
  if reads.cancelledOnAdmission then
    .error (failure request "request_cancelled" .cancelled
      "The request was cancelled before native submission." false none)
  else if reads.remainingOnAdmission = 0 then
    .error (failure request "deadline_exceeded" .deadline
      "The request deadline expired before native submission." false none)
  else
    match host.buildLegacyRequest request reads.remainingOnAdmission with
    | .error exception => .error (caught request exception false)
    | .ok legacyRequest =>
      match validatePayloadHandleReferences host sessions request legacyRequest with
      | .error exception => .error (caught request exception false)
      | .ok () =>
        if reads.cancelledBeforeSubmission ∨ reads.remainingBeforeSubmission = 0 then
          .error (failure request
            (if reads.cancelledForCode then "request_cancelled" else "deadline_exceeded")
            (if reads.cancelledForCategory then .cancelled else .deadline)
            "The request stopped before native submission." false none)
        else .ok legacyRequest

def remember (host : WindowsHost π l ρ) (sessions : Sessions) (request : NativeRequest π)
    (elementIds : List String) : Except HostException (List NativeV1Handle × Sessions) :=
  if elementIds = [] then .ok ([], sessions)
  else do
    let (sessionId, state) ← scopeSession sessions request
    .ok (elementIds.map fun id => ⟨host.hostInstanceId, sessionId, id⟩,
      sessions.set sessionId { state with handles := state.handles ∪ elementIds.toFinset })

def rememberClauses (host : WindowsHost π l ρ) (sessions : Sessions) (request : NativeRequest π) :
    List (Nat × List String) → Except HostException (List (Nat × List NativeV1Handle) × Sessions)
  | [] => .ok ([], sessions)
  | (clauseIndex, elementIds) :: rest => do
    let (handles, sessions) ← remember host sessions request elementIds
    let (clauses, sessions) ← rememberClauses host sessions request rest
    .ok ((clauseIndex, handles) :: clauses, sessions)

def transformResult (host : WindowsHost π l ρ) (sessions : Sessions) (request : NativeRequest π)
    (result : DispatchResult ρ) : Except HostException (WireResult ρ × Sessions) :=
  match result with
  | .report value => .ok (.raw (.report value), sessions)
  | .session sessionId ownership surface root =>
    if sessions.has sessionId then .error .other
    else
      let ownership := if ownership = .owned then "owned" else "borrowed"
      let surface := if surface = .desktop then "system" else "application"
      .ok (.session sessionId ownership surface ⟨host.hostInstanceId, sessionId, root⟩,
        sessions.set sessionId ⟨ownership, {root}⟩)
  | result =>
    if request.call.name ∈ ["session.release", "session.close", "session.terminate"] then
      match sessionId? request.call.scope with
      | none => .error .other
      | some sessionId => .ok (.raw result, sessions.erase sessionId)
    else
      match result with
      | .element elementId => do
        let (handles, sessions) ← remember host sessions request [elementId]
        match handles with
        | handle :: _ => .ok (.element handle, sessions)
        | [] => .error .other
      | .elements elementIds => do
        let (handles, sessions) ← remember host sessions request elementIds
        .ok (.elements handles, sessions)
      | .batch clauses => do
        let (clauses, sessions) ← rememberClauses host sessions request clauses
        .ok (.batch clauses, sessions)
      | result => .ok (.raw result, sessions)

/-- One execution: its response, the state it leaves and whether it called the
dispatch delegate. -/
structure Executed (ρ : Type) where
  response : NativeResponse (WireResult ρ)
  sessions : Sessions
  usedOperationIds : Finset String
  dispatched : Bool

/-- From the delegate's call on, a failure of a side effect is `unknown`. -/
def afterSubmission (host : WindowsHost π l ρ) (sessions : Sessions)
    (usedOperationIds : Finset String) (request : NativeRequest π) (reads : Reads ρ) :
    Executed ρ :=
  if request.call.name = "host.handshake" then
    { response := if reads.remainingAfterDispatch = 0 then
        failure request "deadline_exceeded" .deadline
          "The request exceeded its response deadline." false (some .executed)
        else success request .hostDescriptor
      sessions, usedOperationIds, dispatched := false }
  else
    let submitted := request.call.intent ≠ .observe
    match reads.dispatch with
    | .error exception =>
      { response := caught request exception submitted
        sessions, usedOperationIds, dispatched := true }
    | .ok result =>
      match transformResult host sessions request result with
      | .error exception =>
        { response := caught request exception submitted
          sessions, usedOperationIds, dispatched := true }
      | .ok (result, sessions) =>
        { response := if reads.remainingAfterDispatch = 0 then
            failure request "deadline_exceeded" .deadline
              "The request exceeded its response deadline." submitted (some .executed)
            else success request result
          sessions, usedOperationIds, dispatched := true }

def executeCore (host : WindowsHost π l ρ) (sessions : Sessions)
    (usedOperationIds : Finset String) (request : NativeRequest π) (reads : Reads ρ) :
    Executed ρ :=
  match validateDispatchContract host sessions request with
  | .error exception => ⟨caught request exception false, sessions, usedOperationIds, false⟩
  | .ok () =>
    match registerOperationId usedOperationIds request with
    | .error exception => ⟨caught request exception false, sessions, usedOperationIds, false⟩
    | .ok usedOperationIds =>
      match beforeSubmission host sessions request reads with
      | .error response => ⟨response, sessions, usedOperationIds, false⟩
      | .ok _ => afterSubmission host sessions usedOperationIds request reads

/-! ## Publication -/

/-- The first serialization: an oversized response gives way to a bounded
one. `none` when that does not fit either and the exception escapes. -/
def fitting (host : WindowsHost π l ρ) (request : NativeRequest π)
    (response : NativeResponse (WireResult ρ)) : Option (NativeResponse (WireResult ρ)) :=
  if host.serializes response then some response
  else
    let tooLarge := outboundFailure request response "response_too_large" .internal
      "The native response exceeded its bounded wire contract."
    if host.serializes tooLarge then some tooLarge else none

/-- The response put on the wire for `response`. -/
def outbound (host : WindowsHost π l ρ) (request : NativeRequest π)
    (remainingOnPublication : Nat) (response : NativeResponse (WireResult ρ)) :
    Option (NativeResponse (WireResult ρ)) :=
  (fitting host request response).bind fun response =>
    if remainingOnPublication = 0 ∧
        response.code ∉ [some "deadline_exceeded", some "operation_id_reused"] then
      let late := outboundFailure request response "deadline_exceeded" .deadline
        "The response could not be constructed within its deadline."
      if host.serializes late then some late else none
    else some response

/-! ## What a response says about the delegate -/

theorem failure_retrySafe {request : NativeRequest π} {code : String}
    {category : NativeErrorCategory} {message : String} {submitted : Bool}
    {provenOutcome : Option NativeOperationOutcome}
    (h : (failure request code category message submitted provenOutcome :
      NativeResponse (WireResult ρ)).RetrySafe) :
    request.call.intent ≠ .observe ∧
      provenOutcome.getD (if submitted then .unknown else .notExecuted) = .notExecuted ∧
      code ≠ "operation_id_reused" := by
  simp only [NativeResponse.RetrySafe, failure, Option.map_some, Option.some.injEq,
    NativeRetryDisposition.ite_eq_safe, Option.map_eq_some_iff] at h
  obtain ⟨⟨_, ⟨id, hid, rfl⟩, ho⟩, hcode⟩ := h
  exact ⟨request.call.sideEffecting.mp (by rw [hid]; rfl), ho, hcode⟩

theorem success_not_retrySafe {request : NativeRequest π} {result : WireResult ρ} :
    ¬ (success request result).RetrySafe := by
  simp [NativeResponse.RetrySafe, success]

theorem caught_retrySafe {request : NativeRequest π} {exception : HostException}
    {submitted : Bool}
    (h : (caught request exception submitted : NativeResponse (WireResult ρ)).RetrySafe) :
    request.call.intent ≠ .observe ∧ submitted = false := by
  have key : ∀ code category message, (failure request code category message submitted none :
      NativeResponse (WireResult ρ)).RetrySafe → request.call.intent ≠ .observe ∧ submitted = false := by
    intro code category message hf
    obtain ⟨hi, ho, -⟩ := failure_retrySafe hf
    refine ⟨hi, ?_⟩
    cases submitted with
    | false => rfl
    | true => simp at ho
  cases exception with
  | protocol code category message => exact key _ _ _ h
  | hostOperation code => exact key _ _ _ h
  | other => exact key _ _ _ h

/-- Once the delegate was called, no response permits a retry. -/
theorem afterSubmission_retrySafe {host : WindowsHost π l ρ} {sessions : Sessions}
    {used : Finset String} {request : NativeRequest π} {reads : Reads ρ}
    (h : (afterSubmission host sessions used request reads).response.RetrySafe) :
    (afterSubmission host sessions used request reads).dispatched = false := by
  unfold afterSubmission at h ⊢
  by_cases hname : request.call.name = "host.handshake"
  · simp [hname]
  · simp only [hname, if_false] at h ⊢
    exfalso
    split at h
    · obtain ⟨hi, hs⟩ := caught_retrySafe h
      simp [hi] at hs
    · split at h
      · obtain ⟨hi, hs⟩ := caught_retrySafe h
        simp [hi] at hs
      · simp only at h
        split at h
        · obtain ⟨-, ho, -⟩ := failure_retrySafe h
          cases ho
        · exact success_not_retrySafe h

theorem afterSubmission_used {host : WindowsHost π l ρ} {sessions : Sessions}
    {used : Finset String} {request : NativeRequest π} {reads : Reads ρ} :
    (afterSubmission host sessions used request reads).usedOperationIds = used := by
  unfold afterSubmission
  split
  · rfl
  · simp only
    split
    · rfl
    · split <;> rfl

/-! ## Admission decides whether the delegate may be called -/

theorem registerOperationId_ok {used used' : Finset String} {request : NativeRequest π}
    (h : registerOperationId used request = .ok used') :
    used ⊆ used' ∧ ∀ op ∈ request.call.operationID, op ∉ used ∧ op ∈ used' := by
  unfold registerOperationId at h
  split at h
  · rename_i hnone
    cases h
    exact ⟨subset_rfl, fun op hop => by rw [hnone] at hop; cases hop⟩
  · rename_i operationId hsome
    split at h
    · cases h
    · split at h
      · cases h
      · rename_i hnot
        cases h
        refine ⟨Finset.subset_insert _ _, fun op hop => ?_⟩
        obtain rfl : operationId = op := Option.some.inj (hsome.symm.trans hop)
        exact ⟨hnot, Finset.mem_insert_self _ _⟩

theorem registerOperationId_reused {used : Finset String} {request : NativeRequest π} {op : String}
    (hop : request.call.operationID = some op) (hmem : op ∈ used)
    (hroom : used.card < operationRegistryLimit) :
    registerOperationId used request =
      .error (.protocol "operation_id_reused" .conflict "The operation id was already consumed.") := by
  have hlimit : ¬ used.card ≥ operationRegistryLimit := by omega
  simp only [registerOperationId, hop, hlimit, hmem, if_true, if_false]

/-- What one execution does to the consumed ids, and when it calls the
delegate. -/
structure ExecutesOnce (used : Finset String) (request : NativeRequest π) (e : Executed ρ) :
    Prop where
  grows : used ⊆ e.usedOperationIds
  fresh : e.dispatched = true → ∀ op ∈ request.call.operationID,
    op ∉ used ∧ op ∈ e.usedOperationIds
  retrySafe : e.response.RetrySafe → e.dispatched = false

theorem executeCore_once (host : WindowsHost π l ρ) (sessions : Sessions) (used : Finset String)
    (request : NativeRequest π) (reads : Reads ρ) :
    ExecutesOnce used request (executeCore host sessions used request reads) := by
  unfold executeCore
  split
  · exact ⟨subset_rfl, (fun h => nomatch h), fun _ => rfl⟩
  · split
    · exact ⟨subset_rfl, (fun h => nomatch h), fun _ => rfl⟩
    · rename_i used' hreg
      obtain ⟨hgrow, hfresh⟩ := registerOperationId_ok hreg
      split
      · exact ⟨hgrow, (fun h => nomatch h), fun _ => rfl⟩
      · refine ⟨?_, fun _ => ?_, afterSubmission_retrySafe⟩
        · rw [afterSubmission_used]
          exact hgrow
        · rw [afterSubmission_used]
          exact hfresh

/-- The answer to a consumed operation id. -/
def reused (request : NativeRequest π) : NativeResponse (WireResult ρ) :=
  failure request "operation_id_reused" .conflict "The operation id was already consumed." false none

theorem executeCore_reused {host : WindowsHost π l ρ} {sessions : Sessions} {used : Finset String}
    {request : NativeRequest π} {reads : Reads ρ} {op : String}
    (hcontract : validateDispatchContract host sessions request = .ok ())
    (hop : request.call.operationID = some op) (hmem : op ∈ used)
    (hroom : used.card < operationRegistryLimit) :
    (executeCore host sessions used request reads).response = reused request := by
  simp only [executeCore, hcontract, registerOperationId_reused hop hmem hroom]
  rfl

/-! ## Publication never upgrades a response -/

theorem outboundFailure_retrySafe {request : NativeRequest π}
    {original : NativeResponse (WireResult ρ)} {code : String} {category : NativeErrorCategory}
    {message : String}
    (h : (outboundFailure request original code category message).RetrySafe) :
    original.RetrySafe := by
  have hsafe : (if original.outcome = some .notExecuted ∧ original.RetrySafe then
      NativeRetryDisposition.safe else .never) = .safe := Option.some.inj h
  exact (NativeRetryDisposition.ite_eq_safe.mp hsafe).2

theorem outbound_retrySafe {host : WindowsHost π l ρ} {request : NativeRequest π}
    {remaining : Nat} {response published : NativeResponse (WireResult ρ)}
    (h : outbound host request remaining response = some published)
    (hsafe : published.RetrySafe) : response.RetrySafe := by
  obtain ⟨fitted, hfit, hlate⟩ := Option.bind_eq_some_iff.mp h
  have hfitted : fitted.RetrySafe := by
    split at hlate
    · simp only at hlate
      split at hlate
      · cases hlate
        exact outboundFailure_retrySafe hsafe
      · cases hlate
    · cases hlate
      exact hsafe
  unfold fitting at hfit
  split at hfit
  · cases hfit
    exact hfitted
  · simp only at hfit
    split at hfit
    · cases hfit
      exact outboundFailure_retrySafe hfitted
    · cases hfit

/-- The verdict on a consumed id is not replaced by a deadline error. -/
theorem outbound_reused {host : WindowsHost π l ρ} {request : NativeRequest π} (remaining : Nat)
    (hfits : host.serializes (reused request) = true) :
    outbound host request remaining (reused request) = some (reused request) := by
  have hcode : (reused request : NativeResponse (WireResult ρ)).code =
      some "operation_id_reused" := rfl
  simp [outbound, fitting, hfits, hcode]

/-! ## Every response is addressed to its request -/

/-- The id of the request and, for a side effect, its operation id. -/
def Addressed (request : NativeRequest π) (response : NativeResponse (WireResult ρ)) : Prop :=
  response.id = request.id ∧ response.operation.map (·.operationID) = request.call.operationID

theorem receipt_operationID (operationID : Option String) (outcome : NativeOperationOutcome) :
    (operationID.map fun id => (⟨id, outcome⟩ : NativeOperationReceipt)).map (·.operationID) =
      operationID := by
  cases operationID <;> rfl

theorem failure_addressed {request : NativeRequest π} {code : String}
    {category : NativeErrorCategory} {message : String} {submitted : Bool}
    {provenOutcome : Option NativeOperationOutcome} :
    Addressed request (failure request code category message submitted provenOutcome :
      NativeResponse (WireResult ρ)) :=
  ⟨rfl, receipt_operationID _ _⟩

theorem success_addressed {request : NativeRequest π} {result : WireResult ρ} :
    Addressed request (success request result) :=
  ⟨rfl, receipt_operationID _ _⟩

theorem outboundFailure_addressed {request : NativeRequest π}
    {original : NativeResponse (WireResult ρ)} {code : String} {category : NativeErrorCategory}
    {message : String} (h : Addressed request original) :
    Addressed request (outboundFailure request original code category message) :=
  ⟨rfl, h.2⟩

section Responses

variable {host : WindowsHost π l ρ} {sessions : Sessions} {used : Finset String}
  {request : NativeRequest π} {reads : Reads ρ} {P : NativeResponse (WireResult ρ) → Prop}

theorem caught_response
    (hfailure : ∀ code category message submitted provenOutcome,
      P (failure request code category message submitted provenOutcome))
    (exception : HostException) (submitted : Bool) : P (caught request exception submitted) := by
  cases exception <;> exact hfailure _ _ _ _ _

theorem beforeSubmission_response
    (hfailure : ∀ code category message submitted provenOutcome,
      P (failure request code category message submitted provenOutcome))
    {response : NativeResponse (WireResult ρ)}
    (h : beforeSubmission host sessions request reads = .error response) : P response := by
  unfold beforeSubmission at h
  split at h
  · cases h
    exact hfailure _ _ _ _ _
  split at h
  · cases h
    exact hfailure _ _ _ _ _
  split at h
  · cases h
    exact caught_response hfailure _ _
  split at h
  · cases h
    exact caught_response hfailure _ _
  split at h
  · cases h
    exact hfailure _ _ _ _ _
  · cases h

theorem afterSubmission_response
    (hfailure : ∀ code category message submitted provenOutcome,
      P (failure request code category message submitted provenOutcome))
    (hsuccess : ∀ result, P (success request result)) :
    P (afterSubmission host sessions used request reads).response := by
  unfold afterSubmission
  split
  · simp only
    split
    · exact hfailure _ _ _ _ _
    · exact hsuccess _
  · simp only
    split
    · exact caught_response hfailure _ _
    · split
      · exact caught_response hfailure _ _
      · simp only
        split
        · exact hfailure _ _ _ _ _
        · exact hsuccess _

/-- An execution answers with a failure or a success. -/
theorem executeCore_response
    (hfailure : ∀ code category message submitted provenOutcome,
      P (failure request code category message submitted provenOutcome))
    (hsuccess : ∀ result, P (success request result)) :
    P (executeCore host sessions used request reads).response := by
  unfold executeCore
  split
  · exact caught_response hfailure _ _
  split
  · exact caught_response hfailure _ _
  split
  · rename_i hbefore
    exact beforeSubmission_response hfailure hbefore
  · exact afterSubmission_response hfailure hsuccess

/-- The published response is the executed one or a bounded replacement. -/
theorem outbound_response
    (hreplace : ∀ original code category message, P original →
      P (outboundFailure request original code category message))
    {remaining : Nat} {response published : NativeResponse (WireResult ρ)}
    (h : outbound host request remaining response = some published) (hresponse : P response) :
    P published := by
  obtain ⟨fitted, hfit, hlate⟩ := Option.bind_eq_some_iff.mp h
  have hfitted : P fitted := by
    unfold fitting at hfit
    split at hfit
    · cases hfit
      exact hresponse
    · simp only at hfit
      split at hfit
      · cases hfit
        exact hreplace _ _ _ _ hresponse
      · cases hfit
  split at hlate
  · simp only at hlate
    split at hlate
    · cases hlate
      exact hreplace _ _ _ _ hfitted
    · cases hlate
  · cases hlate
    exact hfitted

theorem executeCore_addressed :
    Addressed request (executeCore host sessions used request reads).response :=
  executeCore_response (fun _ _ _ _ _ => failure_addressed) fun _ => success_addressed

theorem outbound_addressed {remaining : Nat} {response published : NativeResponse (WireResult ρ)}
    (h : outbound host request remaining response = some published)
    (hresponse : Addressed request response) : Addressed request published :=
  outbound_response (fun _ _ _ _ => outboundFailure_addressed) h hresponse

end Responses

end Execute

end SurfaceLoom.Native.WindowsDispatcher
