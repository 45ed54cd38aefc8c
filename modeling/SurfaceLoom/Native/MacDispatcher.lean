import Mathlib.Data.Finset.Card
import SurfaceLoom.Native.Wire

/-! # The macOS native dispatcher

`NativeHostDispatcher` answers one prepared request at a time. As for the
Windows host, what an execution reads from outside is a field of `Reads` in
the order of the reads, and the wire codec is a field of `MacHost`. -/
namespace SurfaceLoom.Native.MacDispatcher
open SurfaceLoom.Native.Wire

/-- What the body of `execute` can throw. -/
inductive HostException
  | protocol (code : String) (category : NativeErrorCategory) (message : String)
  | backend (error : NativeHostBackendError)
  | other
  deriving DecidableEq

/-- `hasBackend` tells a backend host from one built on a handler;
`descriptorJSON` is the handshake result of the latter. -/
structure MacHost (π ρ : Type) where
  hostInstanceID : String
  methods : List NativeMethodDescriptor
  hasBackend : Bool
  descriptorJSON : ρ
  encodes : NativeResponse ρ → Bool

/-- One look at the cancellation flag and the deadline, and the two looks at
the flag that choose the code and the category of the failure. -/
structure StopRead where
  cancelled : Bool
  expired : Bool
  cancelledForCode : Bool
  cancelledForCategory : Bool

namespace StopRead

def stopped (r : StopRead) : Bool := r.cancelled || r.expired

def code (r : StopRead) : String :=
  if r.cancelledForCode then "request_cancelled" else "deadline_exceeded"

def category (r : StopRead) : NativeErrorCategory :=
  if r.cancelledForCategory then .cancelled else .deadline

end StopRead

/-- `responseExpired` is what the command's hook answers if it is run. -/
structure Reads (ρ : Type) where
  cancelledOnAdmission : Bool
  expiredOnAdmission : Bool
  prepare : Except HostException Unit
  afterPrepare : StopRead
  validateBeforeSubmission : Except HostException Unit
  beforeSubmission : StopRead
  execute : Except HostException ρ
  afterExecute : StopRead
  responseExpired : Option NativeOperationOutcome
  onPublication : StopRead

def operationLimit : Nat := 100000

section Execute

variable {π ρ : Type}

/-! ## Responses -/

def failure (request : NativeRequest π) (code : String) (category : NativeErrorCategory)
    (message : String) (outcome : Option NativeOperationOutcome) : NativeResponse ρ :=
  let receipt : Option NativeOperationReceipt := request.call.operationID.map fun id =>
    ⟨id, outcome.getD .unknown⟩
  let safe := receipt.map (·.outcome) = some .notExecuted ∧ code ≠ "operation_id_reused"
  { id := request.id
    result := none
    error := some ⟨code, category, message, if safe then .safe else .never⟩
    operation := receipt }

def success (request : NativeRequest π) (result : ρ) : NativeResponse ρ where
  id := request.id
  result := some result
  error := none
  operation := request.call.operationID.map fun id => ⟨id, .executed⟩

/-- The three catch clauses of `execute`. -/
def caught (request : NativeRequest π) (exception : HostException) (submitted : Bool) :
    NativeResponse ρ :=
  let outcome := if submitted then NativeOperationOutcome.unknown else .notExecuted
  match exception with
  | .protocol code category message => failure request code category message (some outcome)
  | .backend error => failure request error.code error.category error.safeMessage (some outcome)
  | .other =>
    failure request "host_internal_error" .internal
      "The macOS native host failed unexpectedly." (some outcome)

/-! ## Admission -/

def validateDispatch (host : MacHost π ρ) (request : NativeRequest π) :
    Except HostException Unit :=
  match host.methods.find? fun m => m.name = request.call.name with
  | none => .error (.protocol "method_not_found" .unsupported
      "The requested method is not advertised.")
  | some method =>
    if method.intent ≠ request.call.intent ∨ request.call.scope.kind ∉ method.scopeKinds then
      .error (.protocol "method_contract_mismatch" .invalidRequest
        "The call intent or scope does not match the advertised method descriptor.")
    else if request.call.scope ≠ .bootstrap ∧
        request.call.scope.hostInstanceID ≠ some host.hostInstanceID then
      .error (.protocol "host_instance_stale" .conflict
        "The call targets a stale host instance.")
    else .ok ()

def registerOperation (operationIDs : Finset String) (request : NativeRequest π) :
    Except HostException (Finset String) :=
  match request.call.operationID with
  | none => .ok operationIDs
  | some operationID =>
    if operationIDs.card < operationLimit then
      if operationID ∈ operationIDs then
        .error (.protocol "operation_id_reused" .conflict "The operation id was already consumed.")
      else .ok (insert operationID operationIDs)
    else .error (.protocol "operation_registry_full" .conflict
      "The operation registry reached its safety limit.")

/-! ## Execution -/

/-- One execution: its response, the consumed ids it leaves, whether the
command ran, and the cleanup hook as it stands (`pending`) or as it answered
(`hookReported`). -/
structure Executed (ρ : Type) where
  response : NativeResponse ρ
  operationIDs : Finset String
  executed : Bool
  hookPending : Bool
  hookReported : Option NativeOperationOutcome

def Executed.unsubmitted (response : NativeResponse ρ) (operationIDs : Finset String) :
    Executed ρ :=
  ⟨response, operationIDs, false, false, none⟩

def stoppedBeforeSubmission (request : NativeRequest π) (r : StopRead) : NativeResponse ρ :=
  failure request r.code r.category "The request stopped before native submission."
    (some .notExecuted)

/-- From `command.execute()` on. The hook is in place once the command
returned. -/
def submit (operationIDs : Finset String) (request : NativeRequest π) (reads : Reads ρ) :
    Executed ρ :=
  let submitted := request.call.intent ≠ .observe
  match reads.execute with
  | .error exception => ⟨caught request exception submitted, operationIDs, true, false, none⟩
  | .ok result =>
    if reads.afterExecute.stopped then
      if submitted then
        ⟨failure request reads.afterExecute.code reads.afterExecute.category
            "The request stopped before terminal publication."
            (some (reads.responseExpired.getD .executed)),
          operationIDs, true, false, reads.responseExpired⟩
      else
        ⟨failure request reads.afterExecute.code reads.afterExecute.category
            "The request stopped before terminal publication." none,
          operationIDs, true, true, none⟩
    else ⟨success request result, operationIDs, true, true, none⟩

def execute (host : MacHost π ρ) (operationIDs : Finset String) (request : NativeRequest π)
    (reads : Reads ρ) : Executed ρ :=
  match validateDispatch host request with
  | .error exception => .unsubmitted (caught request exception false) operationIDs
  | .ok () =>
    match registerOperation operationIDs request with
    | .error exception => .unsubmitted (caught request exception false) operationIDs
    | .ok operationIDs =>
      if reads.cancelledOnAdmission then
        .unsubmitted (failure request "request_cancelled" .cancelled
          "The request was cancelled before native submission." (some .notExecuted)) operationIDs
      else if reads.expiredOnAdmission then
        .unsubmitted (failure request "deadline_exceeded" .deadline
          "The request deadline expired before native submission." (some .notExecuted)) operationIDs
      else if request.call.name = "host.handshake" ∧ ¬ host.hasBackend then
        .unsubmitted ⟨request.id, some host.descriptorJSON, none, none⟩ operationIDs
      else
        -- a handler host builds its command without a prepare step that can throw
        match if host.hasBackend then reads.prepare else .ok () with
        | .error exception => .unsubmitted (caught request exception false) operationIDs
        | .ok () =>
          if reads.afterPrepare.stopped then
            .unsubmitted (stoppedBeforeSubmission request reads.afterPrepare) operationIDs
          else
            match reads.validateBeforeSubmission with
            | .error exception => .unsubmitted (caught request exception false) operationIDs
            | .ok () =>
              if reads.beforeSubmission.stopped then
                .unsubmitted (stoppedBeforeSubmission request reads.beforeSubmission) operationIDs
              else submit operationIDs request reads

/-! ## Publication -/

/-- The constant frame of last resort. -/
def emergency : NativeResponse ρ where
  id := "invalid"
  result := none
  error := some ⟨"host_internal_error", .internal, "The native host failed safely.", .never⟩
  operation := none

def encodeFailureOrEmergency (host : MacHost π ρ) (id code : String)
    (category : NativeErrorCategory) (message : String)
    (operation : Option NativeOperationReceipt) : NativeResponse ρ :=
  let response : NativeResponse ρ :=
    ⟨id, none, some ⟨code, category, message, .never⟩, operation⟩
  if host.encodes response then response else emergency

/-- The response whose frame is written for `response`. -/
def encodeWithBoundedFallback (host : MacHost π ρ) (request : NativeRequest π)
    (response : NativeResponse ρ) : NativeResponse ρ :=
  if host.encodes response then response
  else
    let fallback : NativeResponse ρ := failure request "response_too_large" .internal
      "The native response exceeded its bounded wire contract." response.outcome
    encodeFailureOrEmergency host fallback.id "response_too_large" .internal
      "The native response exceeded its bounded wire contract." fallback.operation

/-- One `makeOutboundFrame`: the response in its frame, and what the execution
behind it did. -/
structure Outbound (ρ : Type) where
  response : NativeResponse ρ
  operationIDs : Finset String
  executed : Bool
  hookReported : Option NativeOperationOutcome

def makeOutboundFrame (host : MacHost π ρ) (operationIDs : Finset String)
    (request : NativeRequest π) (reads : Reads ρ) : Outbound ρ :=
  let e := execute host operationIDs request reads
  if e.response.isSuccess ∧ reads.onPublication.stopped then
    let cleanupOutcome := if e.hookPending then reads.responseExpired else none
    let response : NativeResponse ρ := failure request reads.onPublication.code
      reads.onPublication.category
      "The response could not be published before the request stopped."
      (cleanupOutcome.or e.response.outcome)
    ⟨encodeWithBoundedFallback host request response, e.operationIDs, e.executed, cleanupOutcome⟩
  else
    ⟨encodeWithBoundedFallback host request e.response, e.operationIDs, e.executed,
      e.hookReported⟩

/-! ## What a response says about the command -/

theorem failure_retrySafe {request : NativeRequest π} {code : String}
    {category : NativeErrorCategory} {message : String} {outcome : Option NativeOperationOutcome}
    (h : (failure request code category message outcome : NativeResponse ρ).RetrySafe) :
    request.call.intent ≠ .observe ∧ outcome = some .notExecuted ∧ code ≠ "operation_id_reused" := by
  simp only [NativeResponse.RetrySafe, failure, Option.map_some, Option.some.injEq,
    NativeRetryDisposition.ite_eq_safe, Option.map_eq_some_iff] at h
  obtain ⟨⟨_, ⟨id, hid, rfl⟩, ho⟩, hcode⟩ := h
  refine ⟨request.call.sideEffecting.mp (by rw [hid]; rfl), ?_, hcode⟩
  cases outcome with
  | none => cases ho
  | some o => exact congrArg some ho

theorem caught_retrySafe {request : NativeRequest π} {exception : HostException}
    {submitted : Bool} (h : (caught request exception submitted : NativeResponse ρ).RetrySafe) :
    request.call.intent ≠ .observe ∧ submitted = false := by
  have key : ∀ code category message, (failure request code category message
      (some (if submitted then .unknown else .notExecuted)) : NativeResponse ρ).RetrySafe →
      request.call.intent ≠ .observe ∧ submitted = false := by
    intro code category message hf
    obtain ⟨hi, ho, -⟩ := failure_retrySafe hf
    refine ⟨hi, ?_⟩
    cases submitted with
    | false => rfl
    | true => simp at ho
  cases exception with
  | protocol code category message => exact key _ _ _ h
  | backend error => exact key _ _ _ h
  | other => exact key _ _ _ h

theorem registerOperation_ok {used used' : Finset String} {request : NativeRequest π}
    (h : registerOperation used request = .ok used') :
    used ⊆ used' ∧ ∀ op ∈ request.call.operationID, op ∉ used ∧ op ∈ used' := by
  unfold registerOperation at h
  split at h
  · rename_i hnone
    cases h
    exact ⟨subset_rfl, fun op hop => by rw [hnone] at hop; cases hop⟩
  · rename_i operationID hsome
    split at h
    · split at h
      · cases h
      · rename_i hnot
        cases h
        refine ⟨Finset.subset_insert _ _, fun op hop => ?_⟩
        obtain rfl : operationID = op := Option.some.inj (hsome.symm.trans hop)
        exact ⟨hnot, Finset.mem_insert_self _ _⟩
    · cases h

theorem registerOperation_reused {used : Finset String} {request : NativeRequest π} {op : String}
    (hop : request.call.operationID = some op) (hmem : op ∈ used)
    (hroom : used.card < operationLimit) :
    registerOperation used request =
      .error (.protocol "operation_id_reused" .conflict "The operation id was already consumed.") := by
  simp only [registerOperation, hop, hroom, hmem, if_true]

/-- A success never reports `notExecuted`. -/
def Committed (response : NativeResponse ρ) : Prop :=
  response.isSuccess = true → response.outcome ≠ some .notExecuted

theorem failure_committed {request : NativeRequest π} {code : String}
    {category : NativeErrorCategory} {message : String} {outcome : Option NativeOperationOutcome} :
    Committed (failure request code category message outcome : NativeResponse ρ) :=
  fun h => nomatch h

theorem caught_committed {request : NativeRequest π} {exception : HostException}
    {submitted : Bool} : Committed (caught request exception submitted : NativeResponse ρ) := by
  cases exception <;> exact failure_committed

theorem success_committed {request : NativeRequest π} {result : ρ} :
    Committed (success request result) := by
  intro _ h
  simp [NativeResponse.outcome, success] at h

/-- What one execution does to the consumed ids, when it runs the command, and
when its response permits a retry. -/
structure ExecutesOnce (used : Finset String) (request : NativeRequest π)
    (response : NativeResponse ρ) (operationIDs : Finset String) (executed : Bool)
    (hookReported : Option NativeOperationOutcome) : Prop where
  grows : used ⊆ operationIDs
  fresh : executed = true → ∀ op ∈ request.call.operationID, op ∉ used ∧ op ∈ operationIDs
  retrySafe : response.RetrySafe → executed = true → hookReported = some .notExecuted
  committed : Committed response

def Executed.Once (e : Executed ρ) (used : Finset String) (request : NativeRequest π) : Prop :=
  ExecutesOnce used request e.response e.operationIDs e.executed e.hookReported

theorem submit_once (used : Finset String) (request : NativeRequest π) (reads : Reads ρ)
    (used' : Finset String) (hgrow : used ⊆ used')
    (hfresh : ∀ op ∈ request.call.operationID, op ∉ used ∧ op ∈ used') :
    (submit used' request reads).Once used request := by
  unfold submit
  simp only
  split
  · refine ⟨hgrow, fun _ => hfresh, fun hr _ => ?_, caught_committed⟩
    obtain ⟨hi, hs⟩ := caught_retrySafe hr
    simp [hi] at hs
  · split
    · split
      · refine ⟨hgrow, fun _ => hfresh, fun hr _ => ?_, failure_committed⟩
        obtain ⟨-, ho, -⟩ := failure_retrySafe hr
        cases hh : reads.responseExpired with
        | none => simp [hh] at ho
        | some o => simpa [hh] using ho
      · refine ⟨hgrow, fun _ => hfresh, fun hr _ => ?_, failure_committed⟩
        obtain ⟨-, ho, -⟩ := failure_retrySafe hr
        cases ho
    · refine ⟨hgrow, fun _ => hfresh, fun hr _ => ?_, success_committed⟩
      simp [NativeResponse.RetrySafe, success] at hr

theorem unsubmitted_once {used used' : Finset String} {request : NativeRequest π}
    {response : NativeResponse ρ} (hgrow : used ⊆ used') (hc : Committed response) :
    (Executed.unsubmitted response used').Once used request :=
  ⟨hgrow, (fun h => nomatch h), (fun _ h => nomatch h), hc⟩

theorem execute_once (host : MacHost π ρ) (used : Finset String) (request : NativeRequest π)
    (reads : Reads ρ) : (execute host used request reads).Once used request := by
  unfold execute
  split
  · exact unsubmitted_once subset_rfl caught_committed
  split
  · exact unsubmitted_once subset_rfl caught_committed
  rename_i used' hreg
  obtain ⟨hgrow, hfresh⟩ := registerOperation_ok hreg
  split
  · exact unsubmitted_once hgrow failure_committed
  split
  · exact unsubmitted_once hgrow failure_committed
  split
  · exact unsubmitted_once hgrow fun _ h => nomatch h
  split
  · exact unsubmitted_once hgrow caught_committed
  split
  · exact unsubmitted_once hgrow failure_committed
  split
  · exact unsubmitted_once hgrow caught_committed
  split
  · exact unsubmitted_once hgrow failure_committed
  · exact submit_once used request reads used' hgrow hfresh

/-- The answer to a consumed operation id. -/
def reused (request : NativeRequest π) : NativeResponse ρ :=
  failure request "operation_id_reused" .conflict "The operation id was already consumed."
    (some .notExecuted)

theorem execute_reused {host : MacHost π ρ} {used : Finset String} {request : NativeRequest π}
    {reads : Reads ρ} {op : String} (hcontract : validateDispatch host request = .ok ())
    (hop : request.call.operationID = some op) (hmem : op ∈ used)
    (hroom : used.card < operationLimit) :
    (execute host used request reads).response = reused request := by
  simp only [execute, hcontract, registerOperation_reused hop hmem hroom]
  rfl

/-- Only a response that encodes as it is can permit a retry. -/
theorem encodeWithBoundedFallback_retrySafe {host : MacHost π ρ} {request : NativeRequest π}
    {response : NativeResponse ρ}
    (h : (encodeWithBoundedFallback host request response).RetrySafe) : response.RetrySafe := by
  unfold encodeWithBoundedFallback at h
  split at h
  · exact h
  · exfalso
    simp only [encodeFailureOrEmergency] at h
    split at h
    · simp [NativeResponse.RetrySafe] at h
    · simp [NativeResponse.RetrySafe, emergency] at h

theorem encodeWithBoundedFallback_committed {host : MacHost π ρ} {request : NativeRequest π}
    {response : NativeResponse ρ} (h : Committed response) :
    Committed (encodeWithBoundedFallback host request response) := by
  unfold encodeWithBoundedFallback
  split
  · exact h
  · simp only [encodeFailureOrEmergency]
    split
    · exact fun h => nomatch h
    · exact fun h => nomatch h

def Outbound.Once (o : Outbound ρ) (used : Finset String) (request : NativeRequest π) : Prop :=
  ExecutesOnce used request o.response o.operationIDs o.executed o.hookReported

theorem makeOutboundFrame_once (host : MacHost π ρ) (used : Finset String)
    (request : NativeRequest π) (reads : Reads ρ) :
    (makeOutboundFrame host used request reads).Once used request := by
  have hexec := execute_once host used request reads
  by_cases hstop : (execute host used request reads).response.isSuccess = true ∧
      reads.onPublication.stopped = true
  · simp only [makeOutboundFrame, hstop, and_self, if_true]
    refine ⟨hexec.grows, hexec.fresh, fun hr _ => ?_,
      encodeWithBoundedFallback_committed failure_committed⟩
    obtain ⟨-, ho, -⟩ := failure_retrySafe (encodeWithBoundedFallback_retrySafe hr)
    rcases Option.or_eq_some_iff.mp ho with hhook | ⟨-, hsucc⟩
    · exact hhook
    · exact absurd hsucc (hexec.committed hstop.1)
  · simp only [makeOutboundFrame, if_neg hstop]
    exact ⟨hexec.grows, hexec.fresh,
      (fun hr => hexec.retrySafe (encodeWithBoundedFallback_retrySafe hr)),
      encodeWithBoundedFallback_committed hexec.committed⟩

/-- The verdict on a consumed id is published as it is, whatever the deadline. -/
theorem makeOutboundFrame_reused {host : MacHost π ρ} {used : Finset String}
    {request : NativeRequest π} {reads : Reads ρ} {op : String}
    (hcontract : validateDispatch host request = .ok ())
    (hop : request.call.operationID = some op) (hmem : op ∈ used)
    (hroom : used.card < operationLimit) (hfits : host.encodes (reused request) = true) :
    (makeOutboundFrame host used request reads).response = reused request := by
  have hresp : (execute host used request reads).response = reused request :=
    execute_reused hcontract hop hmem hroom
  have hfail : (reused request : NativeResponse ρ).isSuccess = false := rfl
  simp [makeOutboundFrame, hresp, hfail, encodeWithBoundedFallback, hfits]

end Execute

end SurfaceLoom.Native.MacDispatcher
