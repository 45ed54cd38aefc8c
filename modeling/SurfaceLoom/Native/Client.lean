import Mathlib.Data.Finset.Basic
import SurfaceLoom.Lib.OrderedMap
import SurfaceLoom.Native.Wire

/-! # The native client

`NativeClient` multiplexes invocations over one transport. Each function here
is a stretch of synchronous code of the source; what it reads from its
environment (ids from the factory, clock differences, sizes of encoded frames,
schema verdicts on outgoing frames) comes in as `DispatchReads` or as an
argument. The table `exchanges` is not in the source: it records for every
registered request what happened to its frame and to its promise. -/
namespace SurfaceLoom.Native.Client
open SurfaceLoom.Lib SurfaceLoom.Native.Wire

inductive NativeClientState
  | idle
  | connecting
  | ready
  | disconnected
  | closed
  deriving DecidableEq, Repr

inductive NativeWritePhase
  | beforeWrite
  | writing
  | written
  deriving DecidableEq, Repr

inductive NativeClientIssueCode
  | notConnected
  | closed
  | disconnected
  | deadline
  | cancelled
  | protocolViolation
  | decodeFailed
  | staleScope
  | writeFailed
  deriving DecidableEq, Repr

structure NativeClientError where
  code : NativeClientIssueCode
  message : String
  requestId : Option String
  operationOutcome : Option NativeOperationOutcome
  writePhase : Option NativeWritePhase
  deriving DecidableEq

inductive CancellationReason
  | caller
  | deadline
  | shutdown
  deriving DecidableEq, Repr

structure WireResponse (ρ : Type) where
  id : String
  body : Except NativeWireError ρ
  operation : Option NativeOperationReceipt

/-- What a promise is rejected with. -/
inductive Rejection
  | client (error : NativeClientError)
  | protocol (code : String)
  | remote (error : NativeWireError) (operation : Option NativeOperationReceipt)

/-- `resolved response` carries the decoded result of that response. -/
inductive Settlement (ρ : Type)
  | resolved (response : WireResponse ρ)
  | rejected (rejection : Rejection)

/-- The transport's answer to one write: a receipt, or an error that may be a
`NativeTransportWriteError` with a phase. -/
inductive WriteReport
  | receipt (bytesWritten : Nat)
  | failed (phase : Option NativeWritePhase)
  deriving DecidableEq

/-- One thing that happened to a registered request. -/
inductive Mark (ρ : Type)
  | handed
  | reported (report : WriteReport)
  | settled (settlement : Settlement ρ)
  | late (response : WireResponse ρ)

structure Exchange (π ρ : Type) where
  request : NativeRequest π
  marks : List (Mark ρ)

structure Pending (π : Type) where
  request : NativeRequest π
  phase : NativeWritePhase

/-- A response taken off the pending table whose codec has not returned. -/
structure Decoding (π ρ : Type) where
  request : NativeRequest π
  phase : NativeWritePhase
  response : WireResponse ρ
  result : ρ

structure HostDescriptor where
  hostInstanceId : String
  methods : List NativeMethodDescriptor
  maxMessageBytes : Nat

structure NativeHandle where
  hostInstanceId : String
  sessionId : String
  handleId : String
  deriving DecidableEq

/-- The fields of a session descriptor the client reads. The schema accepts a
descriptor only when its root belongs to it. -/
structure NativeSessionDescriptor where
  hostInstanceId : String
  sessionId : String
  root : NativeHandle
  rootScope : root.hostInstanceId = hostInstanceId ∧ root.sessionId = sessionId
  deriving DecidableEq

/-- Where the asynchronous body of `connect` stands. `opening` is the time the
field `#opening` is set; the epoch is the one `connect` captured. -/
inductive ConnectStage
  | notStarted
  | opening (epoch : Nat)
  | opened (epoch : Nat)
  | awaiting (requestId : String) (epoch : Nat)
  | answered (host : HostDescriptor) (epoch : Nat)
  | failed
  | done

/-- `writes` holds the byte length of each request frame whose write has not
been reported; the tracked handles are keyed by themselves. -/
structure NativeClient (π ρ : Type) where
  pending : OrderedMap String (Pending π)
  decoding : OrderedMap String (Decoding π ρ)
  dispatchedRequests : OrderedMap String (NativeRequest π)
  awaitingLateResponseIds : Finset String
  allocatedIds : Finset String
  sessions : OrderedMap String NativeSessionDescriptor
  seenSessionIds : Finset String
  handles : OrderedMap NativeHandle NativeHandle
  state : NativeClientState
  host : Option HostDescriptor
  connectionEpoch : Nat
  connect : ConnectStage
  writes : OrderedMap String Nat
  exchanges : OrderedMap String (Exchange π ρ)
  refusals : List (NativeOperationIntent × Rejection)

structure Invocation (π : Type) where
  name : String
  intent : NativeOperationIntent
  scope : NativeScope
  payload : π
  timeoutMs : Int
  operationId : Option String
  aborted : Bool

/-- In the order of use. `schemaAccepts` is the verdict of `validateWireMessage`
on the prepared request, `finalSchemaAccepts` the one on the final request. An
encoded frame is a line and never empty. -/
structure DispatchReads where
  operationId : String
  requestId : String
  schemaAccepts : Bool
  provisionalBytes : Nat
  measuredEncodeMs : Nat
  elapsedBeforeFinalEncode : Nat
  finalSchemaAccepts : Bool
  finalBytes : Nat
  writeStartElapsed : Nat
  framed : 0 < finalBytes

def maxDeadlineMs : Int := 120000

def maxWireMessageBytes : Nat := 1048576

namespace NativeClient

variable {π ρ : Type}

def initial : NativeClient π ρ where
  pending := .empty
  decoding := .empty
  dispatchedRequests := .empty
  awaitingLateResponseIds := ∅
  allocatedIds := ∅
  sessions := .empty
  seenSessionIds := ∅
  handles := .empty
  state := .idle
  host := none
  connectionEpoch := 0
  connect := .notStarted
  writes := .empty
  exchanges := .empty
  refusals := []

/-! ## Correlation -/

/-- Facts that need both halves of an exchange; `some` is the mismatch. -/
def validateResponseForRequest (request : NativeRequest π) (response : WireResponse ρ) :
    Option String :=
  let sideEffecting := request.call.intent ≠ .observe
  if request.id ≠ response.id then some "Response id does not match its request."
  else if ¬ sideEffecting ∧ response.operation ≠ none then
    some "Observe responses must not claim an operation outcome."
  else if sideEffecting ∧
      response.operation.map (·.operationID) ≠ request.call.operationID then
    some "Side-effecting response is missing its matching operation receipt."
  else if sideEffecting ∧ response.body.toBool ∧
      response.operation.map (·.outcome) ≠ some .executed then
    some "Successful side-effecting responses must prove executed."
  else match response.body with
    | .error error =>
      if error.retry = .safe ∧ response.operation.map (·.outcome) ≠ some .notExecuted then
        some "A safe retry disposition requires a notExecuted receipt."
      else none
    | .ok _ => none

/-- Once a request frame may have left, transport loss cannot prove that its
side effect was skipped. -/
def disconnectedOperationOutcome (request : NativeRequest π) (phase : NativeWritePhase) :
    Option NativeOperationOutcome :=
  if request.call.intent = .observe then none
  else if phase = .beforeWrite then some .notExecuted
  else some .unknown

/-! ## Settling -/

def mark (c : NativeClient π ρ) (id : String) (m : Mark ρ) : NativeClient π ρ :=
  match c.exchanges.get? id with
  | none => c
  | some x => { c with exchanges := c.exchanges.set id { x with marks := x.marks ++ [m] } }

/-- `connect` waits for the handshake's promise; a rejection fails it. -/
def connectRejected (c : NativeClient π ρ) (id : String) : ConnectStage :=
  match c.connect with
  | .awaiting requestId _ => if requestId = id then .failed else c.connect
  | _ => c.connect

/-- `#settle` and `pending.reject`: the entry leaves the table and the promise
is rejected. -/
def rejectPending (c : NativeClient π ρ) (id : String) (rejection : Rejection) :
    NativeClient π ρ :=
  { c with
    pending := c.pending.erase id
    connect := c.connectRejected id }.mark id (.settled (.rejected rejection))

def awaitLate (c : NativeClient π ρ) (id : String) (phase : NativeWritePhase) : NativeClient π ρ :=
  if phase = .beforeWrite then c
  else { c with awaitingLateResponseIds := insert id c.awaitingLateResponseIds }

/-- `cancelId` is the id drawn for the cancel frame, which is written without
waiting for it. -/
def cancelPending (c : NativeClient π ρ) (id : String) (reason : CancellationReason)
    (cancelId : String) : NativeClient π ρ :=
  match c.pending.get? id with
  | none => c
  | some pending =>
    let c := (c.awaitLate id pending.phase).rejectPending id (.client
      { code := if reason = .deadline then .deadline else .cancelled
        message := if reason = .deadline then "Native request exceeded its deadline."
          else "Native request was cancelled."
        requestId := some id
        operationOutcome := disconnectedOperationOutcome pending.request pending.phase
        writePhase := some pending.phase })
    if pending.phase = .beforeWrite then c
    else { c with allocatedIds := insert cancelId c.allocatedIds }

def writeFailed (c : NativeClient π ρ) (id : String) (phase : NativeWritePhase) :
    NativeClient π ρ :=
  match c.pending.get? id with
  | none => c
  | some pending =>
    (c.awaitLate id phase).rejectPending id (.client
      { code := .writeFailed
        message := "Native request write failed."
        requestId := some id
        operationOutcome := disconnectedOperationOutcome pending.request phase
        writePhase := some phase })

/-- The phase a report fails the write with, if it does. -/
def failedPhase (frameBytes : Nat) : WriteReport → Option NativeWritePhase
  | .receipt bytesWritten =>
    if bytesWritten = frameBytes then none
    else if bytesWritten = 0 then some .beforeWrite
    else some .writing
  | .failed phase => some (phase.getD .writing)

/-- The continuation of one `transport.write`. -/
def writeReported (c : NativeClient π ρ) (id : String) (report : WriteReport) :
    Option (NativeClient π ρ) :=
  match c.writes.get? id with
  | none => none
  | some frameBytes =>
    let c := { c with writes := c.writes.erase id }.mark id (.reported report)
    match failedPhase frameBytes report with
    | some phase => some (c.writeFailed id phase)
    | none =>
      match c.pending.get? id with
      | none => some c
      | some pending =>
        some { c with pending := c.pending.set id { pending with phase := .written } }

def rejectOpening (c : NativeClient π ρ) : NativeClient π ρ :=
  match c.connect with
  | .opening _ => { c with connect := .failed }
  | _ => c

def stateName : NativeClientState → String
  | .idle => "idle"
  | .connecting => "connecting"
  | .ready => "ready"
  | .disconnected => "disconnected"
  | .closed => "closed"

def stateError (c : NativeClient π ρ) : NativeClientError where
  code := match c.state with
    | .closed => .closed
    | .disconnected => .disconnected
    | .idle | .connecting | .ready => .notConnected
  message := "Native client is " ++ stateName c.state ++ "."
  requestId := none
  operationOutcome := none
  writePhase := none

/-- The error `#disconnect` gives to one pending request. -/
def disconnectedError (id : String) (pending : Pending π) : NativeClientError where
  code := .disconnected
  message := "Native transport disconnected."
  requestId := some id
  operationOutcome := disconnectedOperationOutcome pending.request pending.phase
  writePhase := some pending.phase

def protocolError (id : String) (pending : Pending π) : NativeClientError where
  code := .protocolViolation
  message := "Native protocol validation failed."
  requestId := some id
  operationOutcome := disconnectedOperationOutcome pending.request pending.phase
  writePhase := some pending.phase

/-- Leave the connection: what `#disconnect`, `#protocolFailure` and `close`
have in common. -/
def leave (c : NativeClient π ρ) (state : NativeClientState) : NativeClient π ρ :=
  { c with state, connectionEpoch := c.connectionEpoch + 1 }.rejectOpening

def forgetHost (c : NativeClient π ρ) : NativeClient π ρ :=
  { c with host := none, sessions := .empty, handles := .empty }

def disconnect (c : NativeClient π ρ) : NativeClient π ρ :=
  if c.state = .closed ∨ c.state = .disconnected then c
  else
    (c.leave .disconnected).forgetHost.pending.entries.foldl (fun c e =>
      (c.awaitLate e.1 e.2.phase).rejectPending e.1 (.client (disconnectedError e.1 e.2)))
      (c.leave .disconnected).forgetHost

def protocolFailure (c : NativeClient π ρ) : NativeClient π ρ :=
  (c.leave .disconnected).forgetHost.pending.entries.foldl (fun c e =>
    c.rejectPending e.1 (.client (protocolError e.1 e.2))) (c.leave .disconnected).forgetHost

/-- `cancelIds` are the ids drawn for the cancel frames. -/
def close (c : NativeClient π ρ) (cancelIds : String → String) : NativeClient π ρ :=
  if c.state = .closed then c
  else
    ((c.leave .closed).pending.entries.foldl (fun c e =>
      c.cancelPending e.1 .shutdown (cancelIds e.1)) (c.leave .closed)).forgetHost

/-! ## Dispatch -/

def stale (message : String) : NativeClientError :=
  ⟨.staleScope, message, none, none, none⟩

/-- `some` is the error `#validateScope` throws. -/
def validateScope (c : NativeClient π ρ) (host : HostDescriptor) (scope : NativeScope) :
    Option NativeClientError :=
  match scope with
  | .bootstrap => some (stale "Bootstrap scope is valid only during handshake.")
  | .host hostInstanceId =>
    if hostInstanceId ≠ host.hostInstanceId then
      some (stale "Scope targets a stale host instance.")
    else none
  | .session hostInstanceId sessionId => sessionScope hostInstanceId sessionId
  | .handle hostInstanceId sessionId handleId =>
    (sessionScope hostInstanceId sessionId).or
      (if c.handles.has ⟨hostInstanceId, sessionId, handleId⟩ then none
        else some (stale "Scope targets an unknown or stale handle."))
where
  sessionScope (hostInstanceId sessionId : String) : Option NativeClientError :=
    if hostInstanceId ≠ host.hostInstanceId then
      some (stale "Scope targets a stale host instance.")
    else match c.sessions.get? sessionId with
      | none => some (stale "Scope targets an unknown or stale session.")
      | some session =>
        if session.hostInstanceId ≠ hostInstanceId then
          some (stale "Session scope targets a stale host instance.")
        else none

/-- `some` is the rejection `validateCallAgainstHost` throws. -/
def validateCallAgainstHost (call : NativeCall π) (host : HostDescriptor) : Option Rejection :=
  match host.methods.find? fun m => m.name = call.name with
  | none => some (.protocol "invalid_message")
  | some method =>
    if method.intent ≠ call.intent ∨ call.scope.kind ∉ method.scopeKinds then
      some (.protocol "invalid_message")
    else if call.scope ≠ .bootstrap ∧ call.scope.hostInstanceID ≠ some host.hostInstanceId then
      some (.protocol "invalid_message")
    else none

def reusedId (kind : String) : Rejection :=
  .client ⟨.protocolViolation, "Native " ++ kind ++ " id was reused.", none, none, none⟩

/-- `#allocateId`: the id joins the allocated ones, or was one of them. -/
def allocateId (c : NativeClient π ρ) (kind id : String) : Except Rejection (NativeClient π ρ) :=
  if id ∈ c.allocatedIds then .error (reusedId kind)
  else .ok { c with allocatedIds := insert id c.allocatedIds }

/-- The outcome a request that never reached the transport reports. -/
def notWritten (intent : NativeOperationIntent) : Option NativeOperationOutcome :=
  if intent = .observe then none else some .notExecuted

def preWriteDeadline (requestId : String) (intent : NativeOperationIntent) : NativeClientError :=
  ⟨.deadline, "Native request deadline expired before transport write.", some requestId,
    notWritten intent, some .beforeWrite⟩

def makeCall (invocation : Invocation π) (operationId : String) : NativeCall π where
  name := invocation.name
  intent := invocation.intent
  scope := invocation.scope
  payload := invocation.payload
  operationID := if invocation.intent = .observe then none else some operationId
  sideEffecting := by split <;> simp_all

def frameLimit (c : NativeClient π ρ) : Nat :=
  min maxWireMessageBytes ((c.host.map (·.maxMessageBytes)).getD maxWireMessageBytes)

/-- The synchronous part of `#dispatch` up to the registration: the request,
or the rejection it throws. Ids allocated before a rejection stay allocated. -/
def prepare (c : NativeClient π ρ) (invocation : Invocation π) (reads : DispatchReads) :
    NativeClient π ρ × Except Rejection (NativeRequest π) :=
  if invocation.timeoutMs < 0 ∨ maxDeadlineMs < invocation.timeoutMs then
    (c, .error (.protocol "invalid_message"))
  else if invocation.aborted then
    (c, .error (.client ⟨.cancelled, "Native request was cancelled before write.", none,
      notWritten invocation.intent, some .beforeWrite⟩))
  else
    match scopeRejection with
    | some rejection => (c, .error rejection)
    | none =>
      match allocateOperation with
      | .error rejection => (c, .error rejection)
      | .ok c =>
        match c.allocateId "request" reads.requestId with
        | .error rejection => (c, .error rejection)
        | .ok c =>
          let request : NativeRequest π :=
            ⟨reads.requestId, invocation.timeoutMs.toNat,
              makeCall invocation (invocation.operationId.getD reads.operationId)⟩
          if ¬ reads.schemaAccepts then (c, .error (.protocol "invalid_message"))
          else
            match c.host.bind (validateCallAgainstHost request.call) with
            | some rejection => (c, .error rejection)
            | none =>
              if reads.provisionalBytes > c.frameLimit then
                (c, .error (.protocol "message_too_large"))
              else (c, .ok request)
where
  scopeRejection : Option Rejection :=
    if invocation.name = "host.handshake" then none
    else match c.host with
      | none => some (.client c.stateError)
      | some host => (c.validateScope host invocation.scope).map .client
  allocateOperation : Except Rejection (NativeClient π ρ) :=
    if invocation.intent = .observe then .ok c
    else c.allocateId "operation" (invocation.operationId.getD reads.operationId)

/-- The final encode: the request as written, or the rejection. -/
def finalRequest (c : NativeClient π ρ) (invocation : Invocation π) (request : NativeRequest π)
    (reads : DispatchReads) : Except Rejection (NativeRequest π) :=
  let encodeReserveMs : Int := reads.measuredEncodeMs + 1
  let finalRemaining : Int :=
    invocation.timeoutMs - reads.elapsedBeforeFinalEncode - encodeReserveMs
  if finalRemaining ≤ 0 then .error (.client (preWriteDeadline request.id invocation.intent))
  else if ¬ reads.finalSchemaAccepts then .error (.protocol "invalid_message")
  else if reads.finalBytes > c.frameLimit then .error (.protocol "message_too_large")
  else if reads.writeStartElapsed + finalRemaining > invocation.timeoutMs then
    .error (.client (preWriteDeadline request.id invocation.intent))
  else .ok { request with timeoutMilliseconds := finalRemaining.toNat }

/-- Late-response correlation keeps the request without its payload. -/
def requestTombstone [Inhabited π] (request : NativeRequest π) : NativeRequest π :=
  { request with call := { request.call with payload := default } }

/-- Register the request and hand its frame to the transport, or settle it
before that. -/
def register [Inhabited π] (c : NativeClient π ρ) (invocation : Invocation π)
    (request : NativeRequest π) (reads : DispatchReads) : NativeClient π ρ :=
  match c.finalRequest invocation request reads with
  | .error rejection =>
    { c with
      exchanges := c.exchanges.set request.id ⟨request, []⟩
      pending := c.pending.set request.id ⟨request, .beforeWrite⟩ }.rejectPending
      request.id rejection
  | .ok request =>
    { c with
      exchanges := c.exchanges.set request.id ⟨request, [.handed]⟩
      pending := c.pending.set request.id ⟨request, .writing⟩
      dispatchedRequests := c.dispatchedRequests.set request.id (requestTombstone request)
      writes := c.writes.set request.id reads.finalBytes }

/-- `#dispatch` as far as it runs synchronously, with the id of the request it
leaves pending. -/
def dispatch [Inhabited π] (c : NativeClient π ρ) (invocation : Invocation π)
    (reads : DispatchReads) : NativeClient π ρ × Option String :=
  match c.prepare invocation reads with
  | (c, .error rejection) =>
    ({ c with refusals := c.refusals ++ [(invocation.intent, rejection)] }, none)
  | (c, .ok request) =>
    let c := c.register invocation request reads
    (c, if c.pending.has request.id then some request.id else none)

def invoke [Inhabited π] (c : NativeClient π ρ) (invocation : Invocation π)
    (reads : DispatchReads) : NativeClient π ρ :=
  if c.state = .ready then (c.dispatch invocation reads).1
  else { c with refusals := c.refusals ++ [(invocation.intent, .client c.stateError)] }

/-! ## Tracked sessions and handles -/

/-- One call of a codec on its context. -/
inductive Enrolment
  | session (descriptor : NativeSessionDescriptor)
  | handle (handle : NativeHandle)

/-- The maps a codec stages into before anything is committed. -/
structure Staged where
  sessions : OrderedMap String NativeSessionDescriptor
  handles : OrderedMap NativeHandle NativeHandle

def Staged.none : Staged := ⟨.empty, .empty⟩

def stageSession (c : NativeClient π ρ) (staged : Staged) (session : NativeSessionDescriptor) :
    Except Rejection Staged :=
  match c.host with
  | none => .error (.client c.stateError)
  | some host =>
    let prior := (staged.sessions.get? session.sessionId).or (c.sessions.get? session.sessionId)
    if session.hostInstanceId ≠ host.hostInstanceId then
      .error (.client (stale "Session belongs to a stale host instance."))
    else if prior.isNone ∧ session.sessionId ∈ c.seenSessionIds then
      .error (.client (stale "Session id was reused after its previous identity was released."))
    else if prior.any fun p =>
        p.hostInstanceId ≠ session.hostInstanceId ∨ p.root.handleId ≠ session.root.handleId then
      .error (.client (stale "Session id was reused with different identity."))
    else .ok ⟨staged.sessions.set session.sessionId session,
      staged.handles.set session.root session.root⟩

def stageHandle (c : NativeClient π ρ) (staged : Staged) (handle : NativeHandle) :
    Except Rejection Staged :=
  match (staged.sessions.get? handle.sessionId).or (c.sessions.get? handle.sessionId) with
  | none => .error (.client (stale "Handle belongs to an unknown or stale session."))
  | some session =>
    if session.hostInstanceId ≠ handle.hostInstanceId ∨ session.sessionId ≠ handle.sessionId then
      .error (.protocol "scope_mismatch")
    else .ok { staged with handles := staged.handles.set handle handle }

def stage (c : NativeClient π ρ) (staged : Staged) : Enrolment → Except Rejection Staged
  | .session descriptor => c.stageSession staged descriptor
  | .handle handle => c.stageHandle staged handle

/-- A codec's calls in order; an enrolment that throws stages nothing, and the
codec may go on. -/
def stageAll (c : NativeClient π ρ) (staged : Staged) (enrolments : List Enrolment) : Staged :=
  enrolments.foldl (fun staged e => (c.stage staged e).toOption.getD staged) staged

def commitTracking (c : NativeClient π ρ) (staged : Staged) : NativeClient π ρ :=
  { c with
    sessions := staged.sessions.entries.foldl (fun m e => m.set e.1 e.2) c.sessions
    seenSessionIds := c.seenSessionIds ∪ staged.sessions.keys.toFinset
    handles := staged.handles.entries.foldl (fun m e => m.set e.1 e.2) c.handles }

/-- `trackSession` and `trackHandle`; an error leaves the client as it was. -/
def track (c : NativeClient π ρ) (enrolment : Enrolment) : NativeClient π ρ :=
  match c.stage .none enrolment with
  | .error _ => c
  | .ok staged => c.commitTracking staged

def forgetSession (c : NativeClient π ρ) (sessionId : String) : NativeClient π ρ :=
  { c with
    sessions := c.sessions.erase sessionId
    handles := c.handles.filter fun _ handle => handle.sessionId ≠ sessionId }

/-! ## Receiving -/

/-- A frame as the transport delivers it; no content when it does not parse as
a response. -/
structure Frame (ρ : Type) where
  bytes : Nat
  content : Option (WireResponse ρ)

def receiveUnmatched (c : NativeClient π ρ) (response : WireResponse ρ) : NativeClient π ρ :=
  match c.dispatchedRequests.get? response.id with
  | none => c.protocolFailure
  | some dispatched =>
    if response.id ∈ c.awaitingLateResponseIds then
      let c := { c with awaitingLateResponseIds := c.awaitingLateResponseIds.erase response.id }
      match validateResponseForRequest dispatched response with
      | some _ => c.protocolFailure
      | none => c.mark response.id (.late response)
    else c

def receiveMatched (c : NativeClient π ρ) (pending : Pending π) (response : WireResponse ρ) :
    NativeClient π ρ :=
  match validateResponseForRequest pending.request response with
  | some _ => c.protocolFailure
  | none =>
    match response.body with
    | .error error => c.rejectPending response.id (.remote error response.operation)
    | .ok result =>
      { c with
        pending := c.pending.erase response.id
        decoding := c.decoding.set response.id
          ⟨pending.request, pending.phase, response, result⟩ }

/-- `#receive` up to the call of the codec. -/
def receive (c : NativeClient π ρ) (frame : Frame ρ) : NativeClient π ρ :=
  if c.state = .closed then c
  else if c.host.any fun host => frame.bytes > host.maxMessageBytes then c.protocolFailure
  else
    match frame.content with
    | none => c.protocolFailure
    | some response =>
      match c.pending.get? response.id with
      | none => c.receiveUnmatched response
      | some pending => c.receiveMatched pending response

/-- How a codec returns. The handshake's codec returns a host descriptor. -/
inductive Decoded
  | threw
  | value (host : Option HostDescriptor)

/-- The rest of `#receive` once the codec returned. -/
def decoded (c : NativeClient π ρ) (id : String) (enrolments : List Enrolment)
    (outcome : Decoded) : Option (NativeClient π ρ) :=
  match c.decoding.get? id with
  | none => none
  | some d =>
    let c := { c with decoding := c.decoding.erase id }
    match outcome with
    | .threw => some (c.rejectPending id (.client
        { code := .decodeFailed
          message := "Native result codec rejected the response."
          requestId := some id
          operationOutcome := d.response.operation.map (·.outcome)
          writePhase := some d.phase }))
    | .value host =>
      let connect := match c.connect with
        | .awaiting requestId epoch =>
          if requestId = id then
            match host with
            | some host => .answered host epoch
            | none => .failed
          else c.connect
        | _ => c.connect
      some ({ c.commitTracking (c.stageAll .none enrolments) with connect }.mark id
        (.settled (.resolved d.response)))

/-! ## Connecting -/

def beginConnect (c : NativeClient π ρ) (timeoutMs : Int) : NativeClient π ρ :=
  if c.state ≠ .idle ∨ timeoutMs < 0 ∨ maxDeadlineMs < timeoutMs then c
  else
    { c with
      state := .connecting
      connectionEpoch := c.connectionEpoch + 1
      connect := .opening (c.connectionEpoch + 1) }

/-- The transport's `open` settled. -/
def openSettled (c : NativeClient π ρ) (ok : Bool) : NativeClient π ρ :=
  match c.connect with
  | .opening epoch => { c with connect := if ok then .opened epoch else .failed }
  | _ => c

def openTimedOut (c : NativeClient π ρ) : NativeClient π ρ :=
  match c.connect with
  | .opening _ => c.leave .disconnected
  | _ => c

def handshake (payload : π) (remaining : Int) : Invocation π :=
  ⟨"host.handshake", .observe, .bootstrap, payload, remaining, none, false⟩

/-- The next stretch of `connect` after an `await`. -/
def resumeConnect [Inhabited π] (c : NativeClient π ρ) (remaining : Int) (reads : DispatchReads) :
    Option (NativeClient π ρ) :=
  match c.connect with
  | .opened epoch =>
    if c.state = .connecting ∧ c.connectionEpoch = epoch then
      match c.dispatch (handshake default remaining) reads with
      | (c, some requestId) => some { c with connect := .awaiting requestId epoch }
      | (c, none) => some { c with connect := .failed }
    else some { c with connect := .failed }
  | .answered host epoch =>
    if c.state = .connecting ∧ c.connectionEpoch = epoch then
      some { c with host := some host, state := .ready, connect := .done }
    else some { c with connect := .failed }
  | .failed =>
    some { c with
      state := if c.state = .disconnected ∨ c.state = .closed then c.state else .disconnected
      connect := .done }
  | _ => none

end NativeClient

end SurfaceLoom.Native.Client
