import SurfaceLoom.Test.Deadline

/-! # Tracking an in-process task

`trackInProcessTask` keeps a record of its own beside a deadline task and brings it up to
date whenever it is asked for a snapshot. Texts thrown by a body are opaque: `describe`
is what `errorSummary` makes of one. -/
namespace SurfaceLoom.Test.Worker
open SurfaceLoom.Lib.Transition SurfaceLoom.Test.Deadline

inductive WorkerIsolation
  | inProcess
  | nodeWorker
  deriving DecidableEq

inductive WorkerStopState
  | running
  | stopRequested
  | notStarted
  | settled
  | cooperativeStopped
  | workerExited
  | workerTerminated
  | unconfirmed
  deriving DecidableEq

inductive WorkerFailureCode
  | invalidReceipt
  | conflictingReceipt
  | taskRejected
  | stopUnconfirmed
  | terminationFailed
  | terminationUnconfirmed
  | workerError
  | forcedTermination
  | externalEffectsUnknown
  deriving DecidableEq

structure WorkerFailure where
  code : WorkerFailureCode
  message : String
  deriving DecidableEq

inductive SettlementStatus
  | fulfilled
  | rejected
  | notStarted
  deriving DecidableEq

structure WorkerSettlementSummary where
  status : SettlementStatus
  observedAtMs : Option ℚ
  cancellationRequested : Bool
  cancellationAcknowledged : Bool
  errorMessage : Option String
  deriving DecidableEq

inductive ExternalEffects
  | notApplicable
  | unverified
  | unknown
  deriving DecidableEq

/-- What a caller declares about the effects of a task. -/
inductive DeclaredEffects
  | none
  | possible
  deriving DecidableEq

structure WorkerStopSnapshot where
  isolation : WorkerIsolation
  state : WorkerStopState
  tainted : Bool
  cancellationRequested : Bool
  externalEffects : ExternalEffects
  settlement : Option WorkerSettlementSummary
  exitCode : Option Nat
  failures : List WorkerFailure
  deriving DecidableEq

structure WorkerState (V : Type) where
  isolation : WorkerIsolation
  failures : List WorkerFailure
  state : WorkerStopState
  tainted : Bool
  requested : Bool
  effects : ExternalEffects
  settlement : Option WorkerSettlementSummary
  receiptInput : Option (TaskSettleReceipt V)
  exitCode : Option Nat

variable {V : Type}

/-! ## Receipts -/

/-- `slice(0, 2048)`. -/
def clip (message : String) : String := String.ofList (message.toList.take 2048)

def settlementStatus (input : TaskSettleReceipt V) : SettlementStatus :=
  match input.completion with
  | none => .notStarted
  | some (.fulfilled _) => .fulfilled
  | some (.rejected _) => .rejected

def settlementError (describe : V → String) (input : TaskSettleReceipt V) : Option String :=
  match input.completion with
  | some (.rejected reason) => some (clip (describe reason))
  | _ => none

def workerSettlement (describe : V → String) (input : TaskSettleReceipt V) (acknowledged : Bool) :
    Except String WorkerSettlementSummary :=
  if (input.completion.isNone ∨ acknowledged) ∧ input.cancellation.isNone then
    .error "A cancelled settlement requires a cancellation receipt."
  else if input.completion.isNone ∧ acknowledged then
    .error "An unstarted task cannot acknowledge cancellation."
  else
    .ok ⟨settlementStatus input, input.observedAtMs, input.cancellation.isSome, acknowledged,
      settlementError describe input⟩

/-! ## The recorder -/

namespace WorkerState

def create (isolation : WorkerIsolation) (effects : DeclaredEffects) : WorkerState V :=
  ⟨isolation, [], .running, false, false,
    match effects with
    | .none => .notApplicable
    | .possible => .unverified,
    none, none, none⟩

def snapshot (w : WorkerState V) : WorkerStopSnapshot :=
  ⟨w.isolation, w.state, w.tainted, w.requested, w.effects, w.settlement, w.exitCode, w.failures⟩

def failure (w : WorkerState V) (code : WorkerFailureCode) (message : String) (tainted : Bool) :
    WorkerState V :=
  { w with tainted := w.tainted || tainted, failures := w.failures ++ [⟨code, clip message⟩] }

def markExternalEffectsUnknown (w : WorkerState V) : WorkerState V :=
  if w.effects = .unknown then w
  else { w with effects := .unknown }.failure .externalEffectsUnknown
    "Execution stop does not establish the outcome of external effects." true

/-- A stop is asked for, whatever becomes of the effects. -/
def ask (w : WorkerState V) : WorkerState V :=
  { w with
    requested := true
    state := if w.state = .running then .stopRequested else w.state }

def requestStop (w : WorkerState V) : WorkerState V :=
  if w.requested then w
  else if w.effects = .unverified then w.ask.markExternalEffectsUnknown
  else w.ask

/-- The record after a rejection, and the error it throws. -/
def reject {α : Type} (w : WorkerState V) (code : WorkerFailureCode) (message : String) :
    WorkerState V × Except String α :=
  (w.failure code message true, .error message)

/-- The state a settlement leads to. -/
def settledState (receipt : WorkerSettlementSummary) : WorkerStopState :=
  if receipt.status = .notStarted then .notStarted
  else if receipt.cancellationAcknowledged then .cooperativeStopped
  else .settled

/-- What a settlement says of a cancellation. -/
def noteCancellation (w : WorkerState V) (receipt : WorkerSettlementSummary) : WorkerState V :=
  if receipt.cancellationRequested then
    if receipt.status = .notStarted then { w with requested := true } else w.requestStop
  else w

def store (w : WorkerState V) (input : TaskSettleReceipt V) (receipt : WorkerSettlementSummary) :
    WorkerState V :=
  { w with settlement := some receipt, receiptInput := some input }

def settle (w : WorkerState V) (receipt : WorkerSettlementSummary) : WorkerState V :=
  { w with state := settledState receipt }

/-- A settlement that was not seen before. -/
def accept (w : WorkerState V) (input : TaskSettleReceipt V) (receipt : WorkerSettlementSummary) :
    WorkerState V :=
  match receipt.errorMessage with
  | none => ((w.store input receipt).noteCancellation receipt).settle receipt
  | some message =>
    (((w.store input receipt).noteCancellation receipt).settle receipt).failure .taskRejected
      message false

def readReceipt (describe : V → String) (w : WorkerState V) (input : TaskSettleReceipt V)
    (acknowledged : Bool) : Except String WorkerSettlementSummary :=
  if w.isolation ≠ .inProcess then .error "Task settlement is not a Worker exit receipt."
  else workerSettlement describe input acknowledged

/-- A receipt object that is not the accepted one. -/
def acceptNew (describe : V → String) (w : WorkerState V) (input : TaskSettleReceipt V)
    (acknowledged : Bool) : WorkerState V × Except String Bool :=
  match w.readReceipt describe input acknowledged with
  | .error message => w.reject .invalidReceipt (clip message)
  | .ok receipt =>
    match w.settlement with
    | none => (w.accept input receipt, .ok true)
    | some settlement =>
      if receipt = settlement then (w, .ok false)
      else w.reject .conflictingReceipt
        "A different task settlement receipt was already accepted."

/-- A task hands out one receipt object, so the comparison of two of them is one of
their contents. -/
def acceptSettlement [DecidableEq V] (describe : V → String) (w : WorkerState V)
    (input : TaskSettleReceipt V) (acknowledged : Bool) : WorkerState V × Except String Bool :=
  match w.settlement with
  | none => w.acceptNew describe input acknowledged
  | some settlement =>
    if w.receiptInput = some input then
      if acknowledged = settlement.cancellationAcknowledged then (w, .ok false)
      else w.reject .conflictingReceipt "Cancellation acknowledgment changed after settlement."
    else w.acceptNew describe input acknowledged

/-- Without a settlement or an exit there is no other state to keep. -/
def giveUp (w : WorkerState V) : WorkerState V :=
  if w.settlement.isNone ∧ w.exitCode.isNone then { w with state := .unconfirmed } else w

def unconfirmed (w : WorkerState V) (code : WorkerFailureCode) (message : String) :
    WorkerState V :=
  w.giveUp.failure code message true

/-- What the outcome of the task adds to the record. -/
def endWait (w : WorkerState V) (outcome : TaskOutcome V) : WorkerState V :=
  if outcome.stopStatus = .unconfirmed then
    w.unconfirmed .stopUnconfirmed
      "Waiting ended without confirmation that the in-process callback stopped."
  else w

def observeCancellation (w : WorkerState V) (current : TaskSnapshot V) : WorkerState V :=
  if current.cancellation.isSome ∧ current.started then w.requestStop else w

/-- `observe` of a tracked task. -/
def observe [DecidableEq V] (describe : V → String) (w : WorkerState V) (current : TaskSnapshot V) :
    WorkerState V × Except String Unit :=
  match current.settlement with
  | none => (w.observeCancellation current, .ok ())
  | some settlement =>
    let result := (w.observeCancellation current).acceptSettlement describe settlement
      current.cancellationAcknowledged
    (result.1, result.2.map fun _ => ())

end WorkerState

/-! ## A tracked task -/

/-- A snapshot that was handed out, and what the task had recorded by then; `observed`
says that it had just been read, `waited` that its outcome had been handled. -/
structure Publication (V : Type) where
  task : TaskSnapshot V
  outcome : Option (TaskOutcome V)
  observed : Bool
  waited : Bool
  worker : WorkerStopSnapshot

structure Tracking (V : Type) where
  task : DeadlineTask V
  declared : DeclaredEffects
  worker : Option (WorkerState V)
  waited : Bool
  published : List (Publication V)
  outcome : Option WorkerStopSnapshot
  thrown : List String

namespace Tracking

/-- `observe`, and `action` when it did not throw. -/
def observed [DecidableEq V] (describe : V → String) (s : Tracking V) (w : WorkerState V)
    (action : Tracking V → WorkerState V → Tracking V) : Tracking V :=
  match w.observe describe s.task.snapshot with
  | (w, .error message) => { s with worker := some w, thrown := s.thrown ++ [message] }
  | (w, .ok ()) => action s w

/-- `return state.snapshot()`. -/
def publish (observed : Bool) (s : Tracking V) (w : WorkerState V) : Tracking V :=
  { s with
    worker := some w
    published := s.published ++
      [⟨s.task.snapshot, s.task.outcome, observed, s.waited, w.snapshot⟩] }

/-- The rest of the callback on `task.outcome`. -/
def handleOutcome (outcome : TaskOutcome V) (s : Tracking V) (w : WorkerState V) : Tracking V :=
  { publish true { s with waited := true } (w.endWait outcome) with
    outcome := some (w.endWait outcome).snapshot }

end Tracking

inductive Event (V : Type)
  | task (event : Deadline.Event V)
  | track (declared : DeclaredEffects)
  | snapshot
  | outcome
  | markExternalEffectsUnknown

/-- A task may be tracked once `startDeadlineTask` has returned it. `snapshot` is every
observation but the one of the outcome: a call of `snapshot`, the end of a `cancel` and the
callback on `task.settled`. -/
def next [DecidableEq V] (describe : V → String) (s : Tracking V) : Event V → Option (Tracking V)
  | .task event => (Deadline.next s.task event).map fun task => { s with task }
  | .track declared =>
    if s.worker.isNone ∧ (s.task.started ∨ s.task.cancellation.isSome) then
      some ({ s with declared }.observed describe (.create .inProcess declared)
        fun s w => { s with worker := some w })
    else none
  | .snapshot => s.worker.map fun w => s.observed describe w (Tracking.publish true)
  | .outcome =>
    match s.worker, s.task.outcome with
    | some w, some outcome =>
      if s.waited then none else some (s.observed describe w (Tracking.handleOutcome outcome))
    | _, _ => none
  | .markExternalEffectsUnknown =>
    s.worker.map fun w => s.publish false w.markExternalEffectsUnknown

def tracking [DecidableEq V] (describe : V → String) (startedAtMs timeoutMs graceMs : ℚ) :
    System (Tracking V) (Event V) :=
  .ofMachine ⟨create startedAtMs timeoutMs graceMs, .none, none, false, [], none, []⟩
    (next describe)

end SurfaceLoom.Test.Worker
