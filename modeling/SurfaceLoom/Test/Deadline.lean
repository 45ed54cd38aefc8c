import Mathlib.Algebra.Order.Ring.Rat
import SurfaceLoom.Lib.Transition

/-! # Deadline tasks

`startDeadlineTask` bounds the wait for a body and asks it to stop. The abort
listeners of a cancellation run in the middle of the call that cancels; the rest
of that call waits in `window` until they are done. Every write of a result, and
the start and the end of the body, is noted in `log`. -/
namespace SurfaceLoom.Test.Deadline
open SurfaceLoom.Lib.Transition

inductive CancellationKind
  | deadline
  | external
  | requested
  | clockFailed
  deriving DecidableEq

structure DeadlineCancellation where
  kind : CancellationKind
  requestedAtMs : ℚ
  message : String
  deriving DecidableEq

/-- How a body ended. -/
inductive Completion (V : Type)
  | fulfilled (value : V)
  | rejected (reason : V)
  deriving DecidableEq

/-- `completion` is none for a body that was never started. -/
structure TaskSettleReceipt (V : Type) where
  completion : Option (Completion V)
  observedAtMs : Option ℚ
  cancellation : Option DeadlineCancellation
  deriving DecidableEq

inductive OutcomeStatus
  | settled
  | timedOut
  | cancelled
  | clockFailed
  deriving DecidableEq

inductive StopStatus
  | settled
  | cooperativeStopped
  | notStarted
  | unconfirmed
  deriving DecidableEq

structure TaskSnapshot (V : Type) where
  started : Bool
  settlement : Option (TaskSettleReceipt V)
  cancellation : Option DeadlineCancellation
  cancellationAcknowledged : Bool
  clockFailure : Bool
  deriving DecidableEq

structure TaskOutcome (V : Type) extends TaskSnapshot V where
  status : OutcomeStatus
  stopStatus : StopStatus
  deriving DecidableEq

/-! ## The clock -/

/-- What the clock gives: a number, or nothing when it throws or is not finite. -/
abbrev Reading := Option ℚ

/-- What the scheduler does with a callback; it may throw, call it at once or
return no function. -/
inductive Scheduling
  | accepted
  | failed
  deriving DecidableEq

inductive ArmKind
  | deadline
  | grace
  deriving DecidableEq

/-- One `arm`: `befores` has the reading each of its scheduled callbacks was
scheduled at. -/
structure Arm where
  kind : ArmKind
  targetMs : ℚ
  active : Bool
  befores : List ℚ

/-! ## The task -/

/-- The rest of a call whose cancellation runs the abort listeners. -/
inductive Rest (V : Type)
  | requested
  | clockFailed
  | complete (completion : Completion V) (now : Option ℚ)

inductive Write (V : Type)
  | started
  | ended
  | cancelled (cancellation : DeadlineCancellation)
  | acknowledged
  | settled (receipt : TaskSettleReceipt V)
  | resolved (outcome : TaskOutcome V)
  deriving DecidableEq

inductive Body
  | waiting
  | running
  | ended
  deriving DecidableEq

structure DeadlineTask (V : Type) where
  deadlineMs : ℚ
  graceMs : ℚ
  last : ℚ
  broken : Bool
  started : Bool
  settling : Bool
  outcome : Option (TaskOutcome V)
  cancellation : Option DeadlineCancellation
  clockFailure : Bool
  settlement : Option (TaskSettleReceipt V)
  acknowledged : Bool
  arms : List Arm
  disarm : Option Nat
  listening : Bool
  body : Body
  window : Option (List (Rest V))
  log : List (Write V)

variable {V : Type}

/-- A task before its timer is armed and its body called. -/
def create (startedAtMs timeoutMs graceMs : ℚ) : DeadlineTask V :=
  ⟨startedAtMs + timeoutMs, graceMs, startedAtMs, false, false, false, none, none, false, none,
    false, [], none, false, .waiting, none, []⟩

def outcomeStatus (cancellation : Option DeadlineCancellation) : OutcomeStatus :=
  match cancellation with
  | none => .settled
  | some c => match c.kind with
    | .deadline => .timedOut
    | .clockFailed => .clockFailed
    | .external | .requested => .cancelled

def stopStatus (settlement : Option (TaskSettleReceipt V))
    (cancellation : Option DeadlineCancellation) (acknowledged : Bool) : StopStatus :=
  match settlement with
  | none => .unconfirmed
  | some r =>
    if r.completion.isNone then .notStarted
    else if cancellation.isSome ∧ acknowledged then .cooperativeStopped
    else .settled

namespace DeadlineTask

def snapshot (s : DeadlineTask V) : TaskSnapshot V :=
  ⟨s.started, s.settlement, s.cancellation, s.acknowledged, s.clockFailure⟩

/-- `timer.read`: the failure of a clock is final. -/
def read (s : DeadlineTask V) (reading : Reading) : DeadlineTask V × Option ℚ :=
  match reading with
  | some now =>
    if s.broken ∨ now < s.last then ({ s with broken := true }, none)
    else ({ s with last := now }, some now)
  | none => ({ s with broken := true }, none)

def stopArm (s : DeadlineTask V) (k : Nat) : DeadlineTask V :=
  { s with arms := s.arms.modify k fun a => { a with active := false } }

/-- `disarm?.()`. -/
def disarmed (s : DeadlineTask V) : DeadlineTask V :=
  match s.disarm with
  | none => s
  | some k => s.stopArm k

inductive ArmResult
  | armed
  | elapsed
  | failed
  deriving DecidableEq

/-- `schedule` inside `arm`. -/
def schedule (s : DeadlineTask V) (k : Nat) (targetMs : ℚ) (reading : Reading) (scheduling : Scheduling) :
    DeadlineTask V × ArmResult :=
  match s.read reading with
  | (s, none) => (s.stopArm k, .failed)
  | (s, some before) =>
    if before ≥ targetMs then (s.stopArm k, .elapsed)
    else
      match scheduling with
      | .accepted =>
        ({ s with arms := s.arms.modify k fun a => { a with befores := a.befores ++ [before] } },
          .armed)
      | .failed => (s.stopArm k, .failed)

def arm (s : DeadlineTask V) (kind : ArmKind) (targetMs : ℚ) (reading : Reading)
    (scheduling : Scheduling) : DeadlineTask V × ArmResult :=
  let k := s.arms.length
  let s : DeadlineTask V := { s with arms := s.arms ++ [⟨kind, targetMs, true, []⟩] }
  match s.schedule k targetMs reading scheduling with
  | (s, result) => ({ s with disarm := some k }, result)

/-- The outcome `finish` resolves the promise with. -/
def toOutcome (s : DeadlineTask V) : TaskOutcome V :=
  ⟨s.snapshot, outcomeStatus s.cancellation, stopStatus s.settlement s.cancellation s.acknowledged⟩

def finish (s : DeadlineTask V) : DeadlineTask V :=
  if s.outcome.isSome then s
  else
    let s : DeadlineTask V := { s.disarmed with listening := false }
    { s with outcome := some s.toOutcome, log := s.log ++ [.resolved s.toOutcome] }

def settle (s : DeadlineTask V) (receipt : TaskSettleReceipt V) : DeadlineTask V :=
  { s with settlement := some receipt, log := s.log ++ [.settled receipt] }

/-- `if (!settling) finish()`. -/
def finishUnlessSettling (s : DeadlineTask V) : DeadlineTask V := if s.settling then s else s.finish

/-- The cancellation grace after the listeners ran. A failure while its timer is
armed finds the cancellation recorded and only finishes. -/
def startGrace (s : DeadlineTask V) (reading : Reading) (scheduling : Scheduling) : DeadlineTask V :=
  if s.settling then s
  else if s.graceMs = 0 ∨ s.clockFailure then s.finish
  else
    match s.arm .grace (s.last + s.graceMs) reading scheduling with
    | (s, .armed) => s
    | (s, .elapsed) => s.finish
    | (s, .failed) => { s with clockFailure := true }.finish

def runRest (reading : Reading) (scheduling : Scheduling) (s : DeadlineTask V) : Rest V → DeadlineTask V
  | .requested => s.startGrace reading scheduling
  | .clockFailed => s.finishUnlessSettling
  | .complete completion now =>
    { s.settle ⟨some completion, now, s.cancellation⟩ with settling := false }.finish

def runAll (reading : Reading) (scheduling : Scheduling) (s : DeadlineTask V) (rest : List (Rest V)) :
    DeadlineTask V := rest.foldl (runRest reading scheduling) s

def recordCancellation (s : DeadlineTask V) (kind : CancellationKind) (message : String) :
    DeadlineTask V :=
  let cancellation : DeadlineCancellation := ⟨kind, s.last, message⟩
  let s : DeadlineTask V :=
    { s with cancellation := some cancellation, log := s.log ++ [.cancelled cancellation] }
  { s.disarmed with listening := false }

/-- A body that is cancelled before it was started. -/
def notStarted (s : DeadlineTask V) : DeadlineTask V :=
  (s.settle ⟨none, if s.clockFailure then none else some s.last, s.cancellation⟩).finish

/-- `requestCancellation`, with the rest of the call that asks for it. A body that
was not started has no listeners to run. -/
def requestCancellation (s : DeadlineTask V) (kind : CancellationKind) (message : String)
    (rest : List (Rest V)) : DeadlineTask V :=
  if s.cancellation.isSome ∨ s.settlement.isSome then runAll none .failed s rest
  else if s.started then
    { s.recordCancellation kind message with window := some (.requested :: rest) }
  else runAll none .failed (s.recordCancellation kind message).notStarted rest

def clockFailed (s : DeadlineTask V) (rest : List (Rest V)) : DeadlineTask V :=
  { s with clockFailure := true }.requestCancellation .clockFailed
    "Execution clock or scheduler failed." (.clockFailed :: rest)

def expire (s : DeadlineTask V) (rest : List (Rest V)) : DeadlineTask V :=
  s.requestCancellation .deadline "Execution deadline expired." rest

def externalAbort (s : DeadlineTask V) (reading : Reading) : DeadlineTask V :=
  match s.read reading with
  | (s, none) => s.clockFailed []
  | (s, some _) =>
    s.requestCancellation .external "Execution was cancelled by the external signal." []

/-- `remainingMs`, and `throwIfCancelled` before it looks at the signal. -/
def remainingMs (s : DeadlineTask V) (reading : Reading) : DeadlineTask V :=
  match s.read reading with
  | (s, none) => s.clockFailed []
  | (s, some now) => if now ≥ s.deadlineMs then s.expire [] else s

def acknowledgeCancellation (s : DeadlineTask V) : DeadlineTask V :=
  if s.cancellation.isNone ∨ s.settlement.isSome then s
  else { s with acknowledged := true, log := s.log ++ [.acknowledged] }

def cancel (s : DeadlineTask V) (message : String) (reading : Reading) : DeadlineTask V :=
  if s.cancellation.isSome ∨ s.settlement.isSome then s
  else
    match s.read reading with
    | (s, none) => s.clockFailed []
    | (s, some _) => s.requestCancellation .requested message []

/-- `complete`; a body that ended is not heard again. -/
def complete (s : DeadlineTask V) (completion : Completion V) (reading : Reading) : DeadlineTask V :=
  if s.settlement.isSome then s
  else
    match { s with settling := true }.read reading with
    | (s, none) => s.clockFailed [.complete completion none]
    | (s, some now) =>
      if now ≥ s.deadlineMs then s.expire [.complete completion (some now)]
      else runAll none .failed s [.complete completion (some now)]

/-- What a timer does when it is over or fails. -/
def timerEnds (s : DeadlineTask V) (kind : ArmKind) : ArmResult → DeadlineTask V
  | .armed => s
  | .elapsed => match kind with
    | .deadline => s.expire []
    | .grace => s.finish
  | .failed => s.clockFailed []

/-- A scheduled callback of an arm fires, however often. -/
def fire (s : DeadlineTask V) (k : Nat) (before : ℚ) (reading later : Reading) (scheduling : Scheduling) :
    Option (DeadlineTask V) :=
  match s.arms[k]? with
  | none => none
  | some a =>
    if before ∉ a.befores then none
    else if !a.active then some s
    else
      match s.read reading with
      | (s, none) => some ((s.stopArm k).timerEnds a.kind .failed)
      | (s, some now) =>
        if now ≥ a.targetMs then some ((s.stopArm k).timerEnds a.kind .elapsed)
        else if now ≤ before then
          some (({ s with broken := true }.stopArm k).timerEnds a.kind .failed)
        else
          match s.schedule k a.targetMs later scheduling with
          | (s, result) => some (s.timerEnds a.kind result)

def bodyBegins (s : DeadlineTask V) : DeadlineTask V :=
  { s with started := true, body := .running, log := s.log ++ [.started] }

def bodyEnds (s : DeadlineTask V) : DeadlineTask V :=
  { s with body := .ended, log := s.log ++ [.ended] }

/-- The end of `startDeadlineTask`: the body is called unless the task is
cancelled already. -/
def start (s : DeadlineTask V) (aborted : Bool) (reading : Reading) (scheduling : Scheduling) : DeadlineTask V :=
  let s :=
    if aborted then s.externalAbort reading
    else
      match { s with listening := true }.arm .deadline s.deadlineMs reading scheduling with
      | (s, result) => s.timerEnds .deadline result
  if s.cancellation.isNone then s.bodyBegins else s

end DeadlineTask

inductive Event (V : Type)
  | start (aborted : Bool) (reading : Reading) (scheduling : Scheduling)
  | settle (completion : Completion V) (reading : Reading)
  | externalAbort (reading : Reading)
  | cancel (message : String) (reading : Reading)
  | remainingMs (reading : Reading)
  | acknowledgeCancellation
  | fire (k : Nat) (before : ℚ) (reading later : Reading) (scheduling : Scheduling)
  | listenersDone (reading : Reading) (scheduling : Scheduling)

/-- Listeners, the body and the scheduler may call in at any time; the settlement
of the body waits until the listeners are done. -/
def next (s : DeadlineTask V) : Event V → Option (DeadlineTask V)
  | .start aborted reading scheduling =>
    if s.body = .waiting ∧ s.cancellation.isNone then
      some (s.start aborted reading scheduling)
    else none
  | .settle completion reading =>
    if s.body = .running ∧ s.window.isNone then
      some (s.bodyEnds.complete completion reading)
    else none
  | .externalAbort reading => if s.listening then some (s.externalAbort reading) else none
  | .cancel message reading =>
    if s.started ∨ s.cancellation.isSome then some (s.cancel message reading) else none
  | .remainingMs reading =>
    if s.started ∨ s.cancellation.isSome then some (s.remainingMs reading) else none
  | .acknowledgeCancellation =>
    if s.started ∨ s.cancellation.isSome then some s.acknowledgeCancellation else none
  | .fire k before reading later scheduling => s.fire k before reading later scheduling
  | .listenersDone reading scheduling =>
    match s.window with
    | none => none
    | some rest => some ({ s with window := none }.runAll reading scheduling rest)

def task (V : Type) (startedAtMs timeoutMs graceMs : ℚ) : System (DeadlineTask V) (Event V) :=
  .ofMachine (create startedAtMs timeoutMs graceMs) next

end SurfaceLoom.Test.Deadline
