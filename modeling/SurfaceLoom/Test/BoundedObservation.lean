import SurfaceLoom.Test.Assertion
import SurfaceLoom.Test.Deadline

/-! # Bounded observation waits

`waitForObservationBounded` runs `waitForObservation` as the body of a deadline
task. Both read one clock: the inner wait reads it through an adapter whose first
reading is made up and which throws once the task is cancelled. The text of a
thrown value is what `errorSummary` makes of it; a thrown `null` is none. -/
namespace SurfaceLoom.Test.BoundedObservation
open SurfaceLoom.Lib.Transition
open SurfaceLoom.Test.Deadline hiding Body Event next
open SurfaceLoom.Test.Assertion (Sample Wait ReadOutcome Match AssertionFailure Result)

/-- What the body fulfils or rejects with. -/
inductive BodyValue
  | assertion (result : Result)
  | reason (cause : Option String)

/-- The options of a call; a number that is not finite is none. `observation` is
what reading the options of the inner wait gives or throws. -/
structure BoundedOptions where
  timeoutMs : Option ℚ
  cancellationGraceMs : Option ℚ
  observation : Except (Option String) Assertion.Options

/-- What the caller's reader is called with. -/
structure ReadContext where
  attempt : Nat
  startedAtMs : ℚ
  deadlineMs : ℚ
  remainingMs : ℚ
  deriving DecidableEq

/-- Where the body is. `checked` is between the two readings before a read, and
`asleep` has how the sleep ended. -/
inductive Callback
  | waiting
  | entered
  | measured (timeoutMs : ℚ)
  | running (wait : Wait)
  | checked (wait : Wait) (startedAtMs : ℚ)
  | refused (wait : Wait) (message : String)
  | invoked (wait : Wait)
  | asleep (wait : Wait) (outcome : Option (Except String Unit))
  | returned (completion : Completion BodyValue)

structure Bounded where
  task : DeadlineTask BodyValue
  startedAtMs : ℚ
  callback : Callback
  invoked : List ReadContext

/-- What the scheduler does with the callback of a sleep. -/
inductive Scheduled
  | threw (message : String)
  | noCancellation
  | firedSynchronously
  | pending

namespace Bounded

/-- The message of `deadline.signal.reason`. -/
def reason (s : Bounded) : Option String := s.task.cancellation.map DeadlineCancellation.message

/-- `now` of `cancellationAwareClock` after its first call. -/
def now (s : Bounded) (sample : Sample) : Sample :=
  match s.reason with
  | some message => .threw message
  | none => sample

/-- How a sleep ends that does not wait for its callback. -/
def abortableSleep (s : Bounded) (scheduled : Scheduled) : Option (Except String Unit) :=
  match s.reason with
  | some message => some (.error message)
  | none => match scheduled with
    | .threw message => some (.error message)
    | .noCancellation =>
      some (.error "Runtime helper scheduler must return a cancellation function.")
    | .firedSynchronously =>
      some (.error "Runtime helper scheduler must invoke callbacks asynchronously.")
    | .pending => none

/-- What `deadline.remainingMs()` returns or throws. -/
def remaining (s : Bounded) (reading : Reading) : Except String ℚ :=
  match (s.task.read reading).2 with
  | none => .error "Execution clock or scheduler failed."
  | some now => .ok (max 0 (s.task.deadlineMs - now))

/-- The deadline task after one of its own events. -/
def taskStep (s : Bounded) (event : Deadline.Event BodyValue) : Option Bounded :=
  (Deadline.next s.task event).map fun task => { s with task }

/-- `if (deadline.signal.aborted) deadline.acknowledgeCancellation()`. -/
def acknowledge (s : Bounded) : Option Bounded :=
  if s.task.cancellation.isSome then s.taskStep .acknowledgeCancellation else some s

/-- The start of the task; its body is called with it. -/
def start (s : Bounded) (aborted : Bool) (reading : Reading) (scheduling : Scheduling) :
    Option Bounded :=
  (s.taskStep (.start aborted reading scheduling)).map fun s =>
    if s.task.started then { s with callback := .entered } else s

/-- The first line of the body. -/
def enter (s : Bounded) (reading : Reading) : Option Bounded :=
  (s.taskStep (.remainingMs reading)).map fun t =>
    match s.remaining reading with
    | .error message => { t with callback := .returned (.rejected (.reason (some message))) }
    | .ok timeoutMs => { t with callback := .measured timeoutMs }

/-- The inner wait starts at a reading that puts its deadline at the task's. -/
def begin (redact : String → String) (options : BoundedOptions) (s : Bounded) (timeoutMs : ℚ) :
    Bounded :=
  match options.observation with
  | .error cause => { s with callback := .returned (.rejected (.reason cause)) }
  | .ok observation =>
    match Assertion.start redact { observation with timeoutMs := some timeoutMs }
      (.number (some (s.task.deadlineMs - timeoutMs))) with
    | .error message => { s with callback := .returned (.rejected (.reason (some message))) }
    | .ok wait => { s with callback := .running wait }

/-- The inner wait after one of its own events. -/
def waitStep (redact : String → String) (s : Bounded) (wait : Wait) (event : Assertion.Event) :
    Option Bounded :=
  (Assertion.next redact wait event).map fun wait => { s with callback := .running wait }

/-- `deadline.throwIfCancelled()` up to its look at the signal. -/
def throwIfCancelled (s : Bounded) (wait : Wait) (startedAtMs : ℚ) (reading : Reading) :
    Option Bounded :=
  (s.taskStep (.remainingMs reading)).map fun t =>
    match s.remaining reading with
    | .error message => { t with callback := .refused wait message }
    | .ok _ => { t with callback := .checked wait startedAtMs }

/-- The caller's reader is called unless the second reading forbids it. -/
def call (s : Bounded) (wait : Wait) (startedAtMs remainingMs : ℚ) : Bounded :=
  if remainingMs ≤ 0 ∨ s.task.cancellation.isSome then
    { s with callback := .refused wait (s.reason.getD "Unknown failure.") }
  else { s with
    callback := .invoked wait
    invoked := s.invoked ++ [⟨wait.attempts, startedAtMs, s.task.deadlineMs, remainingMs⟩] }

/-- The rest of the reader's wrapper before the caller's reader. -/
def check (s : Bounded) (wait : Wait) (startedAtMs : ℚ) (reading : Reading) : Option Bounded :=
  match s.reason with
  | some message => some { s with callback := .refused wait message }
  | none => (s.taskStep (.remainingMs reading)).map fun t =>
    match s.remaining reading with
    | .error message => { t with callback := .refused wait message }
    | .ok remainingMs => t.call wait startedAtMs (min (wait.timer.deadlineMs - startedAtMs) remainingMs)

/-- A read that ended after the cancellation is not used. -/
def readOutcome (s : Bounded) (outcome : ReadOutcome) : ReadOutcome :=
  match outcome, s.reason with
  | .returned _, some message => .threw message
  | _, _ => outcome

/-- The end of the reader's wrapper. -/
def readSettled (redact : String → String) (s : Bounded) (wait : Wait) (outcome : ReadOutcome)
    (finishedAt : Sample) (matcher : Match) (after later : Sample) : Option Bounded := do
  let s ← s.acknowledge
  s.waitStep redact wait
    (.readSettled outcome (s.now finishedAt) matcher (s.now after) (s.now later))

end Bounded

inductive Event
  | start (aborted : Bool) (reading : Reading) (scheduling : Scheduling)
  | externalAbort (reading : Reading)
  | fire (k : Nat) (before : ℚ) (reading later : Reading) (scheduling : Scheduling)
  | listenersDone (reading : Reading) (scheduling : Scheduling)
  | enter (reading : Reading)
  | begin
  | poll (now later : Sample)
  | throwIfCancelled (reading : Reading)
  | check (reading : Reading)
  | refused (finishedAt : Sample) (matcher : Match) (after later : Sample)
  | readSettled (outcome : ReadOutcome) (finishedAt : Sample) (matcher : Match)
      (after later : Sample)
  | sleep (scheduled : Scheduled)
  | wake
  | interrupt
  | slept (now later : Sample)
  | bodyReturns
  | settle (reading : Reading)

/-- What the body does next; it does nothing while abort listeners run. -/
def bodyNext (redact : String → String) (options : BoundedOptions) (s : Bounded) (event : Event) :
    Option Bounded :=
  match s.callback, event with
  | .entered, .enter reading => s.enter reading
  | .measured timeoutMs, .begin => some (s.begin redact options timeoutMs)
  | .running wait, .poll now later => s.waitStep redact wait (.poll (s.now now) (s.now later))
  | .running wait, .throwIfCancelled reading =>
    match wait.stage with
    | .reading startedAtMs => s.throwIfCancelled wait startedAtMs reading
    | _ => none
  | .checked wait startedAtMs, .check reading => s.check wait startedAtMs reading
  | .refused wait message, .refused finishedAt matcher after later =>
    s.readSettled redact wait (.threw message) finishedAt matcher after later
  | .invoked wait, .readSettled outcome finishedAt matcher after later =>
    s.readSettled redact wait (s.readOutcome outcome) finishedAt matcher after later
  | .running wait, .sleep scheduled =>
    match wait.stage with
    | .sleeping _ => some { s with callback := .asleep wait (s.abortableSleep scheduled) }
    | _ => none
  | .asleep wait none, .wake =>
    if s.reason.isNone then some { s with callback := .asleep wait (some (.ok ())) } else none
  | .asleep wait (some outcome), .slept now later =>
    s.waitStep redact wait (.slept outcome (s.now now) (s.now later))
  | .running wait, .bodyReturns =>
    match wait.stage with
    | .finished result => s.acknowledge.map fun s =>
      { s with callback := .returned (.fulfilled (.assertion result)) }
    | _ => none
  | .returned completion, .settle reading => s.taskStep (.settle completion reading)
  | _, _ => none

/-- The abort listener of a sleep. -/
def interrupt (s : Bounded) : Option Bounded :=
  match s.callback, s.reason with
  | .asleep wait none, some message =>
    some { s with callback := .asleep wait (some (.error message)) }
  | _, _ => none

def next (redact : String → String) (options : BoundedOptions) (s : Bounded) :
    Event → Option Bounded
  | .start aborted reading scheduling => s.start aborted reading scheduling
  | .externalAbort reading => s.taskStep (.externalAbort reading)
  | .fire k before reading later scheduling => s.taskStep (.fire k before reading later scheduling)
  | .listenersDone reading scheduling => s.taskStep (.listenersDone reading scheduling)
  | .interrupt => interrupt s
  | event => if s.task.window.isNone then bodyNext redact options s event else none

/-! ## The start of a call -/

def deadlineDuration (value : Option ℚ) (name : String) : Except String ℚ :=
  Assertion.finiteNumber value (0 ≤ ·) s!"{name} must be finite and non-negative."

def firstReading : Sample → Except String ℚ
  | .threw message => .error message
  | .number none => .error "Execution clock must return finite milliseconds."
  | .number (some now) => .ok now

/-- `startDeadlineTask` up to the arming of its timer: invalid options reject. -/
def launch (options : BoundedOptions) (first : Sample) : Except String Bounded := do
  let graceMs ← deadlineDuration options.cancellationGraceMs "cancellationGraceMs"
  let timeoutMs ← deadlineDuration options.timeoutMs "timeoutMs"
  let startedAtMs ← firstReading first
  return ⟨create startedAtMs timeoutMs graceMs, startedAtMs, .waiting, []⟩

/-- The call with these options, if they are valid. -/
def bounded (redact : String → String) (options : BoundedOptions) (first : Sample) :
    System Bounded Event where
  init s := launch options first = .ok s
  step s event t := next redact options s event = some t

/-! ## The result -/

inductive BoundedStatus
  | passed
  | failed
  | timedOut
  | cancelled
  | clockFailed
  deriving DecidableEq

structure BoundedResult where
  status : BoundedStatus
  stopStatus : StopStatus
  started : Bool
  startedAtMs : ℚ
  deadlineMs : ℚ
  assertion : Option Result
  failure : Option AssertionFailure
  cancellation : Option DeadlineCancellation
  cancellationAcknowledged : Bool
  clockFailure : Bool

/-- The assertion of a fulfilled settlement. -/
def assertion (settlement : Option (TaskSettleReceipt BodyValue)) : Option Result :=
  match settlement.bind TaskSettleReceipt.completion with
  | some (.fulfilled (.assertion result)) => some result
  | _ => none

/-- The reason of a rejected settlement: without one, and for a `null`, none. -/
def cause (settlement : Option (TaskSettleReceipt BodyValue)) : Option String :=
  match settlement.bind TaskSettleReceipt.completion with
  | some (.rejected (.reason cause)) => cause
  | _ => none

def assertionStatus (result : Result) : BoundedStatus :=
  match result.status with
  | .passed => .passed
  | .failed => .failed
  | .timedOut => .timedOut

def boundedStatus (outcome : TaskOutcome BodyValue) : BoundedStatus :=
  match outcome.status with
  | .settled => ((assertion outcome.settlement).map assertionStatus).getD .failed
  | .timedOut => .timedOut
  | .cancelled => .cancelled
  | .clockFailed => .clockFailed

def kindCode : CancellationKind → String
  | .deadline => "deadline"
  | .external => "external"
  | .requested => "requested"
  | .clockFailed => "clockFailed"

def cancellationFailure (outcome : TaskOutcome BodyValue) : Option AssertionFailure :=
  if outcome.clockFailure then some ⟨"clockFailed", "Execution clock or scheduler failed."⟩
  else outcome.cancellation.map fun c => ⟨kindCode c.kind, c.message⟩

/-- What a settled task failed with. -/
def settledFailure (settlement : Option (TaskSettleReceipt BodyValue)) : Option AssertionFailure :=
  match (assertion settlement).bind Result.failure with
  | some failure => some failure
  | none => (cause settlement).map fun message => ⟨"boundedObservationFailed", message⟩

def observationResult (outcome : TaskOutcome BodyValue) (startedAtMs deadlineMs : ℚ) :
    BoundedResult where
  status := boundedStatus outcome
  stopStatus := outcome.stopStatus
  started := outcome.started
  startedAtMs := startedAtMs
  deadlineMs := deadlineMs
  assertion := assertion outcome.settlement
  failure :=
    if outcome.status = .settled then settledFailure outcome.settlement
    else cancellationFailure outcome
  cancellation := outcome.cancellation
  cancellationAcknowledged := outcome.cancellationAcknowledged
  clockFailure := outcome.clockFailure

namespace Bounded

/-- What the promise of the call resolves with, once it does. -/
def result (s : Bounded) : Option BoundedResult :=
  s.task.outcome.map fun outcome => observationResult outcome s.startedAtMs s.task.deadlineMs

end Bounded

end SurfaceLoom.Test.BoundedObservation
