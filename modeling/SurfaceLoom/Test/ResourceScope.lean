import Mathlib.Algebra.Order.Ring.Rat
import SurfaceLoom.Lib.Transition

/-! # Resource scopes

`ResourceScope` owns the cleanup callbacks of a run. A call of it may run user
code in the middle: the traps of a proxy while an argument is read, the abort
listeners of the cleanup signal, a cleanup callback. Such a call leaves a frame
behind, and the calls the user code makes come before the frame goes on. -/
namespace SurfaceLoom.Test.ResourceScope
open SurfaceLoom.Lib.Transition

inductive Ownership
  | owned
  | borrowed
  deriving DecidableEq

structure Resource where
  id : String
  ownership : Ownership
  deriving DecidableEq

inductive FailureCode
  | executionFailed
  | invalidRegistration
  | duplicateResource
  | scopeClosed
  | cleanupFailed
  | cleanupUnconfirmed
  | cleanupTimedOut
  | invalidCleanupReceipt
  deriving DecidableEq

structure Failure where
  phase : String
  code : FailureCode
  message : String
  resourceId : Option String
  deriving DecidableEq

inductive Outcome
  | borrowed (id : String)
  | released (id : String)
  | failed (id : String) (failure : Failure)
  | unconfirmed (id : String) (failure : Failure)
  deriving DecidableEq

namespace Outcome

def id : Outcome → String
  | .borrowed id | .released id | .failed id _ | .unconfirmed id _ => id

def failure : Outcome → Option Failure
  | .borrowed _ | .released _ => none
  | .failed _ failure | .unconfirmed _ failure => some failure

end Outcome

inductive ScopeState
  | open_
  | closing
  | closed
  deriving DecidableEq

/-- What a snapshot shows. -/
inductive Status
  | pending
  | passed
  | failed
  deriving DecidableEq

structure CleanupResult where
  state : ScopeState
  status : Status
  tainted : Bool
  outcomes : List Outcome
  remaining : List Resource
  failures : List Failure
  primaryFailure : Option Failure
  deriving DecidableEq

/-! ## Reading what user code passes -/

/-- A `cleanup` property: missing, a function, or anything else. -/
inductive CleanupField
  | absent
  | callable
  | other
  deriving DecidableEq

/-- The data properties of a registration; a property that is no string is none. -/
structure RegistrationFields where
  id : Option String
  ownership : Option String
  cleanup : CleanupField

def idStart (c : Char) : Bool := c.isAlphanum

def idChar (c : Char) : Bool :=
  c.isAlphanum || c = '.' || c = '_' || c = ':' || c = '@' || c = '-'

def isResourceId (s : String) : Bool :=
  s.length ≤ 200 && match s.toList with
    | [] => false
    | c :: cs => idStart c && cs.all idChar

/-- `snapshotResource`, after `fields` read the properties or refused to. -/
def snapshotResource (fields : Except String RegistrationFields) : Except String Resource :=
  match fields with
  | .error message => .error message
  | .ok record =>
    match record.id with
    | none => .error "A resource requires a stable nonempty machine id."
    | some id =>
      if !isResourceId id then .error "A resource requires a stable nonempty machine id."
      else if record.ownership = some "borrowed" ∧ record.cleanup = .absent then
        .ok ⟨id, .borrowed⟩
      else if record.ownership ≠ some "owned" ∨ record.cleanup ≠ .callable then
        .error "Owned resources need cleanup; borrowed resources cannot supply cleanup."
      else .ok ⟨id, .owned⟩

/-- A receipt as `snapshotReceipt` reads it. -/
inductive Receipt
  | released
  | unconfirmed (reason : String)

/-- How a cleanup callback answers. -/
inductive Answer
  | fulfilled (receipt : Except String Receipt)
  | rejected (message : String)

/-! ## Waiting for one cleanup -/

/-- `cleanupResource` after it called the callback. -/
structure Wait where
  started : ℚ
  finished : Option Outcome

/-- `finish`: the first outcome stays. -/
def Wait.finish (w : Wait) (outcome : Outcome) : Wait :=
  { w with finished := some (w.finished.getD outcome) }

def cleanupFailure (id : String) (code : FailureCode) (message : String) : Failure :=
  ⟨"cleanup", code, message, some id⟩

def timedOut (id : String) : Outcome :=
  .unconfirmed id (cleanupFailure id .cleanupTimedOut
    "Cleanup receipt wait expired; release and callback termination are unconfirmed.")

/-- The outcome of a callback that answered; the clock is read before and after
the receipt is. -/
def answered (timeoutMs : ℚ) (id : String) (started : ℚ) (answer : Answer) (now later : ℚ) :
    Outcome :=
  match answer with
  | .rejected message => .failed id (cleanupFailure id .cleanupFailed message)
  | .fulfilled receipt =>
    if now - started ≥ timeoutMs then timedOut id
    else
      match receipt with
      | .error message =>
        .unconfirmed id (cleanupFailure id .invalidCleanupReceipt message)
      | .ok receipt =>
        if later - started ≥ timeoutMs then timedOut id
        else
          match receipt with
          | .released => .released id
          | .unconfirmed reason =>
            .unconfirmed id (cleanupFailure id .cleanupUnconfirmed reason)

/-! ## The scope -/

/-- How far a `drain` is. -/
inductive DrainStage
  | scheduled
  | looping (todo : List Resource)
  | waiting (resource : Resource) (todo : List Resource) (wait : Wait)
  | resolved (result : CleanupResult)

/-- A call in whose middle user code runs. -/
inductive Frame
  | registering
  | recording (phase : String)
  | closing
  deriving DecidableEq

/-- `cleaned` notes every cleanup callback called, with the ids whose outcome
was recorded at that time, and `returned` the promise of every `close` call. A
promise is numbered by its `drain`. -/
structure Scope where
  timeoutMs : ℚ
  cleanupDeadlineAt : ℚ
  resources : List Resource
  ids : List String
  outcomes : List Outcome
  failures : List Failure
  state : ScopeState
  tainted : Bool
  stopped : Bool
  closing : Option Nat
  drains : List DrainStage
  frames : List Frame
  cleaned : List (String × List String)
  returned : List Nat

def create (timeoutMs cleanupDeadlineAt : ℚ) : Scope :=
  ⟨timeoutMs, cleanupDeadlineAt, [], [], [], [], .open_, false, false, none, [], [], [], []⟩

def maxSafeInteger : ℚ := 9007199254740991

/-- `snapshot`. -/
def snapshot (s : Scope) : CleanupResult where
  state := s.state
  status :=
    if s.failures.head?.isSome ∨ s.tainted then .failed
    else if s.state = .closed then .passed
    else .pending
  tainted := s.tainted
  outcomes := s.outcomes
  remaining := s.resources.reverse.drop s.outcomes.length
  failures := s.failures
  primaryFailure := s.failures.head?

/-- `rejectMutation`, which then throws. -/
def rejectMutation (s : Scope) (phase : String) (code : FailureCode) (message : String)
    (resourceId : Option String) : Scope :=
  { s with tainted := true, failures := s.failures ++ [⟨phase, code, message, resourceId⟩] }

def rejectClosed (s : Scope) (phase operation : String) : Scope :=
  rejectMutation s phase .scopeClosed ("Resource scope no longer accepts " ++ operation ++ ".") none

/-- `register` up to the reading of its argument. -/
def register (s : Scope) : Scope :=
  if s.state ≠ .open_ then rejectClosed s "registration" "registrations"
  else { s with frames := .registering :: s.frames }

def registerRead (s : Scope) (fields : Except String RegistrationFields) : Scope :=
  match snapshotResource fields with
  | .error message => rejectMutation s "registration" .invalidRegistration message none
  | .ok resource =>
    if s.state ≠ .open_ then rejectClosed s "registration" "registrations"
    else if resource.id ∈ s.ids then
      rejectMutation s "registration" .duplicateResource "Resource id is already registered."
        (some resource.id)
    else { s with ids := s.ids ++ [resource.id], resources := s.resources ++ [resource] }

def recordFailure (s : Scope) (phase : String) : Scope :=
  if s.state ≠ .open_ then rejectClosed s "failureRecording" "failure records"
  else { s with frames := .recording phase :: s.frames }

/-- What `trim` strips. -/
def isBlank (c : Char) : Bool :=
  (9 ≤ c.toNat && c.toNat ≤ 13) || c = ' ' || c.toNat = 0xA0 || c.toNat = 0x1680 ||
    (0x2000 ≤ c.toNat && c.toNat ≤ 0x200A) || c.toNat = 0x2028 || c.toNat = 0x2029 ||
    c.toNat = 0x202F || c.toNat = 0x205F || c.toNat = 0x3000 || c.toNat = 0xFEFF

def recordRead (s : Scope) (phase message : String) : Scope :=
  if s.state ≠ .open_ then rejectClosed s "failureRecording" "failure records"
  else
    let phase := if phase.toList.all isBlank then "execution"
      else String.ofList (phase.toList.take 128)
    { s with failures := s.failures ++ [⟨phase, .executionFailed, message, none⟩] }

/-- The end of `close`: the shared promise is stored and returned. -/
def storePromise (s : Scope) : Scope :=
  { s with
    closing := some s.drains.length
    drains := s.drains ++ [.scheduled]
    returned := s.returned ++ [s.drains.length] }

/-- `close`: `now` is read first and `next` when the deadline timer is armed. An
expired deadline aborts the cleanup signal, whose listeners run before the
promise is stored. -/
def close (s : Scope) (now next : ℚ) : Scope :=
  match s.closing with
  | some promise => { s with returned := s.returned ++ [promise] }
  | none =>
    let s := { s with state := .closing }
    let expired := s.cleanupDeadlineAt - now ≤ 0 ∨
      s.cleanupDeadlineAt ≠ maxSafeInteger ∧ s.cleanupDeadlineAt - next ≤ 0
    if expired ∧ s.stopped = false then
      { s with stopped := true, frames := .closing :: s.frames }
    else storePromise s

/-- `drain` after an outcome is known: a bad one taints the scope and stops the
cleanup, and so does the deadline. -/
def record (s : Scope) (outcome : Outcome) (now : ℚ) : Scope :=
  { s with
    outcomes := s.outcomes ++ [outcome]
    tainted := s.tainted || outcome.failure.isSome
    failures := s.failures ++ outcome.failure.toList
    stopped := s.stopped || outcome.failure.isSome || now ≥ s.cleanupDeadlineAt }

/-- One step of a `drain`: a copy of the resources in reverse order is taken
first, an owned resource is cleaned, a borrowed one is only recorded. -/
def drainStep (s : Scope) (k : Nat) (now : ℚ) : Option Scope :=
  match s.drains[k]? with
  | some .scheduled => some { s with drains := s.drains.set k (.looping s.resources.reverse) }
  | some (.looping []) =>
    let s := { s with state := .closed }
    some { s with drains := s.drains.set k (.resolved (snapshot s)) }
  | some (.looping (resource :: todo)) =>
    match resource.ownership with
    | .borrowed =>
      let s := record s (.borrowed resource.id) now
      some { s with drains := s.drains.set k (.looping todo) }
    | .owned =>
      some { s with
        drains := s.drains.set k (.waiting resource todo ⟨now, none⟩)
        cleaned := s.cleaned ++ [(resource.id, s.outcomes.map Outcome.id)] }
  | some (.waiting _ todo ⟨_, some outcome⟩) =>
    let s := record s outcome now
    some { s with drains := s.drains.set k (.looping todo) }
  | some (.waiting _ _ ⟨_, none⟩) | some (.resolved _) | none => none

/-- A cleanup callback answers, or its timer fires. -/
def finishWait (s : Scope) (k : Nat) (outcome : Resource → Wait → Outcome) : Option Scope :=
  match s.drains[k]? with
  | some (.waiting resource todo wait) =>
    some { s with
      drains := s.drains.set k (.waiting resource todo (wait.finish (outcome resource wait))) }
  | _ => none

inductive Event
  | register
  | registerRead (fields : Except String RegistrationFields)
  | recordFailure (phase : String)
  | recordRead (message : String)
  | close (now next : ℚ)
  | listenersDone
  | deadlineTimer (now : ℚ)
  | drain (k : Nat) (now : ℚ)
  | answer (k : Nat) (answer : Answer) (now later : ℚ)
  | timeout (k : Nat)

/-- Calls may come at any time. A frame goes on once the calls made on top of it
have; timers and jobs wait until no frame is left. -/
def next (s : Scope) : Event → Option Scope
  | .register => some (register s)
  | .registerRead fields =>
    match s.frames with
    | .registering :: frames => some (registerRead { s with frames } fields)
    | _ => none
  | .recordFailure phase => some (recordFailure s phase)
  | .recordRead message =>
    match s.frames with
    | .recording phase :: frames => some (recordRead { s with frames } phase message)
    | _ => none
  | .close now next => some (close s now next)
  | .listenersDone =>
    match s.frames with
    | .closing :: frames => some (storePromise { s with frames })
    | _ => none
  | .deadlineTimer now =>
    if s.frames = [] ∧ s.cleanupDeadlineAt - now ≤ 0 then some { s with stopped := true }
    else none
  | .drain k now => if s.frames = [] then drainStep s k now else none
  | .answer k answer now later =>
    if s.frames = [] then
      finishWait s k fun resource wait =>
        answered s.timeoutMs resource.id wait.started answer now later
    else none
  | .timeout k =>
    if s.frames = [] then finishWait s k fun resource _ => timedOut resource.id else none

def scope (timeoutMs cleanupDeadlineAt : ℚ) : System Scope Event :=
  .ofMachine (create timeoutMs cleanupDeadlineAt) next

end SurfaceLoom.Test.ResourceScope
