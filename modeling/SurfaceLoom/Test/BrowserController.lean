import SurfaceLoom.Lib.Transition

/-! # Cleaning up a browser acquisition

`BrowserAcquisitionController` watches a launch, closes the session it delivers
and says what became of it; a lease is released behind it. Each event is a stretch
of synchronous code: a call, a callback, or a continuation after an `await`. What
the numbers of the clock are is a parameter, and so are their comparison with the
deadline and the deadline computed from them. -/
namespace SurfaceLoom.Test.BrowserController
open SurfaceLoom.Lib.Transition

structure BrowserCloseProof where
  kind : String
  hostId : String
  sessionId : String
  deriving DecidableEq

/-- A session, by its identity. -/
structure BrowserSession where
  hostId : String
  sessionId : String
  deriving DecidableEq

inductive Settlement
  | notStarted
  | acquired (session : BrowserSession)
  | failed (submitted : Bool) (reason : String)
  deriving DecidableEq

/-- What the callbacks of `watch` make of the launch. -/
def Settlement.ofOutcome (submitted : Bool) : Except String BrowserSession → Settlement
  | .ok session => acquired session
  | .error reason => failed submitted reason

inductive Receipt
  | released
  | unconfirmed (reason : String)
  deriving DecidableEq

/-- The promise of `session.close()`; it may be fulfilled with what has no fields. -/
inductive Close
  | pending
  | fulfilled (proof : Option BrowserCloseProof)
  | rejected (message : String)
  deriving DecidableEq

/-- A look at the clock and at the stop signal. -/
structure Check (τ : Type) where
  now : τ
  aborted : Bool
  deriving DecidableEq

/-- Where `cleanupOnce` is. `resumed`, `closed` and `closeFailed` are between the end of
`untilStop` and what follows it, `interrupted` is that of its first call. -/
inductive Stage
  | notCalled
  | awaitingSettled
  | resumed (settled : Settlement)
  | interrupted (message : String)
  | awaitingClose (session : BrowserSession)
  | closed (session : BrowserSession) (proof : Option BrowserCloseProof)
  | closeFailed (message : String)
  | returned (receipt : Receipt)
  | done (receipt : Receipt)
  deriving DecidableEq

/-- How a lease was released. -/
structure LeaseRelease (τ : Type) where
  receipt : Option Receipt
  check : Check τ
  deriving DecidableEq

/-- `outcome` is what the launch's promise settled with, `observed` what the controller has
seen of it; `noticing` is before the second callback of `watch` runs. -/
structure Controller (τ : Type) where
  watched : Bool
  submitted : Bool
  outcome : Option (Except String BrowserSession)
  observed : Settlement
  noticing : Bool
  aborted : Bool
  deadlineAt : Option τ
  stage : Stage
  close : Option Close
  /-- The sessions whose `close` was called. -/
  closes : List BrowserSession
  terminal : Option Receipt
  /-- The look at the boundary that the receipt was given after. -/
  check : Option (Check τ)
  /-- The lease's cleanups that wait for the controller's. -/
  leaseCalls : Nat
  leaseReleases : List (LeaseRelease τ)

/-- `reached now deadlineAt` is `now >= deadlineAt`, and `deadlineAt now` the deadline of a
cleanup that begins now. -/
structure Settings (τ : Type) where
  reached : τ → τ → Bool
  deadlineAt : τ → τ
  hasStop : Bool

inductive Event (τ : Type)
  | watch
  /-- The backend calls `beforeSubmit`; no budget may be left, or the call aborted. -/
  | beforeSubmit (allowed : Bool)
  | launch (outcome : Except String BrowserSession)
  /-- The first callback of `watch`. -/
  | observe
  /-- The second one. A call of `close` may throw. -/
  | notice (throws : Option String)
  | abort
  | cleanup (start now : τ)
  /-- A timer or the stop signal ends the wait of `untilStop`. -/
  | interrupt (message : String)
  /-- The next stretch of `cleanupOnce`, with its looks at the clock, what a call of `close`
  and the evidence sink throw, and the message of another error. -/
  | resume (now later : τ) (throws evidence : Option String) (error : String)
  | closeSettled (result : Except String (Option BrowserCloseProof))
  | leaseCleanup (start now : τ)
  | leaseResume (now : τ)

/-- `matches`; it throws for what has no fields. -/
def BrowserCloseProof.isOf (proof : BrowserCloseProof) (session : BrowserSession) : Bool :=
  proof.kind = "browserSessionClosed" && proof.hostId = session.hostId &&
    proof.sessionId = session.sessionId

def expired : String := "Browser cleanup deadline expired."

namespace Controller

variable {τ : Type}

def opened : Controller τ where
  watched := false
  submitted := false
  outcome := none
  observed := .notStarted
  noticing := false
  aborted := false
  deadlineAt := none
  stage := .notCalled
  close := none
  closes := []
  terminal := none
  check := none
  leaseCalls := 0
  leaseReleases := []

variable (settings : Settings τ)

/-- The value of `#settled`, once it has one. -/
def settled (c : Controller τ) : Option Settlement :=
  if ¬ c.watched then some .notStarted
  else if c.observed = .notStarted then none
  else some c.observed

/-- `stopped`. -/
def stopped (c : Controller τ) (now : τ) : Bool :=
  c.deadlineAt.any (settings.reached now) || c.aborted

/-- `startClose`. -/
def startClose (c : Controller τ) (session : BrowserSession) (throws : Option String) :
    Controller τ :=
  match c.close with
  | some _ => c
  | none =>
    { c with
      closes := c.closes ++ [session]
      close := some (match throws with
        | some message => .rejected message
        | none => .pending) }

/-- Closing what the settlement says was acquired. -/
def startCloseOf (c : Controller τ) (settled : Settlement) (throws : Option String) :
    Controller τ :=
  match settled with
  | .acquired session => c.startClose session throws
  | _ => c

@[simp] theorem startCloseOf_observed (c : Controller τ) (settled : Settlement)
    (throws : Option String) : (c.startCloseOf settled throws).observed = c.observed := by
  unfold startCloseOf startClose
  split
  · split <;> rfl
  · rfl

@[simp] theorem startCloseOf_deadlineAt (c : Controller τ) (settled : Settlement)
    (throws : Option String) : (c.startCloseOf settled throws).deadlineAt = c.deadlineAt := by
  unfold startCloseOf startClose
  split
  · split <;> rfl
  · rfl

@[simp] theorem startCloseOf_stage (c : Controller τ) (settled : Settlement)
    (throws : Option String) : (c.startCloseOf settled throws).stage = c.stage := by
  unfold startCloseOf startClose
  split
  · split <;> rfl
  · rfl

@[simp] theorem startCloseOf_terminal (c : Controller τ) (settled : Settlement)
    (throws : Option String) : (c.startCloseOf settled throws).terminal = c.terminal := by
  unfold startCloseOf startClose
  split
  · split <;> rfl
  · rfl

def finish (c : Controller τ) (receipt : Receipt) : Controller τ :=
  { c with stage := .returned receipt }

/-- `cleanup`, whose later calls return the first one's promise. -/
def cleanup (c : Controller τ) (start now : τ) : Controller τ :=
  match c.stage with
  | .notCalled =>
    let c := { c with deadlineAt := some (settings.deadlineAt start) }
    if c.stopped settings now then { c with stage := .interrupted "cleanup deadline expired" }
    else { c with stage := .awaitingSettled }
  | _ => c

/-- What follows the first wait of `cleanupOnce`. -/
def afterSettled (c : Controller τ) (settled : Settlement) (now later : τ)
    (throws : Option String) : Controller τ :=
  if c.stopped settings now then (c.startCloseOf settled throws).finish (.unconfirmed expired)
  else
    match settled with
    | .notStarted | .failed false _ =>
      { c with check := some ⟨now, c.aborted⟩ }.finish .released
    | .failed true reason => c.finish (.unconfirmed ("Browser acquisition is unknown: " ++ reason))
    | .acquired session =>
      let c := c.startClose session throws
      if c.stopped settings later then { c with stage := .closeFailed "cleanup deadline expired" }
      else { c with stage := .awaitingClose session }

/-- What follows the second one, if it gave a proof. -/
def afterClose (c : Controller τ) (session : BrowserSession) (proof : Option BrowserCloseProof)
    (now later : τ) (evidence : Option String) (error : String) : Controller τ :=
  if c.stopped settings now then c.finish (.unconfirmed expired)
  else
    match proof with
    | none => c.finish (.unconfirmed ("Browser close failed: " ++ error))
    | some proof =>
      if proof.isOf session = false then
        c.finish (.unconfirmed "Browser close proof did not match the session.")
      else
        match evidence with
        | some message => c.finish (.unconfirmed ("Browser cleanup evidence failed: " ++ message))
        | none =>
          if c.stopped settings later then c.finish (.unconfirmed expired)
          else { c with check := some ⟨later, c.aborted⟩ }.finish .released

/-- The continuation that is due. -/
def resume (c : Controller τ) (now later : τ) (throws evidence : Option String) (error : String) :
    Option (Controller τ) :=
  match c.stage with
  | .notCalled => none
  | .awaitingSettled =>
    c.settled.map fun settled =>
      if c.stopped settings now then { c with stage := .interrupted "cleanup deadline expired" }
      else { c with stage := .resumed settled }
  | .interrupted message =>
    some ((c.startCloseOf c.observed throws).finish
      (.unconfirmed ("Browser cleanup stopped: " ++ message)))
  | .resumed settled => some (c.afterSettled settings settled now later throws)
  | .awaitingClose session =>
    match c.close with
    | some (.fulfilled proof) =>
      some { c with
        stage := if c.stopped settings now then .closeFailed "cleanup deadline expired"
          else .closed session proof }
    | some (.rejected message) => some { c with stage := .closeFailed message }
    | _ => none
  | .closed session proof => some (c.afterClose settings session proof now later evidence error)
  | .closeFailed message => some (c.finish (.unconfirmed ("Browser close failed: " ++ message)))
  | .returned receipt => some { c with stage := .done receipt, terminal := some receipt }
  | .done _ => none

/-- The rest of the lease's cleanup, once the controller's is over. -/
def leaseResume (c : Controller τ) (now : τ) : Option (Controller τ) :=
  match c.stage, c.leaseCalls with
  | .done receipt, n + 1 =>
    let c := { c with leaseCalls := n }
    if receipt = .released ∧ c.terminal = some .released ∧ c.deadlineAt.isSome ∧
        c.stopped settings now = false then
      some { c with leaseReleases := c.leaseReleases ++ [⟨c.terminal, now, c.aborted⟩] }
    else some c
  | _, _ => none

def next (c : Controller τ) : Event τ → Option (Controller τ)
  | .watch =>
    if c.watched = false ∧ c.stage = .notCalled then some { c with watched := true } else none
  | .beforeSubmit allowed => some { c with submitted := c.submitted || allowed }
  | .launch outcome =>
    if c.watched ∧ c.outcome.isNone then some { c with outcome := some outcome } else none
  | .observe =>
    match c.outcome with
    | some outcome =>
      if c.observed = .notStarted then
        some { c with
          observed := .ofOutcome c.submitted outcome
          noticing := true }
      else none
    | none => none
  | .notice throws =>
    if c.noticing then
      let c := { c with noticing := false }
      some (if c.stage = .notCalled then c else c.startCloseOf c.observed throws)
    else none
  | .abort => if settings.hasStop then some { c with aborted := true } else none
  | .cleanup start now => some (c.cleanup settings start now)
  | .interrupt message =>
    match c.stage with
    | .awaitingSettled => some { c with stage := .interrupted message }
    | .awaitingClose _ => some { c with stage := .closeFailed message }
    | _ => none
  | .resume now later throws evidence error => c.resume settings now later throws evidence error
  | .closeSettled result =>
    match c.close with
    | some .pending =>
      some { c with
        close := some (match result with
          | .ok proof => .fulfilled proof
          | .error message => .rejected message) }
    | _ => none
  | .leaseCleanup start now =>
    some { c.cleanup settings start now with leaseCalls := c.leaseCalls + 1 }
  | .leaseResume now => c.leaseResume settings now

end Controller

def controller {τ : Type} (settings : Settings τ) : System (Controller τ) (Event τ) :=
  .ofMachine .opened (Controller.next settings)

end SurfaceLoom.Test.BrowserController
