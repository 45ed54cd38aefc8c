import SurfaceLoom.Lib.Transition
import SurfaceLoom.Native.Client

/-! # Acquisitions of the Windows controller

`launch` and `attach` send one request and observe the root of the session it
returns. What comes too late is kept in a mailbox, what could not be observed in
a slot, and `reconcileLate` hands out the one or the other. What the client makes
of a request, and whether it tracks a late session, comes with the events. -/
namespace SurfaceLoom.Native.WindowsController
open SurfaceLoom.Lib SurfaceLoom.Lib.Transition SurfaceLoom.Native.Wire
open SurfaceLoom.Native.Client SurfaceLoom.Native.Client.NativeClient

inductive SessionOwnership
  | owned
  | borrowed
  deriving DecidableEq, Repr

inductive SessionSurface
  | application
  | system
  deriving DecidableEq, Repr

/-- What the schema accepts as a session. -/
structure SessionDescriptor extends NativeSessionDescriptor where
  ownership : SessionOwnership
  surface : SessionSurface
  deriving DecidableEq

inductive AcquisitionKind
  | launch
  | attach
  deriving DecidableEq, Repr

namespace AcquisitionKind

def method : AcquisitionKind → String
  | launch => "session.launch"
  | attach => "session.attach"

/-- `expectedOwnership`. -/
def ownership : AcquisitionKind → SessionOwnership
  | launch => .owned
  | attach => .borrowed

/-- The kind of a late response, by the name of its request. -/
def ofName (name : String) : Option AcquisitionKind :=
  if name = "session.launch" then some launch
  else if name = "session.attach" then some attach
  else none

@[simp] theorem ofName_method (kind : AcquisitionKind) : ofName kind.method = some kind := by
  cases kind <;> rfl

end AcquisitionKind

/-! ## Acquisitions -/

/-- What the client makes of a request. It awaits a late response to one it gave up, by a
deadline, an abort, a failed write or a lost connection. -/
inductive Reply (ρ : Type)
  | gaveUp (phase : NativeWritePhase)
  | protocolFailure (phase : NativeWritePhase)
  /-- Thrown before the request was handed out. -/
  | unsent (outcomeKnown : Bool)
  | refused (error : NativeWireError) (operation : Option NativeOperationReceipt)
  /-- The codec threw. -/
  | undecoded (response : WireResponse ρ)
  | resolved (response : WireResponse ρ)

inductive Stage
  | invoking
  | observing
  | accepted
  | rejected (operationOutcome : Option NativeOperationOutcome)
  deriving DecidableEq

def Stage.isRejected : Stage → Bool
  | rejected _ => true
  | _ => false

structure Acquisition (ρ : Type) where
  kind : AcquisitionKind
  request : NativeRequest Unit
  stage : Stage
  awaitingLate : Bool
  /-- The response, in time or late. -/
  response : Option (WireResponse ρ)

/-- `session.launch` and `session.attach` are sent with this intent. -/
def acquisitionRequest (kind : AcquisitionKind) (id operationId : String) : NativeRequest Unit where
  id := id
  timeoutMilliseconds := maxDeadlineMs.toNat
  call :=
    { name := kind.method
      intent := .lifecycle
      scope := .bootstrap
      payload := ()
      operationID := some operationId
      sideEffecting := by simp }

/-- The `operationOutcome` of `normalizeWindowsError`. -/
def Reply.operationOutcome {ρ : Type} (request : NativeRequest Unit) :
    Reply ρ → Option NativeOperationOutcome
  | gaveUp phase | protocolFailure phase => disconnectedOperationOutcome request phase
  | unsent outcomeKnown => if outcomeKnown then some .notExecuted else none
  | refused _ operation => operation.map (·.outcome)
  | undecoded response | resolved response => response.operation.map (·.outcome)

/-- The controller's part of a `WindowsDesktopSessionState`. The source is the acquisition
whose response the descriptor is from. -/
structure SessionState where
  descriptor : SessionDescriptor
  acquisitionReceipt : NativeOperationReceipt
  source : Nat
  deriving DecidableEq

/-! ## The controller -/

inductive CallStage
  | waiting
  | woken (value : Option SessionState)
  | returned
  deriving DecidableEq

/-- A call of `reconcileLate` that waits. -/
structure Reconciliation where
  kind : AcquisitionKind
  stage : CallStage

/-- A session that `reconcileLate` returned, and the acquisition that was the latest of its
kind to be rejected with an unknown outcome. -/
structure Answer where
  kind : AcquisitionKind
  session : SessionState
  latest : Option Nat

structure Controller (ρ : Type) where
  acquisitions : List (Acquisition ρ)
  /-- The mailbox, which remembers one late session for each kind. -/
  late : OrderedMap AcquisitionKind SessionState
  recoverable : Option SessionState
  calls : List Reconciliation
  answers : List Answer

inductive Event (ρ : Type)
  | acquire (kind : AcquisitionKind) (id operationId : String)
  | replied (i : Nat) (reply : Reply ρ)
  /-- `observeRoot` settles. -/
  | observed (i : Nat) (ok : Bool)
  | late (i : Nat) (response : WireResponse ρ)
  | reconcileLate (kind : AcquisitionKind)
  | elapsed (j : Nat)
  /-- A call goes on after its wait; the client tracks the session or not. -/
  | resumed (j : Nat) (tracked : Bool)

section
variable {ρ : Type}

def Acquisition.RejectedUnknown (kind : AcquisitionKind) (a : Acquisition ρ) : Prop :=
  a.kind = kind ∧ a.stage = .rejected (some .unknown)

instance (kind : AcquisitionKind) (a : Acquisition ρ) : Decidable (a.RejectedUnknown kind) :=
  inferInstanceAs (Decidable (_ ∧ _))

/-- The place of the last element with a property. -/
def lastIndex {α : Type} (p : α → Bool) (l : List α) : Option Nat :=
  (List.range l.length).reverse.find? fun i => l[i]?.any p

namespace Controller

def opened : Controller ρ := ⟨[], .empty, none, [], []⟩

def latest (c : Controller ρ) (kind : AcquisitionKind) : Option Nat :=
  lastIndex (fun a => a.RejectedUnknown kind) c.acquisitions

/-- The `catch` of `acquire`. -/
def reject (c : Controller ρ) (i : Nat) (a : Acquisition ρ) (executed : Bool)
    (operationOutcome : Option NativeOperationOutcome) : Controller ρ :=
  { c with
    acquisitions := c.acquisitions.set i
      { a with
        stage := .rejected
          (if c.recoverable.isSome ∨ executed then some .unknown else operationOutcome) } }

variable (validate : ρ → Option SessionDescriptor)

/-- `acquire` after the `await` of the invocation. -/
def reply (c : Controller ρ) (i : Nat) (a : Acquisition ρ) : Reply ρ → Option (Controller ρ)
  | .gaveUp phase =>
    some (c.reject i { a with awaitingLate := phase ≠ .beforeWrite } false
      (disconnectedOperationOutcome a.request phase))
  | .resolved response =>
    match response.body.toOption.bind validate with
    | none => none
    | some descriptor =>
      match response.operation with
      | none => some (c.reject i a false none)
      | some receipt =>
        if receipt.outcome ≠ .executed then some (c.reject i a false (some receipt.outcome))
        else if descriptor.ownership ≠ a.kind.ownership ∨ descriptor.surface ≠ .application then
          some (c.reject i a true (some receipt.outcome))
        else
          some { c with
            acquisitions := c.acquisitions.set i
              { a with stage := .observing, response := some response }
            recoverable := some ⟨descriptor, receipt, i⟩ }
  | reply => some (c.reject i a false (reply.operationOutcome a.request))

def observed (c : Controller ρ) (i : Nat) (a : Acquisition ρ) (ok : Bool) : Controller ρ :=
  if ok then
    { c with
      acquisitions := c.acquisitions.set i { a with stage := .accepted }
      recoverable := none }
  else c.reject i a true (some .executed)

/-- `accept` of the mailbox. -/
def accept (c : Controller ρ) (name : String) (response : WireResponse ρ) (source : Nat) :
    Controller ρ :=
  match AcquisitionKind.ofName name, response.body.toOption.bind validate, response.operation with
  | some kind, some descriptor, some receipt =>
    if receipt.outcome ≠ .executed then c
    else
      { c with
        late := c.late.set kind ⟨descriptor, receipt, source⟩
        calls := c.calls.map fun call =>
          if call.kind = kind ∧ call.stage = .waiting then
            { call with stage := .woken (some ⟨descriptor, receipt, source⟩) }
          else call }
  | _, _, _ => c

def answer (c : Controller ρ) (kind : AcquisitionKind) (session : SessionState) : Controller ρ :=
  { c with answers := c.answers ++ [⟨kind, session, c.latest kind⟩] }

/-- `reconcileLate` up to its `await`. -/
def reconcileLate (c : Controller ρ) (kind : AcquisitionKind) : Controller ρ :=
  match c.recoverable with
  | some session => c.answer kind session
  | none =>
    { c with
      calls := c.calls ++ [⟨kind,
        match c.late.get? kind with
        | some session => .woken (some session)
        | none => .waiting⟩] }

def next (c : Controller ρ) : Event ρ → Option (Controller ρ)
  | .acquire kind id operationId =>
    some { c with
      acquisitions := c.acquisitions ++
        [⟨kind, acquisitionRequest kind id operationId, .invoking, false, none⟩] }
  | .replied i reply =>
    match c.acquisitions[i]? with
    | none => none
    | some a => if a.stage = .invoking then c.reply validate i a reply else none
  | .observed i ok =>
    match c.acquisitions[i]? with
    | none => none
    | some a => if a.stage = .observing then some (c.observed i a ok) else none
  | .late i response =>
    match c.acquisitions[i]? with
    | none => none
    | some a =>
      if a.awaitingLate ∧ validateResponseForRequest a.request response = none then
        some (accept validate
          { c with
            acquisitions := c.acquisitions.set i
              { a with awaitingLate := false, response := some response } }
          a.kind.method response i)
      else none
  | .reconcileLate kind => some (c.reconcileLate kind)
  | .elapsed j =>
    match c.calls[j]? with
    | some ⟨kind, .waiting⟩ => some { c with calls := c.calls.set j ⟨kind, .woken none⟩ }
    | _ => none
  | .resumed j tracked =>
    match c.calls[j]? with
    | some ⟨kind, .woken value⟩ =>
      let c := { c with calls := c.calls.set j ⟨kind, .returned⟩ }
      match value with
      | some session => some (if tracked then c.answer kind session else c)
      | none => some c
    | _ => none

end Controller

def controller (validate : ρ → Option SessionDescriptor) : System (Controller ρ) (Event ρ) :=
  .ofMachine .opened (Controller.next validate)

end

end SurfaceLoom.Native.WindowsController
