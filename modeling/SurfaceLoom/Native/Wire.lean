import Mathlib.Tactic.Common

/-! # The native wire contract

The messages both native hosts exchange with their client. The parsers accept
a call only when it carries an operation id exactly if it is not an
observation, so a call here carries that fact. Names follow the macOS host;
the Windows records have the same fields. -/
namespace SurfaceLoom.Native.Wire

inductive NativeOperationIntent
  | observe
  | mutate
  | lifecycle
  deriving DecidableEq, Repr

inductive NativeErrorCategory
  | protocolError
  | invalidRequest
  | unsupported
  | notFound
  | permissionDenied
  | deadline
  | cancelled
  | conflict
  | backend
  | internal
  deriving DecidableEq, Repr

inductive NativeRetryDisposition
  | never
  | safe
  deriving DecidableEq, Repr

@[simp] theorem NativeRetryDisposition.ite_eq_safe {c : Prop} [Decidable c] :
    (if c then NativeRetryDisposition.safe else .never) = .safe ↔ c := by
  by_cases h : c <;> simp [h]

inductive NativeOperationOutcome
  | notExecuted
  | executed
  | unknown
  deriving DecidableEq, Repr

inductive NativeScope
  | bootstrap
  | host (hostInstanceID : String)
  | session (hostInstanceID sessionID : String)
  | handle (hostInstanceID sessionID handleID : String)
  deriving DecidableEq, Repr

namespace NativeScope

def kind : NativeScope → String
  | bootstrap => "bootstrap"
  | host _ => "host"
  | session _ _ => "session"
  | handle _ _ _ => "handle"

def hostInstanceID : NativeScope → Option String
  | bootstrap => none
  | host value | session value _ | handle value _ _ => some value

end NativeScope

structure NativeCall (π : Type) where
  name : String
  intent : NativeOperationIntent
  scope : NativeScope
  payload : π
  operationID : Option String
  sideEffecting : operationID.isSome ↔ intent ≠ .observe

structure NativeRequest (π : Type) where
  id : String
  timeoutMilliseconds : Nat
  call : NativeCall π

structure NativeOperationReceipt where
  operationID : String
  outcome : NativeOperationOutcome
  deriving DecidableEq, Repr

structure NativeWireError where
  code : String
  category : NativeErrorCategory
  message : String
  retry : NativeRetryDisposition
  deriving DecidableEq, Repr

structure NativeResponse (ρ : Type) where
  id : String
  result : Option ρ
  error : Option NativeWireError
  operation : Option NativeOperationReceipt
  deriving DecidableEq

structure NativeMethodDescriptor where
  name : String
  intent : NativeOperationIntent
  scopeKinds : List String

/-- The error value of the macOS backend and of its launch tickets. -/
structure NativeHostBackendError where
  code : String
  category : NativeErrorCategory
  safeMessage : String
  deriving DecidableEq

def macOSBackendError (code : String) (category : NativeErrorCategory := .backend)
    (message : String := "The macOS backend could not prove a successful result.") :
    NativeHostBackendError :=
  ⟨code, category, message⟩

namespace NativeResponse

variable {ρ : Type}

def isSuccess (response : NativeResponse ρ) : Bool := response.error.isNone

def outcome (response : NativeResponse ρ) : Option NativeOperationOutcome :=
  response.operation.map (·.outcome)

def code (response : NativeResponse ρ) : Option String := response.error.map (·.code)

/-- The response tells the client that repeating the operation is safe. -/
def RetrySafe (response : NativeResponse ρ) : Prop :=
  response.error.map (·.retry) = some .safe

instance (response : NativeResponse ρ) : Decidable response.RetrySafe :=
  inferInstanceAs (Decidable (_ = _))

end NativeResponse

end SurfaceLoom.Native.Wire
