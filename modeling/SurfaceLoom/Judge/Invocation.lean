import SurfaceLoom.Judge.Outcome
import SurfaceLoom.Lib.Transition

/-! # One call of a judge

`judge` races the provider against the signal and the deadline. The steps are those of
the event loop: the microtask that calls the provider, what the provider does, the
settlement of its promise, the timer, the signal, and the continuation behind the race.
A step that reads the clock carries its readings; nothing orders them. -/
namespace SurfaceLoom.Judge.Invocation
open SurfaceLoom.Lib.Transition SurfaceLoom.Judge.Data SurfaceLoom.Judge.Request
open SurfaceLoom.Judge.Outcome

/-! ## The invocation -/

/-- A member of an invocation: plain data, or an `AbortSignal`. -/
inductive MemberValue
  | data (value : JsData)
  | signal

/-- `other` is a primitive or a proxy; a member without a value is an accessor. -/
inductive InvocationValue
  | other
  | object (symbolKeys plain : Bool) (members : List (String × Option MemberValue))

structure InvocationSnapshot where
  deadlineAt : Nat
  signal : Bool
  deriving DecidableEq

def dataValue (members : List (String × Option MemberValue)) (key : String) (required : Bool) :
    Contract MemberValue :=
  match members.find? fun member => member.1 = key with
  | none =>
    if required then contractError ("invocation." ++ key) "is required" else .ok (.data .undefined)
  | some (_, none) => contractError ("invocation." ++ key) "must be an own data property"
  | some (_, some value) => .ok value

def snapshotDeadline (value : MemberValue) : Contract Nat :=
  match value with
  | .data (.number (some q)) =>
    if q.isInt ∧ 0 ≤ q ∧ q ≤ maxSafeInteger then .ok q.num.toNat
    else contractError "invocation.deadlineAt" "must be an absolute epoch-millisecond integer"
  | _ => contractError "invocation.deadlineAt" "must be an absolute epoch-millisecond integer"

def snapshotSignal (value : MemberValue) : Contract Bool :=
  match value with
  | .data .undefined => .ok false
  | .signal => .ok true
  | .data _ => contractError "invocation.signal" "must be an AbortSignal or undefined"

def snapshotInvocation (value : InvocationValue) : Contract InvocationSnapshot :=
  match value with
  | .other => contractError "invocation" "must be a non-Proxy plain object"
  | .object symbolKeys plain members =>
    if symbolKeys then contractError "invocation" "must not contain symbol keys"
    else if ¬ plain then contractError "invocation" "must have a plain or null prototype"
    else match (members.map Prod.fst).find? fun key => key ∉ ["deadlineAt", "signal"] with
      | some unexpected => contractError ("invocation." ++ unexpected) "is not allowed"
      | none => do
        let deadlineValue ← dataValue members "deadlineAt" true
        let deadlineAt ← snapshotDeadline deadlineValue
        let signalValue ← dataValue members "signal" false
        let signal ← snapshotSignal signalValue
        .ok ⟨deadlineAt, signal⟩

/-! ## The race -/

inductive StopReason
  | aborted
  | deadlineExceeded
  deriving DecidableEq

/-- What a provider throws: a `JudgeProviderError` with its three data properties, or
anything else. -/
inductive Thrown
  | providerError (kind retryable providerMetadata : JsData)
  | other

inductive RaceResult
  | value (value : JsData)
  | error (error : Thrown)
  | stop (reason : StopReason)

/-- The provider's side of the race: `finished` is the result on its way to the promise
that is raced. -/
inductive ProviderCall
  | scheduled
  | calling
  | awaiting
  | finished (result : RaceResult)
  | settled

inductive Stage
  | racing
  | resolved (outcome : JudgeOutcome)

/-- What a call was made with, once its arguments are validated. -/
structure Invoked where
  request : JudgeRequest
  deadlineAt : Nat
  signalled : Bool

structure Call where
  aborted : Bool
  listening : Bool
  timer : Bool
  provider : ProviderCall
  race : Option RaceResult
  stage : Stage

def failure (kind : ProviderFailureKind) (message : String) : JudgeOutcome :=
  .providerFailure ⟨kind, message, false⟩ none

def currentStop (c : Invoked) (aborted : Bool) (now : Int) : Option StopReason :=
  if c.signalled && aborted then some .aborted
  else if now ≥ c.deadlineAt then some .deadlineExceeded
  else none

def stopOutcome : StopReason → JudgeOutcome
  | .aborted => failure .aborted "Judge invocation was aborted"
  | .deadlineExceeded => failure .deadlineExceeded "Judge deadline was exceeded"

def providerDiagnostic (kind : JsData) : String :=
  match kind with
  | .string "authentication" => "Provider authentication failed"
  | .string "rateLimited" => "Provider rate limit was reached"
  | .string "server" => "Provider server failed"
  | _ => "Provider invocation failed"

/-- The call up to its first `await`: what it is made with and its state there. -/
def judge (request : JsData) (invocation : InvocationValue) (aborted : Bool) (now now' : Int) :
    Contract (Invoked × Call) := do
  let fixedInvocation ← snapshotInvocation invocation
  let normalized ← normalizeJudgeRequest request
  let validationBaseline ← normalizeJudgeRequest normalized.toData
  let _ ← normalizeJudgeRequest normalized.toData
  let c : Invoked := ⟨validationBaseline, fixedInvocation.deadlineAt, fixedInvocation.signal⟩
  let resolved (outcome : JudgeOutcome) : Call :=
    ⟨aborted, false, false, .settled, none, .resolved outcome⟩
  match currentStop c aborted now with
  | some reason => .ok (c, resolved (stopOutcome reason))
  | none =>
    if c.deadlineAt - now' ≤ 0 then
      .ok (c, resolved (failure .deadlineExceeded "Judge deadline has elapsed"))
    else .ok (c, ⟨aborted, c.signalled, true, .scheduled, none, .racing⟩)

inductive Event
  | dispatch (now : Int)
  | returned (value : JsData) (now : Int)
  | pending
  | threw (error : Thrown) (now : Int)
  | fulfilled (value : JsData) (now : Int)
  | rejected (error : Thrown) (now : Int)
  | settle
  | abort (heard : Bool)
  | timer (now : Int)
  | resume (now now' : Int)

namespace Call

/-- `Promise.race` goes to the first promise that settles. -/
def win (s : Call) (result : RaceResult) : Call := { s with race := s.race.or (some result) }

/-- The provider is done; whatever it came with, a stop comes first. -/
def finish (s : Call) (c : Invoked) (result : RaceResult) (now : Int) : Call :=
  { s with provider := .finished (((currentStop c s.aborted now).map .stop).getD result) }

end Call

/-- The outcome a failed provider is reported as. -/
def errorCandidate (kind retryable providerMetadata : JsData) : JsData :=
  .object ([("status", .string "providerFailure"),
    ("failure", .object [("kind", kind), ("message", .string (providerDiagnostic kind)),
      ("retryable", retryable)])] ++
    match providerMetadata with
    | .undefined => []
    | providerMetadata => [("providerMetadata", providerMetadata)])

/-- What is left of an answer after its validation, and after the look at the clock and
the signal behind it. -/
def validated (c : Invoked) (aborted : Bool) (now : Int) (value : JsData) (invalid : String) :
    JudgeOutcome :=
  match currentStop c aborted now, normalizeProviderOutcome value c.request with
  | some reason, _ => stopOutcome reason
  | none, .ok outcome => outcome
  | none, .error _ => failure .invalidResponse invalid

/-- The continuation behind the race; an error is looked at once. -/
def conclude (c : Invoked) (aborted : Bool) (now now' : Int) : RaceResult → JudgeOutcome
  | .stop reason => stopOutcome reason
  | .error .other => failure .provider "Provider invocation failed"
  | .error (.providerError kind retryable providerMetadata) =>
    validated c aborted now (errorCandidate kind retryable providerMetadata)
      "Provider failure data was invalid"
  | .value value =>
    match currentStop c aborted now with
    | some reason => stopOutcome reason
    | none => validated c aborted now' value "Provider response failed contract validation"

/-- While the provider's code runs nothing else does. -/
def next (c : Invoked) (s : Call) : Event → Option Call
  | .dispatch now =>
    match s.provider, currentStop c s.aborted now with
    | .scheduled, some reason => some { s with provider := .finished (.stop reason) }
    | .scheduled, none => some { s with provider := .calling }
    | _, _ => none
  | .returned value now =>
    match s.provider with
    | .calling => some (s.finish c (.value value) now)
    | _ => none
  | .pending =>
    match s.provider with
    | .calling => some { s with provider := .awaiting }
    | _ => none
  | .threw error now =>
    match s.provider with
    | .calling => some (s.finish c (.error error) now)
    | _ => none
  | .fulfilled value now =>
    match s.provider with
    | .awaiting => some (s.finish c (.value value) now)
    | _ => none
  | .rejected error now =>
    match s.provider with
    | .awaiting => some (s.finish c (.error error) now)
    | _ => none
  | .settle =>
    match s.provider with
    | .finished result => some ({ s with provider := .settled }.win result)
    | _ => none
  | .abort heard =>
    if heard && s.listening then
      some ({ s with aborted := true, listening := false }.win (.stop .aborted))
    else some { s with aborted := true }
  | .timer now =>
    match s.provider with
    | .calling => none
    | _ =>
      if ¬ s.timer then none
      else if c.deadlineAt - now > 0 then some s
      else some ({ s with timer := false }.win (.stop .deadlineExceeded))
  | .resume now now' =>
    match s.provider, s.stage, s.race with
    | .calling, _, _ => none
    | _, .racing, some result =>
      some { s with
        timer := false
        listening := false
        stage := .resolved (conclude c s.aborted now now' result) }
    | _, _, _ => none

def judging (c : Invoked) (start : Call) : System Call Event := .ofMachine start (next c)

end SurfaceLoom.Judge.Invocation
