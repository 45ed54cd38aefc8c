import Mathlib.Algebra.Order.Ring.Rat
import SurfaceLoom.Core.CaseSpec
import SurfaceLoom.Lib.Json
import SurfaceLoom.Lib.Transition

/-! # Waiting for an observation

`waitForObservation` polls a reader until an expectation holds or a deadline is
over. The reader, the matcher, the sleeper and the clock are the caller's: what
they do comes with the events, and each event has the clock readings in the
order they are taken. -/
namespace SurfaceLoom.Test.Assertion
open SurfaceLoom.Lib SurfaceLoom.Lib.Transition
open SurfaceLoom.Core (isBlank utf16Length)

/-! ## Values and observations -/

abbrev TraceValue := Json ℚ

/-- A value as a reader returns it. A leaf `refused` stands for what the copy
throws at, with the text of the error. -/
inductive RawValue
  | null
  | bool (value : Bool)
  | number (value : ℚ)
  | string (value : String)
  | array (items : List RawValue)
  | object (fields : List (String × RawValue))
  | refused (message : String)

def limitsMessage : String := "Observation data exceeds snapshot limits."

mutual

/-- `copy` of `snapshotValue`; the number is what remains of the node budget. -/
def copy (item : RawValue) (depth remaining : Nat) : Except String (TraceValue × Nat) :=
  if depth > 32 ∨ remaining = 0 then .error limitsMessage
  else match item with
    | .null => .ok (.null, remaining - 1)
    | .bool value => .ok (.bool value, remaining - 1)
    | .number value => .ok (.number value, remaining - 1)
    | .string value => .ok (.string value, remaining - 1)
    | .refused message => .error message
    | .array items =>
      (copyItems items depth (remaining - 1)).map fun (items, left) => (.array items, left)
    | .object fields =>
      (copyFields fields depth (remaining - 1)).map fun (fields, left) => (.object fields, left)

def copyItems (items : List RawValue) (depth remaining : Nat) :
    Except String (List TraceValue × Nat) :=
  match items with
  | [] => .ok ([], remaining)
  | item :: rest => do
    let (value, left) ← copy item (depth + 1) remaining
    let (values, left) ← copyItems rest depth left
    return (value :: values, left)

def copyFields (fields : List (String × RawValue)) (depth remaining : Nat) :
    Except String (List (String × TraceValue) × Nat) :=
  match fields with
  | [] => .ok ([], remaining)
  | (key, item) :: rest => do
    let (value, left) ← copy item (depth + 1) remaining
    let (values, left) ← copyFields rest depth left
    return ((key, value) :: values, left)

end

def snapshotValue (value : RawValue) : Except String TraceValue := (copy value 0 10000).map Prod.fst

inductive Completeness
  | barrier (id : String) (complete : Bool)
  | interval (fromMs toMs : ℚ) (complete : Bool)
  deriving DecidableEq

structure AssertionFailure where
  code : String
  message : String
  deriving DecidableEq

/-- An observation as `snapshotObservation` keeps it; `evidenceIds` of a failed
read that has none are none. -/
inductive Observation
  | available (value : TraceValue) (completeness : Option Completeness)
  | absent (completeness : Option Completeness)
  | unknown (reason : String)
  | readFailed (error : AssertionFailure)

structure Snapshot where
  evidenceIds : List String
  observation : Observation

/-- A property of an envelope: its getter throws, it is missing or it has a value. -/
abbrev Field := Except String (Option RawValue)

/-- A completeness declaration: a property that is no object, or its properties. -/
inductive RawCompleteness
  | notObject
  | object (kind complete id fromMs toMs : Field)

/-- The error of a failed read: its code and message where they are texts, and
what `errorSummary` says of it. -/
structure RawError where
  code : Option String
  message : Option String
  summary : String

/-- An envelope that is an object; `identity` says which. -/
structure Envelope where
  identity : Nat
  evidenceIds : Field
  state : Field
  value : Field
  reason : Field
  completeness : Except String (Option RawCompleteness)
  error : Except String RawError

/-- What a reader returns. -/
inductive Raw
  | primitive
  | object (envelope : Envelope)

/-! ## Reading an envelope -/

/-- The pattern of an identifier, before its text is checked for credentials. -/
def isMachineId (s : String) : Bool :=
  utf16Length s ≤ 200 && match s.toList with
    | [] => false
    | c :: cs => c.isAlphanum &&
      cs.all fun c => c.isAlphanum || c = '.' || c = '_' || c = ':' || c = '@' || c = '-'

section
variable (redact : String → String)

def identifierMessage : String :=
  "A report id must be a stable machine id without credential-like data."

/-- `assertIdentifier`; `redact` is `redactReportText`. -/
def assertIdentifier (id : String) : Except String Unit :=
  if isMachineId id ∧ redact id = id then .ok () else .error identifierMessage

def identifierField (value : Option RawValue) : Except String String :=
  match value with
  | some (.string id) => (assertIdentifier redact id).map fun _ => id
  | _ => .error identifierMessage

def evidenceIds (input : Option RawValue) : Except String (List String) := do
  match input with
  | none => return []
  | some (.array items) =>
    let ids ← items.mapM fun item => identifierField redact (some item)
    if ids.Nodup then return ids else throw "Evidence ids must be unique."
  | some _ => throw "Evidence ids must be an array."

def intervalMessage : String := "A complete interval needs finite fromMs < toMs."

/-- `interval`. -/
def interval (fromMs toMs : Option RawValue) : Except String (ℚ × ℚ) :=
  match fromMs, toMs with
  | some (.number fromMs), some (.number toMs) =>
    if toMs ≤ fromMs then .error intervalMessage else .ok (fromMs, toMs)
  | _, _ => .error intervalMessage

def completenessField (input : Option RawCompleteness) :
    Except String (Option Completeness) := do
  match input with
  | none => return none
  | some .notObject => throw "Invalid observation completeness."
  | some (.object kind complete id fromMs toMs) =>
    let kind ← kind
    match ← complete with
    | some (.bool complete) =>
      match kind with
      | some (.string "barrier") =>
        return some (.barrier (← identifierField redact (← id)) complete)
      | some (.string "interval") =>
        let (fromMs, toMs) ← interval (← fromMs) (← toMs)
        return some (.interval fromMs toMs complete)
      | _ => throw "Unknown completeness kind."
    | _ => throw "Completeness needs an explicit boolean."

def snapshotReadFailure (error : RawError) : AssertionFailure :=
  match error.code, error.message with
  | some code, some message =>
    if isBlank code ∨ isBlank message then ⟨"readFailed", error.summary⟩ else ⟨code, message⟩
  | _, _ => ⟨"readFailed", error.summary⟩

def undefinedMessage : String := "Observation data must be finite, acyclic JSON data."

def snapshotObservation (raw : Raw) : Except String Snapshot := do
  match raw with
  | .primitive => throw "A reader must return an observation envelope."
  | .object source =>
    let ids ← evidenceIds redact (← source.evidenceIds)
    match ← source.state with
    | some (.string "available") =>
      let value ← snapshotValue ((← source.value).getD (.refused undefinedMessage))
      return ⟨ids, .available value (← completenessField redact (← source.completeness))⟩
    | some (.string "absent") =>
      return ⟨ids, .absent (← completenessField redact (← source.completeness))⟩
    | some (.string "unknown") =>
      match ← source.reason with
      | some (.string reason) =>
        if isBlank reason then throw "Unknown observations need a reason."
        else return ⟨ids, .unknown reason⟩
      | _ => throw "Unknown observations need a reason."
    | some (.string "read-failed") =>
      return ⟨ids, .readFailed (snapshotReadFailure (← source.error))⟩
    | _ => throw "Unknown observation state."

end

/-! ## Expectations -/

inductive Requirement
  | barrier (id : String)
  | interval (fromMs toMs : ℚ)
  deriving DecidableEq

inductive Expectation
  | value (expected : TraceValue)
  | negativeValue (expected : TraceValue) (completeness : Requirement)
  | absent (completeness : Requirement)

namespace Expectation

def kind : Expectation → String
  | .value _ => "value"
  | .negativeValue .. => "negative-value"
  | .absent _ => "absent"

def expected : Expectation → TraceValue
  | .value expected | .negativeValue expected _ => expected
  | .absent _ => .string "absent"

def completeness : Expectation → Option Requirement
  | .value _ => none
  | .negativeValue _ completeness | .absent completeness => some completeness

end Expectation

/-- What the matcher does with a value; a result that is no boolean is none. -/
inductive Match
  | threw (message : String)
  | returned (result : Option Bool)

def Observation.completeness : Observation → Option Completeness
  | .available _ completeness | .absent completeness => completeness
  | .unknown _ | .readFailed _ => none

def hasCompleteness (observation : Observation) (required : Requirement) (observedAtMs : ℚ) : Bool :=
  match observation.completeness, required with
  | some (.barrier id complete), .barrier required => complete && id == required
  | some (.interval fromMs toMs complete), .interval requiredFrom requiredTo =>
    complete && fromMs ≤ requiredFrom && toMs ≥ requiredTo && toMs ≤ observedAtMs
  | _, _ => false

/-- `matchesExpectation`: the matcher is called only with a value that the
completeness allows it to see. -/
def matchesExpectation (expectation : Expectation) (observation : Observation) (observedAtMs : ℚ)
    (matcher : Match) : Except String Bool :=
  match observation with
  | .unknown _ | .readFailed _ => .ok false
  | .available .. | .absent _ =>
    if (expectation.completeness.all fun required =>
        hasCompleteness observation required observedAtMs) = false then .ok false
    else match expectation, observation with
      | .absent _, .absent _ => .ok true
      | .absent _, _ => .ok false
      | _, .available .. =>
        match matcher with
        | .threw message => .error message
        | .returned none =>
          .error "An observation matcher must return a boolean, not a promise or another value."
        | .returned (some result) => .ok result
      | _, _ => .ok false

/-! ## The clock -/

/-- A reading of the clock; a number that is not finite is none. -/
inductive Sample
  | threw (message : String)
  | number (value : Option ℚ)

structure Timer where
  startedAtMs : ℚ
  deadlineMs : ℚ
  pollIntervalMs : ℚ
  last : ℚ

def clockMessage : String := "The assertion clock moved backwards or returned an invalid value."

namespace Timer

def read (t : Timer) : Sample → Except String Timer
  | .threw message => .error message
  | .number none => .error clockMessage
  | .number (some now) => if now < t.last then .error clockMessage else .ok { t with last := now }

/-- A reading whose failure is ignored. -/
def reread (t : Timer) (sample : Sample) : Timer :=
  match t.read sample with
  | .error _ => t
  | .ok t => t

/-- How long `pause` asks the sleeper to sleep. -/
def sleepMs (t : Timer) : ℚ := min t.pollIntervalMs (t.deadlineMs - t.last)

end Timer

/-! ## The wait -/

inductive Status
  | passed
  | failed
  | timedOut
  deriving DecidableEq

structure Attempt where
  attempt : Nat
  startedAtMs : ℚ
  finishedAtMs : Option ℚ
  observation : Snapshot

structure ReadError where
  attempt : Nat
  elapsedMs : Option ℚ
  error : AssertionFailure

structure Result where
  status : Status
  expectationKind : String
  expected : TraceValue
  completeness : Option Requirement
  actual : Option Attempt
  lastValidObservation : Option Attempt
  lastReadError : Option ReadError
  failure : Option AssertionFailure
  attempts : Nat
  startedAtMs : ℚ
  deadlineMs : ℚ
  elapsedMs : ℚ
  pollIntervalMs : ℚ
  criterionId : Option String
  evidenceIds : List String

inductive Stage
  | polling
  | reading (startedAtMs : ℚ)
  | sleeping (before : ℚ)
  | finished (result : Result)

/-- `seen` has the envelopes the reader returned, and `reads` when each read was
started. -/
structure Wait where
  expectation : Expectation
  criterionId : Option String
  timer : Timer
  seen : List Nat
  attempts : Nat
  actual : Option Attempt
  lastValidObservation : Option Attempt
  lastReadError : Option ReadError
  linkedEvidence : List String
  reads : List ℚ
  stage : Stage

namespace Wait

def result (s : Wait) (status : Status) (failure : Option AssertionFailure) : Result where
  status := status
  expectationKind := s.expectation.kind
  expected := s.expectation.expected
  completeness := s.expectation.completeness
  actual := s.actual
  lastValidObservation := s.lastValidObservation
  lastReadError := s.lastReadError
  failure := failure
  attempts := s.attempts
  startedAtMs := s.timer.startedAtMs
  deadlineMs := s.timer.deadlineMs
  elapsedMs := s.timer.last - s.timer.startedAtMs
  pollIntervalMs := s.timer.pollIntervalMs
  criterionId := s.criterionId
  evidenceIds := s.linkedEvidence

def finish (s : Wait) (status : Status) (failure : Option AssertionFailure) : Wait :=
  { s with stage := .finished (s.result status failure) }

def timedOut (s : Wait) : Wait :=
  s.finish .timedOut (some ⟨"deadlineExceeded",
    "The expected observation was not established before the deadline."⟩)

/-- The last `catch`: the clock is read once more. -/
def failed (s : Wait) (phase message : String) (later : Sample) : Wait :=
  { s with timer := s.timer.reread later }.finish .failed (some ⟨phase, message⟩)

/-- The top of the loop, up to the call of the reader. -/
def poll (s : Wait) (now later : Sample) : Wait :=
  match s.timer.read now with
  | .error message => s.failed "clockFailed" message later
  | .ok timer =>
    let s := { s with timer }
    if timer.last ≥ timer.deadlineMs then s.timedOut
    else { s with
      attempts := s.attempts + 1
      reads := s.reads ++ [timer.last]
      stage := .reading timer.last }

end Wait

/-- How a call of the reader ends. -/
inductive ReadOutcome
  | threw (message : String)
  | returned (raw : Raw)

/-- What the loop keeps of a read; `invalid` says that its envelope was refused. -/
structure Observed where
  seen : List Nat
  snapshot : Snapshot
  invalid : Option AssertionFailure

def failedRead (code message : String) : Snapshot := ⟨[], .readFailed ⟨code, message⟩⟩

def invalidRead (seen : List Nat) (message : String) : Observed :=
  ⟨seen, failedRead "invalidObservation" message, some ⟨"invalidObservation", message⟩⟩

def snapshotted (redact : String → String) (seen : List Nat) (raw : Raw) : Observed :=
  match snapshotObservation redact raw with
  | .error message => invalidRead seen message
  | .ok snapshot => ⟨seen, snapshot, none⟩

/-- The inner `try` of an attempt. -/
def observe (redact : String → String) (seen : List Nat) : ReadOutcome → Observed
  | .threw message => ⟨seen, failedRead "readFailed" message, none⟩
  | .returned .primitive => snapshotted redact seen .primitive
  | .returned (.object envelope) =>
    if envelope.identity ∈ seen then
      invalidRead seen "The reader reused an old observation envelope."
    else snapshotted redact (seen ++ [envelope.identity]) (.object envelope)

def Observation.valid : Observation → Bool
  | .available .. | .absent _ => true
  | .unknown _ | .readFailed _ => false

/-- The evidence of a snapshot joins a set. -/
def link (linked ids : List String) : List String :=
  ids.foldl (fun linked id => if id ∈ linked then linked else linked ++ [id]) linked

namespace Wait

/-- The attempt is recorded. -/
def record (s : Wait) (startedAtMs : ℚ) (finishedAtMs : Option ℚ) (o : Observed) : Wait :=
  let attempt : Attempt := ⟨s.attempts, startedAtMs, finishedAtMs, o.snapshot⟩
  { s with
    seen := o.seen
    actual := some attempt
    linkedEvidence := link s.linkedEvidence o.snapshot.evidenceIds
    lastValidObservation :=
      if o.snapshot.observation.valid then some attempt else s.lastValidObservation
    lastReadError := match o.snapshot.observation with
      | .readFailed error =>
        some ⟨s.attempts, finishedAtMs.map (· - s.timer.startedAtMs), error⟩
      | _ => s.lastReadError }

/-- The matcher, and what follows it. -/
def afterRead (s : Wait) (observation : Observation) (finishedAtMs : ℚ) (matcher : Match)
    (after later : Sample) : Wait :=
  match matchesExpectation s.expectation observation finishedAtMs matcher with
  | .error message => s.failed "matcherFailed" message later
  | .ok matched =>
    match s.timer.read after with
    | .error message => s.failed "clockFailed" message later
    | .ok timer =>
      let s := { s with timer }
      if timer.last > timer.deadlineMs then s.timedOut
      else if matched then s.finish .passed none
      else if timer.last ≥ timer.deadlineMs then s.timedOut
      else { s with stage := .sleeping timer.last }

/-- The rest of an attempt whose read is over. -/
def readSettled (redact : String → String) (s : Wait) (startedAtMs : ℚ) (outcome : ReadOutcome)
    (finishedAt : Sample) (matcher : Match) (after later : Sample) : Wait :=
  let o := observe redact s.seen outcome
  match s.timer.read finishedAt with
  | .error message => (s.record startedAtMs none o).finish .failed (some ⟨"clockFailed", message⟩)
  | .ok timer =>
    let s := { s with timer }.record startedAtMs (some timer.last) o
    match o.invalid with
    | some failure => s.finish .failed (some failure)
    | none =>
      if timer.last > timer.deadlineMs then s.timedOut
      else s.afterRead o.snapshot.observation timer.last matcher after later

/-- The rest of `pause`. -/
def slept (s : Wait) (before : ℚ) (outcome : Except String Unit) (now later : Sample) : Wait :=
  match outcome with
  | .error message => s.failed "sleepFailed" message later
  | .ok () =>
    match s.timer.read now with
    | .error message => s.failed "sleepFailed" message later
    | .ok timer =>
      if timer.last ≤ before then
        { s with timer }.failed "sleepFailed"
          "The assertion sleeper did not advance the monotonic clock." later
      else { s with timer, stage := .polling }

end Wait

inductive Event
  | poll (now later : Sample)
  | readSettled (outcome : ReadOutcome) (finishedAt : Sample) (matcher : Match)
      (after later : Sample)
  | slept (outcome : Except String Unit) (now later : Sample)

def next (redact : String → String) (s : Wait) : Event → Option Wait
  | .poll now later =>
    match s.stage with
    | .polling => some (s.poll now later)
    | _ => none
  | .readSettled outcome finishedAt matcher after later =>
    match s.stage with
    | .reading startedAtMs =>
      some (s.readSettled redact startedAtMs outcome finishedAt matcher after later)
    | _ => none
  | .slept outcome now later =>
    match s.stage with
    | .sleeping before => some (s.slept before outcome now later)
    | _ => none

/-! ## The start of a wait -/

/-- A number that is not finite is none. -/
structure Options where
  expectation : Expectation
  timeoutMs : Option ℚ
  pollIntervalMs : Option ℚ
  criterionId : Option String
  evidenceIds : List String

/-- `snapshotRequirement` on what the types allow. -/
def checkRequirement (redact : String → String) : Requirement → Except String Unit
  | .barrier id => assertIdentifier redact id
  | .interval fromMs toMs => if toMs ≤ fromMs then .error intervalMessage else .ok ()

/-- A number that has to be finite and in a range. -/
def finiteNumber (value : Option ℚ) (allowed : ℚ → Bool) (message : String) : Except String ℚ :=
  match value with
  | some value => if allowed value then .ok value else .error message
  | none => .error message

def firstReading (timeoutMs pollIntervalMs : ℚ) : Sample → Except String Timer
  | .threw message => .error message
  | .number none => .error "The assertion clock must return finite monotonic milliseconds."
  | .number (some now) => .ok ⟨now, now + timeoutMs, pollIntervalMs, now⟩

/-- The constructor of `AssertionTimer`. -/
def newTimer (timeoutMs pollIntervalMs : Option ℚ) (first : Sample) : Except String Timer := do
  let timeoutMs ← finiteNumber timeoutMs (0 ≤ ·)
    "Assertion timeoutMs must be finite and non-negative."
  let pollIntervalMs ← finiteNumber pollIntervalMs (0 < ·)
    "Assertion pollIntervalMs must be finite and positive."
  firstReading timeoutMs pollIntervalMs first

/-- `waitForObservation` up to its loop: invalid options reject. -/
def start (redact : String → String) (options : Options) (first : Sample) : Except String Wait := do
  options.expectation.completeness.forM (checkRequirement redact)
  options.criterionId.forM (assertIdentifier redact)
  options.evidenceIds.forM (assertIdentifier redact)
  if ¬options.evidenceIds.Nodup then throw "Evidence ids must be unique."
  let timer ← newTimer options.timeoutMs options.pollIntervalMs first
  return {
    expectation := options.expectation
    criterionId := options.criterionId
    timer := timer
    seen := []
    attempts := 0
    actual := none
    lastValidObservation := none
    lastReadError := none
    linkedEvidence := options.evidenceIds
    reads := []
    stage := .polling }

/-- The wait for these options, if they are valid. -/
def observation (redact : String → String) (options : Options) (first : Sample) :
    System Wait Event where
  init s := start redact options first = .ok s
  step s event t := next redact s event = some t

end SurfaceLoom.Test.Assertion
