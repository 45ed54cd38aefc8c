import Mathlib.Data.Rat.Defs
import SurfaceLoom.Lib.Transition
import SurfaceLoom.AgentService.StoredRun

/-! # One run of a registered command

`CommandExecutor.#run` from the resolution of its working directory to its
result. The child, the process-tree controller, the clocks and the file system
are the environment: what they do arrives as events, in any order, and each step
of the run reads the clocks anew. -/
namespace SurfaceLoom.Service.CommandRun
open SurfaceLoom.Lib.Transition SurfaceLoom.Service.SafeData SurfaceLoom.Service.Validation
open SurfaceLoom.Service.StoredRun

/-! ## Receipts -/

inductive Trigger
  | natural
  | abort
  | deadline
  | infrastructure
  deriving DecidableEq

structure FirstEvent where
  trigger : Trigger
  detail : Option String
  deriving DecidableEq

inductive Signal
  | sigterm
  | sigkill
  deriving DecidableEq

inductive SignalOutcome
  | accepted
  | rejected
  | threw (detail : String)
  deriving DecidableEq

structure SignalAttemptReceipt where
  signal : Signal
  attemptedAt : String
  outcome : SignalOutcome
  deriving DecidableEq

inductive ProcessExitReceipt
  | notSpawned
  | exited (instanceId : String) (pid : Option Nat) (code : Option Int) (signal : Option String)
  | unconfirmed (detail : String)
  deriving DecidableEq

inductive ProcessTreeReceipt
  | confirmed
  | unconfirmed (detail : String)
  | notRequired
  deriving DecidableEq

inductive IdentityStatus
  | notSpawned
  | spawnObserved
  | spawnUnconfirmed
  deriving DecidableEq

structure ProcessIdentityReceipt where
  instanceId : String
  status : IdentityStatus
  pid : Option Nat
  deriving DecidableEq

structure OutputReceipt where
  text : String
  bytesSeen : Nat
  bytesRetained : Nat
  truncated : Bool
  terminal : Bool
  error : Option String
  deriving DecidableEq

structure StdioReceipt where
  stdout : OutputReceipt
  stderr : OutputReceipt
  childCloseObserved : Bool
  deriving DecidableEq

structure ProcessCleanupReceipt where
  status : CleanupStatus
  tainted : Bool
  processTree : ProcessTreeReceipt
  detail : Option String
  deriving DecidableEq

/-! ## Requests and configuration -/

structure RegisteredCommand where
  testId : TestId
  executorId : String
  executable : String
  argv : List String
  cwd : String
  inheritEnvironment : List String
  timeoutMs : Nat
  passed : List Int
  failed : List Int

abbrev OperationId := { s : String // isUuidIdentity "operation" s = true }

structure WorkspaceSnapshot where
  operationId : OperationId
  snapshotId : String
  resolvedRevision : String
  rootPath : String
  deriving DecidableEq

/-- What the executor reads of a request that was snapshotted; `executorId` and
`requiredEnvironment` are parts of its definition. -/
structure ExecuteRequest where
  runId : RunId
  snapshot : SnapshotRef
  testId : TestId
  parameters : Record
  taskId : Option TaskId
  executionLinks : Option Record
  executorId : String
  requiredEnvironment : List String
  workspace : WorkspaceSnapshot

structure Config where
  commands : List RegisteredCommand
  environment : List (String × Option String)
  maxStdoutBytes : Nat
  maxStderrBytes : Nat
  /-- Whether a process-tree controller is configured. -/
  processTree : Bool
  /-- `StringDecoder("utf8")` over a whole output. -/
  decode : List UInt8 → String

inductive Registration
  | registered (testId : TestId) (executorId executable : String) (argv : List String)
      (cwd : String) (environmentNames : List String)
  | unregistered (testId : TestId) (executorId : String)

structure CommandExecutionReceipt where
  registration : Registration
  deadlineAtMonotonicMs : ℚ
  termination : Trigger
  identity : ProcessIdentityReceipt
  signals : List SignalAttemptReceipt
  exit : ProcessExitReceipt
  stdio : StdioReceipt
  cleanup : ProcessCleanupReceipt

structure RunError where
  code : String
  message : String
  retryable : Bool

structure RunCleanup where
  runId : RunId
  snapshotId : String
  status : CleanupStatus
  tainted : Bool
  attemptedAt : String
  detail : Option String

structure CommandRunResult where
  runId : RunId
  snapshot : SnapshotRef
  testId : TestId
  parameters : Record
  taskId : Option TaskId
  executionLinks : Option Record
  startedAt : String
  finishedAt : String
  cleanup : RunCleanup
  command : CommandExecutionReceipt
  executionStatus : RunStatus
  outcome : Option BusinessOutcome
  reason : Option String
  error : Option RunError

/-- The clocks and the random id as one step reads them. -/
structure Readings where
  now : ℚ
  finishedAt : String
  attemptedAt : String
  instanceId : String

/-! ## Output -/

/-- The first `limit` bytes of a stream and the count of all. -/
structure BoundedOutput (limit : Nat) where
  retained : List UInt8
  bounded : retained.length ≤ limit
  bytesSeen : Nat
  terminal : Bool
  error : Option String

namespace BoundedOutput

variable {limit : Nat}

def empty : BoundedOutput limit := ⟨[], Nat.zero_le _, 0, false, none⟩

def push (o : BoundedOutput limit) (chunk : List UInt8) : BoundedOutput limit :=
  { o with
    retained := o.retained ++ chunk.take (limit - o.retained.length)
    bounded := by
      have := o.bounded
      simp only [List.length_append, List.length_take]
      omega
    bytesSeen := o.bytesSeen + chunk.length }

def finish (o : BoundedOutput limit) (error : Option String) : BoundedOutput limit :=
  { o with terminal := true, error := error.or o.error }

def receipt (decode : List UInt8 → String) (o : BoundedOutput limit) : OutputReceipt where
  text := decode o.retained
  bytesSeen := o.bytesSeen
  bytesRetained := o.retained.length
  truncated := o.bytesSeen > o.retained.length
  terminal := o.terminal
  error := o.error

end BoundedOutput

/-! ## The observer -/

/-- A child as `spawn` returned it. `process` says whether a process came into
existence; the code cannot read it. -/
structure Child where
  pid : Option Nat
  process : Bool

inductive Stream
  | stdout
  | stderr
  deriving DecidableEq

/-- Why a child emits `error`: it could not be spawned, or it could not be
killed. -/
inductive ErrorCause
  | spawnFailed
  | killFailed
  deriving DecidableEq

inductive ChildEvent
  | spawn (pid : Option Nat)
  | error (cause : ErrorCause) (message : String)
  | exit (code : Option Int) (signal : Option String)
  | close
  | data (stream : Stream) (chunk : List UInt8)
  | streamEnd (stream : Stream)
  | streamClose (stream : Stream)
  | streamError (stream : Stream) (error : Option String)
  deriving DecidableEq

structure Observer (stdoutLimit stderrLimit : Nat) where
  instanceId : String
  stdout : BoundedOutput stdoutLimit
  stderr : BoundedOutput stderrLimit
  spawnObserved : Bool
  pid : Option Nat
  exitReceipt : Option ProcessExitReceipt
  stdoutTerminal : Bool
  stderrTerminal : Bool
  childCloseObserved : Bool
  failureMessage : Option String
  /-- The listener for `error` is registered once. -/
  errorHeard : Bool

namespace Observer

variable {m n : Nat}

def new (instanceId : String) : Observer m n where
  instanceId := instanceId
  stdout := .empty
  stderr := .empty
  spawnObserved := false
  pid := none
  exitReceipt := none
  stdoutTerminal := false
  stderrTerminal := false
  childCloseObserved := false
  failureMessage := none
  errorHeard := false

def attach (o : Observer m n) (child : Child) : Observer m n := { o with pid := child.pid }

def stdioTerminal (o : Observer m n) : Bool := o.stdoutTerminal && o.stderrTerminal

def settleExit (o : Observer m n) (receipt : ProcessExitReceipt) : Observer m n :=
  { o with exitReceipt := o.exitReceipt.or (some receipt) }

def settleFailure (o : Observer m n) (message : String) : Observer m n :=
  { o with failureMessage := o.failureMessage.or (some message) }

def settleNotSpawned (o : Observer m n) : Observer m n := o.settleExit .notSpawned

def settleUnconfirmed (o : Observer m n) (detail : String) : Observer m n :=
  o.settleExit (.unconfirmed detail)

def terminal (o : Observer m n) : Stream → Bool
  | .stdout => o.stdoutTerminal
  | .stderr => o.stderrTerminal

/-- `settle` of `#wireStream`. -/
def settleStream (o : Observer m n) (stream : Stream) (error : Option String) : Observer m n :=
  if o.terminal stream then o
  else
    let o := match stream with
      | .stdout => { o with stdout := o.stdout.finish error, stdoutTerminal := true }
      | .stderr => { o with stderr := o.stderr.finish error, stderrTerminal := true }
    match error with
    | none => o
    | some message => o.settleFailure message

def push (o : Observer m n) (stream : Stream) (chunk : List UInt8) : Observer m n :=
  match stream with
  | .stdout => { o with stdout := o.stdout.push chunk }
  | .stderr => { o with stderr := o.stderr.push chunk }

/-- The listener for `error`: before the spawn event an error is taken for a
failed spawn. -/
def hearError (o : Observer m n) (message : String) : Observer m n :=
  if o.errorHeard then o
  else if o.spawnObserved then ({ o with errorHeard := true }).settleFailure message
  else (({ o with errorHeard := true }).settleFailure message).settleNotSpawned

/-- The listeners of `attach`. -/
def hear (o : Observer m n) : ChildEvent → Observer m n
  | .spawn pid => { o with spawnObserved := true, pid := pid.or o.pid }
  | .error _ message => o.hearError message
  | .exit code signal => o.settleExit (.exited o.instanceId o.pid code signal)
  | .close => { o with childCloseObserved := true }
  | .data stream chunk => o.push stream chunk
  | .streamEnd stream => o.settleStream stream none
  | .streamClose stream => o.settleStream stream none
  | .streamError stream error => o.settleStream stream error

def identity (o : Observer m n) : ProcessIdentityReceipt where
  instanceId := o.instanceId
  status := if o.spawnObserved then .spawnObserved
    else if o.exitReceipt = some .notSpawned then .notSpawned else .spawnUnconfirmed
  pid := o.pid

def stdioReceipt (decode : List UInt8 → String) (o : Observer m n) : StdioReceipt :=
  ⟨o.stdout.receipt decode, o.stderr.receipt decode, o.childCloseObserved⟩

end Observer

/-! ## Results -/

inductive Classification
  | passed
  | businessFailed
  | commandNotRegistered
  | commandPolicyRejected
  | commandCancelled
  | deadlineExceeded
  | spawnFailed
  | commandStreamFailed
  | processExitUnconfirmed
  | commandSignalled
  | commandExitUnclassified
  | cleanupUnconfirmed
  deriving DecidableEq

def Classification.name : Classification → String
  | .passed => "passed"
  | .businessFailed => "business_failed"
  | .commandNotRegistered => "command_not_registered"
  | .commandPolicyRejected => "command_policy_rejected"
  | .commandCancelled => "command_cancelled"
  | .deadlineExceeded => "deadline_exceeded"
  | .spawnFailed => "spawn_failed"
  | .commandStreamFailed => "command_stream_failed"
  | .processExitUnconfirmed => "process_exit_unconfirmed"
  | .commandSignalled => "command_signalled"
  | .commandExitUnclassified => "command_exit_unclassified"
  | .cleanupUnconfirmed => "cleanup_unconfirmed"

/-- What a run knows from its start. -/
structure Context where
  config : Config
  request : ExecuteRequest
  command : RegisteredCommand
  startedAt : String
  deadlineAt : ℚ

abbrev Context.Observer (x : Context) : Type :=
  CommandRun.Observer x.config.maxStdoutBytes x.config.maxStderrBytes

def resultBase (request : ExecuteRequest) (startedAt : String) (r : Readings)
    (command : CommandExecutionReceipt) (executionStatus : RunStatus)
    (outcome : Option BusinessOutcome) (reason : Option String) (error : Option RunError) :
    CommandRunResult where
  runId := request.runId
  snapshot := request.snapshot
  testId := request.testId
  parameters := request.parameters
  taskId := request.taskId
  executionLinks := request.executionLinks
  startedAt := startedAt
  finishedAt := r.finishedAt
  cleanup := ⟨request.runId, request.snapshot.snapshotId.1, command.cleanup.status,
    command.cleanup.tainted, r.attemptedAt, command.cleanup.detail⟩
  command := command
  executionStatus := executionStatus
  outcome := outcome
  reason := reason
  error := error

def incompleteResult (request : ExecuteRequest) (startedAt : String) (r : Readings)
    (command : CommandExecutionReceipt) (status : RunStatus) (code : Classification)
    (message : String) : CommandRunResult :=
  resultBase request startedAt r command status none none (some ⟨code.name, message, false⟩)

def registration (command : RegisteredCommand) : Registration :=
  .registered command.testId command.executorId command.executable command.argv command.cwd
    command.inheritEnvironment

def emptyOutput : OutputReceipt := ⟨"", 0, 0, false, true, none⟩

def noProcessResult (request : ExecuteRequest) (command : Option RegisteredCommand)
    (startedAt : String) (r : Readings) (deadlineAt : ℚ) (termination : Trigger)
    (status : RunStatus) (code : Classification) (message : String) : CommandRunResult :=
  incompleteResult request startedAt r
    { registration := match command with
        | none => .unregistered request.testId request.executorId
        | some command => registration command
      deadlineAtMonotonicMs := deadlineAt
      termination := termination
      identity := ⟨r.instanceId, .notSpawned, none⟩
      signals := []
      exit := .notSpawned
      stdio := ⟨emptyOutput, emptyOutput, false⟩
      cleanup := ⟨.notRequired, false, .notRequired, none⟩ }
    status code message

def processCleanup (exit : Option ProcessExitReceipt) (stdioTerminal : Bool)
    (processTree : ProcessTreeReceipt) : ProcessCleanupReceipt :=
  match exit with
  | some .notSpawned => ⟨.notRequired, false, .notRequired, none⟩
  | some (.exited ..) =>
    if stdioTerminal ∧ processTree = .confirmed then ⟨.confirmed, false, processTree, none⟩
    else unconfirmed
  | _ => unconfirmed
where
  unconfirmed : ProcessCleanupReceipt := ⟨.unconfirmed, true, processTree,
    some "Direct exit, stdio terminal, and owned process-tree cleanup were not all confirmed."⟩

def receipt (x : Context) (termination : Trigger) (observer : x.Observer)
    (signals : List SignalAttemptReceipt) (cleanup : ProcessCleanupReceipt) :
    CommandExecutionReceipt where
  registration := registration x.command
  deadlineAtMonotonicMs := x.deadlineAt
  termination := termination
  identity := observer.identity
  signals := signals
  exit := observer.exitReceipt.getD (.unconfirmed "No process-exit receipt was produced.")
  stdio := observer.stdioReceipt x.config.decode
  cleanup := cleanup

/-- The part of `finish` after the receipts. -/
def classified (x : Context) (r : Readings) (command : CommandExecutionReceipt)
    (classification : Classification) (message : String) : CommandRunResult :=
  if command.cleanup.status = .unconfirmed ∧
      (classification = .passed ∨ classification = .businessFailed) then
    incompleteResult x.request x.startedAt r command .failed .cleanupUnconfirmed
      "Command cleanup could not be confirmed."
  else if classification = .passed then
    resultBase x.request x.startedAt r command .completed (some .passed) none none
  else if classification = .businessFailed then
    resultBase x.request x.startedAt r command .completed (some .failed) (some message) none
  else
    incompleteResult x.request x.startedAt r command
      (if classification = .commandCancelled then .cancelled else .failed) classification message

def finish (x : Context) (r : Readings) (termination : Trigger) (observer : x.Observer)
    (signals : List SignalAttemptReceipt) (processTree : ProcessTreeReceipt)
    (classification : Classification) (message : String) : CommandRunResult :=
  classified x r
    (receipt x termination observer signals
      (processCleanup observer.exitReceipt observer.stdioTerminal processTree))
    classification message

/-- What a natural end of the child says. -/
def classifyExit (command : RegisteredCommand) :
    Option ProcessExitReceipt → Trigger × Classification × String
  | some (.exited _ _ (some code) none) =>
    if command.passed.contains code then (.natural, .passed, "")
    else if command.failed.contains code then
      (.natural, .businessFailed,
        "Registered command reported product failure with exit code " ++ toString code ++ ".")
    else
      (.infrastructure, .commandExitUnclassified,
        "Unclassified command exit code " ++ toString code ++ ".")
  | some (.exited ..) =>
    (.infrastructure, .commandSignalled, "Command exited without a classifiable exit code.")
  | _ =>
    (.infrastructure, .processExitUnconfirmed, "Command process exit was not confirmed.")

def finishForEvent (x : Context) (r : Readings) (first : FirstEvent) (observer : x.Observer)
    (signals : List SignalAttemptReceipt) (processTree : ProcessTreeReceipt) :
    CommandRunResult :=
  match first.trigger, observer.failureMessage with
  | .natural, some message =>
    finish x r .infrastructure observer signals processTree .commandStreamFailed message
  | .natural, none =>
    let (termination, classification, message) := classifyExit x.command observer.exitReceipt
    finish x r termination observer signals processTree classification message
  | .abort, _ =>
    finish x r .abort observer signals processTree .commandCancelled
      "Command execution was cancelled."
  | .deadline, _ =>
    finish x r .deadline observer signals processTree .deadlineExceeded
      "Command exceeded its absolute deadline."
  | .infrastructure, _ =>
    finish x r .infrastructure observer signals processTree
      (if observer.exitReceipt = some .notSpawned then .spawnFailed else .commandStreamFailed)
      (first.detail.getD "Command process infrastructure failed.")

def finishLaunchFailure (x : Context) (r : Readings) (detail : String) (observer : x.Observer)
    (signals : List SignalAttemptReceipt) (processTree : ProcessTreeReceipt) :
    CommandRunResult :=
  finish x r .infrastructure observer signals processTree .spawnFailed detail

/-! ## The run -/

def selectEnvironment (command : RegisteredCommand) (request : ExecuteRequest)
    (source : List (String × Option String)) : Except String (List (String × String)) := do
  for required in request.requiredEnvironment do
    if !command.inheritEnvironment.contains required then
      throw ("Required environment name is not registered: " ++ required)
    if (source.lookup required).join.isNone then
      throw ("Required environment value is missing: " ++ required)
  return command.inheritEnvironment.filterMap fun name =>
    (source.lookup name).join.map (name, ·)

/-- What a controller hands back for its handle. -/
inductive HandleShape
  | notObject
  | noCleanup
  | valid

/-- How the call of the controller's `launch` ends. -/
inductive LaunchReturn
  | threw (message : String)
  | notObject
  | promise
  | noProperty (key : String)
  | returned (ownChild : Bool) (handle : HandleShape)

/-- The checks of `launchOwnedProcess` and `snapshotHandle`. -/
def checkLaunch (registered : Bool) : LaunchReturn → Except String Unit
  | .threw message => .error message
  | .notObject => .error "Process-tree launch must return a non-Proxy object."
  | .promise => .error "Process-tree launch must synchronously return a launch receipt."
  | .noProperty key =>
    .error ("Process-tree launch " ++ key ++ " must be an own data property.")
  | .returned ownChild handle =>
    if !registered then
      .error "Process-tree controller must create the child with the supplied spawn function."
    else if !ownChild then
      .error "Process-tree launch child must be the child returned by the supplied spawn function."
    else match handle with
      | .notObject => .error "Process-tree handle must be a non-Proxy object."
      | .noCleanup => .error "Process-tree cleanup must be an own non-Proxy data function."
      | .valid => .ok ()

/-- How the cleanup of a process tree settles: `rejected` also stands for a
receipt that does not validate. -/
inductive TreeOutcome
  | receipt (receipt : ProcessTreeReceipt)
  | rejected (message : String)
  | timedOut

/-- `cleanupProcessTree`. -/
def treeReceipt (config : Config) (outcome : TreeOutcome) : ProcessTreeReceipt :=
  match outcome, config.processTree with
  | .timedOut, _ => .unconfirmed "Process-tree cleanup did not settle before its deadline."
  | _, false =>
    .unconfirmed "No cross-platform owned process-tree containment adapter was configured."
  | .receipt receipt, true => receipt
  | .rejected message, true => .unconfirmed message

/-- What the run ends with: the first event, or a launch that failed. -/
inductive Ending
  | event (first : FirstEvent)
  | launchFailed (detail : String)

inductive Stage (x : Context)
  | resolving
  | launching (spawnCalled registered : Bool)
  | racing
  | won (first : FirstEvent)
  | signalling (signal : Signal) (ending : Ending)
  | waiting (signal : Signal) (ending : Ending)
  | reaping (first : FirstEvent)
  | draining (ending : Ending) (processTree : ProcessTreeReceipt)
  /-- The observer is the one the result was built from. -/
  | finished (result : CommandRunResult) (observer : Option x.Observer)

/-- The promise that settles the race. -/
inductive Racer
  | exit
  | failure
  | abort
  | deadline

inductive Event
  | abort
  | resolved (cwd : Except String String)
  | spawn (result : Except String Child)
  | launchReturned (launch : LaunchReturn)
  | child (event : ChildEvent)
  | race (racer : Racer)
  | resume
  | signalled (outcome : SignalOutcome)
  | waited
  | treeSettled (outcome : TreeOutcome)
  | drained

def Stage.isFinished {x : Context} : Stage x → Bool
  | .finished .. => true
  | _ => false

/-- `processes` counts the processes that came into existence for this run, and
`history` is what happened before its result was built. -/
structure Run (x : Context) where
  aborted : Bool
  child : Option Child
  processes : Nat
  observer : x.Observer
  signals : List SignalAttemptReceipt
  stage : Stage x
  history : List (Readings × Event)

variable {x : Context}

def Run.hasExited (s : Run x) : Bool := s.observer.exitReceipt.isSome

/-- A run that ends before anything was spawned. -/
def endWithout (s : Run x) (r : Readings) (termination : Trigger) (status : RunStatus)
    (code : Classification) (message : String) : Run x :=
  { s with stage := .finished (noProcessResult x.request (some x.command) x.startedAt r
      x.deadlineAt termination status code message) none }

def cancelledBeforeSpawn (s : Run x) (r : Readings) : Run x :=
  endWithout s r .abort .cancelled .commandCancelled "Command was cancelled before spawn."

def resolved (s : Run x) (r : Readings) (cwd : Except String String) : Run x :=
  match (do
    let _ ← cwd
    selectEnvironment x.command x.request x.config.environment) with
  | .error message => endWithout s r .infrastructure .failed .commandPolicyRejected message
  | .ok _ =>
    if s.aborted then cancelledBeforeSpawn s r
    else if r.now ≥ x.deadlineAt then
      endWithout s r .deadline .failed .deadlineExceeded "Command deadline elapsed before spawn."
    else { s with stage := .launching false false, observer := .new r.instanceId }

def finished (s : Run x) (result : CommandRunResult) : Run x :=
  { s with stage := .finished result (some s.observer) }

def missingHandle : ProcessTreeReceipt :=
  .unconfirmed "No validated process-tree handle was available after launch failed."

/-- The end of the run, its streams drained or given up. -/
def conclude (s : Run x) (r : Readings) (ending : Ending) (processTree : ProcessTreeReceipt) :
    Run x :=
  match ending with
  | .event first =>
    finished s (finishForEvent x r first s.observer s.signals processTree)
  | .launchFailed detail =>
    finished s (finishLaunchFailure x r detail s.observer s.signals processTree)

/-- Waits for the streams, unless they are over. -/
def drain (s : Run x) (r : Readings) (ending : Ending) (processTree : ProcessTreeReceipt) :
    Run x :=
  if s.observer.stdioTerminal then conclude s r ending processTree
  else { s with stage := .draining ending processTree }

/-- What follows termination: the exit is settled, then the tree is cleaned up if
there is a handle for it. -/
def terminated (s : Run x) (r : Readings) (ending : Ending) : Run x :=
  match ending with
  | .event first =>
    let detail := "Process exit was not observed before the cleanup deadline."
    { s with observer := s.observer.settleUnconfirmed detail, stage := .reaping first }
  | .launchFailed _ =>
    let detail := "Process exit was not observed after process-tree launch failed."
    drain { s with observer := s.observer.settleUnconfirmed detail } r ending missingHandle

/-- One round of `terminateOwnedProcess`: unless the child has exited, a signal. -/
def signalOr (s : Run x) (r : Readings) (signal : Signal) (ending : Ending) : Run x :=
  if s.hasExited then terminated s r ending else { s with stage := .signalling signal ending }

/-- After a signal and its wait. -/
def afterWait (s : Run x) (r : Readings) (signal : Signal) (ending : Ending) : Run x :=
  match signal with
  | .sigterm => signalOr s r .sigkill ending
  | .sigkill => terminated s r ending

/-- After a signal: a wait, unless the child has exited by now. -/
def signalled (s : Run x) (r : Readings) (signal : Signal) (ending : Ending) : Run x :=
  if s.hasExited then afterWait s r signal ending
  else { s with stage := .waiting signal ending }

def launchFailed (s : Run x) (r : Readings) (message : String) : Run x :=
  if s.child.isSome then signalOr s r .sigterm (.launchFailed message)
  else endWithout s r .infrastructure .failed .spawnFailed message

/-- The supplied spawn function; the second call and every call after the launch
throw into the controller. Without a controller its result is the launch. -/
def spawned (s : Run x) (r : Readings) (result : Except String Child) : Option (Run x) :=
  match s.stage with
  | .resolving => none
  | .launching false _ =>
    match result with
    | .error message =>
      if x.config.processTree then some { s with stage := .launching true false }
      else some (launchFailed s r message)
    | .ok child =>
      some { s with
        child := some child
        processes := s.processes + (if child.process then 1 else 0)
        observer := s.observer.attach child
        stage := if x.config.processTree then .launching true true else .racing }
  | _ => if x.config.processTree then some s else none

/-- Which of the racing promises may be first, and the event it gives. -/
def firstEvent (s : Run x) (r : Readings) : Racer → Option FirstEvent
  | .exit =>
    if s.hasExited then
      some ⟨if s.aborted then .abort else if r.now ≥ x.deadlineAt then .deadline else .natural,
        none⟩
    else none
  | .failure => s.observer.failureMessage.map fun detail => ⟨.infrastructure, some detail⟩
  | .abort => if s.aborted then some ⟨.abort, none⟩ else none
  | .deadline => if x.deadlineAt ≤ r.now then some ⟨.deadline, none⟩ else none

def resume (s : Run x) (r : Readings) (first : FirstEvent) : Run x :=
  if first.trigger = .natural then terminated s r (.event first)
  else signalOr s r .sigterm (.event first)

/-- An error event is of a child that exists as its cause says. -/
def mayEmit (child : Child) : ChildEvent → Bool
  | .error .spawnFailed _ => !child.process
  | .error .killFailed _ => child.process
  | .spawn _ => child.process
  | _ => true

def step (s : Run x) (r : Readings) : Event → Option (Run x)
  | .abort => some { s with aborted := true }
  | .resolved cwd =>
    match s.stage with
    | .resolving => some (resolved s r cwd)
    | _ => none
  | .spawn result => spawned s r result
  | .launchReturned launch =>
    match s.stage with
    | .launching _ registered =>
      match checkLaunch registered launch with
      | .error message => some (launchFailed s r message)
      | .ok () => some { s with stage := .racing }
    | _ => none
  | .child event =>
    match s.child with
    | none => none
    | some child =>
      if mayEmit child event then some { s with observer := s.observer.hear event } else none
  | .race racer =>
    match s.stage with
    | .racing => (firstEvent s r racer).map fun first => { s with stage := .won first }
    | _ => none
  | .resume =>
    match s.stage with
    | .won first => some (resume s r first)
    | _ => none
  | .signalled outcome =>
    match s.stage with
    | .signalling signal ending =>
      some (signalled { s with signals := s.signals ++ [⟨signal, r.attemptedAt, outcome⟩] } r
        signal ending)
    | _ => none
  | .waited =>
    match s.stage with
    | .waiting signal ending => some (afterWait s r signal ending)
    | _ => none
  | .treeSettled outcome =>
    match s.stage with
    | .reaping first => some (drain s r (.event first) (treeReceipt x.config outcome))
    | _ => none
  | .drained =>
    match s.stage with
    | .draining ending processTree => some (conclude s r ending processTree)
    | _ => none

def next (s : Run x) (label : Readings × Event) : Option (Run x) :=
  (step s label.1 label.2).map fun t =>
    if s.stage.isFinished then t else { t with history := t.history ++ [label] }

/-- `#run` up to its first await. -/
def started (x : Context) (aborted : Bool) (r : Readings) : Run x :=
  let s : Run x := ⟨aborted, none, 0, .new r.instanceId, [], .resolving, []⟩
  if aborted then cancelledBeforeSpawn s r else s

def command (x : Context) (aborted : Bool) (r : Readings) :
    System (Run x) (Readings × Event) :=
  .ofMachine (started x aborted r) next

end SurfaceLoom.Service.CommandRun
