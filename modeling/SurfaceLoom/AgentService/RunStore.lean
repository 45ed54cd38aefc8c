import Mathlib.Algebra.Order.Ring.Nat
import SurfaceLoom.Lib.OrderedMap
import SurfaceLoom.AgentService.StoredRun

/-! # The run store, one operation at a time

The two maps of `FileRunStore` and what each operation does to them between
two awaits. An operation that throws may leave the maps half changed; the
caller puts the previous ones back. -/
namespace SurfaceLoom.Service.RunStore
open SurfaceLoom.Lib SurfaceLoom.Service.SafeData SurfaceLoom.Service.Validation
open SurfaceLoom.Service.StoredRun

structure Memory where
  byRun : OrderedMap String StoredRunRecord
  byRequest : OrderedMap String String

structure RunReservation where
  requestId : String
  fingerprint : String
  proposedRunId : String
  snapshot : JsValue
  testId : String
  parameters : JsValue
  taskId : Option String
  executionLinks : Option JsValue
  createdAt : String

inductive Call
  | reserve (input : RunReservation)
  | markRunning (runId startedAt : String)
  | markCancelling (runId updatedAt : String)
  | finish (runId : String) (result : JsValue) (workspaceRelease : Option JsValue)
  | interrupt (runId : String) (error cleanup : JsValue) (finishedAt : String)
  | attachArtifact (runId : String) (artifact : JsValue) (updatedAt : String)
  | recoverInterrupted (now : String)
  | get (runId : String)
  | getByRequestId (requestId : String)
  | list

inductive Reply
  | reserved (created : Bool) (record : StoredRunRecord)
  | record (record : StoredRunRecord)
  | found (record : Option StoredRunRecord)
  | records (records : List StoredRunRecord)

namespace Memory

def empty : Memory := ⟨.empty, .empty⟩

/-- `#set`. -/
def set (m : Memory) (record : StoredRunRecord) : Except Failure Memory :=
  if (m.byRequest.get? record.requestId.1).any (· ≠ record.runId.1) then
    .error (.corruption "Duplicate requestId.")
  else
    .ok ⟨m.byRun.set record.runId.1 record, m.byRequest.set record.requestId.1 record.runId.1⟩

def require (m : Memory) (runId : String) : Except Failure StoredRunRecord :=
  match m.byRun.get? runId with
  | some record => .ok record
  | none => .error (.conflict ("Unknown runId " ++ runId ++ "."))

end Memory

def validateRequestId (value : String) : Except Failure String :=
  if value = "" ∨ value.utf8ByteSize > 256 then
    .error (.typeError "requestId must be 1..256 UTF-8 bytes.")
  else .ok value

def transition (current : StoredRunRecord) (next : String) : Failure :=
  .conflict ("Cannot transition run from " ++ current.status.name ++ " to " ++ next ++ ".")

/-- `clone`: the copy handed to a caller. -/
def cloneRecord (record : StoredRunRecord) : Except Failure StoredRunRecord :=
  parseStoredRun record.toValue

/-! ## The values the operations build -/

/-- `{ ...fields, key: value }`. -/
def put (fields : Fields) (key : String) (value : JsValue) : Fields :=
  if fields.any (·.1 = key) then fields.map fun e => if e.1 = key then (key, value) else e
  else fields ++ [(key, value)]

/-- Whether JavaScript takes a value for true. -/
def truthy : Option JsValue → Bool
  | none | some .null | some (.refused _) => false
  | some (.boolean b) => b
  | some (.number q) => q ≠ 0
  | some (.string s) => s ≠ ""
  | some (.array _) | some (.object _) => true

/-- What `for (const item of value)` walks over. -/
def iterate : Option JsValue → Except Failure (List JsValue)
  | some (.array items) => .ok items
  | some (.string s) => .ok (s.toList.map fun c => .string (String.ofList [c]))
  | _ => .error (.typeError "value is not iterable")

/-- The properties of a value, for reading; `null` and `undefined` have none to
read. -/
def properties : Option JsValue → Except Failure Fields
  | some (.object fields) => .ok fields
  | none | some .null => .error (.typeError "Cannot read properties of undefined")
  | _ => .ok []

/-- `mergeArtifacts`: a later artifact replaces an earlier one of its id. -/
def mergeArtifacts (left : List Artifact) (right : List JsValue) :
    Except Failure (List Artifact) := do
  let right ← right.mapM fun item => parseArtifact (some item)
  let values := (left ++ right).foldl (fun m a => m.set a.artifactId.1 a) OrderedMap.empty
  return values.values

def artifactsValue (artifacts : List Artifact) : JsValue :=
  .array (artifacts.map Artifact.toValue)

/-- The revision and status of the next record. -/
def nextRevision (record : StoredRunRecord) : Option JsValue :=
  some (.number ((record.revision.1 + 1 : Nat) : ℚ))

def newRun (input : RunReservation) : RawRun where
  schemaVersion := some schemaVersion
  revision := some (.number 0)
  requestId := some (.string input.requestId)
  fingerprint := some (.string input.fingerprint)
  runId := some (.string input.proposedRunId)
  snapshot := some input.snapshot
  testId := some (.string input.testId)
  parameters := some input.parameters
  taskId := input.taskId.map .string
  executionLinks := input.executionLinks
  status := some (.string RunStatus.queued.name)
  outcome := some .null
  artifacts := some (.array [])
  createdAt := some (.string input.createdAt)
  updatedAt := some (.string input.createdAt)
  startedAt := none
  finishedAt := none
  result := none
  error := none
  cleanup := none
  workspaceRelease := none
  tainted := some (.boolean false)

def runningChange (startedAt : String) (current : StoredRunRecord) : Except Failure RawRun :=
  if current.status ≠ .queued then .error (transition current "running")
  else .ok { current.toRaw with
    revision := nextRevision current
    status := some (.string RunStatus.running.name)
    startedAt := some (.string startedAt)
    updatedAt := some (.string startedAt) }

def cancellingChange (updatedAt : String) (current : StoredRunRecord) : Except Failure RawRun :=
  if current.status.terminal then .ok current.toRaw
  else if current.status = .cancelling then .ok current.toRaw
  else if current.status ≠ .running ∧ current.status ≠ .queued then
    .error (transition current "cancelling")
  else .ok { current.toRaw with
    revision := nextRevision current
    status := some (.string RunStatus.cancelling.name)
    updatedAt := some (.string updatedAt) }

/-- A value as a template literal shows it, where it is a text. -/
def shown : Option JsValue → String
  | some (.string s) => s
  | _ => "undefined"

def asString : Option JsValue → Option String
  | some (.string s) => some s
  | _ => none

def correlationMismatch : Failure :=
  .conflict "Run result correlation does not match the persisted run."

/-- The record of a finished run, from a result that was copied and its parsed
parts. -/
def finishedRun (current : StoredRunRecord) (safe cleanup : Fields)
    (release : Option CleanupReceipt) (artifacts : List Artifact) : RawRun :=
  { current.toRaw with
    revision := nextRevision current
    status := get? safe "executionStatus"
    outcome := get? safe "outcome"
    artifacts := some (artifactsValue artifacts)
    updatedAt := get? safe "finishedAt"
    finishedAt := get? safe "finishedAt"
    result := some (.object (put safe "artifacts" (artifactsValue artifacts)))
    error := if asString (get? safe "executionStatus") = some RunStatus.completed.name then
      current.toRaw.error else get? safe "error"
    cleanup := get? safe "cleanup"
    workspaceRelease := match release with
      | none => current.toRaw.workspaceRelease
      | some receipt => some receipt.toValue
    tainted := if truthy (get? cleanup "tainted") then get? cleanup "tainted"
      else some (.boolean (release.any (·.tainted))) }

def finishChange (result : JsValue) (workspaceRelease : Option JsValue)
    (current : StoredRunRecord) : Except Failure RawRun :=
  if current.status.terminal then do
    let fields ← properties (some result)
    .error (transition current (shown (get? fields "executionStatus")))
  else do
    let safe ← properties (some (← liftSafe (cloneSafeData result)))
    if asString (get? safe "runId") ≠ some current.runId.1 then .error correlationMismatch
    else do
      let snapshot ← properties (get? safe "snapshot")
      if asString (get? snapshot "snapshotId") ≠ some current.snapshot.snapshotId.1 then
        .error correlationMismatch
      else do
        let release ← optionalField workspaceRelease (parseCleanup current.runId)
        let artifacts ← mergeArtifacts current.artifacts (← iterate (get? safe "artifacts"))
        let cleanup ← properties (get? safe "cleanup")
        return finishedRun current safe cleanup release artifacts

/-- The record of an interrupted run. -/
def interruptedRun (current : StoredRunRecord) (error cleanup : JsValue) (finishedAt : String) :
    RawRun :=
  { current.toRaw with
    revision := nextRevision current
    status := some (.string RunStatus.interrupted.name)
    outcome := some .null
    updatedAt := some (.string finishedAt)
    finishedAt := some (.string finishedAt)
    result := some (.object (defined [("runId", current.toRaw.runId),
      ("snapshot", current.toRaw.snapshot), ("testId", current.toRaw.testId),
      ("parameters", current.toRaw.parameters), ("taskId", current.toRaw.taskId),
      ("executionLinks", current.toRaw.executionLinks),
      ("startedAt", current.toRaw.startedAt.or current.toRaw.createdAt),
      ("finishedAt", some (.string finishedAt)), ("artifacts", current.toRaw.artifacts),
      ("cleanup", some cleanup), ("executionStatus", some (.string RunStatus.interrupted.name)),
      ("outcome", some .null), ("error", some error)]))
    error := some error
    cleanup := some cleanup
    tainted := some (.boolean true) }

def interruptChange (error cleanup : JsValue) (finishedAt : String) (current : StoredRunRecord) :
    Except Failure RawRun :=
  if current.status.terminal then .ok current.toRaw
  else do
    let safeCleanup ← parseCleanup current.runId (some cleanup)
    let error ← liftSafe (cloneSafeData error)
    return interruptedRun current error safeCleanup.toValue finishedAt

def attachChange (artifact : JsValue) (updatedAt : String) (current : StoredRunRecord) :
    Except Failure RawRun :=
  if current.status.terminal then .error (.conflict "Terminal runs are immutable.")
  else do
    let safe ← parseArtifact (some artifact)
    if safe.runId ≠ current.runId then .error (.conflict "Artifact runId does not match.")
    else do
      let artifacts ← mergeArtifacts current.artifacts [safe.toValue]
      return { current.toRaw with
        revision := nextRevision current
        artifacts := some (artifactsValue artifacts)
        updatedAt := some (.string updatedAt) }

def restartError : JsValue := .object [("code", .string "service_restarted"),
  ("message", .string "Service restarted before the run reached a terminal state."),
  ("retryable", .boolean true)]

/-- `recoveryCleanup`. -/
def recoveryCleanup (record : StoredRunRecord) (now : String) : JsValue :=
  .object [("runId", .string record.runId.1), ("snapshotId", .string record.snapshot.snapshotId.1),
    ("status", .string CleanupStatus.unconfirmed.name), ("tainted", .boolean true),
    ("attemptedAt", .string now), ("detail", .string
      "Service restart left process cleanup unconfirmed; workspace remains quarantined.")]

def recoveredRun (now : String) (record : StoredRunRecord) : RawRun :=
  interruptedRun record restartError (recoveryCleanup record now) now

/-! ## Operations -/

/-- The body of `#update`. -/
def update (m : Memory) (runId : String)
    (change : StoredRunRecord → Except Failure RawRun) : Memory × Except Failure Reply :=
  match (do
    let id ← parseRunId (some (.string runId))
    let current ← m.require id.1
    let raw ← change current
    parseStoredRun raw.toValue) with
  | .error e => (m, .error e)
  | .ok next =>
    match m.set next with
    | .error e => (m, .error e)
    | .ok m => (m, (cloneRecord next).map .record)

def reserve (m : Memory) (input : RunReservation) : Memory × Except Failure Reply :=
  match validateRequestId input.requestId with
  | .error e => (m, .error e)
  | .ok requestId =>
    match m.byRequest.get? requestId with
    | some existingId =>
      match m.require existingId with
      | .error e => (m, .error e)
      | .ok existing =>
        if existing.fingerprint.1 ≠ input.fingerprint then
          (m, .error (.conflict "requestId was already used for a different run request."))
        else (m, .ok (.reserved false existing))
    | none =>
      if m.byRun.has input.proposedRunId then
        (m, .error (.conflict "Proposed runId has already been used."))
      else
        match parseStoredRun (newRun input).toValue with
        | .error e => (m, .error e)
        | .ok record =>
          match m.set record with
          | .error e => (m, .error e)
          | .ok m => (m, .ok (.reserved true record))

/-- The loop of `recoverInterrupted`; what was set before a failure stays set. -/
def recoverAll (now : String) (m : Memory) :
    List StoredRunRecord → Memory × Except Failure (List StoredRunRecord)
  | [] => (m, .ok [])
  | record :: rest =>
    if record.status.terminal then recoverAll now m rest
    else
      match parseStoredRun (recoveredRun now record).toValue with
      | .error e => (m, .error e)
      | .ok next =>
        match m.set next with
        | .error e => (m, .error e)
        | .ok m =>
          match recoverAll now m rest with
          | (m, .error e) => (m, .error e)
          | (m, .ok recovered) => (m, .ok (next :: recovered))

def recoverInterrupted (m : Memory) (now : String) : Memory × Except Failure Reply :=
  match recoverAll now m m.byRun.values with
  | (m, .error e) => (m, .error e)
  | (m, .ok recovered) => (m, (recovered.mapM cloneRecord).map .records)

def get (m : Memory) (runId : String) : Except Failure Reply := do
  let id ← parseRunId (some (.string runId))
  match m.byRun.get? id.1 with
  | none => return .found none
  | some record => return .found (some (← cloneRecord record))

def getByRequestId (m : Memory) (requestId : String) : Except Failure Reply := do
  let requestId ← validateRequestId requestId
  match m.byRequest.get? requestId with
  | none => return .found none
  | some runId => return .found (some (← cloneRecord (← m.require runId)))

def list (m : Memory) : Except Failure Reply :=
  (m.byRun.values.mapM cloneRecord).map .records

/-- The synchronous part of a call: the maps it leaves and its answer. -/
def operation (m : Memory) : Call → Memory × Except Failure Reply
  | .reserve input => reserve m input
  | .markRunning runId startedAt => update m runId (runningChange startedAt)
  | .markCancelling runId updatedAt => update m runId (cancellingChange updatedAt)
  | .finish runId result release => update m runId (finishChange result release)
  | .interrupt runId error cleanup finishedAt =>
    update m runId (interruptChange error cleanup finishedAt)
  | .attachArtifact runId artifact updatedAt => update m runId (attachChange artifact updatedAt)
  | .recoverInterrupted now => recoverInterrupted m now
  | .get runId => (m, get m runId)
  | .getByRequestId requestId => (m, getByRequestId m requestId)
  | .list => (m, list m)

def Call.reads : Call → Bool
  | .get _ | .getByRequestId _ | .list => true
  | _ => false

/-- Whether a mutation has to be written: only a recovery that found nothing
need not. -/
def changed : Call → Reply → Bool
  | .recoverInterrupted _, .records records => records ≠ []
  | _, _ => true

/-! ## The file -/

structure Limits where
  maxStoreBytes : Nat
  numberBytes : ℚ → Nat

/-- The bytes of one character in a JSON text. -/
def charBytes (c : Char) : Nat :=
  if c = '"' ∨ c = '\\' ∨ c = '\x08' ∨ c = '\x0c' ∨ c = '\n' ∨ c = '\r' ∨ c = '\t' then 2
  else if c.toNat < 32 then 6
  else c.utf8Size

def stringBytes (s : String) : Nat := 2 + (s.toList.map charBytes).sum

mutual

/-- The bytes of `JSON.stringify(value)`. -/
def jsonBytes (numberBytes : ℚ → Nat) : JsValue → Nat
  | .null => 4
  | .boolean b => if b then 4 else 5
  | .number q => numberBytes q
  | .string s => stringBytes s
  | .array items => 2 + itemsBytes numberBytes items
  | .object fields => 2 + fieldsBytes numberBytes fields
  | .refused _ => 0

/-- Every item but the last is followed by a comma. -/
def itemsBytes (numberBytes : ℚ → Nat) : List JsValue → Nat
  | [] => 0
  | item :: rest =>
    jsonBytes numberBytes item + (if rest.isEmpty then 0 else 1) + itemsBytes numberBytes rest

def fieldsBytes (numberBytes : ℚ → Nat) : Fields → Nat
  | [] => 0
  | (key, item) :: rest =>
    stringBytes key + 1 + jsonBytes numberBytes item + (if rest.isEmpty then 0 else 1) +
      fieldsBytes numberBytes rest

end

/-- The contents of `runs.json`, parsed. -/
structure StoreFile where
  runs : List JsValue

def StoreFile.bytes (limits : Limits) (file : StoreFile) : Nat :=
  jsonBytes limits.numberBytes (.object [("schemaVersion", .string "surfaceloom.run-store/v1"),
    ("runs", .array file.runs)]) + 1

/-- What `#persist` writes. -/
def Memory.toFile (m : Memory) : StoreFile := ⟨m.byRun.values.map StoredRunRecord.toValue⟩

/-- `readRunStoreFile`; a missing file has no runs. -/
def readRunStoreFile (limits : Limits) : Option StoreFile → Except Failure (List JsValue)
  | none => .ok []
  | some file =>
    if file.bytes limits > limits.maxStoreBytes then
      .error (.corruption "Run store is too large.")
    else .ok file.runs

/-- `#load`. -/
def load (limits : Limits) (file : Option StoreFile) : Except Failure Memory := do
  let runs ← readRunStoreFile limits file
  runs.foldlM (fun m item => do m.set (← parseStoredRun item)) Memory.empty

end SurfaceLoom.Service.RunStore
