import SurfaceLoom.AgentService.RunStoreQueue
import SurfaceLoom.AgentService.SnapshotLifecycle

/-! # Starting runs

`AgentTestService.start` asks the run store whether a request is known, takes the
snapshot for the request and reserves a run. It gives the snapshot back when the
call that took it fails. Calls overlap wherever the source awaits the store; the
store works through what they issue in its own order. -/
namespace SurfaceLoom.Service.AgentTestService
open SurfaceLoom.Lib SurfaceLoom.Lib.Transition SurfaceLoom.Service.SafeData
open SurfaceLoom.Service.Validation SurfaceLoom.Service.StoredRun SurfaceLoom.Service.RunStore
open SurfaceLoom.Service.SnapshotLifecycle (WorkspaceSnapshot)

/-! ## Definitions and parameters -/

inductive EffectLevel
  | readOnly
  | reversible
  | writesLocal
  | externalEffect
  | securitySensitive
  deriving DecidableEq

def EffectLevel.name : EffectLevel → String
  | .readOnly => "readOnly"
  | .reversible => "reversible"
  | .writesLocal => "writesLocal"
  | .externalEffect => "externalEffect"
  | .securitySensitive => "securitySensitive"

def effectLevels : List EffectLevel :=
  [.readOnly, .reversible, .writesLocal, .externalEffect, .securitySensitive]

def EffectLevel.sensitive : EffectLevel → Bool
  | .externalEffect | .securitySensitive => true
  | .readOnly | .reversible | .writesLocal => false

inductive ServicePlatform
  | darwin
  | linux
  | win32
  deriving DecidableEq

def ServicePlatform.name : ServicePlatform → String
  | .darwin => "darwin"
  | .linux => "linux"
  | .win32 => "win32"

inductive RuntimeKind
  | node
  | cli
  | surfaceloomV3
  deriving DecidableEq

inductive ParameterType
  | string
  | number
  | integer
  | boolean

def ParameterType.name : ParameterType → String
  | .string => "string"
  | .number => "number"
  | .integer => "integer"
  | .boolean => "boolean"

inductive ParameterValue
  | string (value : String)
  | number (value : ℚ)
  | boolean (value : Bool)
  deriving DecidableEq

def ParameterValue.toValue : ParameterValue → JsValue
  | .string value => .string value
  | .number value => .number value
  | .boolean value => .boolean value

structure ParameterDefinition where
  type : ParameterType
  default : Option ParameterValue
  enum : Option (List ParameterValue)

structure ParameterSchema where
  properties : List (String × ParameterDefinition)
  required : List String

/-- What `start` reads of a definition; `caseSpecs` has their ids. -/
structure TestDefinition where
  testId : TestId
  caseSpecs : List String
  parameters : ParameterSchema
  executorId : String
  kind : RuntimeKind
  effect : EffectLevel
  platforms : List ServicePlatform

/-- A value of a parameter's type. -/
def typed (type : ParameterType) (value : JsValue) : Option ParameterValue :=
  match type, value with
  | .string, .string s => some (.string s)
  | .boolean, .boolean b => some (.boolean b)
  | .number, .number q => some (.number q)
  | .integer, .number q => if q.den = 1 then some (.number q) else none
  | _, _ => none

def parameterValue (name : String) (definition : ParameterDefinition) (value : JsValue) :
    Except Failure ParameterValue :=
  match typed definition.type value with
  | none =>
    .error (.typeError ("Parameter " ++ name ++ " must be " ++ definition.type.name ++ "."))
  | some value =>
    if definition.enum.any (value ∉ ·) then
      .error (.typeError ("Parameter " ++ name ++ " must be one of its declared values."))
    else .ok value

/-- One property of the schema; a parameter that is not given has its default. -/
def normalizeParameter (schema : ParameterSchema) (source : Fields)
    (property : String × ParameterDefinition) : Except Failure (Option (String × ParameterValue)) :=
  match (get? source property.1).or (property.2.default.map ParameterValue.toValue) with
  | none =>
    if property.1 ∈ schema.required then
      .error (.typeError ("Missing required parameter " ++ property.1 ++ "."))
    else .ok none
  | some value => do return some (property.1, ← parameterValue property.1 property.2 value)

def normalizeParameters (schema : ParameterSchema) (input : JsValue) :
    Except Failure (List (String × ParameterValue)) := do
  let source ← liftSafe (readSafeRecordEnvelope (some input) "parameters")
  match source.find? fun e => !(schema.properties.any (·.1 = e.1)) with
  | some unknown => .error (.typeError ("Unknown parameter " ++ unknown.1 ++ "."))
  | none => return (← schema.properties.mapM (normalizeParameter schema source)).reduceOption

/-! ## The request -/

/-- `text` of this service. -/
def requestText (value : Option JsValue) (label : String) (maxBytes : Nat) :
    Except Failure String :=
  match value with
  | some (.string s) =>
    if isText s ∧ s.utf8ByteSize ≤ maxBytes then .ok s
    else .error (.typeError (label ++ " is invalid."))
  | _ => .error (.typeError (label ++ " is invalid."))

def exactKeys (value : Fields) (label : String) (required optional : List String) :
    Except Failure Unit :=
  match value.find? fun e => e.1 ∉ required ++ optional with
  | some unexpected => .error (.typeError (label ++ " has unknown field " ++ unexpected.1 ++ "."))
  | none =>
    match required.find? fun key => !(value.any (·.1 = key)) with
    | some missing => .error (.typeError (label ++ " is missing " ++ missing ++ "."))
    | none => .ok ()

def acknowledgedLevel (value : Option JsValue) : Except Failure (Option EffectLevel) :=
  match value with
  | none => .ok none
  | some value =>
    match effectLevels.find? fun level => asString (some value) = some level.name with
    | some level => .ok (some level)
    | none => .error (.typeError "acknowledgedEffect is invalid.")

structure StartTestRequest where
  requestId : String
  snapshotId : String
  testId : String
  parameters : Option JsValue
  taskId : Option String
  acknowledgedEffect : Option EffectLevel

def snapshotStartRequest (input : JsValue) : Except Failure StartTestRequest := do
  let value ← liftSafe (readSafeRecordEnvelope (some input) "StartTestRequest")
  exactKeys value "StartTestRequest" ["requestId", "snapshotId", "testId"]
    ["parameters", "taskId", "acknowledgedEffect"]
  let acknowledgedEffect ← acknowledgedLevel (get? value "acknowledgedEffect")
  return {
    requestId := ← requestText (get? value "requestId") "requestId" 256
    snapshotId := ← requestText (get? value "snapshotId") "snapshotId" 128
    testId := ← requestText (get? value "testId") "testId" 256
    parameters := get? value "parameters"
    taskId := ← optionalField (get? value "taskId") (requestText · "taskId" 128)
    acknowledgedEffect := acknowledgedEffect }

/-- A request that was read, with its definition. -/
structure Accepted where
  request : StartTestRequest
  definition : TestDefinition
  parameters : List (String × ParameterValue)
  taskId : Option TaskId

/-- `catalog.require`. -/
def require (catalog : List TestDefinition) (testId : TestId) : Except Failure TestDefinition :=
  match catalog.find? (·.testId = testId) with
  | some definition => .ok definition
  | none => .error (.typeError ("Unknown service testId: " ++ testId.1))

/-- `request.parameters ?? {}`. -/
def givenParameters : Option JsValue → JsValue
  | none | some .null => .object []
  | some value => value

/-- `start` up to its first await. -/
def accept (catalog : List TestDefinition) (input : JsValue) : Except Failure Accepted := do
  let request ← snapshotStartRequest input
  let definition ← require catalog (← parseTestId (some (.string request.testId)))
  let parameters ← normalizeParameters definition.parameters (givenParameters request.parameters)
  let taskId ← optionalField (request.taskId.map .string) parseTaskId
  return ⟨request, definition, parameters, taskId⟩

/-! ## The service -/

structure StartRunResult where
  runId : RunId
  status : RunStatus
  reused : Bool

/-- How far a call is: `index` counts what was issued to the store, and `owner` is
the request that owned the snapshot when the call took it. -/
inductive Stage
  | reading (index : Nat)
  | reserving (index : Nat) (owner : Option String)
  | ended (result : Except Failure StartRunResult) (reservation : Option Nat)

structure StartCall where
  accepted : Accepted
  stage : Stage

structure ServiceOptions where
  catalog : List TestDefinition
  executorId : String
  platform : ServicePlatform
  limits : Limits

structure ServiceState where
  store : RunStoreQueue.State
  snapshots : OrderedMap String WorkspaceSnapshot
  owners : OrderedMap String String
  calls : List StartCall

/-- What `PersistentRunService.start` is given, but for the run id. -/
structure Execution where
  snapshot : WorkspaceSnapshot
  definition : TestDefinition
  parameters : List (String × ParameterValue)
  taskId : Option TaskId
  executionLinks : Option JsValue

def StartCall.requestId (c : StartCall) : String := c.accepted.request.requestId

def StartCall.snapshotId (c : StartCall) : String := c.accepted.request.snapshotId

/-- `isDeepStrictEqual(record.parameters, parameters)`. -/
def sameParameters (recorded : Fields) (parameters : List (String × ParameterValue)) : Bool :=
  recorded.length = parameters.length && parameters.all fun p =>
    match p.2, get? recorded p.1 with
    | .string s, some (.string s') => s = s'
    | .number q, some (.number q') => q = q'
    | .boolean b, some (.boolean b') => b = b'
    | _, _ => false

def assertSameIntent (record : StoredRunRecord) (a : Accepted) : Except Failure Unit :=
  if record.snapshot.snapshotId.1 ≠ a.request.snapshotId ∨ record.testId ≠ a.definition.testId ∨
      sameParameters record.parameters.1 a.parameters = false ∨ record.taskId ≠ a.taskId then
    .error (.typeError "requestId was already used for a different run request.")
  else .ok ()

/-- The answer to a request that is known. -/
def reuse (record : StoredRunRecord) (a : Accepted) : Except Failure StartRunResult :=
  (assertSameIntent record a).map fun () => ⟨record.runId, record.status, true⟩

/-- The checks of a request that is not known, before it takes the snapshot. -/
def checkNewRun (options : ServiceOptions) (s : ServiceState) (a : Accepted) :
    Except Failure WorkspaceSnapshot :=
  match s.snapshots.get? a.request.snapshotId with
  | none => .error (.typeError "Workspace snapshot is not ready in this service process.")
  | some snapshot =>
    if a.definition.executorId ≠ options.executorId then
      .error (.typeError ("No executor is registered for " ++ a.definition.executorId ++ "."))
    else if a.definition.kind = .surfaceloomV3 ∧ a.definition.caseSpecs.length ≠ 1 then
      .error (.typeError "A SurfaceLoom v3 service test must reference exactly one CaseSpec.")
    else if options.platform ∉ a.definition.platforms then
      .error (.typeError ("Test " ++ a.definition.testId.1 ++ " does not support " ++
        options.platform.name ++ "."))
    else if a.definition.effect.sensitive ∧
        a.request.acknowledgedEffect ≠ some a.definition.effect then
      .error (.typeError ("Test " ++ a.definition.testId.1 ++ " requires acknowledgedEffect=" ++
        a.definition.effect.name ++ "."))
    else if (s.owners.get? a.request.snapshotId).any (· ≠ a.request.requestId) then
      .error (.typeError "Workspace snapshot has already been submitted by another request.")
    else .ok snapshot

def executionLinks (definition : TestDefinition) : Option JsValue :=
  match definition.kind, definition.caseSpecs with
  | .surfaceloomV3, caseSpecId :: _ => some (.object [
    ("caseSpecs", .array [.object [("namespace", .string "case-spec"),
      ("caseSpecId", .string caseSpecId)]]),
    ("agentRuns", .array []), ("nativeOperations", .array [])])
  | _, _ => none

def execution (snapshot : WorkspaceSnapshot) (a : Accepted) : Execution :=
  ⟨snapshot, a.definition, a.parameters, a.taskId, executionLinks a.definition⟩

def parametersValue (parameters : List (String × ParameterValue)) : JsValue :=
  .object (parameters.map fun p => (p.1, p.2.toValue))

section
variable (fingerprint : Execution → String)

/-- What `PersistentRunService.start` reserves. -/
def reservation (requestId : String) (e : Execution) (proposedRunId createdAt : String) :
    RunReservation where
  requestId := requestId
  fingerprint := fingerprint e
  proposedRunId := proposedRunId
  snapshot := .object [("snapshotId", .string e.snapshot.snapshotId),
    ("resolvedRevision", .string e.snapshot.resolvedRevision)]
  testId := e.definition.testId.1
  parameters := parametersValue e.parameters
  taskId := e.taskId.map Subtype.val
  executionLinks := e.executionLinks
  createdAt := createdAt

namespace ServiceState

def update (s : ServiceState) (k : Nat) (stage : Stage) : ServiceState :=
  { s with calls := s.calls.modify k fun c => { c with stage } }

/-- The call takes the snapshot and issues its reservation; `refused` is what
`snapshotExecuteRequest` throws. -/
def take (s : ServiceState) (k : Nat) (a : Accepted) (snapshot : WorkspaceSnapshot)
    (refused : Option Failure) (proposedRunId createdAt : String) : ServiceState :=
  let owner := s.owners.get? a.request.snapshotId
  match refused with
  | some e => s.update k (.ended (.error e) none)
  | none =>
    { s.update k (.reserving s.store.issued.length owner) with
      owners := s.owners.set a.request.snapshotId a.request.requestId
      store := RunStoreQueue.issue s.store (.reserve
        (reservation fingerprint a.request.requestId (execution snapshot a) proposedRunId
          createdAt)) }

/-- `start` after the store has told whether the request is known. -/
def found (options : ServiceOptions) (s : ServiceState) (k : Nat) (a : Accepted)
    (record : Option StoredRunRecord) (refused : Option Failure)
    (proposedRunId createdAt : String) : ServiceState :=
  match record with
  | some record => s.update k (.ended (reuse record a) none)
  | none =>
    match checkNewRun options s a with
    | .error e => s.update k (.ended (.error e) none)
    | .ok snapshot => s.take fingerprint k a snapshot refused proposedRunId createdAt

/-- The `catch` of a failed start: the call that took the snapshot gives it back. -/
def giveBack (s : ServiceState) (a : Accepted) (owner : Option String) : ServiceState :=
  if owner.isNone then { s with owners := s.owners.erase a.request.snapshotId } else s

end ServiceState

/-- The answer to a reservation. -/
def startResult (created : Bool) (record : StoredRunRecord) : StartRunResult :=
  if created then ⟨record.runId, .queued, false⟩ else ⟨record.runId, record.status, true⟩

inductive Event
  | store (event : RunStoreQueue.Event)
  | prepared (snapshot : WorkspaceSnapshot)
  | start (input : JsValue)
  | found (k : Nat) (refused : Option Failure) (proposedRunId createdAt : String)
  | reserved (k : Nat)

/-- The store also hears from the runs that were dispatched, but only `start`
reserves. -/
def ofOthers : RunStoreQueue.Event → Bool
  | .issue (.reserve _) => false
  | _ => true

def next (options : ServiceOptions) (s : ServiceState) : Event → Option ServiceState
  | .store event =>
    if ofOthers event then
      (RunStoreQueue.next options.limits s.store event).map fun store => { s with store }
    else none
  | .prepared snapshot => some { s with snapshots := s.snapshots.set snapshot.snapshotId snapshot }
  | .start input =>
    match accept options.catalog input with
    | .error _ => some s
    | .ok a => some { s with
      calls := s.calls ++ [⟨a, .reading s.store.issued.length⟩]
      store := RunStoreQueue.issue s.store (.getByRequestId a.request.requestId) }
  | .found k refused proposedRunId createdAt =>
    match s.calls[k]? with
    | some ⟨a, .reading index⟩ =>
      match s.store.log[index]?.map RunStoreQueue.Entry.reply with
      | some (.ok (.found record)) =>
        some (s.found fingerprint options k a record refused proposedRunId createdAt)
      | some (.error e) => some (s.update k (.ended (.error e) none))
      | _ => none
    | _ => none
  | .reserved k =>
    match s.calls[k]? with
    | some ⟨a, .reserving index owner⟩ =>
      match s.store.log[index]?.map RunStoreQueue.Entry.reply with
      | some (.ok (.reserved created record)) =>
        some (s.update k (.ended (.ok (startResult created record)) (some index)))
      | some (.error e) => some ((s.update k (.ended (.error e) (some index))).giveBack a owner)
      | _ => none
    | _ => none

/-- A service over a store that was opened with these runs. -/
def service (options : ServiceOptions) (m : Memory) (file : Option StoreFile) :
    System ServiceState Event :=
  .ofMachine ⟨RunStoreQueue.opened m file, .empty, .empty, []⟩ (next fingerprint options)

end

end SurfaceLoom.Service.AgentTestService
