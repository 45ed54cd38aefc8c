import SurfaceLoom.AgentService.Validation

/-! # Stored run records

The record type of the run store and its parser. The main result is that what
the parser accepts it accepts again, unchanged, once it is written. -/
namespace SurfaceLoom.Service.StoredRun
open SurfaceLoom.Service.SafeData SurfaceLoom.Service.Validation

inductive RunStatus
  | queued
  | preparing
  | running
  | cancelling
  | completed
  | failed
  | cancelled
  | interrupted
  deriving DecidableEq, Repr

def RunStatus.name : RunStatus → String
  | .queued => "queued"
  | .preparing => "preparing"
  | .running => "running"
  | .cancelling => "cancelling"
  | .completed => "completed"
  | .failed => "failed"
  | .cancelled => "cancelled"
  | .interrupted => "interrupted"

def RunStatus.all : List RunStatus :=
  [.queued, .preparing, .running, .cancelling, .completed, .failed, .cancelled, .interrupted]

def RunStatus.terminal : RunStatus → Bool
  | .completed | .failed | .cancelled | .interrupted => true
  | .queued | .preparing | .running | .cancelling => false

inductive BusinessOutcome
  | passed
  | failed
  | skipped
  | unsupported
  | unknown
  deriving DecidableEq, Repr

def BusinessOutcome.name : BusinessOutcome → String
  | .passed => "passed"
  | .failed => "failed"
  | .skipped => "skipped"
  | .unsupported => "unsupported"
  | .unknown => "unknown"

def BusinessOutcome.all : List BusinessOutcome := [.passed, .failed, .skipped, .unsupported, .unknown]

inductive CleanupStatus
  | confirmed
  | unconfirmed
  | notRequired
  deriving DecidableEq, Repr

def CleanupStatus.name : CleanupStatus → String
  | .confirmed => "confirmed"
  | .unconfirmed => "unconfirmed"
  | .notRequired => "not-required"

def CleanupStatus.all : List CleanupStatus := [.confirmed, .unconfirmed, .notRequired]

/-- The member of an enumeration that a string names. -/
def named {α : Type} (name : α → String) (all : List α) (value : Option JsValue)
    (message : String) : Except Failure α :=
  match value with
  | some (.string s) =>
    match all.find? fun a => name a = s with
    | some a => .ok a
    | none => fail message
  | _ => fail message

def runStatus (value : Option JsValue) : Except Failure RunStatus :=
  named RunStatus.name RunStatus.all value "Invalid run status."

def outcome (value : Option JsValue) : Except Failure (Option BusinessOutcome) :=
  match value with
  | some .null => .ok none
  | value => (named BusinessOutcome.name BusinessOutcome.all value "Invalid business outcome.").map some

def outcomeValue (outcome : Option BusinessOutcome) : JsValue :=
  match outcome with
  | none => .null
  | some o => .string o.name

/-! ## Parts of a record -/

structure SnapshotRef where
  snapshotId : Text
  resolvedRevision : Text
  deriving DecidableEq

structure Artifact where
  artifactId : Text
  runId : RunId
  name : Text
  mediaType : Text
  sizeBytes : SafeInteger
  sha256 : Sha256
  deriving DecidableEq

structure CleanupReceipt where
  runId : Option RunId
  snapshotId : Text
  status : CleanupStatus
  tainted : Bool
  attemptedAt : Timestamp
  detail : Option Text
  deriving DecidableEq

structure ExecutionError where
  code : Text
  message : Text
  retryable : Bool
  deriving DecidableEq

def SnapshotRef.entries (s : SnapshotRef) : List (String × Option JsValue) :=
  [("snapshotId", some (.string s.snapshotId.1)),
    ("resolvedRevision", some (.string s.resolvedRevision.1))]

def SnapshotRef.toValue (s : SnapshotRef) : JsValue := .object (defined s.entries)

def Artifact.entries (a : Artifact) : List (String × Option JsValue) :=
  [("artifactId", some (.string a.artifactId.1)), ("runId", some (.string a.runId.1)),
    ("name", some (.string a.name.1)), ("mediaType", some (.string a.mediaType.1)),
    ("sizeBytes", some (.number a.sizeBytes.1)), ("sha256", some (.string a.sha256.1))]

def Artifact.toValue (a : Artifact) : JsValue := .object (defined a.entries)

def CleanupReceipt.entries (c : CleanupReceipt) : List (String × Option JsValue) :=
  [("runId", c.runId.map fun id => .string id.1), ("snapshotId", some (.string c.snapshotId.1)),
    ("status", some (.string c.status.name)), ("tainted", some (.boolean c.tainted)),
    ("attemptedAt", some (.string c.attemptedAt.1)),
    ("detail", c.detail.map fun detail => .string detail.1)]

def CleanupReceipt.toValue (c : CleanupReceipt) : JsValue := .object (defined c.entries)

def ExecutionError.entries (e : ExecutionError) : List (String × Option JsValue) :=
  [("code", some (.string e.code.1)), ("message", some (.string e.message.1)),
    ("retryable", some (.boolean e.retryable))]

def ExecutionError.toValue (e : ExecutionError) : JsValue := .object (defined e.entries)

def stringPair (input : Option JsValue) : Except Failure SnapshotRef := do
  let value ← liftSafe (readSafeRecordEnvelope input "snapshot")
  return ⟨← text (get? value "snapshotId") "snapshotId",
    ← text (get? value "resolvedRevision") "resolvedRevision"⟩

def parseArtifact (input : Option JsValue) : Except Failure Artifact := do
  let value ← liftSafe (readSafeRecordEnvelope input "Artifact")
  return ⟨← text (get? value "artifactId") "artifactId", ← parseRunId (get? value "runId"),
    ← text (get? value "name") "name", ← text (get? value "mediaType") "mediaType",
    ← integer (get? value "sizeBytes") "sizeBytes", ← sha (get? value "sha256") "sha256"⟩

/-- Parsed for one run: a receipt that names another is refused. -/
def parseCleanup (runId : RunId) (input : Option JsValue) : Except Failure CleanupReceipt := do
  let value ← liftSafe (readSafeRecordEnvelope input "CleanupReceipt")
  let status ← named CleanupStatus.name CleanupStatus.all (get? value "status")
    "Invalid cleanup status."
  let parsedRun ← optionalField (get? value "runId") parseRunId
  if parsedRun.any (· ≠ runId) then fail "Cleanup run mismatch."
  else
    return ⟨parsedRun, ← text (get? value "snapshotId") "snapshotId", status,
      ← boolean (get? value "tainted") "tainted",
      ← timestamp (get? value "attemptedAt") "attemptedAt",
      ← optionalField (get? value "detail") (text · "detail")⟩

def parseError (input : Option JsValue) : Except Failure ExecutionError := do
  let value ← liftSafe (readSafeRecordEnvelope input "ExecutionError")
  return ⟨← text (get? value "code") "error.code", ← text (get? value "message") "error.message",
    ← boolean (get? value "retryable") "error.retryable"⟩

def parseArtifacts (input : Option JsValue) : Except Failure (List Artifact) := do
  let items ← liftSafe (readSafeArrayEnvelope input "artifacts")
  items.mapM fun item => parseArtifact (some item)

/-- A result is kept as it is, once it fits the run and its status. -/
def parseResult (runId : RunId) (status : RunStatus) (input : Option JsValue) :
    Except Failure Record := do
  let value ← record input "result"
  if (← parseRunId (get? value.1 "runId")) ≠ runId then fail "Result run mismatch."
  else match (named RunStatus.name [.completed, .failed, .cancelled, .interrupted]
      (get? value.1 "executionStatus") "Invalid result execution status.") with
    | .error e => .error e
    | .ok execution =>
      if execution ≠ status then fail "Stored status and result status differ."
      else do
        let _ ← parseCleanup runId (get? value.1 "cleanup")
        return value

/-! ## Records -/

/-- The properties of a run record before they are parsed. -/
structure RawRun where
  schemaVersion : Option JsValue
  revision : Option JsValue
  requestId : Option JsValue
  fingerprint : Option JsValue
  runId : Option JsValue
  snapshot : Option JsValue
  testId : Option JsValue
  parameters : Option JsValue
  taskId : Option JsValue
  executionLinks : Option JsValue
  status : Option JsValue
  outcome : Option JsValue
  artifacts : Option JsValue
  createdAt : Option JsValue
  updatedAt : Option JsValue
  startedAt : Option JsValue
  finishedAt : Option JsValue
  result : Option JsValue
  error : Option JsValue
  cleanup : Option JsValue
  workspaceRelease : Option JsValue
  tainted : Option JsValue

def RawRun.entries (r : RawRun) : List (String × Option JsValue) :=
  [("schemaVersion", r.schemaVersion), ("revision", r.revision), ("requestId", r.requestId),
    ("fingerprint", r.fingerprint), ("runId", r.runId), ("snapshot", r.snapshot),
    ("testId", r.testId), ("parameters", r.parameters), ("status", r.status),
    ("outcome", r.outcome), ("artifacts", r.artifacts), ("createdAt", r.createdAt),
    ("updatedAt", r.updatedAt), ("startedAt", r.startedAt), ("finishedAt", r.finishedAt),
    ("taskId", r.taskId), ("executionLinks", r.executionLinks), ("result", r.result),
    ("error", r.error), ("cleanup", r.cleanup), ("workspaceRelease", r.workspaceRelease),
    ("tainted", r.tainted)]

def RawRun.toValue (r : RawRun) : JsValue := .object (defined r.entries)

def RawRun.ofFields (fields : Fields) : RawRun where
  schemaVersion := get? fields "schemaVersion"
  revision := get? fields "revision"
  requestId := get? fields "requestId"
  fingerprint := get? fields "fingerprint"
  runId := get? fields "runId"
  snapshot := get? fields "snapshot"
  testId := get? fields "testId"
  parameters := get? fields "parameters"
  taskId := get? fields "taskId"
  executionLinks := get? fields "executionLinks"
  status := get? fields "status"
  outcome := get? fields "outcome"
  artifacts := get? fields "artifacts"
  createdAt := get? fields "createdAt"
  updatedAt := get? fields "updatedAt"
  startedAt := get? fields "startedAt"
  finishedAt := get? fields "finishedAt"
  result := get? fields "result"
  error := get? fields "error"
  cleanup := get? fields "cleanup"
  workspaceRelease := get? fields "workspaceRelease"
  tainted := get? fields "tainted"

structure StoredRunRecord where
  revision : SafeInteger
  requestId : RequestKey
  fingerprint : Sha256
  runId : RunId
  snapshot : SnapshotRef
  testId : TestId
  parameters : Record
  taskId : Option TaskId
  executionLinks : Option Record
  status : RunStatus
  outcome : Option BusinessOutcome
  artifacts : List Artifact
  createdAt : Timestamp
  updatedAt : Timestamp
  startedAt : Option Timestamp
  finishedAt : Option Timestamp
  result : Option Record
  error : Option ExecutionError
  cleanup : Option CleanupReceipt
  workspaceRelease : Option CleanupReceipt
  tainted : Bool

def schemaVersion : JsValue := .string "surfaceloom.service-run/v1"

def StoredRunRecord.toRaw (r : StoredRunRecord) : RawRun where
  schemaVersion := some schemaVersion
  revision := some (.number r.revision.1)
  requestId := some (.string r.requestId.1)
  fingerprint := some (.string r.fingerprint.1)
  runId := some (.string r.runId.1)
  snapshot := some r.snapshot.toValue
  testId := some (.string r.testId.1)
  parameters := some r.parameters.toValue
  taskId := r.taskId.map fun id => .string id.1
  executionLinks := r.executionLinks.map Record.toValue
  status := some (.string r.status.name)
  outcome := some (outcomeValue r.outcome)
  artifacts := some (.array (r.artifacts.map Artifact.toValue))
  createdAt := some (.string r.createdAt.1)
  updatedAt := some (.string r.updatedAt.1)
  startedAt := r.startedAt.map fun t => .string t.1
  finishedAt := r.finishedAt.map fun t => .string t.1
  result := r.result.map Record.toValue
  error := r.error.map ExecutionError.toValue
  cleanup := r.cleanup.map CleanupReceipt.toValue
  workspaceRelease := r.workspaceRelease.map CleanupReceipt.toValue
  tainted := some (.boolean r.tainted)

def StoredRunRecord.toValue (r : StoredRunRecord) : JsValue := r.toRaw.toValue

def parseSchema (value : Option JsValue) : Except Failure Unit :=
  match value with
  | some (.string s) =>
    if s = "surfaceloom.service-run/v1" then .ok () else fail "Unsupported run schema."
  | _ => fail "Unsupported run schema."

def parseRaw (value : RawRun) : Except Failure StoredRunRecord := do
  let _ ← parseSchema value.schemaVersion
  let revision ← integer value.revision "revision"
  let requestId ← requestKey value.requestId
  let fingerprint ← sha value.fingerprint "fingerprint"
  let runId ← parseRunId value.runId
  let testId ← parseTestId value.testId
  let status ← runStatus value.status
  let snapshot ← stringPair value.snapshot
  let parameters ← record value.parameters "parameters"
  let artifacts ← parseArtifacts value.artifacts
  let result ← optionalField value.result (parseResult runId status)
  let cleanup ← optionalField value.cleanup (parseCleanup runId)
  let workspaceRelease ← optionalField value.workspaceRelease (parseCleanup runId)
  let outcome ← outcome value.outcome
  let createdAt ← timestamp value.createdAt "createdAt"
  let updatedAt ← timestamp value.updatedAt "updatedAt"
  let startedAt ← optionalField value.startedAt (timestamp · "startedAt")
  let finishedAt ← optionalField value.finishedAt (timestamp · "finishedAt")
  let taskId ← optionalField value.taskId parseTaskId
  let executionLinks ← optionalField value.executionLinks (record · "executionLinks")
  let error ← optionalField value.error parseError
  let tainted ← boolean value.tainted "tainted"
  return ⟨revision, requestId, fingerprint, runId, snapshot, testId, parameters, taskId,
    executionLinks, status, outcome, artifacts, createdAt, updatedAt, startedAt, finishedAt,
    result, error, cleanup, workspaceRelease, tainted⟩

/-- Whatever else goes wrong in the parser is reported as a corruption. -/
def asCorruption : Failure → Failure
  | .corruption message => .corruption message
  | _ => .corruption "Persisted run record failed validation."

def parseStoredRun (input : JsValue) : Except Failure StoredRunRecord :=
  Except.mapError asCorruption do
    let clone ← liftSafe (cloneSafeData input)
    let value ← liftSafe (readSafeRecordEnvelope (some clone) "StoredRunRecord")
    parseRaw (.ofFields value)

/-! ## Parsing a written record -/

theorem named_ok {α : Type} {name : α → String} {all : List α} {value : Option JsValue}
    {message : String} {a : α} (h : named name all value message = .ok a) :
    value = some (.string (name a)) := by
  unfold named at h
  split at h
  · split at h
    · rename_i s a' hfind
      cases h
      have := List.find?_some hfind
      simp only [decide_eq_true_eq] at this
      rw [this]
    · cases h
  · cases h

theorem named_name {α : Type} {name : α → String} {all : List α} {message : String} {a : α}
    (h : all.find? (fun b => name b = name a) = some a) :
    named name all (some (.string (name a))) message = .ok a := by
  unfold named
  simp only [h]

theorem cleanupStatus_ok {value : Option JsValue} {message : String} {s : CleanupStatus} :
    named CleanupStatus.name CleanupStatus.all value message = .ok s ↔
      value = some (.string s.name) := by
  constructor
  · exact named_ok
  · intro h
    rw [h]
    exact named_name (by cases s <;> decide)

theorem runStatus_ok {value : Option JsValue} {s : RunStatus} :
    runStatus value = .ok s ↔ value = some (.string s.name) := by
  constructor
  · exact named_ok
  · intro h
    rw [h]
    exact named_name (by cases s <;> decide)

theorem outcome_ok {value : Option JsValue} {o : Option BusinessOutcome} :
    outcome value = .ok o ↔ value = some (outcomeValue o) := by
  constructor
  · intro h
    unfold outcome at h
    split at h
    · cases h
      rfl
    · cases hn : named BusinessOutcome.name BusinessOutcome.all value
          "Invalid business outcome." with
      | error e =>
        rw [hn] at h
        cases h
      | ok b =>
        rw [hn] at h
        cases h
        exact named_ok hn
  · intro h
    rw [h]
    cases o with
    | none => rfl
    | some b =>
      have hn : named BusinessOutcome.name BusinessOutcome.all (some (.string b.name))
          "Invalid business outcome." = .ok b := named_name (by cases b <;> decide)
      show Except.map some (named _ _ (some (.string b.name)) _) = _
      rw [hn]
      rfl

/-- An optional leaf is written as it is read. -/
theorem optional_ok {α : Type} {parse : Option JsValue → Except Failure α} {write : α → JsValue}
    (hexact : ∀ v a, parse v = .ok a ↔ v = some (write a)) {v : Option JsValue} {a : Option α} :
    optionalField v parse = .ok a ↔ v = a.map write := by
  unfold optionalField
  cases v with
  | none =>
    cases a <;> simp
  | some v =>
    cases a with
    | none =>
      simp only [Option.map_none, reduceCtorEq, iff_false]
      cases parse (some v) <;> simp [Except.map]
    | some a =>
      simp only [Option.map_some]
      rw [← hexact]
      cases parse (some v) <;> simp [Except.map]

/-- A parser of an object that only looks at the entries it would write
rereads them. -/
theorem rereads_object {α : Type} {parse : Option JsValue → Except Failure α}
    {entries : α → List (String × Option JsValue)} (hnd : ∀ a, ((entries a).map Prod.fst).Nodup)
    (hparse : ∀ v a, parse v = .ok a ↔ ∃ fields, v = some (.object fields) ∧
      fields.length ≤ maxCollectionEntries ∧ ∀ e ∈ entries a, get? fields e.1 = e.2) :
    Rereads parse fun a => .object (defined (entries a)) := by
  intro v a hp
  obtain ⟨fields, rfl, hwidth, hread⟩ := (hparse v a).mp hp
  have hkept : FewerFields (defined (entries a)) fields := by
    refine .defined (hnd a) fun e he w hw => ⟨w, ?_, .refl _⟩
    rw [hread e he, hw]
  refine ⟨(hparse _ _).mpr ⟨_, rfl, le_trans hkept.width hwidth, fun e he => ?_⟩, _, rfl,
    Smaller.object hkept⟩
  exact get?_defined_of_mem (hnd a) he

theorem stringPair_ok {v : Option JsValue} {s : SnapshotRef} :
    stringPair v = .ok s ↔ ∃ fields, v = some (.object fields) ∧
      fields.length ≤ maxCollectionEntries ∧ ∀ e ∈ s.entries, get? fields e.1 = e.2 := by
  unfold stringPair SnapshotRef.entries
  simp only [bind_eq_ok, liftSafe_ok, readSafeRecordEnvelope_ok, text_ok, pure_eq_ok,
    List.forall_mem_cons, List.not_mem_nil, false_implies, implies_true, and_true]
  constructor
  · intro h
    obtain ⟨fields, ⟨rfl, hw⟩, t, ht, t', ht', rfl⟩ := h
    exact ⟨fields, rfl, hw, ht, ht'⟩
  · intro h
    obtain ⟨fields, rfl, hw, ht, ht'⟩ := h
    exact ⟨fields, ⟨rfl, hw⟩, _, ht, _, ht', rfl⟩

theorem parseArtifact_ok {v : Option JsValue} {a : Artifact} :
    parseArtifact v = .ok a ↔ ∃ fields, v = some (.object fields) ∧
      fields.length ≤ maxCollectionEntries ∧ ∀ e ∈ a.entries, get? fields e.1 = e.2 := by
  unfold parseArtifact Artifact.entries
  simp only [bind_eq_ok, liftSafe_ok, readSafeRecordEnvelope_ok, text_ok, parseRunId_ok,
    integer_ok, sha_ok, pure_eq_ok, List.forall_mem_cons, List.not_mem_nil, false_implies,
    implies_true, and_true]
  constructor
  · intro h
    obtain ⟨fields, ⟨rfl, hw⟩, _, h₁, _, h₂, _, h₃, _, h₄, _, h₅, _, h₆, rfl⟩ := h
    exact ⟨fields, rfl, hw, h₁, h₂, h₃, h₄, h₅, h₆⟩
  · intro h
    obtain ⟨fields, rfl, hw, h₁, h₂, h₃, h₄, h₅, h₆⟩ := h
    exact ⟨fields, ⟨rfl, hw⟩, _, h₁, _, h₂, _, h₃, _, h₄, _, h₅, _, h₆, rfl⟩

theorem parseArtifact_toValue (a : Artifact) : parseArtifact (some a.toValue) = .ok a :=
  parseArtifact_ok.mpr ⟨_, rfl, le_trans (defined_length_le _) (Nat.le_of_ble_eq_true rfl),
    fun _ he => get?_defined_of_mem (by simp [Artifact.entries]) he⟩

theorem parseError_ok {v : Option JsValue} {error : ExecutionError} :
    parseError v = .ok error ↔ ∃ fields, v = some (.object fields) ∧
      fields.length ≤ maxCollectionEntries ∧ ∀ e ∈ error.entries, get? fields e.1 = e.2 := by
  unfold parseError ExecutionError.entries
  simp only [bind_eq_ok, liftSafe_ok, readSafeRecordEnvelope_ok, text_ok, boolean_ok, pure_eq_ok,
    List.forall_mem_cons, List.not_mem_nil, false_implies, implies_true, and_true]
  constructor
  · intro h
    obtain ⟨fields, ⟨rfl, hw⟩, _, h₁, _, h₂, _, h₃, rfl⟩ := h
    exact ⟨fields, rfl, hw, h₁, h₂, h₃⟩
  · intro h
    obtain ⟨fields, rfl, hw, h₁, h₂, h₃⟩ := h
    exact ⟨fields, ⟨rfl, hw⟩, _, h₁, _, h₂, _, h₃, rfl⟩

theorem parseCleanup_ok {runId : RunId} {v : Option JsValue} {c : CleanupReceipt} :
    parseCleanup runId v = .ok c ↔ (c.runId.any (· ≠ runId)) = false ∧
      ∃ fields, v = some (.object fields) ∧ fields.length ≤ maxCollectionEntries ∧
        ∀ e ∈ c.entries, get? fields e.1 = e.2 := by
  have hrun : ∀ (v : Option JsValue) (r : Option RunId), optionalField v parseRunId = .ok r ↔
      v = r.map fun id => .string id.1 := fun _ _ => optional_ok fun _ _ => parseRunId_ok
  have hdetail : ∀ (v : Option JsValue) (r : Option Text),
      optionalField v (text · "detail") = .ok r ↔ v = r.map fun d => .string d.1 :=
    fun _ _ => optional_ok fun _ _ => text_ok
  unfold parseCleanup CleanupReceipt.entries
  simp only [bind_eq_ok, liftSafe_ok, readSafeRecordEnvelope_ok, cleanupStatus_ok, hrun,
    List.forall_mem_cons, List.not_mem_nil, false_implies, implies_true, and_true]
  constructor
  · intro h
    obtain ⟨fields, ⟨rfl, hw⟩, _, h₁, _, h₂, h⟩ := h
    split at h
    · cases h
    · rename_i hmatch
      simp only [bind_eq_ok, text_ok, boolean_ok, timestamp_ok, hdetail, pure_eq_ok] at h
      obtain ⟨_, h₃, _, h₄, _, h₅, _, h₆, rfl⟩ := h
      exact ⟨Bool.eq_false_iff.mpr hmatch, fields, rfl, hw, h₂, h₃, h₁, h₄, h₅, h₆⟩
  · intro h
    obtain ⟨hmatch, fields, rfl, hw, h₂, h₃, h₁, h₄, h₅, h₆⟩ := h
    refine ⟨fields, ⟨rfl, hw⟩, _, h₁, _, h₂, ?_⟩
    rw [if_neg (Bool.eq_false_iff.mp hmatch)]
    simp only [bind_eq_ok, text_ok, boolean_ok, timestamp_ok, hdetail, pure_eq_ok]
    exact ⟨_, h₃, _, h₄, _, h₅, _, h₆, rfl⟩

theorem stringPair_rereads : Rereads stringPair SnapshotRef.toValue :=
  rereads_object (fun a => by simp [SnapshotRef.entries]) fun _ _ => stringPair_ok

theorem parseArtifact_rereads : Rereads parseArtifact Artifact.toValue :=
  rereads_object (fun a => by simp [Artifact.entries]) fun _ _ => parseArtifact_ok

theorem parseError_rereads : Rereads parseError ExecutionError.toValue :=
  rereads_object (fun a => by simp [ExecutionError.entries]) fun _ _ => parseError_ok

theorem parseCleanup_rereads (runId : RunId) :
    Rereads (parseCleanup runId) CleanupReceipt.toValue := by
  intro v c hp
  obtain ⟨hmatch, fields, rfl, hwidth, hread⟩ := parseCleanup_ok.mp hp
  have hnd : (c.entries.map Prod.fst).Nodup := by simp [CleanupReceipt.entries]
  have hkept : FewerFields (defined c.entries) fields := by
    refine .defined hnd fun e he w hw => ⟨w, ?_, .refl _⟩
    rw [hread e he, hw]
  refine ⟨parseCleanup_ok.mpr ⟨hmatch, _, rfl, le_trans hkept.width hwidth, fun e he => ?_⟩, _,
    rfl, Smaller.object hkept⟩
  exact get?_defined_of_mem hnd he

theorem parseResult_exact {runId : RunId} {status : RunStatus} {v : Option JsValue} {r : Record}
    (h : parseResult runId status v = .ok r) : v = some r.toValue := by
  unfold parseResult at h
  simp only [bind_eq_ok, record_ok] at h
  obtain ⟨value, hvalue, id, -, h⟩ := h
  split at h
  · cases h
  · split at h
    · cases h
    · split at h
      · cases h
      · simp only [bind_eq_ok, pure_eq_ok] at h
        obtain ⟨_, -, rfl⟩ := h
        exact hvalue

theorem parseArtifacts_rereads :
    Rereads parseArtifacts fun artifacts => .array (artifacts.map Artifact.toValue) := by
  intro v artifacts hp
  unfold parseArtifacts at hp
  simp only [bind_eq_ok, liftSafe_ok, readSafeArrayEnvelope_ok] at hp
  obtain ⟨items, ⟨rfl, hwidth⟩, hmap⟩ := hp
  have hall : ∀ (items : List JsValue) (artifacts : List Artifact),
      items.mapM (fun item => parseArtifact (some item)) = .ok artifacts →
      (artifacts.map Artifact.toValue).mapM (fun item => parseArtifact (some item)) =
        .ok artifacts ∧ List.Forall₂ Smaller (artifacts.map Artifact.toValue) items := by
    intro items
    induction items with
    | nil =>
      intro artifacts hmap
      simp only [List.mapM_nil, pure_eq_ok] at hmap
      subst hmap
      exact ⟨rfl, .nil⟩
    | cons item items ih =>
      intro artifacts hmap
      simp only [List.mapM_cons, bind_eq_ok, pure_eq_ok] at hmap
      obtain ⟨a, ha, rest, hrest, rfl⟩ := hmap
      obtain ⟨hback, w, hw, hsmall⟩ := parseArtifact_rereads _ _ ha
      obtain ⟨hmap', hforall⟩ := ih rest hrest
      cases hw
      refine ⟨?_, .cons hsmall hforall⟩
      simp only [List.map_cons, List.mapM_cons, bind_eq_ok, pure_eq_ok]
      exact ⟨a, hback, rest, hmap', rfl⟩
  obtain ⟨hback, hforall⟩ := hall items artifacts hmap
  refine ⟨?_, _, rfl, .array hforall⟩
  unfold parseArtifacts
  simp only [bind_eq_ok, liftSafe_ok, readSafeArrayEnvelope_ok]
  refine ⟨_, ⟨rfl, ?_⟩, hback⟩
  rw [hforall.length_eq]
  exact hwidth

theorem RawRun.keys_nodup (r : RawRun) : (r.entries.map Prod.fst).Nodup := by
  simp [RawRun.entries]

theorem parseSchema_ok {value : Option JsValue} {u : Unit} :
    parseSchema value = .ok u ↔ value = some schemaVersion := by
  unfold parseSchema schemaVersion
  split
  · split
    · rename_i s h
      simp [h]
    · rename_i s h
      simp [fail, h]
  · rename_i h
    simp only [fail, reduceCtorEq, false_iff]
    exact fun heq => h _ heq

/-- How the properties of a raw record read as a record. -/
structure ReadsAs (raw : RawRun) (r : StoredRunRecord) : Prop where
  schemaVersion : raw.schemaVersion = some schemaVersion
  revision : raw.revision = some (.number r.revision.1)
  requestId : raw.requestId = some (.string r.requestId.1)
  fingerprint : raw.fingerprint = some (.string r.fingerprint.1)
  runId : raw.runId = some (.string r.runId.1)
  testId : raw.testId = some (.string r.testId.1)
  status : raw.status = some (.string r.status.name)
  snapshot : stringPair raw.snapshot = .ok r.snapshot
  parameters : raw.parameters = some r.parameters.toValue
  artifacts : parseArtifacts raw.artifacts = .ok r.artifacts
  result : optionalField raw.result (parseResult r.runId r.status) = .ok r.result
  cleanup : optionalField raw.cleanup (parseCleanup r.runId) = .ok r.cleanup
  workspaceRelease : optionalField raw.workspaceRelease (parseCleanup r.runId) =
    .ok r.workspaceRelease
  outcome : raw.outcome = some (outcomeValue r.outcome)
  createdAt : raw.createdAt = some (.string r.createdAt.1)
  updatedAt : raw.updatedAt = some (.string r.updatedAt.1)
  startedAt : raw.startedAt = r.startedAt.map fun t => .string t.1
  finishedAt : raw.finishedAt = r.finishedAt.map fun t => .string t.1
  taskId : raw.taskId = r.taskId.map fun id => .string id.1
  executionLinks : raw.executionLinks = r.executionLinks.map Record.toValue
  error : optionalField raw.error parseError = .ok r.error
  tainted : raw.tainted = some (.boolean r.tainted)

theorem parseRaw_ok {raw : RawRun} {r : StoredRunRecord} :
    parseRaw raw = .ok r ↔ ReadsAs raw r := by
  have htime : ∀ (label : String) (v : Option JsValue) (t : Option Timestamp),
      optionalField v (timestamp · label) = .ok t ↔ v = t.map fun t => .string t.1 :=
    fun _ _ _ => optional_ok fun _ _ => timestamp_ok
  have htask : ∀ (v : Option JsValue) (t : Option TaskId), optionalField v parseTaskId = .ok t ↔
      v = t.map fun t => .string t.1 := fun _ _ => optional_ok fun _ _ => parseTaskId_ok
  have hlinks : ∀ (v : Option JsValue) (r : Option Record),
      optionalField v (record · "executionLinks") = .ok r ↔ v = r.map Record.toValue :=
    fun _ _ => optional_ok fun _ _ => record_ok
  unfold parseRaw
  simp only [bind_eq_ok, pure_eq_ok, parseSchema_ok, integer_ok, requestKey_ok, sha_ok,
    parseRunId_ok, parseTestId_ok, runStatus_ok, record_ok, outcome_ok, timestamp_ok, htime,
    htask, hlinks, boolean_ok]
  constructor
  · intro h
    obtain ⟨_, h₁, _, h₂, _, h₃, _, h₄, _, h₅, _, h₆, _, h₇, _, h₈, _, h₉, _, h₁₀, _, h₁₁, _,
      h₁₂, _, h₁₃, _, h₁₄, _, h₁₅, _, h₁₆, _, h₁₇, _, h₁₈, _, h₁₉, _, h₂₀, _, h₂₁, _, h₂₂,
      rfl⟩ := h
    exact ⟨h₁, h₂, h₃, h₄, h₅, h₆, h₇, h₈, h₉, h₁₀, h₁₁, h₁₂, h₁₃, h₁₄, h₁₅, h₁₆, h₁₇, h₁₈, h₁₉,
      h₂₀, h₂₁, h₂₂⟩
  · intro h
    exact ⟨(), h.schemaVersion, _, h.revision, _, h.requestId, _, h.fingerprint, _, h.runId, _,
      h.testId, _, h.status, _, h.snapshot, _, h.parameters, _, h.artifacts, _, h.result, _,
      h.cleanup, _, h.workspaceRelease, _, h.outcome, _, h.createdAt, _, h.updatedAt, _,
      h.startedAt, _, h.finishedAt, _, h.taskId, _, h.executionLinks, _, h.error, _, h.tainted,
      rfl⟩

theorem parseResult_rereads (runId : RunId) (status : RunStatus) :
    Rereads (parseResult runId status) Record.toValue :=
  .of_exact fun _ _ => parseResult_exact

/-- The record that was parsed reads back from what it is written as. -/
theorem ReadsAs.toRaw {raw : RawRun} {r : StoredRunRecord} (h : ReadsAs raw r) :
    ReadsAs r.toRaw r where
  schemaVersion := rfl
  revision := rfl
  requestId := rfl
  fingerprint := rfl
  runId := rfl
  testId := rfl
  status := rfl
  snapshot := (stringPair_rereads _ _ h.snapshot).1
  parameters := rfl
  artifacts := (parseArtifacts_rereads _ _ h.artifacts).1
  result := ((parseResult_rereads _ _).optional h.result).1
  cleanup := ((parseCleanup_rereads _).optional h.cleanup).1
  workspaceRelease := ((parseCleanup_rereads _).optional h.workspaceRelease).1
  outcome := rfl
  createdAt := rfl
  updatedAt := rfl
  startedAt := rfl
  finishedAt := rfl
  taskId := rfl
  executionLinks := rfl
  error := (parseError_rereads.optional h.error).1
  tainted := rfl

theorem ofFields_toRaw (r : RawRun) : RawRun.ofFields (defined r.entries) = r := by
  have hget : ∀ e ∈ r.entries, get? (defined r.entries) e.1 = e.2 :=
    fun e he => get?_defined_of_mem r.keys_nodup he
  simp only [RawRun.entries, List.forall_mem_cons, List.not_mem_nil, false_implies, implies_true,
    and_true] at hget
  obtain ⟨h₁, h₂, h₃, h₄, h₅, h₆, h₇, h₈, h₉, h₁₀, h₁₁, h₁₂, h₁₃, h₁₄, h₁₅, h₁₆, h₁₇, h₁₈, h₁₉,
    h₂₀, h₂₁, h₂₂⟩ := hget
  simp only [RawRun.ofFields, RawRun.entries, h₁, h₂, h₃, h₄, h₅, h₆, h₇, h₈, h₉, h₁₀, h₁₁, h₁₂,
    h₁₃, h₁₄, h₁₅, h₁₆, h₁₇, h₁₈, h₁₉, h₂₀, h₂₁, h₂₂]

/-- What is written is no larger than what was read. -/
theorem ReadsAs.smaller {fields : Fields} {r : StoredRunRecord}
    (h : ReadsAs (.ofFields fields) r) : FewerFields (defined r.toRaw.entries) fields := by
  refine .defined r.toRaw.keys_nodup ?_
  simp only [RawRun.entries, List.forall_mem_cons, List.not_mem_nil, false_implies, implies_true,
    and_true]
  exact ⟨exact_smaller h.schemaVersion, exact_smaller h.revision, exact_smaller h.requestId,
    exact_smaller h.fingerprint, exact_smaller h.runId, stringPair_rereads.smaller h.snapshot,
    exact_smaller h.testId, exact_smaller h.parameters, exact_smaller h.status,
    exact_smaller h.outcome, parseArtifacts_rereads.smaller h.artifacts,
    exact_smaller h.createdAt, exact_smaller h.updatedAt, exact_smaller h.startedAt,
    exact_smaller h.finishedAt, exact_smaller h.taskId, exact_smaller h.executionLinks,
    ((parseResult_rereads _ _).optional h.result).2, (parseError_rereads.optional h.error).2,
    ((parseCleanup_rereads _).optional h.cleanup).2,
    ((parseCleanup_rereads _).optional h.workspaceRelease).2, exact_smaller h.tainted⟩

theorem parseStoredRun_ok {input : JsValue} {r : StoredRunRecord} :
    parseStoredRun input = .ok r ↔ Safe input ∧ ∃ fields, input = .object fields ∧
      fields.length ≤ maxCollectionEntries ∧ ReadsAs (.ofFields fields) r := by
  have hmap : ∀ x : Except Failure StoredRunRecord,
      x.mapError asCorruption = .ok r ↔ x = .ok r := by
    intro x
    cases x <;> simp [Except.mapError]
  unfold parseStoredRun
  simp only [hmap, bind_eq_ok, liftSafe_ok, cloneSafeData_ok, readSafeRecordEnvelope_ok,
    parseRaw_ok]
  constructor
  · intro h
    obtain ⟨_, ⟨rfl, hsafe⟩, fields, ⟨heq, hwidth⟩, hread⟩ := h
    cases heq
    exact ⟨hsafe, fields, rfl, hwidth, hread⟩
  · intro h
    obtain ⟨hsafe, fields, rfl, hwidth, hread⟩ := h
    exact ⟨_, ⟨rfl, hsafe⟩, fields, ⟨rfl, hwidth⟩, hread⟩

/-- A record that its own parser reads back. -/
def Storable (r : StoredRunRecord) : Prop := parseStoredRun r.toValue = .ok r

/-- The parser accepts what it accepted before. -/
theorem storable_of_parse {input : JsValue} {r : StoredRunRecord}
    (h : parseStoredRun input = .ok r) : Storable r := by
  obtain ⟨hsafe, fields, rfl, hwidth, hread⟩ := parseStoredRun_ok.mp h
  have hsmall := hread.smaller
  refine parseStoredRun_ok.mpr ⟨hsafe.smaller (Smaller.object hsmall), _, rfl,
    le_trans hsmall.width hwidth, ?_⟩
  rw [ofFields_toRaw]
  exact hread.toRaw

end SurfaceLoom.Service.StoredRun
