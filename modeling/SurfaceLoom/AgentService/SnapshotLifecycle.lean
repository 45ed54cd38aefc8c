import SurfaceLoom.Lib.OrderedMap
import SurfaceLoom.Lib.Transition
import SurfaceLoom.AgentService.StoredRun

/-! # Workspace snapshots and their leases

`SnapshotLifecycleRegistry` lends a snapshot to one run at a time and removes
its directory tree once. Each call works between two awaits; the removal itself
is done outside and settles later. A ghost log notes what happened to each
snapshot. -/
namespace SurfaceLoom.Service.SnapshotLifecycle
open SurfaceLoom.Lib SurfaceLoom.Service.SafeData SurfaceLoom.Service.Validation
open SurfaceLoom.Service.StoredRun

structure WorkspaceSnapshot where
  operationId : String
  snapshotId : String
  resolvedRevision : String
  rootPath : String
  deriving DecidableEq

structure WorkspaceLease where
  snapshotId : String
  runId : RunId
  generation : Nat
  acquiredAt : String
  deriving DecidableEq

/-- A receipt the registry writes itself. -/
structure ReleaseReceipt where
  runId : Option RunId
  snapshotId : String
  status : CleanupStatus
  tainted : Bool
  attemptedAt : String
  detail : Option String
  deriving DecidableEq

inductive WorkspaceError
  | unsafe_ (message : String)
  | invalidRunId
  | clock
  deriving DecidableEq

/-- What a promise of `release` came to. -/
inductive ReleasePromise
  | pending
  | resolved (receipt : ReleaseReceipt)
  | rejected (error : WorkspaceError)
  deriving DecidableEq

structure SnapshotState where
  snapshot : WorkspaceSnapshot
  activeLease : Option WorkspaceLease
  lastRunId : Option RunId
  quarantined : Bool
  releaseToken : Option Nat
  releasePromise : Option ReleasePromise

/-- What happened to one snapshot. `completed` says whether the receipt was safe,
`removed` whether the removal was confirmed. -/
inductive Mark
  | added
  | leased (lease : WorkspaceLease)
  | completed (lease : WorkspaceLease) (safe : Bool)
  | removing
  | removed (confirmed : Bool)
  deriving DecidableEq

/-- `removals` are the snapshots whose tree is being removed. -/
structure Registry where
  snapshots : OrderedMap String SnapshotState
  released : OrderedMap String ReleaseReceipt
  nextLeaseGeneration : Nat
  nextReleaseToken : Nat
  removals : List String
  log : List (String × Mark)

namespace Registry

def empty : Registry := ⟨.empty, .empty, 0, 0, [], []⟩

def mark (s : Registry) (id : String) (m : Mark) : Registry := { s with log := s.log ++ [(id, m)] }

def put (s : Registry) (id : String) (state : SnapshotState) : Registry :=
  { s with snapshots := s.snapshots.set id state }

end Registry

/-- `workspaceTimestamp`: a clock reading, or none for an invalid date. -/
def workspaceTimestamp (now : Option String) : Except WorkspaceError String :=
  match now with
  | some time => .ok time
  | none => .error .clock

def add (s : Registry) (snapshot : WorkspaceSnapshot) : Registry × Except WorkspaceError Unit :=
  if s.snapshots.has snapshot.snapshotId ∨ s.released.has snapshot.snapshotId then
    (s, .error (.unsafe_ "Workspace snapshot identity is not unique."))
  else
    ((s.put snapshot.snapshotId ⟨snapshot, none, none, false, none, none⟩).mark
      snapshot.snapshotId .added, .ok ())

/-- `#require`. -/
def require (s : Registry) (snapshot : WorkspaceSnapshot) : Except WorkspaceError SnapshotState :=
  match s.snapshots.get? snapshot.snapshotId with
  | none => .error (.unsafe_ "Workspace snapshot is unknown or mismatched.")
  | some state =>
    if state.snapshot.operationId ≠ snapshot.operationId ∨
        state.snapshot.rootPath ≠ snapshot.rootPath ∨
        state.snapshot.resolvedRevision ≠ snapshot.resolvedRevision then
      .error (.unsafe_ "Workspace snapshot is unknown or mismatched.")
    else .ok state

def acquire (s : Registry) (snapshot : WorkspaceSnapshot) (runId : String) (now : Option String) :
    Registry × Except WorkspaceError WorkspaceLease :=
  match require s snapshot with
  | .error e => (s, .error e)
  | .ok state =>
    match parseRunId (some (.string runId)) with
    | .error _ => (s, .error .invalidRunId)
    | .ok parsedRunId =>
      if state.quarantined ∨ state.activeLease.isSome ∨ state.releaseToken.isSome then
        (s, .error (.unsafe_
          "Workspace snapshot is active, releasing, or quarantined and cannot be leased."))
      else
        let generation := s.nextLeaseGeneration + 1
        let s := { s with nextLeaseGeneration := generation }
        match workspaceTimestamp now with
        | .error e => (s, .error e)
        | .ok acquiredAt =>
          let lease := ⟨snapshot.snapshotId, parsedRunId, generation, acquiredAt⟩
          ((s.put snapshot.snapshotId { state with activeLease := some lease }).mark
            snapshot.snapshotId (.leased lease), .ok lease)

/-- The evidence of a cleanup receipt that its lease can be completed with. -/
structure CleanupEvidence where
  status : CleanupStatus
  tainted : Bool
  deriving DecidableEq

def cleanupKeys : List String :=
  ["runId", "snapshotId", "status", "tainted", "attemptedAt", "detail"]

def requiredCleanupKeys : List String := ["runId", "snapshotId", "status", "tainted", "attemptedAt"]

/-- `assertExactKeys` for a cleanup receipt. -/
def exactCleanupKeys (value : JsValue) : Except WorkspaceError Fields :=
  match value with
  | .object fields =>
    if (fields.any fun e => e.1 ∉ cleanupKeys) ∨
        (requiredCleanupKeys.any fun key => (get? fields key).isNone) then
      .error (.unsafe_ "Workspace data has missing or unknown fields.")
    else .ok fields
  | _ => .error (.unsafe_ "Workspace data has missing or unknown fields.")

def cleanupInvalid : WorkspaceError := .unsafe_ "Workspace cleanup evidence is invalid."

/-- `dateParses` tells which texts `Date.parse` takes. -/
def readEvidence (dateParses : String → Bool) (fields : Fields) :
    Except WorkspaceError CleanupEvidence :=
  match parseCleanupStatus, get? fields "tainted", get? fields "attemptedAt",
      get? fields "detail" with
  | .ok status, some (.boolean tainted), some (.string attemptedAt), none =>
    if dateParses attemptedAt then .ok ⟨status, tainted⟩ else .error cleanupInvalid
  | .ok status, some (.boolean tainted), some (.string attemptedAt), some (.string _) =>
    if dateParses attemptedAt then .ok ⟨status, tainted⟩ else .error cleanupInvalid
  | _, _, _, _ => .error cleanupInvalid
where
  parseCleanupStatus : Except Failure CleanupStatus :=
    named CleanupStatus.name CleanupStatus.all (get? fields "status") ""

def readCleanup (dateParses : String → Bool) (cleanup : JsValue) (lease : WorkspaceLease) :
    Except WorkspaceError CleanupEvidence :=
  match cloneSafeData cleanup with
  | .error _ => .error (.unsafe_ "Workspace cleanup evidence is not safe data.")
  | .ok value =>
    match exactCleanupKeys value with
    | .error e => .error e
    | .ok fields =>
      match parseRunId (get? fields "runId") with
      | .error _ => .error (.unsafe_ "Workspace cleanup runId is invalid.")
      | .ok runId =>
        match get? fields "snapshotId" with
        | some (.string snapshotId) =>
          if runId ≠ lease.runId ∨ snapshotId ≠ lease.snapshotId then
            .error (.unsafe_ "Workspace cleanup evidence does not match its lease identities.")
          else readEvidence dateParses fields
        | _ =>
          .error (.unsafe_ "Workspace cleanup evidence does not match its lease identities.")

/-- A receipt is unsafe when it does not confirm the cleanup. -/
def CleanupEvidence.safe (e : CleanupEvidence) : Bool :=
  !(e.status = .unconfirmed || e.tainted)

def complete (dateParses : String → Bool) (s : Registry) (lease : WorkspaceLease)
    (cleanup : JsValue) : Registry × Except WorkspaceError Unit :=
  match s.snapshots.get? lease.snapshotId with
  | none => (s, .error (.unsafe_ "Workspace lease is not active."))
  | some state =>
    match state.activeLease with
    | none => (s, .error (.unsafe_ "Workspace lease is not active."))
    | some active =>
      if active.runId ≠ lease.runId ∨ active.generation ≠ lease.generation ∨
          active.acquiredAt ≠ lease.acquiredAt then
        (s, .error (.unsafe_ "Workspace lease is not active."))
      else
        match readCleanup dateParses cleanup lease with
        | .error e => (s, .error e)
        | .ok evidence =>
          ((s.put lease.snapshotId { state with
              activeLease := none
              lastRunId := some lease.runId
              quarantined := !evidence.safe }).mark
            lease.snapshotId (.completed active evidence.safe), .ok ())

def cleanupReceipt (state : SnapshotState) (attemptedAt : String) (status : CleanupStatus)
    (tainted : Bool) (detail : Option String) : ReleaseReceipt :=
  ⟨state.lastRunId, state.snapshot.snapshotId, status, tainted, attemptedAt, detail⟩

/-- `#unconfirmed`, as the outcome of a promise. -/
def unconfirmed (state : SnapshotState) (now : Option String) (detail : String) : ReleasePromise :=
  match workspaceTimestamp now with
  | .error e => .rejected e
  | .ok attemptedAt => .resolved (cleanupReceipt state attemptedAt .unconfirmed true (some detail))

/-- `#releaseReady` up to its await: the removal of the tree starts, unless
something changed since the release was checked. -/
def releaseReady (s : Registry) (state : SnapshotState) (aborted : Bool) (releaseToken : Nat)
    (now : Option String) : Registry × ReleasePromise :=
  let id := state.snapshot.snapshotId
  if aborted ∨ state.releaseToken ≠ some releaseToken ∨ state.activeLease.isSome ∨
      state.quarantined then
    let promise := unconfirmed state now "Snapshot release safety changed before removal."
    (s.put id { state with quarantined := true, releasePromise := some promise }, promise)
  else
    ({ (s.put id { state with releasePromise := some .pending }).mark id .removing with
      removals := s.removals ++ [id] }, .pending)

def release (s : Registry) (snapshot : WorkspaceSnapshot) (aborted : Bool) (now : Option String) :
    Registry × ReleasePromise :=
  match s.released.get? snapshot.snapshotId with
  | some receipt => (s, .resolved receipt)
  | none =>
    match require s snapshot with
    | .error e => (s, .rejected e)
    | .ok state =>
      if state.activeLease.isSome ∨ state.quarantined ∨ aborted then
        (s, unconfirmed state now <|
          if aborted then "Snapshot release was aborted."
          else if state.activeLease.isSome then "Snapshot still has an active run lease."
          else "Snapshot is quarantined by unconfirmed cleanup evidence.")
      else
        match state.releasePromise with
        | some promise => (s, promise)
        | none =>
          let token := s.nextReleaseToken + 1
          releaseReady { s with nextReleaseToken := token }
            { state with releaseToken := some token } aborted token now

/-- `#releaseReady` after its await: `ok` says whether the tree was removed. -/
def removalSettled (s : Registry) (id : String) (ok : Bool) (now later : Option String) :
    Registry :=
  let s := { s with removals := s.removals.erase id }
  match s.snapshots.get? id with
  | none => s
  | some state =>
    match ok, workspaceTimestamp now with
    | true, .ok attemptedAt =>
      { s with
        snapshots := s.snapshots.erase id
        released := s.released.set id (cleanupReceipt state attemptedAt .confirmed false none)
        log := s.log ++ [(id, .removed true)] }
    | _, _ =>
      (s.put id { state with
        quarantined := true
        releasePromise := some (unconfirmed state later
          "Snapshot removal could not be confirmed.") }).mark id (.removed false)

/-! ## The life of one snapshot -/

inductive Phase
  | absent
  | idle
  | leased (lease : WorkspaceLease)
  | removing
  | quarantined
  | released
  deriving DecidableEq

/-- What may happen to a snapshot in each phase of its life. -/
def Phase.next : Phase → Mark → Option Phase
  | .absent, .added => some .idle
  | .idle, .leased lease => some (.leased lease)
  | .leased lease, .completed lease' safe =>
    if lease' = lease then some (if safe then .idle else .quarantined) else none
  | .idle, .removing => some .removing
  | .removing, .removed confirmed => some (if confirmed then .released else .quarantined)
  | _, _ => none

/-- From here on a snapshot is neither leased nor removed. -/
def Phase.closed : Phase → Bool
  | .removing | .quarantined | .released => true
  | .absent | .idle | .leased _ => false

def marksOf (id : String) (log : List (String × Mark)) : List Mark :=
  (log.filter (·.1 = id)).map Prod.snd

def SnapshotState.phase (state : SnapshotState) : Phase :=
  match state.activeLease with
  | some lease => .leased lease
  | none =>
    if state.quarantined then .quarantined
    else if state.releaseToken.isSome then .removing
    else .idle

def Registry.phase (s : Registry) (id : String) : Phase :=
  match s.snapshots.get? id with
  | some state => state.phase
  | none => if s.released.has id then .released else .absent

end SurfaceLoom.Service.SnapshotLifecycle
