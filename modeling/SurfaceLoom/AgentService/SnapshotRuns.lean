import SurfaceLoom.AgentService.SnapshotSafety

/-! # The runs that use the snapshots

`PersistentRunService` dispatches each run on its own: the dispatch leases the snapshot
of its request, completes the lease with the receipt of the executor or with one of its
own, and releases the snapshot after a safe receipt. The store, the executor and the
clocks answer what they like, and the dispatches take turns at their awaits; a
cancellation shows only in these answers. The registry is then driven by its own calls
alone, so what it keeps holds of every run of the service. -/
namespace SurfaceLoom.Service.SnapshotRuns
open SurfaceLoom.Lib SurfaceLoom.Lib.Transition SurfaceLoom.Service.SafeData
open SurfaceLoom.Service.Validation SurfaceLoom.Service.StoredRun
open SurfaceLoom.Service.SnapshotLifecycle
open SurfaceLoom.Service.SnapshotSafety hiding Event next

/-! ## The answers a dispatch awaits -/

/-- What `#dispatch` reads of its request; `snapshotId` is that of `request.snapshot`. -/
structure Request where
  runId : String
  snapshotId : String
  workspace : WorkspaceSnapshot

/-- A result of the executor: what each reading of its `cleanup` gives, and each test of
a receipt that is no plain data. None is an exception. -/
structure Result where
  cleanup : Nat → Option JsValue
  unreadable : Nat → Option Bool

/-- A record of the store. -/
structure Current where
  status : RunStatus
  cleanup : Option JsValue

inductive Reply
  | rejected
  | fulfilled
  | executed (result : Result)
  | record (current : Option Current)
  | timedOut

/-! ## A dispatch -/

/-- The await where a dispatch is. `interrupting` is the reading of the record in
`#interrupt`. -/
inductive Awaits
  | markRunning
  | execute
  | current (result : Result)
  | release
  | finish
  | interrupting (cleanup : JsValue)
  | interrupt (cleanup : JsValue)
  | settled

structure Dispatch where
  request : Request
  lease : Option WorkspaceLease
  leaseCompleted : Bool
  awaits : Awaits

def interruptionCleanup (runId snapshotId attemptedAt : String) : JsValue :=
  .object [("runId", .string runId), ("snapshotId", .string snapshotId),
    ("status", .string "unconfirmed"), ("tainted", .boolean true),
    ("attemptedAt", .string attemptedAt),
    ("detail", .string
      "Owned process cleanup was not confirmed; workspace must remain quarantined.")]

def truthy (unreadable : Option Bool) : Option JsValue → Option Bool
  | none | some .null => some false
  | some (.boolean b) => some b
  | some (.number q) => some (decide (q ≠ 0))
  | some (.string s) => some (decide (s ≠ ""))
  | some (.array _) | some (.object _) => some true
  | some (.refused _) => unreadable

/-- `cleanupIsSafe`, of any value. -/
def cleanupIsSafe (unreadable : Option Bool) : JsValue → Option Bool
  | .null => none
  | .refused _ => unreadable
  | .object fields =>
    match get? fields "status" with
    | some (.refused _) => unreadable
    | some (.string status) =>
      if status = "unconfirmed" then some false
      else (truthy (unreadable.map not) (get? fields "tainted")).map not
    | _ => (truthy (unreadable.map not) (get? fields "tainted")).map not
  | _ => some true

namespace Dispatch

/-- The `catch` of `#dispatch`, up to its await; without a time stamp it throws itself. -/
def caught (d : Dispatch) (now : Option String) : Dispatch :=
  match now with
  | none => { d with awaits := .settled }
  | some attemptedAt => { d with
      awaits := .interrupting
        (interruptionCleanup d.request.runId d.request.snapshotId attemptedAt) }

/-- The `finally` after it. -/
def interrupted (dateParses : String → Bool) (r : Registry) (d : Dispatch) (cleanup : JsValue) :
    Registry × Dispatch :=
  match d.lease, d.leaseCompleted with
  | some lease, false => ((complete dateParses r lease cleanup).1, { d with awaits := .settled })
  | _, _ => (r, { d with awaits := .settled })

/-- `#dispatch` up to its first await. -/
def start (r : Registry) (request : Request) (clock : Nat → Option String) :
    Registry × Dispatch :=
  match acquire r request.workspace request.runId (clock 0) with
  | (r, .error _) => (r, caught ⟨request, none, false, .markRunning⟩ (clock 1))
  | (r, .ok lease) =>
    -- the time stamp for `markRunning`
    match clock 1 with
    | some _ => (r, ⟨request, some lease, false, .markRunning⟩)
    | none => (r, caught ⟨request, some lease, false, .markRunning⟩ (clock 2))

/-- The lease of an open run is completed, and after a safe receipt its snapshot is released. -/
def returnLease (dateParses : String → Bool) (r : Registry) (d : Dispatch) (lease : WorkspaceLease)
    (result : Result) (clock : Nat → Option String) : Registry × Dispatch :=
  match result.cleanup 1 with
  | none => (r, d.caught (clock 0))
  | some cleanup =>
    match complete dateParses r lease cleanup with
    | (r, .error _) => (r, d.caught (clock 0))
    | (r, .ok ()) =>
      let d := { d with leaseCompleted := true }
      match (result.cleanup 2).bind (cleanupIsSafe (result.unreadable 1)) with
      | none => (r, d.caught (clock 0))
      | some false => (r, { d with awaits := .finish })
      | some true =>
        ((release r d.request.workspace false (clock 0)).1, { d with awaits := .release })

/-- From the record of the run, read after the executor is done, to the next await. -/
def conclude (dateParses : String → Bool) (r : Registry) (d : Dispatch) (result : Result)
    (current : Option Current) (clock : Nat → Option String) : Registry × Dispatch :=
  match current with
  | none => (r, { d with awaits := .settled })
  | some current =>
    if current.status.terminal then
      match d.lease, current.cleanup with
      | some lease, some cleanup =>
        match complete dateParses r lease cleanup with
        | (r, .error _) => (r, d.caught (clock 0))
        | (r, .ok ()) => (r, { d with awaits := .settled })
      | _, _ => (r, { d with awaits := .settled })
    else
      -- `failClosedCleanup` keeps the receipt it reads
      match (result.cleanup 0).bind (cleanupIsSafe (result.unreadable 0)) with
      | none => (r, d.caught (clock 0))
      | some _ =>
        match d.lease with
        | none => (r, { d with awaits := .finish })
        | some lease => d.returnLease dateParses r lease result clock

/-- `#dispatch` from one await to the next. -/
def resume (dateParses : String → Bool) (r : Registry) (d : Dispatch) (reply : Reply)
    (clock : Nat → Option String) : Option (Registry × Dispatch) :=
  match d.awaits, reply with
  | .markRunning, .fulfilled => some (r, { d with awaits := .execute })
  | .execute, .executed result => some (r, { d with awaits := .current result })
  | .current result, .record current => some (d.conclude dateParses r result current clock)
  | .release, .fulfilled => some (r, { d with awaits := .finish })
  | .release, .timedOut =>
    -- the receipt of a release that did not settle has a time stamp
    match clock 0 with
    | some _ => some (r, { d with awaits := .finish })
    | none => some (r, d.caught (clock 1))
  | .finish, .fulfilled => some (r, { d with awaits := .settled })
  | .interrupting cleanup, .record none => some (d.interrupted dateParses r cleanup)
  | .interrupting cleanup, .record (some current) =>
    if current.status.terminal ∨ clock 0 = none then some (d.interrupted dateParses r cleanup)
    else some (r, { d with awaits := .interrupt cleanup })
  | .interrupting cleanup, .rejected => some (d.interrupted dateParses r cleanup)
  | .interrupt cleanup, .fulfilled => some (d.interrupted dateParses r cleanup)
  | .interrupt cleanup, .rejected => some (d.interrupted dateParses r cleanup)
  | .settled, _ => none
  | _, .rejected => some (r, d.caught (clock 0))
  | _, _ => none

end Dispatch

/-! ## The service -/

structure RunService where
  registry : Registry
  dispatches : List Dispatch

/-- `workspace` is a call of the registry by anyone else, or a removal that settles;
`started` is a start that reserved its run. -/
inductive Event
  | workspace (event : SnapshotSafety.Event)
  | started (request : Request) (clock : Nat → Option String)
  | settled (dispatch : Nat) (reply : Reply) (clock : Nat → Option String)

def next (dateParses : String → Bool) (s : RunService) : Event → Option RunService
  | .workspace event =>
    (SnapshotSafety.next dateParses s.registry event).map fun r => { s with registry := r }
  | .started request clock =>
    let (r, d) := Dispatch.start s.registry request clock
    some ⟨r, s.dispatches ++ [d]⟩
  | .settled dispatch reply clock =>
    match s.dispatches[dispatch]? with
    | none => none
    | some d =>
      (d.resume dateParses s.registry reply clock).map fun (r, d) =>
        ⟨r, s.dispatches.set dispatch d⟩

def service (dateParses : String → Bool) : System RunService Event :=
  .ofMachine ⟨.empty, []⟩ (next dateParses)

/-! ## The registry under the service -/

section
variable {dateParses : String → Bool} {r r' r'' : Registry}

/-- The registry got there by calls of its own. -/
def Driven (dateParses : String → Bool) (r r' : Registry) : Prop :=
  ∃ calls, (registry dateParses).Exec r calls r'

theorem Driven.refl (r : Registry) : Driven dateParses r r := ⟨[], .nil r⟩

theorem Driven.call (event : SnapshotSafety.Event)
    (h : SnapshotSafety.next dateParses r event = some r') : Driven dateParses r r' :=
  ⟨[event], .snoc (.nil r) h⟩

theorem Driven.trans (h : Driven dateParses r r') (h' : Driven dateParses r' r'') :
    Driven dateParses r r'' := by
  obtain ⟨calls, hexec⟩ := h
  obtain ⟨calls', hexec'⟩ := h'
  induction hexec' with
  | nil => exact ⟨calls, hexec⟩
  | snoc _ hstep ih =>
    obtain ⟨before, hbefore⟩ := ih
    exact ⟨_, hbefore.snoc hstep⟩

theorem driven_acquire (snapshot : WorkspaceSnapshot) (runId : String) (now : Option String) :
    Driven dateParses r (acquire r snapshot runId now).1 :=
  .call (.acquire snapshot runId now) rfl

theorem driven_complete (lease : WorkspaceLease) (cleanup : JsValue) :
    Driven dateParses r (complete dateParses r lease cleanup).1 :=
  .call (.complete lease cleanup) rfl

theorem driven_release (snapshot : WorkspaceSnapshot) (aborted : Bool) (now : Option String) :
    Driven dateParses r (release r snapshot aborted now).1 :=
  .call (.release snapshot aborted now) rfl

theorem interrupted_driven (d : Dispatch) (cleanup : JsValue) :
    Driven dateParses r (d.interrupted dateParses r cleanup).1 := by
  unfold Dispatch.interrupted
  split
  · exact driven_complete _ cleanup
  · exact .refl r

theorem start_driven (request : Request) (clock : Nat → Option String) :
    Driven dateParses r (Dispatch.start r request clock).1 := by
  have hacquire : Driven dateParses r
      (acquire r request.workspace request.runId (clock 0)).1 := driven_acquire ..
  unfold Dispatch.start
  generalize acquire r request.workspace request.runId (clock 0) = acquired at hacquire
  obtain ⟨r', outcome⟩ := acquired
  cases outcome with
  | error e => exact hacquire
  | ok lease =>
    simp only
    split
    · exact hacquire
    · exact hacquire

theorem returnLease_driven (d : Dispatch) (lease : WorkspaceLease) (result : Result)
    (clock : Nat → Option String) :
    Driven dateParses r (d.returnLease dateParses r lease result clock).1 := by
  unfold Dispatch.returnLease
  split
  · exact .refl r
  · rename_i cleanup _
    have hcomplete : Driven dateParses r (complete dateParses r lease cleanup).1 :=
      driven_complete lease cleanup
    generalize complete dateParses r lease cleanup = completed at hcomplete
    obtain ⟨r', outcome⟩ := completed
    cases outcome with
    | error e => exact hcomplete
    | ok =>
      simp only
      split
      · exact hcomplete
      · exact hcomplete
      · exact hcomplete.trans (driven_release ..)

theorem conclude_driven (d : Dispatch) (result : Result) (current : Option Current)
    (clock : Nat → Option String) :
    Driven dateParses r (d.conclude dateParses r result current clock).1 := by
  unfold Dispatch.conclude
  split
  · exact .refl r
  · rename_i current
    split
    · split
      · rename_i lease cleanup _ _
        have hcomplete : Driven dateParses r (complete dateParses r lease cleanup).1 :=
          driven_complete lease cleanup
        generalize complete dateParses r lease cleanup = completed at hcomplete
        obtain ⟨r', outcome⟩ := completed
        cases outcome with
        | error e => exact hcomplete
        | ok => exact hcomplete
      · exact .refl r
    · split
      · exact .refl r
      · split
        · exact .refl r
        · exact returnLease_driven d _ result clock

theorem resume_driven {d : Dispatch} {reply : Reply} {clock : Nat → Option String}
    {after : Registry × Dispatch} (h : d.resume dateParses r reply clock = some after) :
    Driven dateParses r after.1 := by
  unfold Dispatch.resume at h
  split at h
  · cases h
    exact .refl r
  · cases h
    exact .refl r
  · cases h
    exact conclude_driven ..
  · cases h
    exact .refl r
  · split at h
    · cases h
      exact .refl r
    · cases h
      exact .refl r
  · cases h
    exact .refl r
  · cases h
    exact interrupted_driven ..
  · split at h
    · cases h
      exact interrupted_driven ..
    · cases h
      exact .refl r
  · cases h
    exact interrupted_driven ..
  · cases h
    exact interrupted_driven ..
  · cases h
    exact interrupted_driven ..
  · cases h
  · cases h
    exact .refl r
  · cases h

/-- A step of the service is calls of the registry. -/
theorem next_driven {s t : RunService} {event : Event} (h : next dateParses s event = some t) :
    Driven dateParses s.registry t.registry := by
  cases event with
  | workspace event =>
    obtain ⟨r, hr, rfl⟩ := Option.map_eq_some_iff.mp h
    exact .call event hr
  | started request clock =>
    cases h
    exact start_driven request clock
  | settled dispatch reply clock =>
    unfold next at h
    simp only at h
    split at h
    · cases h
    · obtain ⟨⟨r, d⟩, hresume, rfl⟩ := Option.map_eq_some_iff.mp h
      exact resume_driven hresume

theorem exec_driven {s t : RunService} {events : List Event}
    (h : (service dateParses).Exec s events t) : Driven dateParses s.registry t.registry := by
  induction h with
  | nil => exact .refl _
  | snoc _ hstep ih => exact ih.trans (next_driven hstep)

/-- The registry of a service that runs is one that calls alone lead to. -/
theorem simulation (dateParses : String → Bool) :
    System.Simulation (service dateParses) (registry dateParses) fun s r => s.registry = r where
  init := by
    intro s hs
    cases hs
    exact ⟨.empty, rfl, rfl⟩
  step := by
    intro s event s' r _ _ hr hstep
    cases hr
    obtain ⟨calls, hcalls⟩ := next_driven hstep
    exact ⟨calls, s'.registry, hcalls, rfl⟩

theorem registry_reachable {s : RunService} (h : (service dateParses).Reachable s) :
    (registry dateParses).Reachable s.registry := by
  obtain ⟨r, hr, rfl⟩ := (simulation dateParses).reachable h
  exact hr

end

/-! ## Safety -/

theorem leases_phase (state : SnapshotState) :
    Phase.leases state.phase = state.activeLease.toList := by
  unfold SnapshotState.phase
  cases state.activeLease with
  | some lease => rfl
  | none =>
    simp only
    split
    · rfl
    · split
      · rfl
      · rfl

/-- What a snapshot is held to: its life is safe, the lease in the table is the one that is
out, and after a quarantine it is never leased or removed again. -/
structure SnapshotSafe (dateParses : String → Bool) (s : RunService) (id : String) : Prop where
  life : LifeSafe (marksOf id s.registry.log)
  leased : ∀ state, s.registry.snapshots.get? id = some state →
    held (marksOf id s.registry.log) = state.activeLease.toList
  quarantined : ∀ state, s.registry.snapshots.get? id = some state → state.quarantined = true →
    ∀ events t, (service dateParses).Exec s events t →
      marksOf id t.registry.log = marksOf id s.registry.log

theorem snapshots_safe (dateParses : String → Bool) (s : RunService)
    (hs : (service dateParses).Reachable s) : ∀ id, SnapshotSafe dateParses s id := by
  intro id
  have hreachable := registry_reachable hs
  have hcoherent := (coherent_invariant dateParses).reachable hreachable
  refine ⟨lifeSafe (hcoherent.history id), ?_, ?_⟩
  · intro state hget
    rw [(lifeSound (hcoherent.history id)).held, phase_of_get? hget, leases_phase]
  · intro state hget hquarantined events t hexec
    obtain ⟨calls, hcalls⟩ := exec_driven hexec
    have hafter := (coherent_invariant dateParses).reachable (hreachable.exec hcalls)
    exact hcoherent.quarantined hafter hget hquarantined (exec_log hcalls)

/-! ### A run whose executor is lost -/

def demoTime : String := "2026-01-01T00:00:00.000Z"

def demoParses (text : String) : Bool := decide (text = demoTime)

def demoWorkspace : WorkspaceSnapshot :=
  ⟨"operation-1", "snapshot-1", "main", "/workspaces/snapshot-1"⟩

def demoRequest : Request :=
  ⟨"run:00000000-0000-4000-8000-000000000001", "snapshot-1", demoWorkspace⟩

def demoLost : List Event :=
  [.workspace (.add demoWorkspace), .started demoRequest fun _ => some demoTime,
    .settled 0 .fulfilled fun _ => some demoTime, .settled 0 .rejected fun _ => some demoTime,
    .settled 0 (.record none) fun _ => some demoTime]

def quarantinedIn (s : RunService) (id : String) : Option Bool :=
  (s.registry.snapshots.get? id).map (·.quarantined)

theorem demoLost_quarantines :
    (System.replay (next demoParses) ⟨.empty, []⟩ demoLost).map (quarantinedIn · "snapshot-1") =
      some (some true) := by
  decide +kernel

theorem snapshots_safe_lost : ∃ s, (service demoParses).Reachable s ∧
    quarantinedIn s "snapshot-1" = some true ∧ SnapshotSafe demoParses s "snapshot-1" := by
  obtain ⟨s, hs, hquarantined⟩ := Option.map_eq_some_iff.mp demoLost_quarantines
  have hreachable := System.reachable_of_replay hs
  exact ⟨s, hreachable, hquarantined, snapshots_safe demoParses s hreachable "snapshot-1"⟩

end SurfaceLoom.Service.SnapshotRuns
