import SurfaceLoom.Lib.OrderedMap
import SurfaceLoom.AgentService.CommandSafety

/-! # The executor of registered commands

`CommandExecutor` holds one entry for each run id it was asked to execute, and
each entry is a run of its own. Calls and the events of all runs interleave. -/
namespace SurfaceLoom.Service.CommandExecutor
open SurfaceLoom.Lib SurfaceLoom.Lib.Transition SurfaceLoom.Service.Validation
open SurfaceLoom.Service.StoredRun SurfaceLoom.Service.CommandRun
open SurfaceLoom.Service.CommandSafety

/-! ## State and calls -/

inductive Progress
  | noProcess (result : CommandRunResult)
  | running (x : Context) (run : Run x)

namespace Progress

def result : Progress → Option CommandRunResult
  | .noProcess result => some result
  | .running _ run =>
    match run.stage with
    | .finished result _ => some result
    | _ => none

def processes : Progress → Nat
  | .noProcess _ => 0
  | .running _ run => run.processes

/-- The signal of the run, aborted. -/
def abort (r : Readings) : Progress → Progress
  | .noProcess result => .noProcess result
  | .running x run => .running x ((next run (r, .abort)).getD run)

end Progress

structure RunEntry where
  fingerprint : String
  request : ExecuteRequest
  /-- Whether the signal was aborted when the run began. -/
  aborted : Bool
  terminal : Bool
  progress : Progress

/-- `processes` names the run of each process that came into existence. -/
structure Executor where
  runs : OrderedMap RunId RunEntry
  processes : List RunId

/-- The synchronous part of `#run`. -/
def begin (id : String) (config : Config) (request : ExecuteRequest) (aborted : Bool)
    (startedAt : String) (r : Readings) : Progress :=
  match config.commands.find? (·.testId = request.testId) with
  | none => .noProcess (notRegistered none)
  | some command =>
    if command.executorId ≠ request.executorId ∨ command.executorId ≠ id then
      .noProcess (notRegistered (some command))
    else
      .running ⟨config, request, command, startedAt, r.now + command.timeoutMs⟩
        (started _ aborted r)
where
  notRegistered (command : Option RegisteredCommand) : CommandRunResult :=
    noProcessResult request command startedAt r r.now .infrastructure .failed .commandNotRegistered
      "No exact registered command matches this test and executor."

def newEntry (id : String) (config : Config) (request : ExecuteRequest) (fingerprint : String)
    (aborted : Bool) (startedAt : String) (r : Readings) : RunEntry :=
  ⟨fingerprint, request, aborted, false, begin id config request aborted startedAt r⟩

/-- The answer is the promise of the run, or a rejection. -/
def execute (id : String) (config : Config) (s : Executor) (request : ExecuteRequest)
    (fingerprint : String) (aborted : Bool) (startedAt : String) (r : Readings) :
    Executor × Except String RunId :=
  match s.runs.get? request.runId with
  | some existing =>
    (s, if existing.fingerprint ≠ fingerprint then
      .error ("runId " ++ request.runId.1 ++ " was already used for another request.")
    else .ok request.runId)
  | none =>
    let entry := newEntry id config request fingerprint aborted startedAt r
    ({ s with runs := s.runs.set request.runId entry }, .ok request.runId)

inductive Disposition
  | notFound
  | alreadyTerminal
  | accepted
  deriving DecidableEq

def Executor.abort (s : Executor) (runId : RunId) (entry : RunEntry) (r : Readings) : Executor :=
  { s with runs := s.runs.set runId { entry with progress := entry.progress.abort r } }

def cancel (s : Executor) (runId : RunId) (r : Readings) : Executor × Disposition :=
  match s.runs.get? runId with
  | none => (s, .notFound)
  | some entry =>
    if entry.terminal then (s, .alreadyTerminal) else (s.abort runId entry r, .accepted)

inductive CleanupAnswer
  | receipt (cleanup : RunCleanup)
  | ofRun (runId : RunId)

def cleanup (s : Executor) (runId : RunId) (snapshot : WorkspaceSnapshot) (r : Readings) :
    Executor × CleanupAnswer :=
  match s.runs.get? runId with
  | none =>
    (s, .receipt ⟨runId, snapshot.snapshotId, .notRequired, false, r.attemptedAt, none⟩)
  | some entry =>
    if entry.request.workspace ≠ snapshot then
      (s, .receipt ⟨runId, snapshot.snapshotId, .unconfirmed, true, r.attemptedAt,
        some "Cleanup request workspace identity does not match the recorded execution."⟩)
    else (s.abort runId entry r, .ofRun runId)

inductive Call
  | execute (request : ExecuteRequest) (fingerprint : String) (aborted : Bool)
      (startedAt : String) (r : Readings)
  | cancel (runId : RunId) (r : Readings)
  | cleanup (runId : RunId) (snapshot : WorkspaceSnapshot) (r : Readings)
  /-- The signal the first `execute` of a run was given. -/
  | signalAborted (runId : RunId) (r : Readings)
  | run (runId : RunId) (r : Readings) (event : Event)
  /-- The promise of a run settles the entry. -/
  | settled (runId : RunId)

def isAbort : Event → Bool
  | .abort => true
  | _ => false

/-- One event of one run. -/
def advance (s : Executor) (runId : RunId) (r : Readings) (event : Event) : Option Executor :=
  match s.runs.get? runId with
  | none => none
  | some entry =>
    match entry.progress with
    | .noProcess _ => none
    | .running x run =>
      if isAbort event then none
      else (next run (r, event)).map fun run' =>
        { runs := s.runs.set runId { entry with progress := .running x run' }
          processes := s.processes ++ List.replicate (run'.processes - run.processes) runId }

def step (id : String) (config : Config) (s : Executor) : Call → Option Executor
  | .execute request fingerprint aborted startedAt r =>
    some (execute id config s request fingerprint aborted startedAt r).1
  | .cancel runId r => some (cancel s runId r).1
  | .cleanup runId snapshot r => some (cleanup s runId snapshot r).1
  | .signalAborted runId r => (s.runs.get? runId).map fun entry => s.abort runId entry r
  | .run runId r event => advance s runId r event
  | .settled runId =>
    match s.runs.get? runId with
    | none => none
    | some entry =>
      if entry.progress.result.isSome then
        some { s with runs := s.runs.set runId { entry with terminal := true } }
      else none

def executor (id : String) (config : Config) : System Executor Call :=
  .ofMachine ⟨.empty, []⟩ (step id config)

/-! ## What one call does -/

variable {id : String} {config : Config} {s t : Executor} {c : Call}

/-- A call leaves the runs as they are, begins one, settles one or takes one step
of one. -/
inductive Effect (id : String) (config : Config) (s : Executor) (c : Call) : Executor → Prop
  | same : Effect id config s c s
  | began (request : ExecuteRequest) (fingerprint : String) (aborted : Bool) (startedAt : String)
      (r : Readings) : s.runs.get? request.runId = none →
      Effect id config s c { s with
        runs := s.runs.set request.runId
          (newEntry id config request fingerprint aborted startedAt r) }
  | settled (runId : RunId) (entry : RunEntry) (terminal : Bool) :
      s.runs.get? runId = some entry →
      Effect id config s c { s with runs := s.runs.set runId { entry with terminal := terminal } }
  | moved (runId : RunId) (entry : RunEntry) (x : Context) (run run' : Run x) (r : Readings)
      (event : Event) : s.runs.get? runId = some entry → entry.progress = .running x run →
      next run (r, event) = some run' → (event = .abort ∨ c = .run runId r event) →
      Effect id config s c
        { runs := s.runs.set runId { entry with progress := .running x run' }
          processes := s.processes ++ List.replicate (run'.processes - run.processes) runId }

theorem next_abort {x : Context} (run : Run x) (r : Readings) :
    ∃ run', next run (r, .abort) = some run' ∧ run'.processes = run.processes := by
  refine ⟨_, rfl, ?_⟩
  split <;> rfl

theorem abort_effect {runId : RunId} {entry : RunEntry} (r : Readings)
    (h : s.runs.get? runId = some entry) : Effect id config s c (s.abort runId entry r) := by
  unfold Executor.abort
  obtain ⟨fingerprint, request, aborted, terminal, progress⟩ := entry
  cases progress with
  | noProcess result =>
    have hsame : Effect id config s c _ :=
      .settled runId ⟨fingerprint, request, aborted, terminal, .noProcess result⟩ terminal h
    exact hsame
  | running x run =>
    obtain ⟨run', hnext, hprocesses⟩ := next_abort run r
    have hmoved : Effect id config s c _ :=
      .moved runId ⟨fingerprint, request, aborted, terminal, .running x run⟩ x run run' r .abort h
        rfl hnext (.inl rfl)
    simpa [Progress.abort, hnext, hprocesses] using hmoved

theorem step_effect (h : step id config s c = some t) : Effect id config s c t := by
  cases c with
  | execute request fingerprint aborted startedAt r =>
    cases h
    unfold execute
    split
    · exact .same
    · rename_i hnone
      exact .began request fingerprint aborted startedAt r hnone
  | cancel runId r =>
    cases h
    unfold cancel
    split
    · exact .same
    · rename_i entry hentry
      split
      · exact .same
      · exact abort_effect r hentry
  | cleanup runId snapshot r =>
    cases h
    unfold cleanup
    split
    · exact .same
    · rename_i entry hentry
      split
      · exact .same
      · exact abort_effect r hentry
  | signalAborted runId r =>
    obtain ⟨entry, hentry, rfl⟩ := Option.map_eq_some_iff.mp h
    exact abort_effect r hentry
  | run runId r event =>
    simp only [step, advance] at h
    split at h
    · cases h
    · rename_i entry hentry
      split at h
      · cases h
      · rename_i x run hprogress
        split at h
        · cases h
        · obtain ⟨run', hnext, rfl⟩ := Option.map_eq_some_iff.mp h
          exact .moved runId entry x run run' r event hentry hprogress hnext (.inr rfl)
  | settled runId =>
    simp only [step] at h
    split at h
    · cases h
    · rename_i entry hentry
      split at h
      · cases h
        exact .settled runId entry true hentry
      · cases h

/-! ## Every run of the executor -/

/-- Each entry is a run that the machine of one run can make, all of whose steps
meet a condition. -/
structure Tracks (C : ∀ x : Context, Run x → Readings × Event → Prop) (s : Executor) : Prop where
  runs : ∀ runId entry x run, s.runs.get? runId = some entry → entry.progress = .running x run →
    ∃ r, ((command x entry.aborted r).restrict (C x)).Reachable run
  processes : ∀ runId,
    s.processes.count runId = (s.runs.get? runId).elim 0 fun entry => entry.progress.processes
  without : ∀ runId entry result, s.runs.get? runId = some entry →
    entry.progress = .noProcess result → result.outcome = none

theorem begin_processes (request : ExecuteRequest) (aborted : Bool) (startedAt : String)
    (r : Readings) : (begin id config request aborted startedAt r).processes = 0 := by
  unfold begin
  split
  · rfl
  · split
    · rfl
    · cases aborted <;> rfl

theorem begin_running {request : ExecuteRequest} {aborted : Bool} {startedAt : String}
    {r : Readings} {x : Context} {run : Run x}
    (h : begin id config request aborted startedAt r = .running x run) :
    run = started x aborted r := by
  unfold begin at h
  split at h
  · cases h
  · split at h
    · cases h
    · cases h
      rfl

theorem begin_noProcess {request : ExecuteRequest} {aborted : Bool} {startedAt : String}
    {r : Readings} {result : CommandRunResult}
    (h : begin id config request aborted startedAt r = .noProcess result) :
    result.outcome = none := by
  unfold begin at h
  split at h
  · cases h
    rfl
  · split at h
    · cases h
      rfl
    · cases h

variable {C : ∀ x : Context, Run x → Readings × Event → Prop}

/-- The conditions of the runs, as a condition on a call. -/
def Meets (C : ∀ x : Context, Run x → Readings × Event → Prop) (s : Executor) (c : Call) : Prop :=
  ∀ runId r event entry x run, c = .run runId r event → s.runs.get? runId = some entry →
    entry.progress = .running x run → C x run (r, event)

theorem Sound.next_processes {x : Context} {aborted : Bool} {run run' : Run x}
    {r : Readings} {event : Event} (hs : Sound x aborted run)
    (h : next run (r, event) = some run') : run.processes ≤ run'.processes := by
  obtain ⟨u, hu, rfl⟩ := next_spec h
  cases step_does hs hu with
  | abort | fresh | expired | child => exact Nat.le_refl _
  | spawned registered child hstage => exact Nat.le_add_right _ _
  | moved hopen hchild habort hm => exact Nat.le_of_eq hm.processes.symm

theorem Tracks.init : Tracks C ⟨.empty, []⟩ where
  runs _ _ _ _ hentry := nomatch hentry
  processes _ := rfl
  without _ _ _ hentry := nomatch hentry

theorem Tracks.began (ht : Tracks C s) (request : ExecuteRequest) (fingerprint : String)
    (aborted : Bool) (startedAt : String) (r : Readings)
    (hfresh : s.runs.get? request.runId = none) : Tracks C { s with
      runs := s.runs.set request.runId
        (newEntry id config request fingerprint aborted startedAt r) } where
  runs runId entry x run hentry hprogress := by
    rw [OrderedMap.get?_set] at hentry
    split at hentry
    · cases hentry
      exact ⟨r, .init (begin_running hprogress)⟩
    · exact ht.runs runId entry x run hentry hprogress
  processes runId := by
    have hbefore := ht.processes runId
    rw [OrderedMap.get?_set]
    split
    · rename_i hsame
      rw [hsame, hfresh] at hbefore
      rw [hsame]
      exact hbefore.trans (begin_processes request aborted startedAt r).symm
    · exact hbefore
  without runId entry result hentry hprogress := by
    rw [OrderedMap.get?_set] at hentry
    split at hentry
    · cases hentry
      exact begin_noProcess hprogress
    · exact ht.without runId entry result hentry hprogress

theorem Tracks.settled (ht : Tracks C s) {runId : RunId} {entry : RunEntry} (terminal : Bool)
    (hentry : s.runs.get? runId = some entry) :
    Tracks C { s with runs := s.runs.set runId { entry with terminal := terminal } } where
  runs runId' entry' x run hentry' hprogress := by
    rw [OrderedMap.get?_set] at hentry'
    split at hentry'
    · cases hentry'
      exact ht.runs runId entry x run hentry hprogress
    · exact ht.runs runId' entry' x run hentry' hprogress
  processes runId' := by
    have hbefore := ht.processes runId'
    rw [OrderedMap.get?_set]
    split
    · rename_i hsame
      rw [hsame, hentry] at hbefore
      rw [hsame]
      exact hbefore
    · exact hbefore
  without runId' entry' result hentry' hprogress := by
    rw [OrderedMap.get?_set] at hentry'
    split at hentry'
    · cases hentry'
      exact ht.without runId entry result hentry hprogress
    · exact ht.without runId' entry' result hentry' hprogress

theorem Tracks.sound (ht : Tracks C s) {runId : RunId} {entry : RunEntry} {x : Context}
    {run : Run x} (hentry : s.runs.get? runId = some entry)
    (hprogress : entry.progress = .running x run) : Sound x entry.aborted run := by
  obtain ⟨r, hreach⟩ := ht.runs runId entry x run hentry hprogress
  exact reachable_sound (System.Reachable.of_restrict hreach)

theorem Tracks.moved (ht : Tracks C s) {runId : RunId} {entry : RunEntry} {x : Context}
    {run run' : Run x} {r : Readings} {event : Event} (hentry : s.runs.get? runId = some entry)
    (hprogress : entry.progress = .running x run) (hnext : next run (r, event) = some run')
    (hc : C x run (r, event)) :
    Tracks C { runs := s.runs.set runId { entry with progress := .running x run' }
               processes := s.processes ++
                 List.replicate (run'.processes - run.processes) runId } where
  runs runId' entry' x' run'' hentry' hprogress' := by
    rw [OrderedMap.get?_set] at hentry'
    split at hentry'
    · cases hentry'
      cases hprogress'
      obtain ⟨r₀, hreach⟩ := ht.runs runId entry x run hentry hprogress
      exact ⟨r₀, hreach.step ⟨hnext, hc⟩⟩
    · exact ht.runs runId' entry' x' run'' hentry' hprogress'
  processes runId' := by
    have hbefore := ht.processes runId'
    rw [List.count_append, List.count_replicate, OrderedMap.get?_set]
    by_cases hsame : runId = runId'
    · cases hsame
      rw [hentry] at hbefore
      have hmore := Sound.next_processes (ht.sound hentry hprogress) hnext
      have hprocesses : s.processes.count runId = run.processes := by
        rw [hbefore]
        show entry.progress.processes = run.processes
        rw [hprogress]
        rfl
      simp only [if_true, beq_self_eq_true, Option.elim_some, Progress.processes, hprocesses]
      omega
    · have hvalue : runId.1 ≠ runId'.1 := fun heq => hsame (Subtype.ext heq)
      simpa [hvalue, Ne.symm hsame] using hbefore
  without runId' entry' result hentry' hprogress' := by
    rw [OrderedMap.get?_set] at hentry'
    split at hentry'
    · cases hentry'
      cases hprogress'
    · exact ht.without runId' entry' result hentry' hprogress'

theorem reachable_tracks (hquiet : ∀ x (run : Run x) r, C x run (r, .abort))
    (h : ((executor id config).restrict (Meets C)).Reachable s) : Tracks C s := by
  have hinvariant : ((executor id config).restrict (Meets C)).Invariant (Tracks C) :=
    { init := fun s hs => by
        cases hs
        exact .init
      step := fun s c t _ ht hstep => by
        obtain ⟨hnext, hmeets⟩ := hstep
        cases step_effect hnext with
        | same => exact ht
        | began request fingerprint aborted startedAt r hfresh =>
          exact ht.began request fingerprint aborted startedAt r hfresh
        | settled runId entry terminal hentry => exact ht.settled terminal hentry
        | moved runId entry x run run' r event hentry hprogress hrun hcall =>
          refine ht.moved hentry hprogress hrun ?_
          rcases hcall with rfl | hcall
          · exact hquiet x run r
          · exact hmeets runId r event entry x run hcall hentry hprogress }
  exact hinvariant.reachable h

/-! ## Verdicts -/

/-- What holds whatever the children do: a result that says `passed`, or a
cleanup that says `confirmed`, is backed by what happened before it was built,
and no run has two processes. -/
structure Verdicts (s : Executor) : Prop where
  backed : ∀ runId entry x run result seen, s.runs.get? runId = some entry →
    entry.progress = .running x run → run.stage = .finished result seen →
      Backed x entry.aborted run.history result
  unregistered : ∀ runId entry result, s.runs.get? runId = some entry →
    entry.progress = .noProcess result → result.outcome = none
  once : ∀ runId, s.processes.count runId ≤ 1

/-- A cleanup that was not required is of a run for which no process came into
existence. -/
def NotRequiredWithout (s : Executor) : Prop :=
  ∀ runId entry result, s.runs.get? runId = some entry → entry.progress.result = some result →
    result.cleanup.status = .notRequired → runId ∉ s.processes

/-- The call delivers the failed kill of a child to an observer that takes it for a
failed spawn. -/
def Misreads (s : Executor) : Call → Bool
  | .run runId _ event =>
    match (s.runs.get? runId).map RunEntry.progress with
    | some (.running _ run) => Misread run event
    | _ => false
  | _ => false

theorem misreads_meets (h : Misreads s c = false) :
    Meets (fun _ run l => Misread run l.2 = false) s c := by
  intro runId r event entry x run hcall hentry hprogress
  cases hcall
  simpa [Misreads, hentry, hprogress] using h

theorem Tracks.verdicts (ht : Tracks C s) : Verdicts s where
  backed runId entry x run result seen hentry hprogress hstage :=
    (ht.sound hentry hprogress).backed hstage
  unregistered := ht.without
  once runId := by
    rw [ht.processes runId]
    cases hentry : s.runs.get? runId with
    | none => exact Nat.zero_le 1
    | some entry =>
      show entry.progress.processes ≤ 1
      cases hprogress : entry.progress with
      | noProcess result => exact Nat.zero_le 1
      | running x run => exact (ht.sound hentry hprogress).processes_le

theorem reachable_honest {x : Context} {aborted : Bool} {r : Readings} {run : Run x}
    (h : ((command x aborted r).restrict fun run l => Misread run l.2 = false).Reachable run) :
    Honest run := by
  have hinvariant : ((command x aborted r).restrict
      fun run l => Misread run l.2 = false).Invariant Honest :=
    { init := fun run hrun hexit => by
        cases hrun
        cases aborted <;> cases hexit
      step := fun run l run' hreach hh hstep =>
        hh.next (reachable_sound (System.Reachable.of_restrict hreach)) hstep.2 hstep.1 }
  exact hinvariant.reachable h

theorem Tracks.notRequired (ht : Tracks (fun _ run l => Misread run l.2 = false) s) :
    NotRequiredWithout s := by
  intro runId entry result hentry hresult hstatus
  rw [← List.count_eq_zero, ht.processes runId, hentry]
  show entry.progress.processes = 0
  cases hprogress : entry.progress with
  | noProcess result => rfl
  | running x run =>
    show run.processes = 0
    obtain ⟨r, hreach⟩ := ht.runs runId entry x run hentry hprogress
    rw [hprogress] at hresult
    simp only [Progress.result] at hresult
    split at hresult
    · rename_i seen hstage
      cases hresult
      exact (reachable_honest hreach).notRequired (ht.sound hentry hprogress) hstage hstatus
    · cases hresult

/-- Verdicts are sound in every run of the executor; cleanups that were not
required are, in every run in which no failed kill is misread. -/
theorem executor_verdicts (id : String) (config : Config) :
    (∀ s, (executor id config).Reachable s → Verdicts s) ∧
      ∀ s, ((executor id config).restrict fun s c => Misreads s c = false).Reachable s →
        Verdicts s ∧ NotRequiredWithout s := by
  constructor
  · intro s hreach
    have hfree : ((executor id config).restrict (Meets fun _ _ _ => True)).Reachable s :=
      hreach.restrict fun _ _ _ _ _ _ _ _ _ _ _ => trivial
    exact (reachable_tracks (fun _ _ _ => trivial) hfree).verdicts
  · intro s hreach
    have htracks := reachable_tracks (fun _ _ _ => rfl)
      (hreach.restrict_mono fun _ _ => misreads_meets)
    exact ⟨htracks.verdicts, htracks.notRequired⟩

/-! ## A kill that failed -/

def demoCommand : RegisteredCommand where
  testId := ⟨"service-test:demo/passes", by decide +kernel⟩
  executorId := "command"
  executable := "/usr/bin/true"
  argv := []
  cwd := "."
  inheritEnvironment := []
  timeoutMs := 1000
  passed := [0]
  failed := [1]

def demoConfig : Config := ⟨[demoCommand], [], 1024, 1024, true, fun _ => ""⟩

def demoRun : RunId := ⟨"run:00000000-0000-4000-8000-000000000001", by decide +kernel⟩

def demoRequest : ExecuteRequest where
  runId := demoRun
  snapshot := ⟨⟨"snapshot-1", by decide +kernel⟩, ⟨"revision-1", by decide +kernel⟩⟩
  testId := demoCommand.testId
  parameters := ⟨[], Nat.zero_le _⟩
  taskId := none
  executionLinks := none
  executorId := "command"
  requiredEnvironment := []
  workspace := ⟨⟨"operation:00000000-0000-4000-8000-000000000001", by decide +kernel⟩, "snapshot-1",
    "revision-1", "/work"⟩

def demoReadings : Readings :=
  ⟨0, "2026-01-01T00:00:01.000Z", "2026-01-01T00:00:01.000Z", "instance-1"⟩

def demoCalls (events : List Event) : List Call :=
  .execute demoRequest "fingerprint" false demoReadings.finishedAt demoReadings ::
    events.map (.run demoRun demoReadings)

/-- The command exits with a code that is listed as passed. -/
def passedCalls : List Call := demoCalls
  [.resolved (.ok "/work"), .spawn (.ok ⟨some 7, true⟩), .launchReturned (.returned true .valid),
    .child (.spawn (some 7)), .child (.streamEnd .stdout), .child (.streamEnd .stderr),
    .child (.exit (some 0) none), .race .exit, .resume, .treeSettled (.receipt .confirmed)]

/-- The controller fails after it spawned, and the child cannot be killed: `kill`
emits its error before the spawn event. -/
def unkilledCalls : List Call := demoCalls
  [.resolved (.ok "/work"), .spawn (.ok ⟨some 7, true⟩),
    .launchReturned (.threw "The process could not be contained."),
    .child (.error .killFailed "kill EPERM"), .signalled .rejected, .drained]

def checkedStep (s : Executor) (c : Call) : Option Executor :=
  if Misreads s c = false then step "command" demoConfig s c else none

def resultOf (s : Executor) : Option CommandRunResult :=
  (s.runs.get? demoRun).bind fun entry => entry.progress.result

theorem passedCalls_passed : (System.replay checkedStep ⟨.empty, []⟩ passedCalls).any
    (fun s => (resultOf s).bind (·.outcome) = some .passed) = true := by decide +kernel

def passedExecutor : Executor :=
  (System.replay checkedStep ⟨.empty, []⟩ passedCalls).get
    (Option.isSome_of_any passedCalls_passed)

theorem executor_verdicts_passed : Verdicts passedExecutor ∧ NotRequiredWithout passedExecutor :=
  (executor_verdicts "command" demoConfig).2 passedExecutor
    (System.reachable_restrict_of_replay passedCalls (.init rfl) (Option.some_get _).symm)

theorem unkilledCalls_notRequired :
    (System.replay (step "command" demoConfig) ⟨.empty, []⟩ unkilledCalls).any
      (fun s => (resultOf s).map (·.cleanup.status) = some .notRequired ∧ demoRun ∈ s.processes) =
        true := by decide +kernel

/-- A cleanup can be reported as not required while the process runs. -/
theorem executor_unkilled : ¬∀ s, (executor "command" demoConfig).Reachable s →
    NotRequiredWithout s := by
  intro hclaim
  obtain ⟨s, hs, hstuck⟩ := (Option.any_eq_true _ _).mp unkilledCalls_notRequired
  obtain ⟨hstatus, hmem⟩ := of_decide_eq_true hstuck
  obtain ⟨result, hresult, hrequired⟩ := Option.map_eq_some_iff.mp hstatus
  obtain ⟨entry, hentry, hprogress⟩ := Option.bind_eq_some_iff.mp hresult
  exact hclaim s (System.reachable_of_replay hs) demoRun entry result hentry hprogress hrequired hmem

end SurfaceLoom.Service.CommandExecutor
