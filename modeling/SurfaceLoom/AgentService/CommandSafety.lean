import SurfaceLoom.AgentService.CommandRun

/-! # What the result of a command run may say

A result that says `passed` or `confirmed` says what the history of the run
shows. One that says `not-required` is right when no failed kill was taken for a
failed spawn. -/
namespace SurfaceLoom.Service.CommandSafety
open SurfaceLoom.Lib.Transition SurfaceLoom.Service.Validation SurfaceLoom.Service.StoredRun
open SurfaceLoom.Service.CommandRun

abbrev History := List (Readings × Event)

/-! ## Results -/

variable {x : Context}

theorem processCleanup_confirmed {exit : Option ProcessExitReceipt} {stdioTerminal : Bool}
    {processTree : ProcessTreeReceipt} :
    (processCleanup exit stdioTerminal processTree).status = .confirmed ↔
      (∃ i p code signal, exit = some (.exited i p code signal)) ∧ stdioTerminal = true ∧
        processTree = .confirmed := by
  unfold processCleanup
  split
  · simp
  · split
    · rename_i h
      simp [h]
    · rename_i h
      simpa [processCleanup.unconfirmed] using h
  · rename_i h
    simp only [processCleanup.unconfirmed, reduceCtorEq, false_iff, not_and]
    intro hexit
    obtain ⟨i, p, code, signal, rfl⟩ := hexit
    exact absurd rfl (h i p code signal)

theorem processCleanup_notRequired {exit : Option ProcessExitReceipt} {stdioTerminal : Bool}
    {processTree : ProcessTreeReceipt} :
    (processCleanup exit stdioTerminal processTree).status = .notRequired ↔
      exit = some .notSpawned := by
  unfold processCleanup
  split
  · simp
  · split <;> simp [processCleanup.unconfirmed]
  · rename_i h _
    simp only [processCleanup.unconfirmed, reduceCtorEq, false_iff]
    exact h

theorem classified_command (x : Context) (r : Readings) (command : CommandExecutionReceipt)
    (classification : Classification) (message : String) :
    (classified x r command classification message).command = command ∧
      (classified x r command classification message).cleanup.status = command.cleanup.status := by
  unfold classified
  split
  · exact ⟨rfl, rfl⟩
  · split
    · exact ⟨rfl, rfl⟩
    · split <;> exact ⟨rfl, rfl⟩

theorem classified_passed {r : Readings} {command : CommandExecutionReceipt}
    {classification : Classification} {message : String}
    (h : (classified x r command classification message).outcome = some .passed) :
    classification = .passed ∧ command.cleanup.status ≠ .unconfirmed := by
  unfold classified at h
  split at h
  · cases h
  · rename_i hclean
    split at h
    · rename_i hpassed
      exact ⟨hpassed, fun hu => hclean ⟨hu, .inl hpassed⟩⟩
    · split at h <;> cases h

theorem classifyExit_passed {command : RegisteredCommand} {exit : Option ProcessExitReceipt}
    (h : (classifyExit command exit).2.1 = .passed) :
    ∃ i p code, exit = some (.exited i p (some code) none) ∧ code ∈ command.passed := by
  unfold classifyExit at h
  split at h
  · rename_i i p code
    split at h
    · rename_i hmem
      exact ⟨i, p, code, rfl, List.contains_iff_mem.mp hmem⟩
    · split at h <;> cases h
  · cases h
  · cases h

/-- What a result built from an observer says about it. -/
structure Reports (x : Context) (o : x.Observer) (processTree : ProcessTreeReceipt)
    (natural : Bool) (result : CommandRunResult) : Prop where
  cleanup : result.cleanup.status =
    (processCleanup o.exitReceipt o.stdioTerminal processTree).status
  receipt : result.command.cleanup.status = result.cleanup.status
  stdio : result.command.stdio = o.stdioReceipt x.config.decode
  passed : result.outcome = some .passed → natural = true ∧ o.failureMessage = none ∧
    o.stdioTerminal = true ∧ processTree = .confirmed ∧
      ∃ i p code, o.exitReceipt = some (.exited i p (some code) none) ∧ code ∈ x.command.passed

theorem reports_of_finish (r : Readings) (termination : Trigger) (o : x.Observer)
    (signals : List SignalAttemptReceipt) (processTree : ProcessTreeReceipt)
    {classification : Classification} (message : String) (natural : Bool)
    (h : classification ≠ .passed) :
    Reports x o processTree natural
      (finish x r termination o signals processTree classification message) := by
  obtain ⟨hcommand, hstatus⟩ := classified_command x r (receipt x termination o signals
    (processCleanup o.exitReceipt o.stdioTerminal processTree)) classification message
  refine ⟨hstatus, ?_, congrArg CommandExecutionReceipt.stdio hcommand, fun hp => ?_⟩
  · exact (congrArg (·.cleanup.status) hcommand).trans hstatus.symm
  exact absurd (classified_passed hp).1 h

theorem finishForEvent_reports (r : Readings) (first : FirstEvent) (o : x.Observer)
    (signals : List SignalAttemptReceipt) (processTree : ProcessTreeReceipt) :
    Reports x o processTree (first.trigger = .natural)
      (finishForEvent x r first o signals processTree) := by
  unfold finishForEvent
  split
  · exact reports_of_finish _ _ _ _ _ _ _ (by decide)
  · rename_i hnatural hfailure
    obtain ⟨hcommand, hstatus⟩ := classified_command x r
      (receipt x (classifyExit x.command o.exitReceipt).1 o signals
        (processCleanup o.exitReceipt o.stdioTerminal processTree))
      (classifyExit x.command o.exitReceipt).2.1 (classifyExit x.command o.exitReceipt).2.2
    refine ⟨hstatus, ?_, congrArg CommandExecutionReceipt.stdio hcommand, fun hp => ?_⟩
    · exact (congrArg (·.cleanup.status) hcommand).trans hstatus.symm
    obtain ⟨hpassed, hclean⟩ := classified_passed hp
    obtain ⟨i, p, code, hexit, hmem⟩ := classifyExit_passed hpassed
    have hconfirmed : (processCleanup o.exitReceipt o.stdioTerminal processTree).status =
        .confirmed := by
      cases hs : (processCleanup o.exitReceipt o.stdioTerminal processTree).status with
      | confirmed => rfl
      | unconfirmed => exact absurd hs hclean
      | notRequired =>
        rw [processCleanup_notRequired, hexit] at hs
        cases hs
    obtain ⟨-, hstdio, htree⟩ := processCleanup_confirmed.mp hconfirmed
    exact ⟨by simp [hnatural], hfailure, hstdio, htree, i, p, code, hexit, hmem⟩
  · exact reports_of_finish _ _ _ _ _ _ _ (by decide)
  · exact reports_of_finish _ _ _ _ _ _ _ (by decide)
  · refine reports_of_finish _ _ _ _ _ _ _ ?_
    split <;> decide

/-! ## The observer against the history -/

def isChildError : Event → Bool
  | .child (.error ..) => true
  | _ => false

/-- The events that end a stream. -/
def ends (stream : Stream) : Event → Bool
  | .child (.streamEnd s) | .child (.streamClose s) | .child (.streamError s _) => s = stream
  | _ => false

def isChild : Event → Bool
  | .child _ => true
  | _ => false

/-- What an observer may hold after a history. -/
structure Heard (h : History) {m n : Nat} (o : Observer m n) : Prop where
  exit : ∀ i p code signal, o.exitReceipt = some (.exited i p code signal) →
    ∃ l ∈ h, l.2 = .child (.exit code signal)
  failed : o.failureMessage = none → ∀ l ∈ h, isChildError l.2 = false
  heard : o.errorHeard = true → o.failureMessage ≠ none
  errors : o.failureMessage = none → o.stdout.error = none ∧ o.stderr.error = none
  terminal : ∀ stream, o.terminal stream = true → ∃ l ∈ h, ends stream l.2 = true

theorem Heard.new {h : History} (hquiet : ∀ l ∈ h, isChild l.2 = false) (i : String)
    {m n : Nat} : Heard h (Observer.new i : Observer m n) where
  exit _ _ _ _ hexit := nomatch hexit
  failed _ l hl := by
    have := hquiet l hl
    revert this
    cases l.2 <;> simp [isChild, isChildError]
  heard hheard := nomatch hheard
  errors _ := ⟨rfl, rfl⟩
  terminal stream hterminal := by cases stream <;> cases hterminal

theorem Heard.settleExit {h : History} {m n : Nat} {o : Observer m n} (hh : Heard h o)
    {receipt : ProcessExitReceipt}
    (hr : ∀ i p code signal, receipt = .exited i p code signal →
      ∃ l ∈ h, l.2 = .child (.exit code signal)) : Heard h (o.settleExit receipt) where
  exit i p code signal hexit := by
    simp only [Observer.settleExit] at hexit
    cases ho : o.exitReceipt with
    | none => exact hr i p code signal (by simpa [ho] using hexit)
    | some e => exact hh.exit i p code signal (by simpa [ho] using hexit)
  failed := hh.failed
  heard := hh.heard
  errors := hh.errors
  terminal stream hterminal := hh.terminal stream (by cases stream <;> exact hterminal)

theorem settleStream_spec {m n : Nat} (o : Observer m n) (stream : Stream)
    (error : Option String) :
    (o.settleStream stream error).exitReceipt = o.exitReceipt ∧
      (o.settleStream stream error).errorHeard = o.errorHeard ∧
      ((o.settleStream stream error).failureMessage = none → o.failureMessage = none) ∧
      (o.terminal stream = false → (o.settleStream stream error).failureMessage = none →
        error = none) := by
  unfold Observer.settleStream
  cases hterminal : o.terminal stream with
  | true => simp
  | false => cases stream <;> cases error <;> simp [Observer.settleFailure]

theorem settleStream_terminal {m n : Nat} (o : Observer m n) (stream : Stream)
    (error : Option String) (stream' : Stream)
    (h : (o.settleStream stream error).terminal stream' = true) :
    o.terminal stream' = true ∨ stream' = stream := by
  unfold Observer.settleStream at h
  split at h
  · exact .inl h
  · cases stream <;> cases stream' <;> cases error <;>
      simp_all [Observer.terminal, Observer.settleFailure]

theorem settleStream_errors {m n : Nat} (o : Observer m n) (stream : Stream)
    (error : Option String) (h : (o.settleStream stream error).failureMessage = none)
    (ho : o.stdout.error = none ∧ o.stderr.error = none) :
    (o.settleStream stream error).stdout.error = none ∧
      (o.settleStream stream error).stderr.error = none := by
  unfold Observer.settleStream at h ⊢
  split
  · exact ho
  · rename_i hterminal
    rw [if_neg hterminal] at h
    cases stream <;> cases error <;>
      simp_all [Observer.settleFailure, BoundedOutput.finish]

theorem Heard.settleStream {h : History} {m n : Nat} {o : Observer m n} (hh : Heard h o)
    {l : Readings × Event} {stream : Stream} {error : Option String}
    (hends : ends stream l.2 = true) (herror : isChildError l.2 = false) :
    Heard (h ++ [l]) (o.settleStream stream error) := by
  obtain ⟨hexit, hheard, hfailure, -⟩ := settleStream_spec o stream error
  refine ⟨fun i p code signal he => ?_, fun hnone l' hl' => ?_, fun he hnone => ?_,
    fun hnone => ?_, fun stream' hterminal => ?_⟩
  · obtain ⟨l', hl', heq⟩ := hh.exit i p code signal (hexit ▸ he)
    exact ⟨l', List.mem_append_left _ hl', heq⟩
  · rcases List.mem_append.mp hl' with hold | hnew
    · exact hh.failed (hfailure hnone) l' hold
    · rw [List.mem_singleton.mp hnew]
      exact herror
  · exact hh.heard (hheard ▸ he) (hfailure hnone)
  · exact settleStream_errors o stream error hnone (hh.errors (hfailure hnone))
  · rcases settleStream_terminal o stream error stream' hterminal with hold | rfl
    · obtain ⟨l', hl', heq⟩ := hh.terminal stream' hold
      exact ⟨l', List.mem_append_left _ hl', heq⟩
    · exact ⟨l, List.mem_append_right _ (List.mem_singleton_self l), hends⟩

/-- An observer that differs in what nothing here reads. -/
theorem Heard.congr {h : History} {m n : Nat} {o o' : Observer m n} (hh : Heard h o)
    (hexit : o'.exitReceipt = o.exitReceipt) (hfailure : o'.failureMessage = o.failureMessage)
    (hheard : o'.errorHeard = o.errorHeard) (hstdout : o'.stdout.error = o.stdout.error)
    (hstderr : o'.stderr.error = o.stderr.error)
    (hterminal : ∀ stream, o'.terminal stream = o.terminal stream) : Heard h o' := by
  refine ⟨?_, ?_, ?_, ?_, ?_⟩
  · rw [hexit]
    exact hh.exit
  · rw [hfailure]
    exact hh.failed
  · rw [hheard, hfailure]
    exact hh.heard
  · rw [hfailure, hstdout, hstderr]
    exact hh.errors
  · intro stream ht
    exact hh.terminal stream (hterminal stream ▸ ht)

/-- A child event that is no error and ends no stream. -/
theorem Heard.quiet {h : History} {m n : Nat} {o : Observer m n} (hh : Heard h o)
    {l : Readings × Event} (herror : isChildError l.2 = false) : Heard (h ++ [l]) o where
  exit i p code signal hexit := by
    obtain ⟨l', hl', heq⟩ := hh.exit i p code signal hexit
    exact ⟨l', List.mem_append_left _ hl', heq⟩
  failed hnone l' hl' := by
    rcases List.mem_append.mp hl' with hold | hnew
    · exact hh.failed hnone l' hold
    · rw [List.mem_singleton.mp hnew]
      exact herror
  heard := hh.heard
  errors := hh.errors
  terminal stream hterminal := by
    obtain ⟨l', hl', heq⟩ := hh.terminal stream hterminal
    exact ⟨l', List.mem_append_left _ hl', heq⟩

theorem hearError_failed {m n : Nat} {o : Observer m n} (message : String)
    (hheard : o.errorHeard = true → o.failureMessage ≠ none) :
    (o.hearError message).failureMessage ≠ none := by
  unfold Observer.hearError
  split
  · rename_i he
    exact hheard he
  · split <;> simp [Observer.settleFailure, Observer.settleNotSpawned, Observer.settleExit]

theorem hearError_frame {m n : Nat} (o : Observer m n) (message : String) :
    (∀ stream, (o.hearError message).terminal stream = o.terminal stream) ∧
      ((o.hearError message).exitReceipt = o.exitReceipt ∨
        (o.hearError message).exitReceipt = some .notSpawned) := by
  unfold Observer.hearError
  split
  · exact ⟨fun _ => rfl, .inl rfl⟩
  · split
    · exact ⟨fun stream => by cases stream <;> rfl, .inl rfl⟩
    · refine ⟨fun stream => by cases stream <;> rfl, ?_⟩
      simp only [Observer.settleFailure, Observer.settleNotSpawned, Observer.settleExit]
      cases o.exitReceipt <;> simp

/-- The observer after one more event of the child. -/
theorem Heard.hear {h : History} {m n : Nat} {o : Observer m n} (hh : Heard h o) (r : Readings)
    (event : ChildEvent) : Heard (h ++ [(r, .child event)]) (o.hear event) := by
  cases event with
  | spawn pid => exact (hh.quiet rfl).congr rfl rfl rfl rfl rfl fun stream => by cases stream <;> rfl
  | close => exact (hh.quiet rfl).congr rfl rfl rfl rfl rfl fun stream => by cases stream <;> rfl
  | data stream chunk =>
    cases stream with
    | stdout => exact (hh.quiet rfl).congr rfl rfl rfl rfl rfl fun s => by cases s <;> rfl
    | stderr => exact (hh.quiet rfl).congr rfl rfl rfl rfl rfl fun s => by cases s <;> rfl
  | streamEnd stream =>
    have hs : Heard (h ++ [(r, .child (.streamEnd stream))]) (o.settleStream stream none) :=
      hh.settleStream (decide_eq_true rfl) rfl
    exact hs
  | streamClose stream =>
    have hs : Heard (h ++ [(r, .child (.streamClose stream))]) (o.settleStream stream none) :=
      hh.settleStream (decide_eq_true rfl) rfl
    exact hs
  | streamError stream error =>
    have hs : Heard (h ++ [(r, .child (.streamError stream error))])
      (o.settleStream stream error) := hh.settleStream (decide_eq_true rfl) rfl
    exact hs
  | exit code signal =>
    refine (hh.quiet rfl).settleExit fun i p code' signal' heq => ?_
    cases heq
    exact ⟨_, List.mem_append_right _ (List.mem_singleton_self _), rfl⟩
  | error cause message =>
    have hfailed := hearError_failed message hh.heard
    obtain ⟨hterminal, hexit⟩ := hearError_frame o message
    refine ⟨fun i p code signal he => ?_, fun hnone => absurd hnone hfailed, fun _ => hfailed,
      fun hnone => absurd hnone hfailed, fun stream ht => ?_⟩
    · rcases hexit with hsame | hnot
      · obtain ⟨l', hl', heq⟩ := hh.exit i p code signal (hsame.symm.trans he)
        exact ⟨l', List.mem_append_left _ hl', heq⟩
      · cases hnot.symm.trans he
    · obtain ⟨l', hl', heq⟩ := hh.terminal stream (hterminal stream ▸ ht)
      exact ⟨l', List.mem_append_left _ hl', heq⟩

theorem settleExit_some {m n : Nat} {o : Observer m n} {receipt receipt' : ProcessExitReceipt}
    (h : o.exitReceipt = some receipt) : (o.settleExit receipt').exitReceipt = some receipt := by
  simp [Observer.settleExit, h]

/-- The first exit receipt stays. -/
theorem hear_exit {m n : Nat} {o : Observer m n} {receipt : ProcessExitReceipt}
    (event : ChildEvent) (h : o.exitReceipt = some receipt) :
    (o.hear event).exitReceipt = some receipt := by
  cases event with
  | spawn pid => exact h
  | close => exact h
  | data stream chunk => cases stream <;> exact h
  | streamEnd stream => exact (settleStream_spec o stream none).1.trans h
  | streamClose stream => exact (settleStream_spec o stream none).1.trans h
  | streamError stream error => exact (settleStream_spec o stream error).1.trans h
  | exit code signal => exact settleExit_some h
  | error cause message =>
    show (o.hearError message).exitReceipt = some receipt
    unfold Observer.hearError
    split
    · exact h
    · split
      · exact h
      · exact settleExit_some h

/-! ## The run against the history -/

/-- The exit won the race, seen before the deadline and before any abort.
`aborted` says whether the run started aborted. -/
def NaturalEnd (x : Context) (aborted : Bool) (h : History) (o : x.Observer) : Prop :=
  ∃ pre r post, h = pre ++ (r, .race .exit) :: post ∧ aborted = false ∧
    (∀ l ∈ pre, l.2 ≠ .abort) ∧ r.now < x.deadlineAt ∧ ∃ receipt, o.exitReceipt = some receipt ∧
      ∀ i p code signal, receipt = .exited i p code signal →
        ∃ l ∈ pre, l.2 = .child (.exit code signal)

variable {aborted : Bool} {h : History}

theorem NaturalEnd.mono {o o' : x.Observer} (hn : NaturalEnd x aborted h o) (after : History)
    (ho : ∀ receipt, o.exitReceipt = some receipt → o'.exitReceipt = some receipt) :
    NaturalEnd x aborted (h ++ after) o' := by
  obtain ⟨pre, r, post, rfl, haborted, hpre, hnow, receipt, hreceipt, hexit⟩ := hn
  exact ⟨pre, r, post ++ after, by simp, haborted, hpre, hnow, receipt, ho receipt hreceipt, hexit⟩

def EndingSound (x : Context) (aborted : Bool) (h : History) (o : x.Observer) : Ending → Prop
  | .event first => first.trigger = .natural → NaturalEnd x aborted h o
  | .launchFailed _ => True

def TreeSound (h : History) (processTree : ProcessTreeReceipt) : Prop :=
  processTree = .confirmed → ∃ l ∈ h, l.2 = .treeSettled (.receipt .confirmed)

/-- A result against the history up to it. -/
def ResultSound (x : Context) (aborted : Bool) (h : History) (current : x.Observer)
    (result : CommandRunResult) : Option x.Observer → Prop
  | none => result.cleanup.status = .notRequired ∧
      result.command.cleanup.status = result.cleanup.status ∧ result.outcome = none
  | some o => (∀ receipt, o.exitReceipt = some receipt → current.exitReceipt = some receipt) ∧
      ∃ processTree natural, Heard h o ∧ Reports x o processTree natural result ∧
        (natural = true → NaturalEnd x aborted h o) ∧ TreeSound h processTree

def StageSound (x : Context) (aborted : Bool) (h : History) (o : x.Observer) : Stage x → Prop
  | .won first | .reaping first => EndingSound x aborted h o (.event first)
  | .signalling _ ending | .waiting _ ending => EndingSound x aborted h o ending
  | .draining ending processTree =>
    EndingSound x aborted h o ending ∧ TreeSound h processTree
  | .finished result observer => ResultSound x aborted h o result observer
  | .resolving | .launching .. | .racing => True

theorem EndingSound.mono {o o' : x.Observer} {ending : Ending}
    (he : EndingSound x aborted h o ending) (after : History)
    (ho : ∀ receipt, o.exitReceipt = some receipt → o'.exitReceipt = some receipt) :
    EndingSound x aborted (h ++ after) o' ending := by
  cases ending with
  | event first => exact fun hf => (he hf).mono after ho
  | launchFailed detail => trivial

theorem TreeSound.mono {processTree : ProcessTreeReceipt} (ht : TreeSound h processTree)
    (after : History) : TreeSound (h ++ after) processTree := by
  intro hc
  obtain ⟨l, hl, heq⟩ := ht hc
  exact ⟨l, List.mem_append_left _ hl, heq⟩

theorem StageSound.mono {o o' : x.Observer} {stage : Stage x}
    (hs : StageSound x aborted h o stage) {after : History}
    (hafter : stage.isFinished = true → after = [])
    (ho : ∀ receipt, o.exitReceipt = some receipt → o'.exitReceipt = some receipt) :
    StageSound x aborted (h ++ after) o' stage := by
  cases stage with
  | resolving | launching | racing => trivial
  | won first => exact fun hf => (hs hf).mono after ho
  | reaping first => exact fun hf => (hs hf).mono after ho
  | signalling signal ending => exact EndingSound.mono hs after ho
  | waiting signal ending => exact EndingSound.mono hs after ho
  | draining ending processTree => exact ⟨hs.1.mono after ho, hs.2.mono after⟩
  | finished result observer =>
    rw [hafter rfl, List.append_nil]
    cases observer with
    | none => exact hs
    | some seen => exact ⟨fun receipt hr => ho receipt (hs.1 receipt hr), hs.2⟩

/-- The run ended without a child. -/
def endedWithout : Stage x → Bool
  | .finished _ none => true
  | _ => false

/-- A move of the run that leaves the child and the signal alone. -/
structure Moves (x : Context) (aborted : Bool) (h : History) (s t : Run x) : Prop where
  child : t.child = s.child
  processes : t.processes = s.processes
  signal : t.aborted = s.aborted
  history : t.history = s.history
  heard : Heard h t.observer
  stage : StageSound x aborted h t.observer t.stage
  exit : t.observer.exitReceipt = some .notSpawned → s.observer.exitReceipt = some .notSpawned
  late : ∀ b, t.stage ≠ .resolving ∧ t.stage ≠ .launching false b
  without : endedWithout t.stage = true → s.child = none

section
variable {s : Run x} {r : Readings}

theorem Moves.of_observer {t : Run x} {o : x.Observer}
    (hm : Moves x aborted h { s with observer := o } t)
    (ho : o.exitReceipt = some .notSpawned → s.observer.exitReceipt = some .notSpawned) :
    Moves x aborted h s t :=
  ⟨hm.child, hm.processes, hm.signal, hm.history, hm.heard, hm.stage, fun he => ho (hm.exit he),
    hm.late, hm.without⟩

theorem Moves.of_signals {t : Run x} {signals : List SignalAttemptReceipt}
    (hm : Moves x aborted h { s with signals := signals } t) : Moves x aborted h s t :=
  ⟨hm.child, hm.processes, hm.signal, hm.history, hm.heard, hm.stage, hm.exit, hm.late,
    hm.without⟩

theorem endWithout_moves (hh : Heard h s.observer) (hchild : s.child = none)
    (termination : Trigger) (status : RunStatus) (code : Classification) (message : String) :
    Moves x aborted h s (endWithout s r termination status code message) :=
  ⟨rfl, rfl, rfl, rfl, hh, ⟨rfl, rfl, rfl⟩, id, fun _ => ⟨nofun, nofun⟩, fun _ => hchild⟩

theorem conclude_moves (hh : Heard h s.observer) {ending : Ending}
    (he : EndingSound x aborted h s.observer ending) {processTree : ProcessTreeReceipt}
    (ht : TreeSound h processTree) : Moves x aborted h s (conclude s r ending processTree) := by
  cases ending with
  | event first =>
    refine ⟨rfl, rfl, rfl, rfl, hh, ⟨fun _ => id, processTree, _, hh,
      finishForEvent_reports r first s.observer s.signals processTree, ?_, ht⟩, id,
      fun _ => ⟨nofun, nofun⟩, (nomatch ·)⟩
    intro hnatural
    exact he (of_decide_eq_true hnatural)
  | launchFailed detail =>
    exact ⟨rfl, rfl, rfl, rfl, hh, ⟨fun _ => id, processTree, false, hh,
      reports_of_finish r .infrastructure s.observer s.signals processTree detail false (by decide),
      nofun, ht⟩, id, fun _ => ⟨nofun, nofun⟩, (nomatch ·)⟩

theorem drain_moves (hh : Heard h s.observer) {ending : Ending}
    (he : EndingSound x aborted h s.observer ending) {processTree : ProcessTreeReceipt}
    (ht : TreeSound h processTree) : Moves x aborted h s (drain s r ending processTree) := by
  unfold drain
  split
  · exact conclude_moves hh he ht
  · exact ⟨rfl, rfl, rfl, rfl, hh, ⟨he, ht⟩, id, fun _ => ⟨nofun, nofun⟩, (nomatch ·)⟩

theorem settleUnconfirmed_exit {m n : Nat} {o : Observer m n} {detail : String}
    (h : (o.settleUnconfirmed detail).exitReceipt = some .notSpawned) :
    o.exitReceipt = some .notSpawned := by
  simp only [Observer.settleUnconfirmed, Observer.settleExit] at h
  cases ho : o.exitReceipt with
  | none => simp [ho] at h
  | some receipt => simpa [ho] using h

theorem terminated_moves (hh : Heard h s.observer) {ending : Ending}
    (he : EndingSound x aborted h s.observer ending) :
    Moves x aborted h s (terminated s r ending) := by
  have hsettled : ∀ detail, Heard h (s.observer.settleUnconfirmed detail) := fun detail =>
    hh.settleExit fun _ _ _ _ heq => nomatch heq
  have hending : ∀ detail, EndingSound x aborted h (s.observer.settleUnconfirmed detail) ending := by
    intro detail
    have hmono : EndingSound x aborted (h ++ []) (s.observer.settleUnconfirmed detail) ending :=
      he.mono [] fun _ => settleExit_some
    rwa [List.append_nil] at hmono
  cases ending with
  | event first =>
    exact ⟨rfl, rfl, rfl, rfl, hsettled _, hending _, settleUnconfirmed_exit,
      fun _ => ⟨nofun, nofun⟩, (nomatch ·)⟩
  | launchFailed detail =>
    have hmissing : TreeSound h missingHandle := fun hc => nomatch hc
    exact (drain_moves (hsettled _) (hending _) hmissing).of_observer settleUnconfirmed_exit

theorem signalOr_moves (hh : Heard h s.observer) {ending : Ending}
    (he : EndingSound x aborted h s.observer ending) (signal : Signal) :
    Moves x aborted h s (signalOr s r signal ending) := by
  unfold signalOr
  split
  · exact terminated_moves hh he
  · exact ⟨rfl, rfl, rfl, rfl, hh, he, id, fun _ => ⟨nofun, nofun⟩, (nomatch ·)⟩

theorem afterWait_moves (hh : Heard h s.observer) {ending : Ending}
    (he : EndingSound x aborted h s.observer ending) (signal : Signal) :
    Moves x aborted h s (afterWait s r signal ending) := by
  cases signal with
  | sigterm => exact signalOr_moves hh he .sigkill
  | sigkill => exact terminated_moves hh he

theorem signalled_moves (hh : Heard h s.observer) {ending : Ending}
    (he : EndingSound x aborted h s.observer ending) (signal : Signal) :
    Moves x aborted h s (signalled s r signal ending) := by
  unfold signalled
  split
  · exact afterWait_moves hh he signal
  · exact ⟨rfl, rfl, rfl, rfl, hh, he, id, fun _ => ⟨nofun, nofun⟩, (nomatch ·)⟩

theorem launchFailed_moves (hh : Heard h s.observer) (message : String) :
    Moves x aborted h s (launchFailed s r message) := by
  unfold launchFailed
  split
  · have hending : EndingSound x aborted h s.observer (.launchFailed message) := trivial
    exact signalOr_moves hh hending .sigterm
  · rename_i hchild
    exact endWithout_moves hh (by simpa using hchild) ..

theorem resume_moves (hh : Heard h s.observer) {first : FirstEvent}
    (he : EndingSound x aborted h s.observer (.event first)) :
    Moves x aborted h s (resume s r first) := by
  unfold resume
  split
  · exact terminated_moves hh he
  · exact signalOr_moves hh he .sigterm

end

/-- What holds of a run after its history. -/
structure Sound (x : Context) (aborted : Bool) (s : Run x) : Prop where
  heard : s.stage.isFinished = false → Heard s.history s.observer
  quiet : s.child = none → ∀ l ∈ s.history, isChild l.2 = false
  early : ∀ b, s.stage = .resolving ∨ s.stage = .launching false b →
    s.child = none ∧ s.observer.exitReceipt = none
  without : endedWithout s.stage = true → s.child = none
  processes : s.processes = if s.child.any (·.process) then 1 else 0
  signal : s.aborted = false → aborted = false ∧ ∀ l ∈ s.history, l.2 ≠ .abort
  stage : StageSound x aborted s.history s.observer s.stage

variable {s t : Run x} {r : Readings} {e : Event}

theorem Sound.stage_quiet (hs : Sound x aborted s) (hopen : s.stage.isFinished = false)
    (l : Readings × Event) : StageSound x aborted (s.history ++ [l]) s.observer s.stage :=
  hs.stage.mono (fun hf => absurd (hopen.symm.trans hf) Bool.false_ne_true) fun _ he => he

/-- The labels one more step adds to the history. -/
def recorded (s : Run x) (l : Readings × Event) : History :=
  if s.stage.isFinished then [] else [l]

theorem next_spec {l : Readings × Event} (h : next s l = some t) :
    ∃ u, step s l.1 l.2 = some u ∧ t = { u with history := u.history ++ recorded s l } := by
  obtain ⟨u, hu, rfl⟩ := Option.map_eq_some_iff.mp h
  refine ⟨u, hu, ?_⟩
  unfold recorded
  split <;> simp

theorem firstEvent_sound (hs : Sound x aborted s) (hopen : s.stage.isFinished = false)
    {racer : Racer} {first : FirstEvent} (hf : firstEvent s r racer = some first) :
    EndingSound x aborted (s.history ++ [(r, .race racer)]) s.observer (.event first) := by
  intro hnatural
  unfold firstEvent at hf
  cases racer with
  | exit =>
    obtain ⟨hexited, heq⟩ := Option.ite_none_right_eq_some.mp hf
    cases heq
    obtain ⟨receipt, hreceipt⟩ := Option.isSome_iff_exists.mp hexited
    have hearly : s.aborted = false ∧ r.now < x.deadlineAt := by
      revert hnatural
      simp only
      split
      · simp
      · split
        · simp
        · rename_i ha hd
          exact fun _ => ⟨Bool.eq_false_iff.mpr ha, Rat.not_le.mp hd⟩
    obtain ⟨hstart, hnone⟩ := hs.signal hearly.1
    refine ⟨s.history, r, [], rfl, hstart, hnone, hearly.2, receipt, hreceipt, ?_⟩
    intro i p code signal heq
    exact (hs.heard hopen).exit i p code signal (heq ▸ hreceipt)
  | failure =>
    obtain ⟨detail, -, rfl⟩ := Option.map_eq_some_iff.mp hf
    cases hnatural
  | abort =>
    obtain ⟨-, heq⟩ := Option.ite_none_right_eq_some.mp hf
    cases heq
    cases hnatural
  | deadline =>
    obtain ⟨-, heq⟩ := Option.ite_none_right_eq_some.mp hf
    cases heq
    cases hnatural

theorem treeReceipt_confirmed {config : Config} {outcome : TreeOutcome}
    (h : treeReceipt config outcome = .confirmed) : outcome = .receipt .confirmed := by
  unfold treeReceipt at h
  split at h
  · cases h
  · cases h
  · rw [h]
  · cases h

theorem ending_of_reaping {o : x.Observer} {first : FirstEvent} {h : History}
    (hs : StageSound x aborted h o (.reaping first)) : EndingSound x aborted h o (.event first) :=
  hs

/-- What one step does: most only move the run along. -/
inductive Does (x : Context) (aborted : Bool) (s : Run x) (r : Readings) : Event → Run x → Prop
  | abort : Does x aborted s r .abort { s with aborted := true }
  | fresh (cwd : Except String String) : s.stage = .resolving →
      Does x aborted s r (.resolved cwd)
        { s with stage := .launching false false, observer := .new r.instanceId }
  | expired (result : Except String Child) : Does x aborted s r (.spawn result) s
  | spawned (registered : Bool) (child : Child) : s.stage = .launching false registered →
      Does x aborted s r (.spawn (.ok child)) { s with
        child := some child
        processes := s.processes + (if child.process then 1 else 0)
        observer := s.observer.attach child
        stage := if x.config.processTree then .launching true true else .racing }
  | child (child : Child) (event : ChildEvent) : s.child = some child →
      mayEmit child event = true →
      Does x aborted s r (.child event) { s with observer := s.observer.hear event }
  | moved {e : Event} {u : Run x} : s.stage.isFinished = false → isChild e = false → e ≠ .abort →
      Moves x aborted (s.history ++ [(r, e)]) s u → Does x aborted s r e u

theorem resolved_does (hs : Sound x aborted s) (hstage : s.stage = .resolving)
    (cwd : Except String String) : Does x aborted s r (.resolved cwd) (resolved s r cwd) := by
  obtain ⟨hnone, -⟩ := hs.early false (.inl hstage)
  have hopen : s.stage.isFinished = false := by rw [hstage]; rfl
  have hkeep : Heard (s.history ++ [(r, Event.resolved cwd)]) s.observer :=
    (hs.heard hopen).quiet rfl
  unfold resolved
  split
  · exact .moved hopen rfl nofun (endWithout_moves hkeep hnone ..)
  · split
    · exact .moved hopen rfl nofun (endWithout_moves hkeep hnone ..)
    · split
      · exact .moved hopen rfl nofun (endWithout_moves hkeep hnone ..)
      · exact .fresh cwd hstage

theorem spawned_does (hs : Sound x aborted s) {result : Except String Child} {u : Run x}
    (hu : spawned s r result = some u) : Does x aborted s r (.spawn result) u := by
  unfold spawned at hu
  split at hu
  · cases hu
  · rename_i registered hstage
    have hopen : s.stage.isFinished = false := by rw [hstage]; rfl
    have hkeep : Heard (s.history ++ [(r, Event.spawn result)]) s.observer :=
      (hs.heard hopen).quiet rfl
    split at hu
    · rename_i message
      split at hu
      · cases hu
        refine .moved hopen rfl nofun ⟨rfl, rfl, rfl, rfl, hkeep, trivial, id,
          fun b => ⟨nofun, ?_⟩, (nomatch ·)⟩
        simp
      · cases hu
        exact .moved hopen rfl nofun (launchFailed_moves hkeep message)
    · rename_i child
      cases hu
      exact .spawned registered child hstage
  · split at hu
    · cases hu
      exact .expired result
    · cases hu

theorem step_does (hs : Sound x aborted s) {u : Run x} (hu : step s r e = some u) :
    Does x aborted s r e u := by
  cases e with
  | abort =>
    cases hu
    exact .abort
  | resolved cwd =>
    simp only [step] at hu
    split at hu
    · rename_i hstage
      cases hu
      exact resolved_does hs hstage cwd
    · cases hu
  | spawn result => exact spawned_does hs hu
  | launchReturned launch =>
    simp only [step] at hu
    split at hu
    · rename_i hstage
      have hopen : s.stage.isFinished = false := by rw [hstage]; rfl
      split at hu
      · rename_i message _
        cases hu
        exact .moved hopen rfl nofun (launchFailed_moves ((hs.heard hopen).quiet rfl) message)
      · cases hu
        exact .moved hopen rfl nofun ⟨rfl, rfl, rfl, rfl, (hs.heard hopen).quiet rfl, trivial, id,
          fun _ => ⟨nofun, nofun⟩, (nomatch ·)⟩
    · cases hu
  | child event =>
    simp only [step] at hu
    split at hu
    · cases hu
    · rename_i child hchild
      obtain ⟨hmay, heq⟩ := Option.ite_none_right_eq_some.mp hu
      cases heq
      exact .child child event hchild hmay
  | race racer =>
    simp only [step] at hu
    split at hu
    · rename_i hstage
      have hopen : s.stage.isFinished = false := by rw [hstage]; rfl
      obtain ⟨first, hf, rfl⟩ := Option.map_eq_some_iff.mp hu
      exact .moved hopen rfl nofun ⟨rfl, rfl, rfl, rfl, (hs.heard hopen).quiet rfl,
        firstEvent_sound hs hopen hf, id, fun _ => ⟨nofun, nofun⟩, (nomatch ·)⟩
    · cases hu
  | resume =>
    simp only [step] at hu
    split at hu
    · rename_i first hstage
      cases hu
      have hopen : s.stage.isFinished = false := by rw [hstage]; rfl
      have hending := hs.stage_quiet hopen (r, .resume)
      rw [hstage] at hending
      exact .moved hopen rfl nofun (resume_moves ((hs.heard hopen).quiet rfl) hending)
    · cases hu
  | signalled outcome =>
    simp only [step] at hu
    split at hu
    · rename_i signal ending hstage
      cases hu
      have hopen : s.stage.isFinished = false := by rw [hstage]; rfl
      have hending := hs.stage_quiet hopen (r, .signalled outcome)
      rw [hstage] at hending
      have hkeep : Heard (s.history ++ [(r, .signalled outcome)]) s.observer :=
        (hs.heard hopen).quiet rfl
      refine .moved hopen rfl nofun (Moves.of_signals (signalled_moves ?_ ?_ signal))
      · exact hkeep
      · exact hending
    · cases hu
  | waited =>
    simp only [step] at hu
    split at hu
    · rename_i signal ending hstage
      cases hu
      have hopen : s.stage.isFinished = false := by rw [hstage]; rfl
      have hending := hs.stage_quiet hopen (r, .waited)
      rw [hstage] at hending
      exact .moved hopen rfl nofun (afterWait_moves ((hs.heard hopen).quiet rfl) hending signal)
    · cases hu
  | treeSettled outcome =>
    simp only [step] at hu
    split at hu
    · rename_i first hstage
      cases hu
      have hopen : s.stage.isFinished = false := by rw [hstage]; rfl
      have hending := hs.stage_quiet hopen (r, .treeSettled outcome)
      rw [hstage] at hending
      refine .moved hopen rfl nofun
        (drain_moves ((hs.heard hopen).quiet rfl) (ending_of_reaping hending) ?_)
      exact fun hc => ⟨_, List.mem_append_right _ (List.mem_singleton_self _),
        congrArg Event.treeSettled (treeReceipt_confirmed hc)⟩
    · cases hu
  | drained =>
    simp only [step] at hu
    split at hu
    · rename_i ending processTree hstage
      cases hu
      have hopen : s.stage.isFinished = false := by rw [hstage]; rfl
      have hending := hs.stage_quiet hopen (r, .drained)
      rw [hstage] at hending
      exact .moved hopen rfl nofun
        (conclude_moves ((hs.heard hopen).quiet rfl) hending.1 hending.2)
    · cases hu

theorem recorded_open {l : Readings × Event} (h : s.stage.isFinished = false) :
    recorded s l = [l] := if_neg (by simp [h])

theorem recorded_finished {l : Readings × Event} (h : s.stage.isFinished = true) :
    recorded s l = [] := if_pos h

theorem mem_recorded {l l' : Readings × Event} (h : l' ∈ recorded s l) : l' = l := by
  unfold recorded at h
  split at h
  · cases h
  · exact List.mem_singleton.mp h

theorem Sound.next (hs : Sound x aborted s) (h : next s (r, e) = some t) : Sound x aborted t := by
  obtain ⟨u, hu, rfl⟩ := next_spec h
  have hquiet : isChild e = false → s.child = none →
      ∀ l ∈ s.history ++ recorded s (r, e), isChild l.2 = false := by
    intro he hnone l hl
    rcases List.mem_append.mp hl with hold | hnew
    · exact hs.quiet hnone l hold
    · rw [mem_recorded hnew]
      exact he
  have hsignal : e ≠ .abort → s.aborted = false →
      aborted = false ∧ ∀ l ∈ s.history ++ recorded s (r, e), l.2 ≠ .abort := by
    intro he ha
    obtain ⟨hstart, hold⟩ := hs.signal ha
    refine ⟨hstart, fun l hl => ?_⟩
    rcases List.mem_append.mp hl with hl | hl
    · exact hold l hl
    · rw [mem_recorded hl]
      exact he
  have hheard : isChildError e = false → s.stage.isFinished = false →
      Heard (s.history ++ recorded s (r, e)) s.observer := fun he hopen => by
    rw [recorded_open hopen]
    exact (hs.heard hopen).quiet he
  cases step_does hs hu with
  | abort =>
    exact ⟨hheard rfl, hquiet rfl, hs.early, hs.without, hs.processes, nofun,
      hs.stage.mono recorded_finished fun _ => id⟩
  | fresh cwd hstage =>
    obtain ⟨hnone, -⟩ := hs.early false (.inl hstage)
    exact ⟨fun _ => .new (hquiet rfl hnone) _, fun _ => hquiet rfl hnone,
      fun _ _ => ⟨hnone, rfl⟩, (nomatch ·), hs.processes, hsignal nofun, trivial⟩
  | expired result =>
    exact ⟨hheard rfl, hquiet rfl, hs.early, hs.without, hs.processes, hsignal nofun,
      hs.stage.mono recorded_finished fun _ => id⟩
  | spawned registered child hstage =>
    obtain ⟨hnone, hexit⟩ := hs.early registered (.inr hstage)
    have hopen : s.stage.isFinished = false := by rw [hstage]; rfl
    have hprocesses := hs.processes
    rw [hnone] at hprocesses
    refine ⟨fun _ => (hheard rfl hopen).congr rfl rfl rfl rfl rfl fun stream => by
      cases stream <;> rfl, nofun, fun b hb => ?_, fun hb => ?_, ?_, hsignal nofun, ?_⟩
    · revert hb
      simp only
      split <;> simp
    · revert hb
      simp only
      split <;> simp [endedWithout]
    · simp only [hprocesses, Option.any_none, Bool.false_eq_true, if_false, Option.any_some,
        Nat.zero_add]
    · simp only
      split <;> trivial
  | child child event hchild hmay =>
    refine ⟨fun hopen => ?_, fun hnone => ?_, fun b hb => ?_, fun hb => ?_,
      hs.processes, hsignal nofun, hs.stage.mono recorded_finished fun _ => hear_exit event⟩
    · replace hopen : s.stage.isFinished = false := hopen
      show Heard (s.history ++ recorded s (r, .child event)) (s.observer.hear event)
      rw [recorded_open hopen]
      exact (hs.heard hopen).hear r event
    · cases hchild.symm.trans hnone
    · cases hchild.symm.trans (hs.early b hb).1
    · cases hchild.symm.trans (hs.without hb)
  | moved hopen hchild habort hm =>
    have hhistory : u.history ++ recorded s (r, e) = s.history ++ [(r, e)] := by
      rw [hm.history, recorded_open hopen]
    refine ⟨fun _ => hhistory ▸ hm.heard, fun hnone => ?_, fun b hb => ?_, fun hb => ?_, ?_,
      fun ha => ?_, hhistory ▸ hm.stage⟩
    · have := hquiet hchild (hm.child.symm.trans hnone)
      rwa [← hm.history] at this
    · rcases hb with hb | hb
      · exact absurd hb (hm.late b).1
      · exact absurd hb (hm.late b).2
    · exact hm.child.trans (hm.without hb)
    · rw [hm.processes, hm.child]
      exact hs.processes
    · have := hsignal habort (hm.signal.symm.trans ha)
      rwa [← hm.history] at this

theorem started_sound (x : Context) (aborted : Bool) (r : Readings) :
    Sound x aborted (started x aborted r) := by
  cases aborted with
  | true =>
    refine ⟨(nomatch ·), fun _ l hl => absurd hl List.not_mem_nil, fun b hb => ?_, fun _ => rfl, rfl,
      (nomatch ·), ⟨rfl, rfl, rfl⟩⟩
    rcases hb with hb | hb <;> cases hb
  | false =>
    exact ⟨fun _ => .new (fun l hl => absurd hl List.not_mem_nil) _, fun _ l hl => absurd hl List.not_mem_nil,
      fun b _ => ⟨rfl, rfl⟩, fun _ => rfl, rfl, fun _ => ⟨rfl, fun l hl => absurd hl List.not_mem_nil⟩, trivial⟩

theorem reachable_sound {r₀ : Readings} (h : (command x aborted r₀).Reachable s) :
    Sound x aborted s := by
  have hinvariant : (command x aborted r₀).Invariant (Sound x aborted) :=
    { init := fun s hs => by
        cases hs
        exact started_sound x aborted r₀
      step := fun s l t _ hs ht => hs.next ht }
  exact hinvariant.reachable h

/-! ## What a result rests on -/

/-- What a cleanup that says `confirmed` rests on. -/
structure Confirmed (h : History) : Prop where
  exit : ∃ code signal, ∃ l ∈ h, l.2 = .child (.exit code signal)
  streams : ∀ stream, ∃ l ∈ h, ends stream l.2 = true
  processTree : ∃ l ∈ h, l.2 = .treeSettled (.receipt .confirmed)

/-- What a result that says `passed` rests on. `aborted` says whether the signal
was aborted when the run began. -/
structure Passed (x : Context) (aborted : Bool) (h : History) (result : CommandRunResult) :
    Prop where
  natural : ∃ pre r post code, h = pre ++ (r, .race .exit) :: post ∧ aborted = false ∧
    (∀ l ∈ pre, l.2 ≠ .abort) ∧ r.now < x.deadlineAt ∧ code ∈ x.command.passed ∧
      ∃ l ∈ pre, l.2 = .child (.exit (some code) none)
  errors : ∀ l ∈ h, isChildError l.2 = false
  streams : result.command.stdio.stdout.error = none ∧ result.command.stdio.stderr.error = none
  confirmed : Confirmed h

structure Backed (x : Context) (aborted : Bool) (h : History) (result : CommandRunResult) :
    Prop where
  receipt : result.command.cleanup.status = result.cleanup.status
  passed : result.outcome = some .passed → Passed x aborted h result
  confirmed : result.cleanup.status = .confirmed → Confirmed h

theorem Heard.confirmed {o : x.Observer} {processTree : ProcessTreeReceipt} (hh : Heard h o)
    (ht : TreeSound h processTree)
    (hc : (processCleanup o.exitReceipt o.stdioTerminal processTree).status = .confirmed) :
    Confirmed h := by
  obtain ⟨⟨i, p, code, signal, hexit⟩, hstdio, htree⟩ := processCleanup_confirmed.mp hc
  obtain ⟨hstdout, hstderr⟩ := (Bool.and_eq_true ..).mp hstdio
  refine ⟨⟨code, signal, hh.exit i p code signal hexit⟩, fun stream => ?_, ht htree⟩
  cases stream with
  | stdout => exact hh.terminal .stdout hstdout
  | stderr => exact hh.terminal .stderr hstderr

theorem Sound.backed {result : CommandRunResult} {seen : Option x.Observer}
    (hs : Sound x aborted s) (hstage : s.stage = .finished result seen) :
    Backed x aborted s.history result := by
  have hsound := hs.stage
  rw [hstage] at hsound
  cases seen with
  | none =>
    obtain ⟨hstatus, hreceipt, houtcome⟩ := hsound
    refine ⟨hreceipt, fun hp => ?_, fun hc => ?_⟩
    · cases houtcome.symm.trans hp
    · cases hstatus.symm.trans hc
  | some o =>
    obtain ⟨-, processTree, natural, hheard, hreports, hend, htree⟩ := hsound
    refine ⟨hreports.receipt, fun hp => ?_, fun hc => ?_⟩
    · obtain ⟨hnatural, hfailure, hstdio, hconfirmed, i, p, code, hexit, hmem⟩ :=
        hreports.passed hp
      obtain ⟨pre, r, post, heq, haborted, hpre, hnow, receipt, hreceipt, hseen⟩ := hend hnatural
      cases hexit.symm.trans hreceipt
      refine ⟨⟨pre, r, post, code, heq, haborted, hpre, hnow, hmem, ?_⟩, hheard.failed hfailure,
        ?_, ?_⟩
      · exact hseen i p (some code) none rfl
      · rw [hreports.stdio]
        exact hheard.errors hfailure
      · exact hheard.confirmed htree (processCleanup_confirmed.mpr
          ⟨⟨i, p, some code, none, hexit⟩, hstdio, hconfirmed⟩)
    · exact hheard.confirmed htree (hreports.cleanup.symm.trans hc)

theorem Sound.processes_le (hs : Sound x aborted s) : s.processes ≤ 1 := by
  rw [hs.processes]
  split <;> omega

/-! ## Failed kills -/

/-- The next event reports that the child could not be killed, and the observer
takes it for a child that could not be spawned. -/
def Misread (s : Run x) : Event → Bool
  | .child (.error .killFailed _) =>
    !s.observer.errorHeard && !s.observer.spawnObserved && s.observer.exitReceipt.isNone
  | _ => false

/-- Only what was never a process counts as not spawned. -/
def Honest (s : Run x) : Prop := s.observer.exitReceipt = some .notSpawned → s.processes = 0

theorem hear_notSpawned {m n : Nat} {o : Observer m n} {event : ChildEvent}
    (hevent : isChildError (.child event) = false)
    (h : (o.hear event).exitReceipt = some .notSpawned) : o.exitReceipt = some .notSpawned := by
  cases event with
  | spawn pid => exact h
  | close => exact h
  | data stream chunk => cases stream <;> exact h
  | streamEnd stream => exact (settleStream_spec o stream none).1.symm.trans h
  | streamClose stream => exact (settleStream_spec o stream none).1.symm.trans h
  | streamError stream error => exact (settleStream_spec o stream error).1.symm.trans h
  | exit code signal =>
    simp only [Observer.hear, Observer.settleExit] at h
    cases ho : o.exitReceipt with
    | none => simp [ho] at h
    | some receipt => simpa [ho] using h
  | error cause message => cases hevent

/-- An error sets the receipt only before the spawn event. -/
theorem hearError_notSpawned {m n : Nat} {o : Observer m n} {message : String}
    (h : (o.hearError message).exitReceipt = some .notSpawned)
    (ho : o.exitReceipt ≠ some .notSpawned) :
    o.errorHeard = false ∧ o.spawnObserved = false ∧ o.exitReceipt = none := by
  unfold Observer.hearError at h
  split at h
  · exact absurd h ho
  · rename_i hheard
    split at h
    · exact absurd h ho
    · rename_i hspawn
      refine ⟨Bool.eq_false_iff.mpr hheard, Bool.eq_false_iff.mpr hspawn, ?_⟩
      simp only [Observer.settleNotSpawned, Observer.settleExit, Observer.settleFailure] at h
      cases hexit : o.exitReceipt with
      | none => rfl
      | some receipt => exact absurd (by simpa [hexit] using h) (hexit ▸ ho)

theorem Honest.next (hh : Honest s) (hs : Sound x aborted s) (hread : Misread s e = false)
    (h : next s (r, e) = some t) : Honest t := by
  obtain ⟨u, hu, rfl⟩ := next_spec h
  cases step_does hs hu with
  | abort => exact hh
  | fresh cwd hstage => exact fun hexit => nomatch hexit
  | expired result => exact hh
  | spawned registered child hstage =>
    intro hexit
    cases (hs.early registered (.inr hstage)).2.symm.trans hexit
  | child child event hchild hmay =>
    intro hexit
    show s.processes = 0
    by_cases hbefore : s.observer.exitReceipt = some .notSpawned
    · exact hh hbefore
    cases event with
    | error cause message =>
      obtain ⟨hheard, hspawn, hnone⟩ := hearError_notSpawned hexit hbefore
      cases cause with
      | spawnFailed =>
        have hprocess : child.process = false := by simpa [mayEmit] using hmay
        simp [hs.processes, hchild, hprocess]
      | killFailed => simp [Misread, hheard, hspawn, hnone] at hread
    | spawn | exit | close | data | streamEnd | streamClose | streamError =>
      exact absurd (hear_notSpawned rfl hexit) hbefore
  | moved hopen hchild habort hm => exact fun hexit => hm.processes.trans (hh (hm.exit hexit))

/-- A cleanup that was not required is of a run without a process. -/
theorem Honest.notRequired {result : CommandRunResult} {seen : Option x.Observer}
    (hh : Honest s) (hs : Sound x aborted s) (hstage : s.stage = .finished result seen)
    (hstatus : result.cleanup.status = .notRequired) : s.processes = 0 := by
  have hsound := hs.stage
  have hwithout := hs.without
  rw [hstage] at hsound hwithout
  cases seen with
  | none => simp [hs.processes, hwithout rfl]
  | some o =>
    obtain ⟨hcurrent, processTree, natural, -, hreports, -⟩ := hsound
    exact hh (hcurrent _ (processCleanup_notRequired.mp (hreports.cleanup.symm.trans hstatus)))

end SurfaceLoom.Service.CommandSafety
