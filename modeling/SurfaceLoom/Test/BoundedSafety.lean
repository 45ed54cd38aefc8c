import SurfaceLoom.Test.AssertionSafety
import SurfaceLoom.Test.BoundedObservation
import SurfaceLoom.Test.DeadlineOutcomes

/-! # What a bounded wait promises

A bounded wait passes only with a task that was never cancelled and an inner wait
that passed against the same deadline. Its task is a deadline task, whose body
returns what a run of the inner wait ended with. -/
namespace SurfaceLoom.Test.BoundedSafety
open SurfaceLoom.Lib.Transition SurfaceLoom.Lib.Checked
open SurfaceLoom.Test.Deadline hiding Body Event next
open SurfaceLoom.Test.DeadlineSafety (core)
open SurfaceLoom.Test.DeadlineOutcomes SurfaceLoom.Test.BoundedObservation
open SurfaceLoom.Test.Assertion (Sample Wait ReadOutcome Match Result)

variable {redact : String → String} {options : BoundedOptions} {deadlineMs : ℚ}
  {s t : Bounded} {e : Event}

/-! ## Where a completion comes from -/

/-- A wait that a run of `waitForObservation` against this deadline is in. -/
def Inner (redact : String → String) (options : BoundedOptions) (deadlineMs : ℚ) (wait : Wait) :
    Prop :=
  ∃ observation timeoutMs events, options.observation = .ok observation ∧
    (Assertion.observation redact { observation with timeoutMs := some timeoutMs }
      (.number (some (deadlineMs - timeoutMs)))).Run events wait

theorem Inner.next {wait wait' : Wait} {event : Assertion.Event}
    (h : Inner redact options deadlineMs wait)
    (hnext : Assertion.next redact wait event = some wait') :
    Inner redact options deadlineMs wait' := by
  obtain ⟨observation, timeoutMs, events, hoptions, hrun⟩ := h
  exact ⟨observation, timeoutMs, events ++ [event], hoptions, hrun.snoc hnext⟩

theorem Inner.deadline {wait : Wait} (h : Inner redact options deadlineMs wait) :
    wait.timer.deadlineMs = deadlineMs := by
  obtain ⟨observation, timeoutMs, events, -, hrun⟩ := h
  rw [AssertionSafety.run_deadline rfl hrun, sub_add_cancel]

/-- What the body ends with. -/
def Sourced (redact : String → String) (options : BoundedOptions) (deadlineMs : ℚ) :
    Completion BodyValue → Prop
  | .fulfilled (.assertion result) =>
    ∃ wait, Inner redact options deadlineMs wait ∧ wait.stage = .finished result
  | .rejected (.reason cause) => cause.isSome ∨ options.observation = .error none
  | _ => False

theorem Sourced.told {result : Result}
    (h : Sourced redact options deadlineMs (.fulfilled (.assertion result))) :
    (result.status = .passed ∨ result.failure.isSome) ∧ result.deadlineMs = deadlineMs := by
  obtain ⟨wait, hinner, hstage⟩ := h
  have hdeadline := hinner.deadline
  obtain ⟨observation, timeoutMs, events, -, hrun⟩ := hinner
  obtain ⟨hfailure, hsame⟩ := AssertionSafety.run_told hrun result hstage
  exact ⟨hfailure, hsame.trans hdeadline⟩

theorem Sourced.ends {completion : Completion BodyValue}
    (h : Sourced redact options deadlineMs completion) :
    (∃ result, completion = .fulfilled (.assertion result)) ∨
      ∃ cause, completion = .rejected (.reason cause) := by
  cases completion with
  | fulfilled value =>
    cases value with
    | assertion result => exact .inl ⟨result, rfl⟩
    | reason cause => exact h.elim
  | rejected value =>
    cases value with
    | assertion result => exact h.elim
    | reason cause => exact .inr ⟨cause, rfl⟩

/-- What is known of the body between its steps. -/
def Backs (redact : String → String) (options : BoundedOptions) (deadlineMs : ℚ) :
    Callback → Prop
  | .waiting | .entered | .measured _ => True
  | .running wait | .checked wait _ | .refused wait _ | .invoked wait | .asleep wait _ =>
    Inner redact options deadlineMs wait
  | .returned completion => Sourced redact options deadlineMs completion

/-! ## One step -/

/-- A call of the caller's reader, from one state to the next. -/
structure Reads (s t : Bounded) (context : ReadContext) : Prop where
  invoked : t.invoked = s.invoked ++ [context]
  cancellation : t.task.cancellation = none
  early : t.task.last < t.task.deadlineMs
  deadline : context.deadlineMs = t.task.deadlineMs
  remaining : context.remainingMs ≤ t.task.deadlineMs - t.task.last

/-- What a step does: the task does nothing or takes a step of its own, the body
goes on, and the caller's reader is called at most once. -/
structure Steps (redact : String → String) (options : BoundedOptions) (s t : Bounded) : Prop where
  task : t.task = s.task ∨ ∃ event, Deadline.next s.task event = some t.task ∧
    ∀ completion reading, event = .settle completion reading → s.callback = .returned completion
  started : t.startedAtMs = s.startedAtMs
  callback : Backs redact options s.task.deadlineMs s.callback →
    Backs redact options s.task.deadlineMs t.callback
  invoked : t.invoked = s.invoked ∨ ∃ context, Reads s t context

theorem taskStep_some {event : Deadline.Event BodyValue} (h : s.taskStep event = some t) :
    ∃ task, Deadline.next s.task event = some task ∧ t = { s with task } := by
  obtain ⟨task, htask, ht⟩ := Option.map_eq_some_iff.mp h
  exact ⟨task, htask, ht.symm⟩

/-- A step of the task, after which the body is somewhere it may be. -/
theorem taskStep_steps {event : Deadline.Event BodyValue} {u : Bounded}
    (h : s.taskStep event = some u)
    (hsettle : ∀ completion reading, event = .settle completion reading →
      s.callback = .returned completion) {callback : Callback}
    (hcallback : Backs redact options s.task.deadlineMs s.callback →
      Backs redact options s.task.deadlineMs callback) :
    Steps redact options s { u with callback } := by
  obtain ⟨task, htask, rfl⟩ := taskStep_some h
  exact ⟨.inr ⟨event, htask, hsettle⟩, rfl, hcallback, .inl rfl⟩

theorem callback_steps {callback : Callback}
    (hcallback : Backs redact options s.task.deadlineMs s.callback →
      Backs redact options s.task.deadlineMs callback) :
    Steps redact options s { s with callback } :=
  ⟨.inl rfl, rfl, hcallback, .inl rfl⟩

theorem waitStep_some {wait : Wait} {event : Assertion.Event}
    (h : s.waitStep redact wait event = some t) : ∃ wait',
      Assertion.next redact wait event = some wait' ∧ t = { s with callback := .running wait' } := by
  obtain ⟨wait', hwait, ht⟩ := Option.map_eq_some_iff.mp h
  exact ⟨wait', hwait, ht.symm⟩

theorem waitStep_steps {wait : Wait} {event : Assertion.Event}
    (hbacks : Backs redact options s.task.deadlineMs s.callback →
      Inner redact options s.task.deadlineMs wait)
    (h : s.waitStep redact wait event = some t) : Steps redact options s t := by
  obtain ⟨wait', hwait, rfl⟩ := waitStep_some h
  exact callback_steps fun hb => (hbacks hb).next hwait

/-- The acknowledgement leaves the body where it is. -/
theorem acknowledge_steps {u : Bounded} (h : s.acknowledge = some u) {callback : Callback}
    (hcallback : Backs redact options s.task.deadlineMs s.callback →
      Backs redact options s.task.deadlineMs callback) :
    Steps redact options s { u with callback } := by
  unfold Bounded.acknowledge at h
  split at h
  · exact taskStep_steps h (fun _ _ he => (nomatch he)) hcallback
  · cases h
    exact callback_steps hcallback

theorem start_steps {aborted : Bool} {reading : Reading} {scheduling : Scheduling}
    (h : s.start aborted reading scheduling = some t) : Steps redact options s t := by
  obtain ⟨u, hu, rfl⟩ := Option.map_eq_some_iff.mp h
  have hsame : u.callback = s.callback := by
    obtain ⟨task, -, rfl⟩ := taskStep_some hu
    rfl
  split
  · exact taskStep_steps hu (fun _ _ he => (nomatch he)) fun _ => trivial
  · have hsteps : Steps redact options s { u with callback := u.callback } :=
      taskStep_steps hu (fun _ _ he => (nomatch he)) (by rw [hsame]; exact id)
    exact hsteps

theorem enter_steps {reading : Reading} (h : s.enter reading = some t) :
    Steps redact options s t := by
  obtain ⟨u, hu, rfl⟩ := Option.map_eq_some_iff.mp h
  split
  · exact taskStep_steps hu (fun _ _ he => (nomatch he)) fun _ => .inl rfl
  · exact taskStep_steps hu (fun _ _ he => (nomatch he)) fun _ => trivial

theorem begin_steps (timeoutMs : ℚ) :
    Steps redact options s (s.begin redact options timeoutMs) := by
  unfold Bounded.begin
  split
  · rename_i cause hcause
    refine callback_steps fun _ => ?_
    cases cause with
    | none => exact .inr hcause
    | some message => exact .inl rfl
  · rename_i observation hobservation
    split
    · exact callback_steps fun _ => .inl rfl
    · rename_i wait hwait
      exact callback_steps fun _ => ⟨observation, timeoutMs, [], hobservation, .init hwait⟩

theorem throwIfCancelled_steps {wait : Wait} {startedAtMs : ℚ} {reading : Reading}
    (hcallback : s.callback = .running wait)
    (h : s.throwIfCancelled wait startedAtMs reading = some t) : Steps redact options s t := by
  obtain ⟨u, hu, rfl⟩ := Option.map_eq_some_iff.mp h
  have hbacks : Backs redact options s.task.deadlineMs s.callback →
      Inner redact options s.task.deadlineMs wait := by
    rw [hcallback]
    exact id
  split
  · exact taskStep_steps hu (fun _ _ he => (nomatch he)) hbacks
  · exact taskStep_steps hu (fun _ _ he => (nomatch he)) hbacks

/-! ### The second reading before a read -/

theorem remaining_ok {reading : Reading} {remainingMs : ℚ}
    (h : s.remaining reading = .ok remainingMs) : ∃ now, (s.task.read reading).2 = some now ∧
      remainingMs = max 0 (s.task.deadlineMs - now) := by
  unfold Bounded.remaining at h
  split at h
  · cases h
  · rename_i now hnow
    cases h
    exact ⟨now, hnow, rfl⟩

theorem read_some {task : DeadlineTask BodyValue} {reading : Reading} {now : ℚ}
    (h : (task.read reading).2 = some now) :
    task.read reading = ({ task with last := now }, some now) := by
  unfold DeadlineTask.read at h ⊢
  split
  · dsimp only at h
    split at h
    · cases h
    · rename_i hfine
      cases h
      rw [if_neg hfine]
  · cases h

/-- A reading before the deadline leaves a task that only knows the time. -/
theorem remainingMs_early {task : DeadlineTask BodyValue} {reading : Reading} {now : ℚ}
    (h : (task.read reading).2 = some now) (hearly : now < task.deadlineMs) :
    task.remainingMs reading = { task with last := now } := by
  unfold DeadlineTask.remainingMs
  rw [read_some h]
  exact if_neg (not_le.mpr hearly)

theorem call_steps {u : Bounded} {wait : Wait} {startedAtMs remainingMs : ℚ} {reading : Reading}
    (hu : s.taskStep (.remainingMs reading) = some u)
    (hremaining : s.remaining reading = .ok remainingMs)
    (hcallback : Backs redact options s.task.deadlineMs s.callback →
      Inner redact options s.task.deadlineMs wait) :
    Steps redact options s
      (u.call wait startedAtMs (min (wait.timer.deadlineMs - startedAtMs) remainingMs)) := by
  unfold Bounded.call
  split
  · exact taskStep_steps hu (fun _ _ he => (nomatch he)) hcallback
  · rename_i hcalled
    have hsteps : Steps redact options s { u with callback := .invoked wait } :=
      taskStep_steps hu (fun _ _ he => (nomatch he)) hcallback
    obtain ⟨task, htask, rfl⟩ := taskStep_some hu
    obtain ⟨now, hnow, rfl⟩ := remaining_ok hremaining
    obtain ⟨hpositive, huncancelled⟩ := not_or.mp hcalled
    have hleft : 0 < s.task.deadlineMs - now := by
      by_contra hover
      rw [max_eq_left (not_lt.mp hover)] at hpositive
      exact hpositive (min_le_right ..)
    have hearly : now < s.task.deadlineMs := sub_pos.mp hleft
    have hsame : task = { s.task with last := now } := by
      simp only [Deadline.next] at htask
      split at htask
      · rw [← remainingMs_early hnow hearly, Option.some.inj htask]
      · cases htask
    refine ⟨hsteps.task, hsteps.started, hsteps.callback, .inr ⟨_, rfl, ?_, ?_, rfl, ?_⟩⟩
    · simpa using huncancelled
    · rw [hsame]
      exact hearly
    · rw [hsame]
      exact (min_le_right ..).trans (max_eq_right hleft.le).le

theorem check_steps {wait : Wait} {startedAtMs : ℚ} {reading : Reading}
    (hcallback : s.callback = .checked wait startedAtMs)
    (h : s.check wait startedAtMs reading = some t) : Steps redact options s t := by
  have hbacks : Backs redact options s.task.deadlineMs s.callback →
      Inner redact options s.task.deadlineMs wait := by
    rw [hcallback]
    exact id
  unfold Bounded.check at h
  split at h
  · cases h
    exact callback_steps hbacks
  · obtain ⟨u, hu, rfl⟩ := Option.map_eq_some_iff.mp h
    split
    · exact taskStep_steps hu (fun _ _ he => (nomatch he)) hbacks
    · rename_i remainingMs hremaining
      exact call_steps hu hremaining hbacks

theorem readSettled_steps {wait : Wait} {outcome : ReadOutcome} {finishedAt after later : Sample}
    {matcher : Match} (hbacks : Backs redact options s.task.deadlineMs s.callback →
      Inner redact options s.task.deadlineMs wait)
    (h : s.readSettled redact wait outcome finishedAt matcher after later = some t) :
    Steps redact options s t := by
  obtain ⟨u, hu, hwait⟩ := Option.bind_eq_some_iff.mp h
  obtain ⟨wait', hnext, rfl⟩ := waitStep_some hwait
  exact acknowledge_steps hu fun hb => (hbacks hb).next hnext

theorem bodyNext_steps (h : bodyNext redact options s e = some t) : Steps redact options s t := by
  unfold bodyNext at h
  split at h
  · exact enter_steps h
  · cases h
    exact begin_steps _
  · rename_i hcallback
    exact waitStep_steps (by rw [hcallback]; exact id) h
  · rename_i hcallback
    split at h
    · exact throwIfCancelled_steps hcallback h
    · cases h
  · rename_i hcallback
    exact check_steps hcallback h
  · rename_i hcallback
    exact readSettled_steps (by rw [hcallback]; exact id) h
  · rename_i hcallback
    exact readSettled_steps (by rw [hcallback]; exact id) h
  · rename_i hcallback
    split at h
    · cases h
      exact callback_steps (by rw [hcallback]; exact id)
    · cases h
  · rename_i hcallback
    split at h
    · cases h
      exact callback_steps (by rw [hcallback]; exact id)
    · cases h
  · rename_i hcallback
    exact waitStep_steps (by rw [hcallback]; exact id) h
  · rename_i wait hcallback
    split at h
    · rename_i result hstage
      obtain ⟨u, hu, rfl⟩ := Option.map_eq_some_iff.mp h
      refine acknowledge_steps hu ?_
      rw [hcallback]
      exact fun hinner => ⟨wait, hinner, hstage⟩
    · cases h
  · rename_i completion reading hcallback
    have hsteps : Steps redact options s { t with callback := s.callback } := by
      refine taskStep_steps h (fun completion' reading' he => ?_) id
      cases he
      exact hcallback
    obtain ⟨task, -, rfl⟩ := taskStep_some h
    exact hsteps
  · cases h

theorem interrupt_steps (h : interrupt s = some t) : Steps redact options s t := by
  unfold interrupt at h
  split at h
  · rename_i hcallback _
    cases h
    exact callback_steps (by rw [hcallback]; exact id)
  · cases h

/-- An event that only the task hears. -/
theorem heard_steps {event : Deadline.Event BodyValue} (h : s.taskStep event = some t)
    (hsettle : ∀ completion reading, event ≠ .settle completion reading) :
    Steps redact options s t := by
  have hsteps : Steps redact options s { t with callback := s.callback } :=
    taskStep_steps h (fun completion reading he => absurd he (hsettle completion reading)) id
  obtain ⟨task, -, rfl⟩ := taskStep_some h
  exact hsteps

theorem next_steps (h : next redact options s e = some t) : Steps redact options s t := by
  unfold next at h
  split at h
  · exact start_steps h
  · exact heard_steps h fun _ _ he => (nomatch he)
  · exact heard_steps h fun _ _ he => (nomatch he)
  · exact heard_steps h fun _ _ he => (nomatch he)
  · exact interrupt_steps h
  · split at h
    · exact bodyNext_steps h
    · cases h

/-! ## Every run -/

theorem launch_spec {first : Sample} (h : launch options first = .ok s) :
    ∃ startedAtMs timeoutMs graceMs,
      s = ⟨create startedAtMs timeoutMs graceMs, startedAtMs, .waiting, []⟩ := by
  obtain ⟨graceMs, -, h⟩ := bind_ok.mp h
  obtain ⟨timeoutMs, -, h⟩ := bind_ok.mp h
  obtain ⟨startedAtMs, -, h⟩ := bind_ok.mp h
  exact ⟨startedAtMs, timeoutMs, graceMs, (Except.ok.inj h).symm⟩

/-- What holds of every call: its deadline never moves. -/
structure Sound (redact : String → String) (options : BoundedOptions) (s : Bounded) : Prop where
  task : ∃ startedAtMs timeoutMs graceMs,
    (Deadline.task BodyValue startedAtMs timeoutMs graceMs).Reachable s.task
  callback : Backs redact options s.task.deadlineMs s.callback
  kept : Kept (Sourced redact options s.task.deadlineMs) (core s.task)

theorem next_deadlineMs {startedAtMs timeoutMs graceMs : ℚ} {task task' : DeadlineTask BodyValue}
    {event : Deadline.Event BodyValue}
    (h : (Deadline.task BodyValue startedAtMs timeoutMs graceMs).Reachable task)
    (hnext : Deadline.next task event = some task') : task'.deadlineMs = task.deadlineMs := by
  have hinvariant := DeadlineSafety.sound_invariant (V := BodyValue) startedAtMs timeoutMs graceMs
  have hbefore := (hinvariant.reachable h).deadline
  have hafter := (hinvariant.reachable (h.step hnext)).deadline
  exact hafter.trans hbefore.symm

theorem Sound.next (h : Sound redact options s) (hs : Steps redact options s t) :
    Sound redact options t := by
  have hcallback := hs.callback h.callback
  obtain ⟨startedAtMs, timeoutMs, graceMs, hreachable⟩ := h.task
  rcases hs.task with hsame | ⟨event, hnext, hsettle⟩
  · rw [← hsame] at hreachable hcallback
    exact ⟨⟨_, _, _, hreachable⟩, hcallback, by rw [hsame]; exact h.kept⟩
  · have hdeadline := next_deadlineMs hreachable hnext
    refine ⟨⟨_, _, _, hreachable.step hnext⟩, by rwa [hdeadline], ?_⟩
    rw [hdeadline]
    refine h.kept.next (fun completion reading he => ?_) hnext
    have hreturned := hsettle completion reading he
    have hsourced := h.callback
    rw [hreturned] at hsourced
    exact hsourced

theorem sound_invariant (redact : String → String) (options : BoundedOptions) (first : Sample) :
    (bounded redact options first).Invariant (Sound redact options) where
  init s hs := by
    obtain ⟨startedAtMs, timeoutMs, graceMs, rfl⟩ := launch_spec hs
    exact ⟨⟨startedAtMs, timeoutMs, graceMs, .init rfl⟩, trivial, create_kept ..⟩
  step _ _ _ _ h hnext := h.next (next_steps hnext)

/-! ## The result -/

theorem outcomeStatus_settled {cancellation : Option DeadlineCancellation}
    (h : outcomeStatus cancellation = .settled) : cancellation = none := by
  cases cancellation with
  | none => rfl
  | some c =>
    unfold outcomeStatus at h
    dsimp only at h
    split at h <;> cases h

theorem assertion_some {settlement : Option (TaskSettleReceipt BodyValue)} {result : Result}
    (h : assertion settlement = some result) : ∃ r, settlement = some r ∧
      r.completion = some (.fulfilled (.assertion result)) := by
  unfold assertion at h
  split at h
  · rename_i result' hcompletion
    cases h
    obtain ⟨r, hr, hc⟩ := Option.bind_eq_some_iff.mp hcompletion
    exact ⟨r, hr, hc⟩
  · cases h

/-- A result that passed comes from an inner wait that passed. -/
theorem boundedStatus_passed {outcome : TaskOutcome BodyValue}
    (h : boundedStatus outcome = .passed) : outcome.status = .settled ∧
      ∃ result, assertion outcome.settlement = some result ∧ result.status = .passed := by
  unfold boundedStatus at h
  split at h
  · rename_i hsettled
    refine ⟨hsettled, ?_⟩
    cases hassertion : assertion outcome.settlement with
    | none =>
      rw [hassertion] at h
      cases h
    | some result =>
      rw [hassertion] at h
      have hstatus : assertionStatus result = .passed := h
      unfold assertionStatus at hstatus
      refine ⟨result, rfl, ?_⟩
      split at hstatus
      · assumption
      · cases hstatus
      · cases hstatus
  · cases h
  · cases h
  · cases h

/-- A task that settled without passing says why. -/
theorem settledFailure_some {settlement : Option (TaskSettleReceipt BodyValue)}
    {r : TaskSettleReceipt BodyValue} (hr : settlement = some r) {completion : Completion BodyValue}
    (hcompletion : r.completion = some completion)
    (hsourced : Sourced redact options deadlineMs completion)
    (hread : options.observation ≠ .error none)
    (hfailed : ∀ result, assertion settlement = some result → result.status ≠ .passed) :
    (settledFailure settlement).isSome := by
  have hbind : settlement.bind TaskSettleReceipt.completion = some completion := by
    rw [hr]
    exact hcompletion
  rcases hsourced.ends with ⟨result, rfl⟩ | ⟨cause', rfl⟩
  · have hassertion : assertion settlement = some result := by
      unfold assertion
      rw [hbind]
    have hfailure := hsourced.told.1.resolve_left (hfailed result hassertion)
    obtain ⟨failure, hsome⟩ := Option.isSome_iff_exists.mp hfailure
    unfold settledFailure
    rw [hassertion]
    simp [hsome]
  · have hnull : cause'.isSome = true := hsourced.resolve_right hread
    obtain ⟨message, rfl⟩ := Option.isSome_iff_exists.mp hnull
    have hcause : cause settlement = some message := by
      unfold cause
      rw [hbind]
    have hnone : assertion settlement = none := by
      unfold assertion
      rw [hbind]
    unfold settledFailure
    rw [hnone, hcause]
    rfl

theorem cancellationFailure_some {outcome : TaskOutcome BodyValue}
    (h : outcome.cancellation.isSome) : (cancellationFailure outcome).isSome := by
  unfold cancellationFailure
  split
  · rfl
  · rwa [Option.isSome_map]

/-- What a bounded wait promises in a state. -/
structure Promises (redact : String → String) (options : BoundedOptions) (s : Bounded) : Prop where
  /-- A wait passes only with a task that was not cancelled and an inner wait that
  passed against the task's own deadline. -/
  passed : ∀ result, s.result = some result → result.status = .passed →
    ∃ outcome inner, s.task.outcome = some outcome ∧ outcome.status = .settled ∧
      outcome.cancellation = none ∧ result.assertion = some inner ∧ inner.status = .passed ∧
      inner.deadlineMs = s.task.deadlineMs ∧
      Sourced redact options s.task.deadlineMs (.fulfilled (.assertion inner))
  /-- The reader is only called by a task that is not cancelled, before its deadline. -/
  reads : ∀ e t, next redact options s e = some t →
    t.invoked = s.invoked ∨ ∃ context, Reads s t context
  failed : ∀ result, s.result = some result → result.status ≠ .passed → result.failure.isSome

theorem Sound.passed (h : Sound redact options s) {outcome : TaskOutcome BodyValue}
    (houtcome : s.task.outcome = some outcome) (hstatus : boundedStatus outcome = .passed) :
    ∃ inner, outcome.status = .settled ∧ outcome.cancellation = none ∧
      assertion outcome.settlement = some inner ∧ inner.status = .passed ∧
      inner.deadlineMs = s.task.deadlineMs ∧
      Sourced redact options s.task.deadlineMs (.fulfilled (.assertion inner)) := by
  have hreports := h.kept.outcome outcome houtcome
  obtain ⟨hsettled, inner, hassertion, hpassed⟩ := boundedStatus_passed hstatus
  obtain ⟨r, hr, hcompletion⟩ := assertion_some hassertion
  have hsourced := hreports.settlement r hr _ hcompletion
  exact ⟨inner, hsettled, outcomeStatus_settled (hreports.status.symm.trans hsettled), hassertion,
    hpassed, hsourced.told.2, hsourced⟩

theorem Sound.failed (h : Sound redact options s) (hread : options.observation ≠ .error none)
    {outcome : TaskOutcome BodyValue} (houtcome : s.task.outcome = some outcome)
    (hstatus : boundedStatus outcome ≠ .passed) :
    (observationResult outcome s.startedAtMs s.task.deadlineMs).failure.isSome := by
  have hreports := h.kept.outcome outcome houtcome
  show Option.isSome (if outcome.status = .settled then settledFailure outcome.settlement
    else cancellationFailure outcome)
  split
  · rename_i hsettled
    have hnone := outcomeStatus_settled (hreports.status.symm.trans hsettled)
    rcases hreports.ended with hcancelled | ⟨r, hr, hcompletion⟩
    · rw [hnone] at hcancelled
      cases hcancelled
    · obtain ⟨completion, hsome⟩ := Option.isSome_iff_exists.mp hcompletion
      refine settledFailure_some hr hsome (hreports.settlement r hr _ hsome) hread
        fun result hassertion hpassed => hstatus ?_
      unfold boundedStatus
      rw [hsettled, hassertion]
      show assertionStatus result = .passed
      unfold assertionStatus
      rw [hpassed]
  · rename_i hsettled
    refine cancellationFailure_some ?_
    cases hcancellation : outcome.cancellation with
    | none =>
      refine absurd ?_ hsettled
      rw [hreports.status, hcancellation]
      rfl
    | some c => rfl

theorem bounded_promises (redact : String → String) (options : BoundedOptions) (first : Sample)
    (hread : options.observation ≠ .error none) (s : Bounded)
    (h : (bounded redact options first).Reachable s) : Promises redact options s := by
  have hsound := (sound_invariant redact options first).reachable h
  refine ⟨fun result hresult hstatus => ?_, fun e t hnext => (next_steps hnext).invoked,
    fun result hresult hstatus => ?_⟩
  · obtain ⟨outcome, houtcome, rfl⟩ := Option.map_eq_some_iff.mp hresult
    obtain ⟨inner, hsettled, hcancellation, hassertion, hpassed, hdeadline, hsourced⟩ :=
      hsound.passed houtcome hstatus
    exact ⟨outcome, inner, houtcome, hsettled, hcancellation, hassertion, hpassed, hdeadline,
      hsourced⟩
  · obtain ⟨outcome, houtcome, rfl⟩ := Option.map_eq_some_iff.mp hresult
    exact hsound.failed hread houtcome hstatus

/-! ## Two calls -/

/-- What a call with these options resolves with after some events. -/
def resultAfter (options : BoundedOptions) (events : List Event) : Option (Bounded × BoundedResult) :=
  (launch options (AssertionSafety.clockAt 0)).toOption.bind fun s =>
    (System.replay (next id options) s events).bind fun s => s.result.map fun result => (s, result)

theorem resultAfter_reachable {events : List Event} {result : BoundedResult}
    (h : resultAfter options events = some (s, result)) :
    (bounded id options (AssertionSafety.clockAt 0)).Reachable s ∧ s.result = some result := by
  obtain ⟨s₀, hlaunch, h⟩ := Option.bind_eq_some_iff.mp h
  obtain ⟨s₁, hreplay, h⟩ := Option.bind_eq_some_iff.mp h
  obtain ⟨result', hresult, heq⟩ := Option.map_eq_some_iff.mp h
  cases heq
  have hinit : launch options (AssertionSafety.clockAt 0) = .ok s₀ := by
    cases hcall : launch options (AssertionSafety.clockAt 0) with
    | error message => simp [hcall, Except.toOption] at hlaunch
    | ok u => simpa [hcall, Except.toOption] using hlaunch
  exact ⟨⟨events, s₀, hinit, System.exec_of_steps (fun _ _ _ hs => hs) events s₀ s hreplay⟩,
    hresult⟩

def absentBounded : BoundedOptions := ⟨some 100, some 0, .ok AssertionSafety.absentOptions⟩

/-- An absence that is observed in time. -/
def absentCall : List Event :=
  [.start false (some 0) .accepted, .enter (some 1), .begin,
    .poll (AssertionSafety.clockAt 5) (.number none), .throwIfCancelled (some 6), .check (some 7),
    .readSettled (.returned (.object AssertionSafety.absentEnvelope)) (AssertionSafety.clockAt 20)
      (.returned none) (AssertionSafety.clockAt 21) (.number none),
    .bodyReturns, .settle (some 22)]

theorem absentCall_passed :
    (resultAfter absentBounded absentCall).any (fun r => r.2.status = .passed) = true := by
  decide +kernel

theorem bounded_promises_absent : ∃ s result, s.result = some result ∧ result.status = .passed ∧
    Promises id absentBounded s := by
  obtain ⟨⟨s, result⟩, hresult, hpassed⟩ := (Option.any_eq_true _ _).mp absentCall_passed
  obtain ⟨hreachable, hs⟩ := resultAfter_reachable hresult
  exact ⟨s, result, hs, of_decide_eq_true hpassed,
    bounded_promises id absentBounded (AssertionSafety.clockAt 0) (fun h => (nomatch h)) s
      hreachable⟩

/-- Reading the options of the inner wait throws `null`. -/
def nullBounded : BoundedOptions := ⟨some 10, some 0, .error none⟩

def nullCall : List Event :=
  [.start false (some 0) .accepted, .enter (some 1), .begin, .settle (some 2)]

theorem nullCall_failed : (resultAfter nullBounded nullCall).any
    (fun r => r.2.status = .failed && r.2.failure.isNone) = true := by
  decide +kernel

theorem bounded_null_unreported : ¬ ∀ (options : BoundedOptions) (first : Sample) (s : Bounded),
    (bounded id options first).Reachable s → Promises id options s := by
  intro hall
  obtain ⟨⟨s, result⟩, hresult, hfailed⟩ := (Option.any_eq_true _ _).mp nullCall_failed
  obtain ⟨hstatus, hnone⟩ := Bool.and_eq_true_iff.mp hfailed
  obtain ⟨hreachable, hs⟩ := resultAfter_reachable hresult
  have hstatus' : result.status = .failed := of_decide_eq_true hstatus
  have hsome := (hall nullBounded _ s hreachable).failed result hs (by rw [hstatus']; nofun)
  rw [Option.isNone_iff_eq_none.mp hnone] at hsome
  cases hsome

end SurfaceLoom.Test.BoundedSafety
