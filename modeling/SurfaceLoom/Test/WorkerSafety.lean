import SurfaceLoom.Test.DeadlineSafety
import SurfaceLoom.Test.Worker

/-! # What a tracked task publishes

The record of a tracked task only repeats what the task has recorded itself. A body that
settles between the outcome of its task and the callback that reports it is reported as
settled, not as unconfirmed. -/
namespace SurfaceLoom.Test.WorkerSafety
open SurfaceLoom.Lib.Transition SurfaceLoom.Test.Deadline SurfaceLoom.Test.DeadlineSafety
open SurfaceLoom.Test.Worker (DeclaredEffects ExternalEffects Publication Tracking WorkerFailure
  WorkerFailureCode WorkerSettlementSummary WorkerState WorkerStopSnapshot WorkerStopState
  workerSettlement tracking)

variable {V : Type}

/-! ## Only a call acknowledges -/

section
variable (s : DeadlineTask V)

@[simp] theorem read_acknowledged (reading : Reading) :
    (s.read reading).1.acknowledged = s.acknowledged := by
  unfold DeadlineTask.read
  split
  · split <;> rfl
  · rfl

@[simp] theorem disarmed_acknowledged : s.disarmed.acknowledged = s.acknowledged := by
  unfold DeadlineTask.disarmed
  split <;> rfl

@[simp] theorem schedule_acknowledged (k : Nat) (targetMs : ℚ) (reading : Reading)
    (scheduling : Scheduling) :
    (s.schedule k targetMs reading scheduling).1.acknowledged = s.acknowledged := by
  have hread := read_acknowledged s reading
  unfold DeadlineTask.schedule
  split
  · rename_i heq
    rw [heq] at hread
    exact hread
  · rename_i heq
    rw [heq] at hread
    split
    · exact hread
    · cases scheduling <;> exact hread

@[simp] theorem arm_acknowledged (kind : ArmKind) (targetMs : ℚ) (reading : Reading)
    (scheduling : Scheduling) :
    (s.arm kind targetMs reading scheduling).1.acknowledged = s.acknowledged := by
  unfold DeadlineTask.arm
  exact schedule_acknowledged _ _ _ _ _

@[simp] theorem finish_acknowledged : s.finish.acknowledged = s.acknowledged := by
  unfold DeadlineTask.finish
  split
  · rfl
  · exact disarmed_acknowledged s

@[simp] theorem startGrace_acknowledged (reading : Reading) (scheduling : Scheduling) :
    (s.startGrace reading scheduling).acknowledged = s.acknowledged := by
  have harm := arm_acknowledged s .grace (s.last + s.graceMs) reading scheduling
  unfold DeadlineTask.startGrace
  split
  · rfl
  · split
    · exact finish_acknowledged s
    · split
      · rename_i heq
        rw [heq] at harm
        exact harm
      · rename_i heq
        rw [heq] at harm
        exact (finish_acknowledged _).trans harm
      · rename_i heq
        rw [heq] at harm
        exact (finish_acknowledged _).trans harm

@[simp] theorem runRest_acknowledged (reading : Reading) (scheduling : Scheduling) (r : Rest V) :
    (s.runRest reading scheduling r).acknowledged = s.acknowledged := by
  cases r with
  | requested => exact startGrace_acknowledged s reading scheduling
  | clockFailed =>
    show (if s.settling then s else s.finish).acknowledged = _
    split
    · rfl
    · exact finish_acknowledged s
  | complete completion now => exact finish_acknowledged _

@[simp] theorem runAll_acknowledged (reading : Reading) (scheduling : Scheduling) (rest : List (Rest V)) :
    (s.runAll reading scheduling rest).acknowledged = s.acknowledged := by
  induction rest generalizing s with
  | nil => rfl
  | cons r rest ih => exact (ih _).trans (runRest_acknowledged s reading scheduling r)

@[simp] theorem requestCancellation_acknowledged (kind : CancellationKind) (message : String)
    (rest : List (Rest V)) :
    (s.requestCancellation kind message rest).acknowledged = s.acknowledged := by
  have hrecord : (s.recordCancellation kind message).acknowledged = s.acknowledged :=
    disarmed_acknowledged _
  unfold DeadlineTask.requestCancellation
  split
  · exact runAll_acknowledged s none .failed rest
  · split
    · exact hrecord
    · rw [runAll_acknowledged]
      exact (finish_acknowledged _).trans hrecord

@[simp] theorem clockFailed_acknowledged (rest : List (Rest V)) :
    (s.clockFailed rest).acknowledged = s.acknowledged :=
  requestCancellation_acknowledged _ _ _ _

@[simp] theorem timerEnds_acknowledged (kind : ArmKind) (result : DeadlineTask.ArmResult) :
    (s.timerEnds kind result).acknowledged = s.acknowledged := by
  cases result with
  | armed => rfl
  | elapsed =>
    cases kind with
    | deadline => exact requestCancellation_acknowledged s _ _ _
    | grace => exact finish_acknowledged s
  | failed => exact clockFailed_acknowledged s []

@[simp] theorem externalAbort_acknowledged (reading : Reading) :
    (s.externalAbort reading).acknowledged = s.acknowledged := by
  have hread := read_acknowledged s reading
  unfold DeadlineTask.externalAbort
  split
  · rename_i heq
    rw [heq] at hread
    exact (clockFailed_acknowledged _ _).trans hread
  · rename_i heq
    rw [heq] at hread
    exact (requestCancellation_acknowledged _ _ _ _).trans hread

@[simp] theorem remainingMs_acknowledged (reading : Reading) :
    (s.remainingMs reading).acknowledged = s.acknowledged := by
  have hread := read_acknowledged s reading
  unfold DeadlineTask.remainingMs
  split
  · rename_i heq
    rw [heq] at hread
    exact (clockFailed_acknowledged _ _).trans hread
  · rename_i heq
    rw [heq] at hread
    split
    · exact (requestCancellation_acknowledged _ _ _ _).trans hread
    · exact hread

@[simp] theorem cancel_acknowledged (message : String) (reading : Reading) :
    (s.cancel message reading).acknowledged = s.acknowledged := by
  have hread := read_acknowledged s reading
  unfold DeadlineTask.cancel
  split
  · rfl
  · split
    · rename_i heq
      rw [heq] at hread
      exact (clockFailed_acknowledged _ _).trans hread
    · rename_i heq
      rw [heq] at hread
      exact (requestCancellation_acknowledged _ _ _ _).trans hread

@[simp] theorem complete_acknowledged (completion : Completion V) (reading : Reading) :
    (s.complete completion reading).acknowledged = s.acknowledged := by
  have hread := read_acknowledged { s with settling := true } reading
  unfold DeadlineTask.complete
  split
  · rfl
  · split
    · rename_i heq
      rw [heq] at hread
      exact (clockFailed_acknowledged _ _).trans hread
    · rename_i heq
      rw [heq] at hread
      split
      · exact (requestCancellation_acknowledged _ _ _ _).trans hread
      · exact (runAll_acknowledged _ _ _ _).trans hread

@[simp] theorem start_acknowledged (aborted : Bool) (reading : Reading) (scheduling : Scheduling) :
    (s.start aborted reading scheduling).acknowledged = s.acknowledged := by
  have harm := arm_acknowledged { s with listening := true } .deadline s.deadlineMs reading scheduling
  unfold DeadlineTask.start
  cases aborted with
  | true =>
    simp only [if_true]
    split <;> exact externalAbort_acknowledged s reading
  | false =>
    simp only [Bool.false_eq_true, if_false]
    split <;> exact (timerEnds_acknowledged _ _ _).trans harm

end

theorem fire_acknowledged {s t : DeadlineTask V} {k : Nat} {before : ℚ} {reading later : Reading}
    {scheduling : Scheduling} (h : s.fire k before reading later scheduling = some t) :
    t.acknowledged = s.acknowledged := by
  have hread := read_acknowledged s reading
  unfold DeadlineTask.fire at h
  split at h
  · cases h
  · rename_i a ha
    split at h
    · cases h
    · split at h
      · cases h
        rfl
      · split at h
        · rename_i heq
          rw [heq] at hread
          cases h
          exact (timerEnds_acknowledged _ _ _).trans hread
        · rename_i u now heq
          rw [heq] at hread
          split at h
          · cases h
            exact (timerEnds_acknowledged _ _ _).trans hread
          · split at h
            · cases h
              exact (timerEnds_acknowledged _ _ _).trans hread
            · cases h
              exact (timerEnds_acknowledged _ _ _).trans
                ((schedule_acknowledged u k a.targetMs later scheduling).trans hread)

/-- A step acknowledges only a cancellation that is not settled. -/
theorem next_acknowledged {s t : DeadlineTask V} {e : Deadline.Event V}
    (h : Deadline.next s e = some t) : t.acknowledged = s.acknowledged ∨
      s.cancellation.isSome ∧ s.settlement = none ∧ t.started = s.started := by
  cases e with
  | start aborted reading scheduling =>
    obtain ⟨-, h⟩ := Option.ite_none_right_eq_some.mp h
    cases h
    exact .inl (start_acknowledged s aborted reading scheduling)
  | settle completion reading =>
    obtain ⟨-, h⟩ := Option.ite_none_right_eq_some.mp h
    cases h
    exact .inl (complete_acknowledged s.bodyEnds completion reading)
  | externalAbort reading =>
    obtain ⟨-, h⟩ := Option.ite_none_right_eq_some.mp h
    cases h
    exact .inl (externalAbort_acknowledged s reading)
  | cancel message reading =>
    obtain ⟨-, h⟩ := Option.ite_none_right_eq_some.mp h
    cases h
    exact .inl (cancel_acknowledged s message reading)
  | remainingMs reading =>
    obtain ⟨-, h⟩ := Option.ite_none_right_eq_some.mp h
    cases h
    exact .inl (remainingMs_acknowledged s reading)
  | acknowledgeCancellation =>
    obtain ⟨-, h⟩ := Option.ite_none_right_eq_some.mp h
    cases h
    unfold DeadlineTask.acknowledgeCancellation
    split
    · exact .inl rfl
    · rename_i hopen
      simp only [not_or, Option.not_isSome_iff_eq_none] at hopen
      exact .inr ⟨Option.isSome_iff_ne_none.mpr fun hnone => hopen.1 (by rw [hnone]; rfl),
        hopen.2, rfl⟩
  | fire k before reading later scheduling => exact .inl (fire_acknowledged h)
  | listenersDone reading scheduling =>
    simp only [Deadline.next] at h
    split at h
    · cases h
    · cases h
      exact .inl (runAll_acknowledged _ reading scheduling _)

/-! ## What a task has recorded stays -/

section
variable {startedAtMs timeoutMs graceMs : ℚ}

theorem recorded {s : DeadlineTask V} (h : (task V startedAtMs timeoutMs graceMs).Reachable s) :
    Recorded s.log (core s).ledger :=
  (recorded_invariant _).run ((sound_invariant startedAtMs timeoutMs graceMs).reachable h).ledger

/-- What a later state of a task still says. -/
structure Persists (s t : DeadlineTask V) : Prop where
  started : s.started = true → t.started = true
  cancellation : s.cancellation.isSome → t.cancellation.isSome
  settlement : ∀ r, s.settlement = some r → t.settlement = some r ∧ t.acknowledged = s.acknowledged
  outcome : ∀ o, s.outcome = some o → t.outcome = some o

theorem next_persists {s t : DeadlineTask V} {e : Deadline.Event V}
    (h : (task V startedAtMs timeoutMs graceMs).Reachable s) (hnext : Deadline.next s e = some t) :
    Persists s t := by
  have hstep : (task V startedAtMs timeoutMs graceMs).step s e t := hnext
  have hlog : s.log <+: t.log := exec_log h (System.Exec.cons hstep (.nil t))
  have hs := recorded h
  have ht := recorded (h.step hstep)
  refine ⟨fun hstarted => ?_, fun hcancelled => ?_, fun r hr => ⟨?_, ?_⟩, fun o ho => ?_⟩
  · exact ht.started.mp (hlog.subset (hs.started.mpr hstarted))
  · obtain ⟨c, hc⟩ := Option.isSome_iff_exists.mp hcancelled
    have hlater : t.cancellation = some c :=
      (ht.cancelled c).mp (hlog.subset ((hs.cancelled c).mpr hc))
    rw [hlater]
    rfl
  · exact (ht.settled r).mp (hlog.subset ((hs.settled r).mpr hr))
  · rcases next_acknowledged hnext with hkept | ⟨-, hnone, -⟩
    · exact hkept
    · rw [hnone] at hr
      cases hr
  · exact (ht.resolved o).mp (hlog.subset ((hs.resolved o).mpr ho))

/-- A body acknowledges what it was told: it was started. -/
theorem acknowledged_started :
    (task V startedAtMs timeoutMs graceMs).Invariant fun s =>
      s.acknowledged = true → s.started = true where
  init := by
    rintro s rfl hacknowledged
    cases hacknowledged
  step := by
    intro s e t hreach ih hstep hacknowledged
    rcases next_acknowledged hstep with hkept | ⟨hcancelled, hopen, hstarted⟩
    · exact (next_persists hreach hstep).started (ih (hkept ▸ hacknowledged))
    · by_contra hnever
      have hsettled := ((sound_invariant startedAtMs timeoutMs graceMs).reachable hreach).early
        (show s.started = false by simpa [hstarted] using hnever) hcancelled
      rw [show (core s).settlement = none from hopen] at hsettled
      cases hsettled

/-- What a receipt says about its task. -/
structure Receipt (s : DeadlineTask V) (r : TaskSettleReceipt V) : Prop where
  cancellation : r.cancellation = s.cancellation
  started : r.completion.isSome = s.started
  acknowledged : s.acknowledged = true → s.cancellation.isSome ∧ s.started = true
  early : s.started = false → s.cancellation.isSome

theorem receipt {s : DeadlineTask V} (h : (task V startedAtMs timeoutMs graceMs).Reachable s)
    {r : TaskSettleReceipt V} (hr : s.settlement = some r) : Receipt s r := by
  have hsound := (sound_invariant startedAtMs timeoutMs graceMs).reachable h
  obtain ⟨log, hrun⟩ : ∃ log, (ledgerRules V (startedAtMs + timeoutMs)).Run log (core s).ledger :=
    ⟨_, hsound.ledger⟩
  have hfair := (fair_invariant _).reachable ⟨log, hrun⟩
  obtain ⟨hcancellation, -, hcompletion, -⟩ := hfair.settled r hr
  refine ⟨hcancellation, hcompletion, fun hack => ⟨hfair.acknowledged hack, ?_⟩, fun hnever => ?_⟩
  · exact acknowledged_started.reachable h hack
  · have hwaiting : s.body = .waiting := by
      by_contra hbegun
      have hstarted : s.started = true := hsound.begun.mpr hbegun
      rw [hnever] at hstarted
      cases hstarted
    refine hsound.waiting hwaiting ?_
    rw [show (core s).settlement = some r from hr]
    rfl

/-- An outcome that is not unconfirmed says how the body settled. -/
theorem stopped_invariant (deadlineMs : ℚ) :
    (ledgerRules V deadlineMs).Invariant fun w =>
      ∀ o, w.outcome = some o → o.stopStatus ≠ .unconfirmed → w.settlement.isSome ∧
        o.stopStatus = stopStatus w.settlement w.cancellation w.acknowledged where
  init := by
    rintro w rfl o ho
    cases ho
  step := by
    intro w write w' _ ih hstep o ho hstopped
    cases hstep with
    | started _ _ _ => exact ih o ho hstopped
    | ended _ _ _ => exact ih o ho hstopped
    | cancelled c _ hopen =>
      have hsettled := (ih o ho hstopped).1
      rw [hopen] at hsettled
      cases hsettled
    | acknowledged _ hopen =>
      have hsettled := (ih o ho hstopped).1
      rw [hopen] at hsettled
      cases hsettled
    | settled r hopen _ _ _ _ =>
      have hsettled := (ih o ho hstopped).1
      rw [hopen] at hsettled
      cases hsettled
    | resolved o' _ _ _ _ hstop =>
      cases ho
      refine ⟨?_, hstop⟩
      rw [hstop] at hstopped
      exact Option.isSome_iff_ne_none.mpr fun hnone => hstopped (stopStatus_unconfirmed.mpr hnone)

theorem outcome_stopStatus {s : DeadlineTask V}
    (h : (task V startedAtMs timeoutMs graceMs).Reachable s) {o : TaskOutcome V}
    (ho : s.outcome = some o) (hstopped : o.stopStatus ≠ .unconfirmed) :
    s.settlement.isSome ∧ o.stopStatus = stopStatus s.settlement s.cancellation s.acknowledged :=
  (stopped_invariant _).reachable
    ⟨_, ((sound_invariant startedAtMs timeoutMs graceMs).reachable h).ledger⟩ o ho hstopped

end

/-! ## The recorder only adds -/

/-- Taint, an unknown outcome of the effects and failures stay. -/
structure Grows (w w' : WorkerState V) : Prop where
  tainted : w.tainted = true → w'.tainted = true
  unknown : w.effects = .unknown → w'.effects = .unknown
  failures : w.failures <+: w'.failures

namespace Grows

theorem refl (w : WorkerState V) : Grows w w := ⟨id, id, List.prefix_rfl⟩

theorem trans {w w' w'' : WorkerState V} (h : Grows w w') (h' : Grows w' w'') : Grows w w'' :=
  ⟨h'.tainted ∘ h.tainted, h'.unknown ∘ h.unknown, h.failures.trans h'.failures⟩

theorem failure (w : WorkerState V) (code : WorkerFailureCode) (message : String) (tainted : Bool) :
    Grows w (w.failure code message tainted) :=
  ⟨fun h => by rw [WorkerState.failure, h]; rfl, id, List.prefix_append _ _⟩

theorem markExternalEffectsUnknown (w : WorkerState V) : Grows w w.markExternalEffectsUnknown := by
  unfold WorkerState.markExternalEffectsUnknown
  split
  · exact refl w
  · exact ⟨fun h => by rw [WorkerState.failure, h]; rfl, fun _ => rfl, List.prefix_append _ _⟩

theorem ask (w : WorkerState V) : Grows w w.ask := ⟨id, id, List.prefix_rfl⟩

theorem requestStop (w : WorkerState V) : Grows w w.requestStop := by
  unfold WorkerState.requestStop
  split
  · exact refl w
  · split
    · exact (ask w).trans (markExternalEffectsUnknown _)
    · exact ask w

theorem noteCancellation (w : WorkerState V) (receipt : WorkerSettlementSummary) :
    Grows w (w.noteCancellation receipt) := by
  unfold WorkerState.noteCancellation
  split
  · split
    · exact ⟨id, id, List.prefix_rfl⟩
    · exact requestStop w
  · exact refl w

theorem accept (w : WorkerState V) (input : TaskSettleReceipt V)
    (receipt : WorkerSettlementSummary) : Grows w (w.accept input receipt) := by
  have hstore : Grows w (w.store input receipt) := ⟨id, id, List.prefix_rfl⟩
  have hnote := hstore.trans (noteCancellation (w.store input receipt) receipt)
  have hsettle : Grows w (((w.store input receipt).noteCancellation receipt).settle receipt) :=
    hnote.trans ⟨id, id, List.prefix_rfl⟩
  unfold WorkerState.accept
  cases receipt.errorMessage with
  | none => exact hsettle
  | some message => exact hsettle.trans (failure _ _ _ _)

theorem endWait (w : WorkerState V) (outcome : TaskOutcome V) : Grows w (w.endWait outcome) := by
  have hgive : Grows w w.giveUp := by
    unfold WorkerState.giveUp
    split
    · exact ⟨id, id, List.prefix_rfl⟩
    · exact refl w
  unfold WorkerState.endWait
  split
  · exact hgive.trans (failure _ _ _ _)
  · exact refl w

theorem observeCancellation (w : WorkerState V) (current : TaskSnapshot V) :
    Grows w (w.observeCancellation current) := by
  unfold WorkerState.observeCancellation
  split
  · exact requestStop w
  · exact refl w

end Grows

/-! ## The record repeats the task -/

variable (describe : V → String)

/-- The state of a stopped task. -/
def stopState : StopStatus → WorkerStopState
  | .settled => .settled
  | .cooperativeStopped => .cooperativeStopped
  | .notStarted => .notStarted
  | .unconfirmed => .unconfirmed

def Accepted (code : WorkerFailureCode) : Prop :=
  code ≠ .invalidReceipt ∧ code ≠ .conflictingReceipt

/-- The record of a task but for its settlement and its state. -/
structure Noted (s : Tracking V) (w : WorkerState V) : Prop where
  isolation : w.isolation = .inProcess
  exitCode : w.exitCode = none
  failures : ∀ failure ∈ w.failures, Accepted failure.code
  declared : s.declared = .possible → w.effects ≠ .notApplicable
  requested : w.requested = true → w.effects = .unverified →
    s.task.started = false ∧ s.task.settlement.isSome
  tainted : w.effects = .unknown → w.tainted = true

/-- The record of a task. -/
structure Faithful (s : Tracking V) (w : WorkerState V) : Prop extends Noted s w where
  accepted : ∀ x, w.settlement = some x → w.state = WorkerState.settledState x ∧
    ∃ r, s.task.settlement = some r ∧ w.receiptInput = some r ∧
      workerSettlement describe r s.task.acknowledged = .ok x
  waiting : w.settlement = none → if s.waited then w.state = .unconfirmed
    else w.state = .running ∨ w.state = .stopRequested

variable {describe} {s : Tracking V} {w : WorkerState V}

namespace Noted

theorem failure (h : Noted s w) {code : WorkerFailureCode} (hcode : Accepted code)
    (message : String) (tainted : Bool) : Noted s (w.failure code message tainted) where
  isolation := h.isolation
  exitCode := h.exitCode
  failures failure hfailure := by
    rcases List.mem_append.mp hfailure with hold | hnew
    · exact h.failures failure hold
    · rw [List.mem_singleton.mp hnew]
      exact hcode
  declared := h.declared
  requested := h.requested
  tainted hunknown := by
    rw [WorkerState.failure, h.tainted hunknown]
    rfl

theorem markExternalEffectsUnknown (h : Noted s w) : Noted s w.markExternalEffectsUnknown := by
  unfold WorkerState.markExternalEffectsUnknown
  split
  · exact h
  · refine ⟨h.isolation, h.exitCode, fun failure hfailure => ?_, nofun, nofun,
      fun _ => by rw [WorkerState.failure, Bool.or_true]⟩
    rcases List.mem_append.mp hfailure with hold | hnew
    · exact h.failures failure hold
    · rw [List.mem_singleton.mp hnew]
      exact ⟨nofun, nofun⟩

theorem requestStop (h : Noted s w) : Noted s w.requestStop := by
  unfold WorkerState.requestStop
  split
  · exact h
  · split
    · rename_i hunverified
      have hknown : w.effects ≠ .unknown := by rw [hunverified]; nofun
      have hmarked : w.ask.markExternalEffectsUnknown =
          { w.markExternalEffectsUnknown with requested := true, state := w.ask.state } := by
        unfold WorkerState.markExternalEffectsUnknown
        rw [if_neg hknown, if_neg (show w.ask.effects ≠ .unknown from hknown)]
        rfl
      have hnoted := h.markExternalEffectsUnknown
      have hunknown : w.markExternalEffectsUnknown.effects = .unknown := by
        unfold WorkerState.markExternalEffectsUnknown
        split
        · assumption
        · rfl
      rw [hmarked]
      refine ⟨hnoted.isolation, hnoted.exitCode, hnoted.failures, hnoted.declared, ?_,
        hnoted.tainted⟩
      intro _ hopen
      cases hunknown.symm.trans hopen
    · rename_i hverified
      exact ⟨h.isolation, h.exitCode, h.failures, h.declared,
        fun _ hunverified => absurd hunverified hverified, h.tainted⟩

/-- A stop request settles what is known of the effects of a started task. -/
theorem requestStop_unknown (h : Noted s w) (hstarted : s.task.started = true)
    (hdeclared : s.declared = .possible) : w.requestStop.effects = .unknown := by
  have heffects := h.declared hdeclared
  unfold WorkerState.requestStop
  split
  · rename_i hrequested
    cases hcase : w.effects with
    | notApplicable => exact absurd hcase heffects
    | unverified =>
      have hnever := (h.requested hrequested hcase).1
      rw [hstarted] at hnever
      cases hnever
    | unknown => rfl
  · split
    · unfold WorkerState.markExternalEffectsUnknown
      split
      · assumption
      · rfl
    · rename_i hverified
      cases hcase : w.effects with
      | notApplicable => exact absurd hcase heffects
      | unverified => exact absurd hcase hverified
      | unknown => exact hcase

theorem noteCancellation (h : Noted s w) {receipt : WorkerSettlementSummary}
    (hnever : receipt.status = .notStarted →
      s.task.started = false ∧ s.task.settlement.isSome) :
    Noted s (w.noteCancellation receipt) := by
  unfold WorkerState.noteCancellation
  split
  · split
    · rename_i hstatus
      exact ⟨h.isolation, h.exitCode, h.failures, h.declared, fun _ _ => hnever hstatus, h.tainted⟩
    · exact h.requestStop
  · exact h

end Noted

theorem markExternalEffectsUnknown_settlement (w : WorkerState V) :
    w.markExternalEffectsUnknown.settlement = w.settlement ∧
      w.markExternalEffectsUnknown.receiptInput = w.receiptInput ∧
      w.markExternalEffectsUnknown.state = w.state := by
  unfold WorkerState.markExternalEffectsUnknown
  split <;> exact ⟨rfl, rfl, rfl⟩

theorem requestStop_settlement (w : WorkerState V) :
    w.requestStop.settlement = w.settlement ∧ w.requestStop.receiptInput = w.receiptInput ∧
      (w.requestStop.state = w.state ∨ w.requestStop.state = w.ask.state) := by
  unfold WorkerState.requestStop
  split
  · exact ⟨rfl, rfl, .inl rfl⟩
  · split
    · obtain ⟨hsettlement, hinput, hstate⟩ := markExternalEffectsUnknown_settlement w.ask
      exact ⟨hsettlement, hinput, .inr hstate⟩
    · exact ⟨rfl, rfl, .inr rfl⟩

namespace Faithful

/-- Only the task, what is declared and whether its outcome was handled matter. -/
theorem congr (h : Faithful describe s w) {t : Tracking V} (htask : t.task = s.task)
    (hdeclared : t.declared = s.declared) (hwaited : t.waited = s.waited) :
    Faithful describe t w := by
  refine ⟨⟨h.isolation, h.exitCode, h.failures, ?_, ?_, h.tainted⟩, ?_, ?_⟩
  · rw [hdeclared]
    exact h.declared
  · rw [htask]
    exact h.requested
  · rw [htask]
    exact h.accepted
  · rw [hwaited]
    exact h.waiting

theorem failure (h : Faithful describe s w) {code : WorkerFailureCode} (hcode : Accepted code)
    (message : String) (tainted : Bool) : Faithful describe s (w.failure code message tainted) :=
  ⟨h.toNoted.failure hcode message tainted, h.accepted, h.waiting⟩

theorem markExternalEffectsUnknown (h : Faithful describe s w) :
    Faithful describe s w.markExternalEffectsUnknown := by
  obtain ⟨hsettlement, hinput, hstate⟩ := markExternalEffectsUnknown_settlement w
  refine ⟨h.toNoted.markExternalEffectsUnknown, ?_, ?_⟩
  · rw [hsettlement, hinput, hstate]
    exact h.accepted
  · rw [hsettlement, hstate]
    exact h.waiting

/-- Only a running record has another state after a stop request. -/
theorem requestStop (h : Faithful describe s w) : Faithful describe s w.requestStop := by
  obtain ⟨hsettlement, hinput, hstate⟩ := requestStop_settlement w
  refine ⟨h.toNoted.requestStop, fun x hx => ?_, fun hopen => ?_⟩
  · rw [hsettlement] at hx
    obtain ⟨hsettled, haccepted⟩ := h.accepted x hx
    rw [hinput]
    refine ⟨?_, haccepted⟩
    have hask : w.ask.state = w.state := by
      unfold WorkerState.ask
      refine if_neg fun hrunning => ?_
      rw [hrunning] at hsettled
      unfold WorkerState.settledState at hsettled
      split at hsettled
      · cases hsettled
      · split at hsettled <;> cases hsettled
    rw [hask, or_self] at hstate
    exact hstate.trans hsettled
  · rw [hsettlement] at hopen
    have hwaiting := h.waiting hopen
    cases hwaited : s.waited with
    | true =>
      rw [hwaited, if_pos rfl] at hwaiting
      have hask : w.ask.state = .unconfirmed := by
        unfold WorkerState.ask
        rw [hwaiting]
        rfl
      rw [hask, hwaiting, or_self] at hstate
      rw [if_pos rfl]
      exact hstate
    | false =>
      rw [hwaited, if_neg Bool.false_ne_true] at hwaiting
      rw [if_neg Bool.false_ne_true]
      have hask : w.ask.state = .stopRequested := by
        unfold WorkerState.ask
        rcases hwaiting with hrunning | hrequested
        · exact if_pos hrunning
        · rw [hrequested]
          rfl
      rw [hask] at hstate
      rcases hstate with hkept | hasked
      · rw [hkept]
        exact hwaiting
      · exact .inr hasked

theorem observeCancellation (h : Faithful describe s w) (current : TaskSnapshot V) :
    Faithful describe s (w.observeCancellation current) := by
  unfold WorkerState.observeCancellation
  split
  · exact h.requestStop
  · exact h

end Faithful

/-! ## A receipt of the task is accepted -/

/-- A receipt is one a worker accepts. -/
theorem workerSettlement_ok (describe : V → String) {t : DeadlineTask V} {r : TaskSettleReceipt V}
    (h : Receipt t r) :
    ∃ x, workerSettlement describe r t.acknowledged = .ok x ∧
      x.cancellationAcknowledged = t.acknowledged ∧
      (x.status = .notStarted → t.started = false) ∧
      WorkerState.settledState x =
        stopState (stopStatus (some r) t.cancellation t.acknowledged) := by
  have hnever : r.completion = none → t.started = false := by
    intro hnone
    rw [← h.started, hnone]
    rfl
  have hcancelled : ¬ ((r.completion.isNone ∨ t.acknowledged = true) ∧ r.cancellation.isNone) := by
    rintro ⟨hwhy, hopen⟩
    rw [h.cancellation, Option.isNone_iff_eq_none] at hopen
    have hasked : t.cancellation.isSome := by
      rcases hwhy with hnone | hacknowledged
      · exact h.early (hnever (Option.isNone_iff_eq_none.mp hnone))
      · exact (h.acknowledged hacknowledged).1
    rw [hopen] at hasked
    cases hasked
  have hstarted : ¬ (r.completion.isNone ∧ t.acknowledged = true) := by
    rintro ⟨hnone, hacknowledged⟩
    have hbegun := (h.acknowledged hacknowledged).2
    rw [hnever (Option.isNone_iff_eq_none.mp hnone)] at hbegun
    cases hbegun
  refine ⟨⟨Worker.settlementStatus r, r.observedAtMs, r.cancellation.isSome, t.acknowledged,
    Worker.settlementError describe r⟩, ?_, rfl, fun hstatus => ?_, ?_⟩
  · unfold workerSettlement
    rw [if_neg hcancelled, if_neg hstarted]
  · cases hcompletion : r.completion with
    | none => exact hnever hcompletion
    | some completion => cases completion <;> simp [Worker.settlementStatus, hcompletion] at hstatus
  · unfold WorkerState.settledState stopStatus Worker.settlementStatus
    cases hcompletion : r.completion with
    | none => simp [stopState, hcompletion]
    | some completion =>
      have hasked : t.acknowledged = true → t.cancellation.isSome := fun hacknowledged =>
        (h.acknowledged hacknowledged).1
      cases completion <;> cases hacknowledged : t.acknowledged <;> simp_all [stopState]

@[simp] theorem noteCancellation_settlement (w : WorkerState V)
    (receipt : WorkerSettlementSummary) :
    (w.noteCancellation receipt).settlement = w.settlement ∧
      (w.noteCancellation receipt).receiptInput = w.receiptInput := by
  unfold WorkerState.noteCancellation
  split
  · split
    · exact ⟨rfl, rfl⟩
    · exact ⟨(requestStop_settlement w).1, (requestStop_settlement w).2.1⟩
  · exact ⟨rfl, rfl⟩

namespace Faithful

/-- A first receipt is taken over. -/
theorem accept (h : Faithful describe s w) {r : TaskSettleReceipt V} {x : WorkerSettlementSummary}
    (hr : s.task.settlement = some r)
    (hx : workerSettlement describe r s.task.acknowledged = .ok x)
    (hnever : x.status = .notStarted → s.task.started = false) :
    Faithful describe s (w.accept r x) ∧ (w.accept r x).settlement = some x := by
  obtain ⟨hsettlement, hinput⟩ := noteCancellation_settlement (w.store r x) x
  have hstored : Noted s (w.store r x) :=
    ⟨h.isolation, h.exitCode, h.failures, h.declared, h.requested, h.tainted⟩
  have hnoted : Noted s ((w.store r x).noteCancellation x) :=
    hstored.noteCancellation fun hstatus => ⟨hnever hstatus, by rw [hr]; rfl⟩
  have hsettled : Faithful describe s (((w.store r x).noteCancellation x).settle x) := by
    refine ⟨⟨hnoted.isolation, hnoted.exitCode, hnoted.failures, hnoted.declared,
      hnoted.requested, hnoted.tainted⟩, fun y hy => ?_, fun hopen => ?_⟩
    · cases hsettlement.symm.trans hy
      exact ⟨rfl, r, hr, hinput, hx⟩
    · cases hsettlement.symm.trans hopen
  unfold WorkerState.accept
  cases x.errorMessage with
  | none => exact ⟨hsettled, hsettlement⟩
  | some message =>
    have hcode : Accepted .taskRejected := ⟨nofun, nofun⟩
    exact ⟨hsettled.failure hcode message false, hsettlement⟩

/-- The receipt of the task is accepted once, and never refused. -/
theorem acceptSettlement [DecidableEq V] (h : Faithful describe s w) {r : TaskSettleReceipt V}
    (hr : s.task.settlement = some r) (hreceipt : Receipt s.task r) :
    ∃ w' new, w.acceptSettlement describe r s.task.acknowledged = (w', .ok new) ∧
      Faithful describe s w' ∧ Grows w w' ∧ w'.settlement.isSome := by
  obtain ⟨x, hx, hacknowledged, hnever, -⟩ := workerSettlement_ok describe hreceipt
  unfold WorkerState.acceptSettlement
  cases hsettlement : w.settlement with
  | none =>
    obtain ⟨haccepted, hsome⟩ := h.accept hr hx hnever
    refine ⟨w.accept r x, true, ?_, haccepted, Grows.accept w r x, by rw [hsome]; rfl⟩
    simp only [WorkerState.acceptNew, WorkerState.readReceipt, h.isolation, ne_eq,
      not_true_eq_false, if_false, hx, hsettlement]
  | some y =>
    obtain ⟨-, r', hr', hinput, hy⟩ := h.accepted y hsettlement
    cases hr.symm.trans hr'
    cases hx.symm.trans hy
    refine ⟨w, false, ?_, h, Grows.refl w, by rw [hsettlement]; rfl⟩
    simp only [hinput, hacknowledged, if_true]

end Faithful

/-- What an observation has made sure of. -/
structure Current (s : Tracking V) (w : WorkerState V) : Prop where
  settlement : s.task.settlement.isSome → w.settlement.isSome
  effects : s.task.cancellation.isSome → s.task.started = true → s.declared = .possible →
    w.effects = .unknown

theorem Current.open (h : Current s w) (hopen : w.settlement = none) :
    s.task.settlement = none := by
  by_contra hsettled
  have hsome := h.settlement (Option.isSome_iff_ne_none.mpr hsettled)
  rw [hopen] at hsome
  cases hsome

variable {startedAtMs timeoutMs graceMs : ℚ}

theorem observeCancellation_unknown (h : Noted s w) (hasked : s.task.cancellation.isSome)
    (hstarted : s.task.started = true) (hdeclared : s.declared = .possible) :
    (w.observeCancellation s.task.snapshot).effects = .unknown := by
  have hboth : s.task.snapshot.cancellation.isSome ∧ s.task.snapshot.started := ⟨hasked, hstarted⟩
  unfold WorkerState.observeCancellation
  rw [if_pos hboth]
  exact h.requestStop_unknown hstarted hdeclared

/-- An observation succeeds and brings the record up to date. -/
theorem observe_ok [DecidableEq V] (h : Faithful describe s w)
    (htask : (task V startedAtMs timeoutMs graceMs).Reachable s.task) :
    ∃ w', w.observe describe s.task.snapshot = (w', .ok ()) ∧ Faithful describe s w' ∧
      Grows w w' ∧ Current s w' := by
  have hnoted := h.observeCancellation s.task.snapshot
  have hgrows := Grows.observeCancellation w s.task.snapshot
  have hunknown := observeCancellation_unknown h.toNoted
  unfold WorkerState.observe
  cases hsettlement : s.task.settlement with
  | none =>
    refine ⟨w.observeCancellation s.task.snapshot, ?_, hnoted, hgrows, ⟨?_, hunknown⟩⟩
    · rw [show s.task.snapshot.settlement = none from hsettlement]
    · rw [hsettlement]
      nofun
  | some r =>
    obtain ⟨w', new, haccept, hfaithful, hmore, hsome⟩ :=
      hnoted.acceptSettlement hsettlement (receipt htask hsettlement)
    refine ⟨w', ?_, hfaithful, hgrows.trans hmore, ⟨fun _ => hsome, fun hasked hstarted hdeclared =>
      hmore.unknown (hunknown hasked hstarted hdeclared)⟩⟩
    rw [show s.task.snapshot.settlement = some r from hsettlement]
    simp only [show s.task.snapshot.cancellationAcknowledged = s.task.acknowledged from rfl,
      haccept, Except.map]

/-! ## The record of a task that goes on -/

theorem Faithful.taskStep (h : Faithful describe s w) {t : DeadlineTask V} (hkept : Persists s.task t)
    (htask : (task V startedAtMs timeoutMs graceMs).Reachable s.task)
    (hnext : (task V startedAtMs timeoutMs graceMs).Reachable t) :
    Faithful describe { s with task := t } w := by
  refine ⟨⟨h.isolation, h.exitCode, h.failures, h.declared, fun hrequested hunverified => ?_,
    h.tainted⟩, fun x hx => ?_, h.waiting⟩
  · obtain ⟨hnever, hsettled⟩ := h.requested hrequested hunverified
    obtain ⟨r, hr⟩ := Option.isSome_iff_exists.mp hsettled
    have hlater : t.settlement = some r := (hkept.settlement r hr).1
    refine ⟨?_, by rw [hlater]; rfl⟩
    rw [← (receipt hnext hlater).started, (receipt htask hr).started, hnever]
  · obtain ⟨hstate, r, hr, hinput, haccepted⟩ := h.accepted x hx
    obtain ⟨hlater, hacknowledged⟩ := hkept.settlement r hr
    refine ⟨hstate, r, hlater, hinput, ?_⟩
    rw [← hacknowledged] at haccepted
    exact haccepted

/-- What the outcome adds is what the record of a waited task says. -/
theorem Faithful.endWait (h : Faithful describe s w) (hcurrent : Current s w)
    (htask : (task V startedAtMs timeoutMs graceMs).Reachable s.task) {o : TaskOutcome V}
    (ho : s.task.outcome = some o) :
    Faithful describe { s with waited := true } (w.endWait o) := by
  have hnoted : Noted { s with waited := true } w :=
    ⟨h.isolation, h.exitCode, h.failures, h.declared, h.requested, h.tainted⟩
  unfold WorkerState.endWait
  cases hsettlement : w.settlement with
  | some x =>
    have hkept : Faithful describe { s with waited := true } w :=
      ⟨hnoted, h.accepted, fun hopen => by cases hsettlement.symm.trans hopen⟩
    have hgive : w.giveUp = w := by
      unfold WorkerState.giveUp
      rw [hsettlement]
      rfl
    split
    · unfold WorkerState.unconfirmed
      rw [hgive]
      have hcode : Accepted .stopUnconfirmed := ⟨nofun, nofun⟩
      exact hkept.failure hcode _ true
    · exact hkept
  | none =>
    have hopen : s.task.settlement = none := hcurrent.open hsettlement
    have hunconfirmed : o.stopStatus = .unconfirmed := by
      by_contra hstopped
      have hsome := (outcome_stopStatus htask ho hstopped).1
      rw [hopen] at hsome
      cases hsome
    have hgive : w.giveUp = { w with state := .unconfirmed } := by
      unfold WorkerState.giveUp
      rw [hsettlement, h.exitCode]
      rfl
    rw [if_pos hunconfirmed]
    unfold WorkerState.unconfirmed
    rw [hgive]
    have hcode : Accepted .stopUnconfirmed := ⟨nofun, nofun⟩
    have hended : Faithful describe { s with waited := true } { w with state := .unconfirmed } :=
      ⟨⟨h.isolation, h.exitCode, h.failures, h.declared, h.requested, h.tainted⟩,
        fun x hx => (by cases hsettlement.symm.trans hx), fun _ => rfl⟩
    exact hended.failure hcode _ true

/-! ## What is published -/

/-- What a published snapshot says about the task. -/
structure Honest (declared : DeclaredEffects) (p : Publication V) : Prop where
  state : p.observed = true → ∀ status, p.worker.state = stopState status ↔
    stopStatus p.task.settlement p.task.cancellation p.task.cancellationAcknowledged = status ∧
      (status = .unconfirmed → p.waited = true)
  stopped : p.observed = true → ∀ o, p.outcome = some o → o.stopStatus ≠ .unconfirmed →
    p.worker.state = stopState o.stopStatus
  effects : declared = .possible → p.task.cancellation.isSome → p.task.started = true →
    p.worker.externalEffects = .unknown ∧ p.worker.tainted = true
  failures : ∀ failure ∈ p.worker.failures, Accepted failure.code

/-- A later snapshot takes nothing back. -/
structure Follows (p q : WorkerStopSnapshot) : Prop where
  tainted : p.tainted = true → q.tainted = true
  unknown : p.externalEffects = .unknown → q.externalEffects = .unknown
  failures : p.failures <+: q.failures

theorem Grows.follows {p : WorkerStopSnapshot} {w w' : WorkerState V} (h : Grows w w')
    (hp : Follows p w.snapshot) : Follows p w'.snapshot :=
  ⟨h.tainted ∘ hp.tainted, h.unknown ∘ hp.unknown, hp.failures.trans h.failures⟩

theorem stopState_inj {a b : StopStatus} : stopState a = stopState b ↔ a = b := by
  refine ⟨fun h => ?_, congrArg stopState⟩
  cases a <;> cases b <;> first | rfl | cases h

/-- The state of an up-to-date record is the one of the task. -/
theorem Faithful.state (h : Faithful describe s w) (hcurrent : Current s w)
    (htask : (task V startedAtMs timeoutMs graceMs).Reachable s.task) (status : StopStatus) :
    w.state = stopState status ↔
      stopStatus s.task.settlement s.task.cancellation s.task.acknowledged = status ∧
        (status = .unconfirmed → s.waited = true) := by
  cases hsettlement : w.settlement with
  | some x =>
    obtain ⟨hstate, r, hr, -, hx⟩ := h.accepted x hsettlement
    obtain ⟨x', hx', -, -, hsettled⟩ := workerSettlement_ok describe (receipt htask hr)
    cases hx.symm.trans hx'
    rw [hstate, hsettled, stopState_inj, hr]
    refine ⟨fun heq => ⟨heq, fun hunconfirmed => ?_⟩, And.left⟩
    rw [hunconfirmed, stopStatus_unconfirmed] at heq
    cases heq
  | none =>
    have hopen : s.task.settlement = none := hcurrent.open hsettlement
    have hwaiting := h.waiting hsettlement
    rw [hopen]
    cases hwaited : s.waited with
    | true =>
      rw [hwaited, if_pos rfl] at hwaiting
      rw [hwaiting, show WorkerStopState.unconfirmed = stopState .unconfirmed from rfl,
        stopState_inj]
      exact ⟨fun heq => ⟨heq, fun _ => rfl⟩, And.left⟩
    | false =>
      rw [hwaited, if_neg Bool.false_ne_true] at hwaiting
      constructor
      · intro heq
        rw [heq] at hwaiting
        cases status <;> rcases hwaiting with hrunning | hrequested <;> contradiction
      · rintro ⟨heq, hconfirmed⟩
        cases hconfirmed heq.symm

/-- A snapshot of an up-to-date record is honest. -/
theorem Faithful.honest (h : Faithful describe s w) {observed : Bool}
    (hcurrent : observed = true → Current s w)
    (heffects : s.task.cancellation.isSome → s.task.started = true → s.declared = .possible →
      w.effects = .unknown)
    (htask : (task V startedAtMs timeoutMs graceMs).Reachable s.task) :
    Honest s.declared ⟨s.task.snapshot, s.task.outcome, observed, s.waited, w.snapshot⟩ where
  state hobserved := h.state (hcurrent hobserved) htask
  stopped hobserved o ho hstopped := by
    refine (h.state (hcurrent hobserved) htask o.stopStatus).mpr
      ⟨(outcome_stopStatus htask ho hstopped).2.symm, fun hunconfirmed => ?_⟩
    exact absurd hunconfirmed hstopped
  effects hdeclared hasked hstarted :=
    ⟨heffects hasked hstarted hdeclared, h.tainted (heffects hasked hstarted hdeclared)⟩
  failures := h.failures

/-- What holds of a tracked task in every state. -/
structure Tracked (describe : V → String) (startedAtMs timeoutMs graceMs : ℚ) (s : Tracking V) :
    Prop where
  task : (task V startedAtMs timeoutMs graceMs).Reachable s.task
  worker : ∀ w, s.worker = some w → Faithful describe s w
  untracked : s.worker = none → s.waited = false ∧ s.published = []
  thrown : s.thrown = []
  honest : ∀ p ∈ s.published, Honest s.declared p
  follows : ∀ p ∈ s.published, ∀ w, s.worker = some w → Follows p.worker w.snapshot
  ordered : s.published.Pairwise fun p q => Follows p.worker q.worker
  outcome : ∀ snapshot, s.outcome = some snapshot → ∃ p ∈ s.published, p.observed = true ∧
    p.waited = true ∧ p.outcome.isSome ∧ p.worker = snapshot

namespace Tracked

/-- A record that grew may be handed out. -/
theorem publish (h : Tracked describe startedAtMs timeoutMs graceMs s) {w₀ : WorkerState V}
    (hworker : s.worker = some w₀) {observed waited : Bool}
    (hfaithful : Faithful describe { s with waited } w) (hgrows : Grows w₀ w)
    (hcurrent : observed = true → Current { s with waited } w)
    (heffects : s.task.cancellation.isSome → s.task.started = true → s.declared = .possible →
      w.effects = .unknown) :
    Tracked describe startedAtMs timeoutMs graceMs
      (Tracking.publish observed { s with waited } w) where
  task := h.task
  worker w' hw' := by
    cases hw'
    exact hfaithful.congr rfl rfl rfl
  untracked hnone := by cases hnone
  thrown := h.thrown
  honest p hp := by
    rcases List.mem_append.mp hp with hold | hnew
    · exact h.honest p hold
    · rw [List.mem_singleton.mp hnew]
      exact hfaithful.honest hcurrent heffects h.task
  follows p hp w' hw' := by
    cases hw'
    rcases List.mem_append.mp hp with hold | hnew
    · exact hgrows.follows (h.follows p hold w₀ hworker)
    · rw [List.mem_singleton.mp hnew]
      exact ⟨id, id, List.prefix_rfl⟩
  ordered := by
    refine List.pairwise_append.mpr ⟨h.ordered, List.pairwise_singleton _ _, fun p hp q hq => ?_⟩
    rw [List.mem_singleton.mp hq]
    exact hgrows.follows (h.follows p hp w₀ hworker)
  outcome snapshot hsnapshot := by
    obtain ⟨p, hp, hrest⟩ := h.outcome snapshot hsnapshot
    exact ⟨p, List.mem_append_left _ hp, hrest⟩

theorem taskStep (h : Tracked describe startedAtMs timeoutMs graceMs s) {e : Deadline.Event V}
    {t : DeadlineTask V} (hnext : Deadline.next s.task e = some t) :
    Tracked describe startedAtMs timeoutMs graceMs { s with task := t } where
  task := h.task.step hnext
  worker w hw := (h.worker w hw).taskStep (next_persists h.task hnext) h.task (h.task.step hnext)
  untracked := h.untracked
  thrown := h.thrown
  honest := h.honest
  follows := h.follows
  ordered := h.ordered
  outcome := h.outcome

/-- The first record of a task. -/
theorem create (h : Tracked describe startedAtMs timeoutMs graceMs s) (hnone : s.worker = none)
    (declared : DeclaredEffects) :
    Faithful describe { s with declared } (.create .inProcess declared) where
  isolation := rfl
  exitCode := rfl
  failures failure hfailure := absurd hfailure List.not_mem_nil
  declared hpossible := by
    have hdeclared : declared = .possible := hpossible
    rw [hdeclared]
    nofun
  requested hrequested := by cases hrequested
  tainted hunknown := by cases declared <;> cases hunknown
  accepted x hx := by cases hx
  waiting _ := by
    rw [show ({ s with declared } : Tracking V).waited = false from (h.untracked hnone).1]
    exact .inl rfl

theorem track [DecidableEq V] (h : Tracked describe startedAtMs timeoutMs graceMs s)
    (hnone : s.worker = none) (declared : DeclaredEffects) :
    Tracked describe startedAtMs timeoutMs graceMs
      (({ s with declared } : Tracking V).observed describe (.create .inProcess declared)
        fun s w => { s with worker := some w }) := by
  obtain ⟨hwaited, hnothing⟩ := h.untracked hnone
  obtain ⟨w, hobserve, hfaithful, -, -⟩ := observe_ok (h.create hnone declared) h.task
  unfold Tracking.observed
  rw [hobserve]
  refine ⟨h.task, fun w' hw' => ?_, fun hw' => (by cases hw'), h.thrown, ?_, ?_, ?_, h.outcome⟩
  · cases hw'
    exact hfaithful.congr rfl rfl rfl
  · intro p hp
    rw [show s.published = [] from hnothing] at hp
    exact absurd hp List.not_mem_nil
  · intro p hp
    rw [show s.published = [] from hnothing] at hp
    exact absurd hp List.not_mem_nil
  · exact h.ordered

theorem snapshot [DecidableEq V] (h : Tracked describe startedAtMs timeoutMs graceMs s)
    {w₀ : WorkerState V} (hworker : s.worker = some w₀) :
    Tracked describe startedAtMs timeoutMs graceMs
      (s.observed describe w₀ (Tracking.publish true)) := by
  obtain ⟨w, hobserve, hfaithful, hgrows, hcurrent⟩ := observe_ok (h.worker w₀ hworker) h.task
  unfold Tracking.observed
  rw [hobserve]
  exact h.publish hworker hfaithful hgrows (fun _ => hcurrent) hcurrent.effects

theorem handleOutcome [DecidableEq V] (h : Tracked describe startedAtMs timeoutMs graceMs s)
    {w₀ : WorkerState V} (hworker : s.worker = some w₀) {o : TaskOutcome V}
    (ho : s.task.outcome = some o) :
    Tracked describe startedAtMs timeoutMs graceMs
      (s.observed describe w₀ (Tracking.handleOutcome o)) := by
  obtain ⟨w, hobserve, hfaithful, hgrows, hcurrent⟩ := observe_ok (h.worker w₀ hworker) h.task
  have hends := Grows.endWait w o
  have hsettlement : (w.endWait o).settlement = w.settlement := by
    unfold WorkerState.endWait
    split
    · unfold WorkerState.unconfirmed WorkerState.giveUp
      split <;> rfl
    · rfl
  have hended : Current { s with waited := true } (w.endWait o) :=
    ⟨fun hsettled => hsettlement ▸ hcurrent.settlement hsettled,
      fun hasked hstarted hdeclared => hends.unknown (hcurrent.effects hasked hstarted hdeclared)⟩
  have hpublished := h.publish hworker (hfaithful.endWait hcurrent h.task ho)
    (hgrows.trans hends) (fun _ : true = true => hended) hended.effects
  unfold Tracking.observed
  rw [hobserve]
  refine ⟨hpublished.task, fun w' hw' => ?_, hpublished.untracked, hpublished.thrown,
    hpublished.honest, hpublished.follows, hpublished.ordered, fun snapshot hsnapshot => ?_⟩
  · exact (hpublished.worker w' hw').congr rfl rfl rfl
  · cases hsnapshot
    refine ⟨_, List.mem_append_right _ (List.mem_singleton_self _), rfl, rfl, ?_, rfl⟩
    rw [show ({ s with waited := true } : Tracking V).task.outcome = some o from ho]
    rfl

theorem markExternalEffectsUnknown (h : Tracked describe startedAtMs timeoutMs graceMs s)
    (hworker : s.worker = some w) :
    Tracked describe startedAtMs timeoutMs graceMs
      (s.publish false w.markExternalEffectsUnknown) := by
  have hunknown : w.markExternalEffectsUnknown.effects = .unknown := by
    unfold WorkerState.markExternalEffectsUnknown
    split
    · assumption
    · rfl
  exact h.publish hworker (h.worker w hworker).markExternalEffectsUnknown
    (Grows.markExternalEffectsUnknown w) nofun fun _ _ _ => hunknown

end Tracked

theorem tracked_invariant [DecidableEq V] (describe : V → String)
    (startedAtMs timeoutMs graceMs : ℚ) :
    (tracking describe startedAtMs timeoutMs graceMs).Invariant
      (Tracked describe startedAtMs timeoutMs graceMs) where
  init := by
    rintro s rfl
    exact ⟨.init rfl, fun w hw => (by cases hw), fun _ => ⟨rfl, rfl⟩, rfl,
      fun p hp => absurd hp List.not_mem_nil, fun p hp => absurd hp List.not_mem_nil,
      List.Pairwise.nil, fun snapshot hsnapshot => (by cases hsnapshot)⟩
  step := by
    intro s e t _ ih hstep
    cases e with
    | task event =>
      obtain ⟨task', htask, rfl⟩ := Option.map_eq_some_iff.mp hstep
      exact ih.taskStep htask
    | track declared =>
      obtain ⟨⟨hnone, -⟩, ht⟩ := Option.ite_none_right_eq_some.mp hstep
      cases ht
      exact ih.track (Option.isNone_iff_eq_none.mp hnone) declared
    | snapshot =>
      obtain ⟨w, hworker, rfl⟩ := Option.map_eq_some_iff.mp hstep
      exact ih.snapshot hworker
    | outcome =>
      have hnext : Worker.next describe s .outcome = some t := hstep
      unfold Worker.next at hnext
      cases hworker : s.worker with
      | none => simp [hworker] at hnext
      | some w =>
        cases ho : s.task.outcome with
        | none => simp [hworker, ho] at hnext
        | some o =>
          simp only [hworker, ho] at hnext
          obtain ⟨-, ht⟩ := Option.ite_none_left_eq_some.mp hnext
          cases ht
          exact ih.handleOutcome hworker ho
    | markExternalEffectsUnknown =>
      obtain ⟨w, hworker, rfl⟩ := Option.map_eq_some_iff.mp hstep
      exact ih.markExternalEffectsUnknown hworker

/-- A body that settles between the end of the wait and the callback on the outcome. -/
def settlesLate : List (Worker.Event Nat) :=
  [.task (.start false (some 0) .accepted), .track .possible, .task (.cancel "stop" (some 1)),
    .task (.listenersDone (some 1) .accepted), .task (.settle (.fulfilled 7) (some 2)), .outcome]

def settledLate : Tracking Nat :=
  (System.replay (Worker.next toString) ⟨create 0 10 0, .none, none, false, [], none, []⟩
    settlesLate).get (by decide +kernel)

theorem settledLate_reachable : (tracking (toString : Nat → String) 0 10 0).Reachable settledLate :=
  System.reachable_of_replay (Option.some_get _).symm

end SurfaceLoom.Test.WorkerSafety
