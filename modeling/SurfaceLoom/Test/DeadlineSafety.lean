import SurfaceLoom.Test.Deadline

/-! # A deadline task writes each of its results once

The writes of a task form a run of a small ledger, whose rules say when a
cancellation, an acknowledgement, a settlement and an outcome may be written.
The task agrees with its ledger in every reachable state, so what the ledger
excludes cannot happen. -/
namespace SurfaceLoom.Test.DeadlineSafety
open SurfaceLoom.Lib.Transition SurfaceLoom.Test.Deadline

variable {V : Type}

/-! ## The ledger -/

structure Ledger (V : Type) where
  started : Bool
  ended : Bool
  cancellation : Option DeadlineCancellation
  acknowledged : Bool
  settlement : Option (TaskSettleReceipt V)
  outcome : Option (TaskOutcome V)

/-- A completion that was seen in time. -/
def InTime (deadlineMs : ℚ) (r : TaskSettleReceipt V) : Prop :=
  r.completion.isSome ∧ ∃ now, r.observedAtMs = some now ∧ now < deadlineMs

inductive Writes (deadlineMs : ℚ) : Ledger V → Write V → Ledger V → Prop
  | started (w : Ledger V) : w.started = false → w.cancellation = none → w.settlement = none →
      Writes deadlineMs w .started { w with started := true }
  | ended (w : Ledger V) : w.started = true → w.ended = false → w.settlement = none →
      Writes deadlineMs w .ended { w with ended := true }
  | cancelled (w : Ledger V) (c : DeadlineCancellation) :
      w.cancellation = none → w.settlement = none →
      Writes deadlineMs w (.cancelled c) { w with cancellation := some c }
  | acknowledged (w : Ledger V) : w.cancellation.isSome → w.settlement = none →
      Writes deadlineMs w .acknowledged { w with acknowledged := true }
  | settled (w : Ledger V) (r : TaskSettleReceipt V) :
      w.settlement = none → r.cancellation = w.cancellation → w.ended = w.started →
      r.completion.isSome = w.started → (w.cancellation = none → InTime deadlineMs r) →
      Writes deadlineMs w (.settled r) { w with settlement := some r }
  | resolved (w : Ledger V) (o : TaskOutcome V) : w.outcome = none →
      w.cancellation.isSome ∨ w.settlement.isSome →
      (w.ended = w.started → w.settlement.isSome) → o.status = outcomeStatus w.cancellation →
      o.stopStatus = stopStatus w.settlement w.cancellation w.acknowledged →
      Writes deadlineMs w (.resolved o) { w with outcome := some o }

def ledgerRules (V : Type) (deadlineMs : ℚ) : System (Ledger V) (Write V) where
  init w := w = ⟨false, false, none, false, none, none⟩
  step := Writes deadlineMs

def isCancelled : Write V → Bool
  | .cancelled _ => true
  | _ => false

def isSettled : Write V → Bool
  | .settled _ => true
  | _ => false

def isResolved : Write V → Bool
  | .resolved _ => true
  | _ => false

/-- The ledger holds exactly what was written. -/
structure Recorded (log : List (Write V)) (w : Ledger V) : Prop where
  started : .started ∈ log ↔ w.started = true
  ended : .ended ∈ log ↔ w.ended = true
  cancelled : ∀ c, .cancelled c ∈ log ↔ w.cancellation = some c
  acknowledged : .acknowledged ∈ log ↔ w.acknowledged = true
  settled : ∀ r, .settled r ∈ log ↔ w.settlement = some r
  resolved : ∀ o, .resolved o ∈ log ↔ w.outcome = some o

theorem recorded_invariant (deadlineMs : ℚ) :
    (ledgerRules V deadlineMs).TraceInvariant Recorded where
  init := by
    rintro w rfl
    exact ⟨by simp, by simp, by simp, by simp, by simp, by simp⟩
  step := by
    intro log w write w' _ h hstep
    refine ⟨?_, ?_, fun c => ?_, ?_, fun r => ?_, fun o => ?_⟩
    · cases hstep <;> simp [h.started]
    · cases hstep <;> simp [h.ended]
    · have hlog := h.cancelled c
      cases hstep
      case cancelled c' hnone _ => simp [hlog, hnone, eq_comm]
      all_goals simp [hlog]
    · cases hstep <;> simp [h.acknowledged]
    · have hlog := h.settled r
      cases hstep
      case settled r' hnone _ _ _ _ => simp [hlog, hnone, eq_comm]
      all_goals simp [hlog]
    · have hlog := h.resolved o
      cases hstep
      case resolved o' hnone _ _ _ _ => simp [hlog, hnone, eq_comm]
      all_goals simp [hlog]

/-- Each result is written once. -/
structure Counted (log : List (Write V)) (w : Ledger V) : Prop where
  cancelled : log.countP isCancelled = if w.cancellation.isSome then 1 else 0
  settled : log.countP isSettled = if w.settlement.isSome then 1 else 0
  resolved : log.countP isResolved = if w.outcome.isSome then 1 else 0

theorem counted_invariant (deadlineMs : ℚ) :
    (ledgerRules V deadlineMs).TraceInvariant Counted where
  init := by
    rintro w rfl
    exact ⟨rfl, rfl, rfl⟩
  step := by
    intro log w write w' _ h hstep
    refine ⟨?_, ?_, ?_⟩ <;> rw [List.countP_append]
    · rw [h.cancelled]
      cases hstep <;> simp_all [isCancelled]
    · rw [h.settled]
      cases hstep <;> simp_all [isSettled]
    · rw [h.resolved]
      cases hstep <;> simp_all [isResolved]

/-- What the rules keep of the results themselves. -/
structure Ledger.Fair (deadlineMs : ℚ) (w : Ledger V) : Prop where
  acknowledged : w.acknowledged = true → w.cancellation.isSome
  began : w.ended = true → w.started = true
  settled : ∀ r, w.settlement = some r → r.cancellation = w.cancellation ∧ w.ended = w.started ∧
    r.completion.isSome = w.started ∧ (w.cancellation = none → InTime deadlineMs r)

theorem fair_invariant (deadlineMs : ℚ) :
    (ledgerRules V deadlineMs).Invariant (Ledger.Fair deadlineMs) where
  init := by
    rintro w rfl
    exact ⟨by simp, by simp, by simp⟩
  step := by
    intro w write w' _ h hstep
    have hack := h.acknowledged
    have hbegan := h.began
    cases hstep with
    | started _ _ hunsettled => exact ⟨hack, fun _ => rfl, by simp [hunsettled]⟩
    | ended hstarted _ hunsettled => exact ⟨hack, fun _ => hstarted, by simp [hunsettled]⟩
    | cancelled c _ hunsettled => exact ⟨fun _ => rfl, hbegan, by simp [hunsettled]⟩
    | acknowledged hsome hunsettled => exact ⟨fun _ => hsome, hbegan, by simp [hunsettled]⟩
    | settled r _ hkept hended hsome hintime =>
      refine ⟨hack, hbegan, fun r' hr' => ?_⟩
      cases hr'
      exact ⟨hkept, hended, hsome, hintime⟩
    | resolved o _ _ _ _ _ => exact ⟨hack, hbegan, h.settled⟩

/-! ### What a run of the ledger says -/

section
variable {deadlineMs : ℚ} {pre post : List (Write V)} {w : Ledger V}

/-- Nothing is cancelled or acknowledged once a settlement is written. -/
theorem unsettled_before {x : Write V} (h : (ledgerRules V deadlineMs).Run (pre ++ x :: post) w)
    (hx : x = .acknowledged ∨ ∃ c, x = .cancelled c) (r : TaskSettleReceipt V) :
    .settled r ∉ pre := by
  obtain ⟨t, u, hpre, hstep, -⟩ := h.split
  have hrecorded := (recorded_invariant deadlineMs).run hpre
  have hnone : t.settlement = none := by
    rcases hx with rfl | ⟨c, rfl⟩
    · cases hstep
      assumption
    · cases hstep
      assumption
  intro hr
  have hsome := (hrecorded.settled r).mp hr
  rw [hnone] at hsome
  cases hsome

theorem outcomeStatus_settled {c : Option DeadlineCancellation} :
    outcomeStatus c = .settled ↔ c = none := by
  cases c with
  | none => exact ⟨fun _ => rfl, fun _ => rfl⟩
  | some c =>
    obtain ⟨kind, requestedAtMs, message⟩ := c
    cases kind <;> simp [outcomeStatus]

/-- The status of an outcome: settled when nothing was cancelled before, and then
the completion was seen in time. -/
theorem status_settled {o : TaskOutcome V}
    (h : (ledgerRules V deadlineMs).Run (pre ++ .resolved o :: post) w) :
    (o.status = .settled ↔ ∀ c, .cancelled c ∉ pre) ∧
    (o.status = .settled → ∃ r, .settled r ∈ pre ∧ InTime deadlineMs r) := by
  obtain ⟨t, u, hpre, hstep, -⟩ := h.split
  have hrecorded := (recorded_invariant deadlineMs).run hpre
  have hfair := (fair_invariant deadlineMs).reachable ⟨pre, hpre⟩
  cases hstep with
  | resolved _ _ hready _ hstatus _ =>
    rw [hstatus, outcomeStatus_settled]
    refine ⟨⟨fun hnone c hc => ?_, fun hnone => ?_⟩, fun hnone => ?_⟩
    · have hsome := (hrecorded.cancelled c).mp hc
      rw [hnone] at hsome
      cases hsome
    · cases hc : t.cancellation with
      | none => rfl
      | some c => exact absurd ((hrecorded.cancelled c).mpr hc) (hnone c)
    · rw [hnone] at hready
      obtain ⟨r, hr⟩ := Option.isSome_iff_exists.mp (hready.resolve_left Bool.false_ne_true)
      exact ⟨r, (hrecorded.settled r).mpr hr, (hfair.settled r hr).2.2.2 hnone⟩

theorem stopStatus_unconfirmed {settlement : Option (TaskSettleReceipt V)}
    {cancellation : Option DeadlineCancellation} {acknowledged : Bool} :
    stopStatus settlement cancellation acknowledged = .unconfirmed ↔ settlement = none := by
  cases settlement with
  | none => exact ⟨fun _ => rfl, fun _ => rfl⟩
  | some r =>
    simp only [stopStatus]
    split
    · simp
    · split <;> simp

theorem stopStatus_notStarted {settlement : Option (TaskSettleReceipt V)}
    {cancellation : Option DeadlineCancellation} {acknowledged : Bool} :
    stopStatus settlement cancellation acknowledged = .notStarted ↔
      ∃ r, settlement = some r ∧ r.completion = none := by
  cases settlement with
  | none => simp [stopStatus]
  | some r =>
    simp only [stopStatus]
    cases hr : r.completion with
    | none => simp [hr]
    | some completion =>
      rw [Option.isNone_some, if_neg Bool.false_ne_true]
      split <;> simp [hr]

/-- An outcome is unconfirmed when the body was called and did not end before. -/
theorem stop_unconfirmed {o : TaskOutcome V}
    (h : (ledgerRules V deadlineMs).Run (pre ++ .resolved o :: post) w) :
    (o.stopStatus = .unconfirmed ↔ .started ∈ pre ∧ .ended ∉ pre) ∧
    (o.stopStatus = .notStarted ↔ .started ∉ pre) := by
  obtain ⟨t, u, hpre, hstep, -⟩ := h.split
  have hrecorded := (recorded_invariant deadlineMs).run hpre
  have hfair := (fair_invariant deadlineMs).reachable ⟨pre, hpre⟩
  cases hstep with
  | resolved _ _ _ hseen _ hstop =>
    rw [hstop, stopStatus_unconfirmed, stopStatus_notStarted, hrecorded.started, hrecorded.ended,
      Bool.not_eq_true, Bool.not_eq_true]
    cases hs : t.settlement with
    | none =>
      have hdiffer : t.ended ≠ t.started := by
        intro hsame
        have hsome := hseen hsame
        rw [hs] at hsome
        cases hsome
      have hbegan := hfair.began
      cases hstarted : t.started <;> cases hended : t.ended <;> simp_all
    | some r =>
      obtain ⟨-, hended, hsome, -⟩ := hfair.settled r hs
      rw [hended]
      cases hstarted : t.started <;> cases hcompletion : r.completion <;> simp_all

/-- A cooperative stop was acknowledged after the cancellation and before the
settlement. -/
theorem stop_cooperative {o : TaskOutcome V}
    (h : (ledgerRules V deadlineMs).Run (pre ++ .resolved o :: post) w)
    (hstop : o.stopStatus = .cooperativeStopped) :
    ∃ before between after c r, pre = before ++ .acknowledged :: between ++ .settled r :: after ∧
      .cancelled c ∈ before := by
  obtain ⟨t, u, hpre, hstep, -⟩ := h.split
  have hrecorded := (recorded_invariant deadlineMs).run hpre
  have hfair := (fair_invariant deadlineMs).reachable ⟨pre, hpre⟩
  cases hstep with
  | resolved _ _ _ _ _ hstatus =>
    rw [hstop] at hstatus
    obtain ⟨r, hr, hack⟩ : ∃ r, t.settlement = some r ∧ t.acknowledged = true := by
      unfold stopStatus at hstatus
      split at hstatus
      · cases hstatus
      · rename_i r hr
        split at hstatus
        · cases hstatus
        · split at hstatus
          · rename_i hboth
            exact ⟨r, hr, hboth.2⟩
          · cases hstatus
    obtain ⟨first, after, hsplit⟩ := List.append_of_mem ((hrecorded.settled r).mpr hr)
    have hmem := hrecorded.acknowledged.mpr hack
    have hfirst : .acknowledged ∈ first := by
      rw [hsplit, List.mem_append, List.mem_cons] at hmem
      rcases hmem with hmem | hmem | hmem
      · exact hmem
      · cases hmem
      · obtain ⟨middle, last, hafter⟩ := List.append_of_mem hmem
        rw [hsplit, hafter, ← List.cons_append, ← List.append_assoc] at hpre
        exact absurd (List.mem_append_right _ (List.mem_cons_self ..))
          (unsettled_before hpre (.inl rfl) r)
    obtain ⟨before, between, hbefore⟩ := List.append_of_mem hfirst
    rw [hsplit, hbefore, List.append_assoc, List.cons_append] at hpre
    obtain ⟨v, v', hv, hstep', -⟩ := hpre.split
    cases hstep' with
    | acknowledged hsome _ =>
      obtain ⟨c, hc⟩ := Option.isSome_iff_exists.mp hsome
      have hcancelled := (((recorded_invariant deadlineMs).run hv).cancelled c).mpr hc
      exact ⟨before, between, after, c, r, by rw [hsplit, hbefore], hcancelled⟩

end

/-! ## The task and its ledger -/

/-- The part of a task its results depend on; `graceArmed` says whether a timer of
the cancellation grace was ever armed. -/
structure Core (V : Type) where
  deadlineMs : ℚ
  started : Bool
  settling : Bool
  outcome : Option (TaskOutcome V)
  cancellation : Option DeadlineCancellation
  settlement : Option (TaskSettleReceipt V)
  acknowledged : Bool
  graceArmed : Bool
  body : Body
  window : Option (List (Rest V))
  log : List (Write V)

def core (s : DeadlineTask V) : Core V :=
  ⟨s.deadlineMs, s.started, s.settling, s.outcome, s.cancellation, s.settlement, s.acknowledged,
    s.arms.any fun a => a.kind = .grace, s.body, s.window, s.log⟩

/-- The results of a task as its ledger has them. -/
def Core.ledger (c : Core V) : Ledger V :=
  ⟨c.started, c.body = .ended, c.cancellation, c.acknowledged, c.settlement, c.outcome⟩

def isComplete : Rest V → Bool
  | .complete _ _ => true
  | _ => false

/-- What a call that is not over still has to do: `pending` in the call at hand,
the rest behind the listeners. -/
def Core.todo (c : Core V) (pending : List (Rest V)) : List (Rest V) :=
  pending ++ c.window.getD []

/-- `pending` is the rest of the call that is going on, `past` what was written
before it. -/
structure Kept (deadlineMs : ℚ) (past : List (Write V)) (pending : List (Rest V)) (c : Core V) : Prop where
  deadline : c.deadlineMs = deadlineMs
  past : past <+: c.log
  ledger : (ledgerRules V deadlineMs).Run c.log c.ledger
  begun : c.started = true ↔ c.body ≠ .waiting
  grace : c.graceArmed = true → c.cancellation.isSome ∧ c.window = none
  settling : c.settling = (c.todo pending).any isComplete
  once : (c.todo pending).countP isComplete ≤ 1
  completing : (c.todo pending).any isComplete = true ↔ c.settlement = none ∧ c.body = .ended
  window : c.window.isSome → c.cancellation.isSome ∧ c.started = true
  running : c.body = .running → c.settlement = none
  waiting : c.body = .waiting → c.settlement.isSome → c.cancellation.isSome

/-- A body that was cancelled before it started is settled. -/
structure Sound (deadlineMs : ℚ) (past : List (Write V)) (pending : List (Rest V)) (c : Core V) : Prop extends
    Kept deadlineMs past pending c where
  early : c.started = false → c.cancellation.isSome → c.settlement.isSome

variable {deadlineMs : ℚ} {past : List (Write V)}

/-! ### What leaves the core alone -/

@[simp] theorem core_read (s : DeadlineTask V) (reading : Reading) : core (s.read reading).1 = core s := by
  unfold DeadlineTask.read
  split
  · split <;> rfl
  · rfl

theorem any_modify {f : Arm → Arm} (hf : ∀ a, (f a).kind = a.kind) (arms : List Arm) (k : Nat) :
    ((arms.modify k f).any fun a => a.kind = .grace) = arms.any fun a => a.kind = .grace := by
  induction arms generalizing k with
  | nil => simp
  | cons a arms ih =>
    cases k with
    | zero => simp [hf]
    | succ k => simp [ih]

theorem core_modify (s : DeadlineTask V) (k : Nat) {f : Arm → Arm}
    (hf : ∀ a, (f a).kind = a.kind) : core { s with arms := s.arms.modify k f } = core s := by
  show Core.mk _ _ _ _ _ _ _ ((s.arms.modify k f).any _) _ _ _ = _
  rw [any_modify hf]
  rfl

@[simp] theorem core_stopArm (s : DeadlineTask V) (k : Nat) : core (s.stopArm k) = core s :=
  core_modify s k fun _ => rfl

@[simp] theorem core_disarmed (s : DeadlineTask V) : core s.disarmed = core s := by
  unfold DeadlineTask.disarmed
  split
  · rfl
  · exact core_stopArm ..

@[simp] theorem core_schedule (s : DeadlineTask V) (k : Nat) (targetMs : ℚ) (reading : Reading)
    (scheduling : Scheduling) : core (s.schedule k targetMs reading scheduling).1 = core s := by
  have hread := core_read s reading
  unfold DeadlineTask.schedule
  split
  · rename_i s' heq
    rw [heq] at hread
    simp [hread]
  · rename_i s' before heq
    rw [heq] at hread
    split
    · simp [hread]
    · split
      · exact (core_modify s' k (f := fun a => { a with befores := a.befores ++ [before] })
          fun _ => rfl).trans hread
      · simp [hread]

theorem core_arm (s : DeadlineTask V) (kind : ArmKind) (targetMs : ℚ) (reading : Reading)
    (scheduling : Scheduling) : core (s.arm kind targetMs reading scheduling).1 =
      { core s with graceArmed := (core s).graceArmed || kind = .grace } := by
  unfold DeadlineTask.arm
  have harms : ∀ t : DeadlineTask V, core { t with disarm := some s.arms.length } = core t :=
    fun _ => rfl
  rw [harms, core_schedule]
  simp [core]

/-! ### Finishing -/

/-- What `finish` changes: nothing, or it resolves the outcome. -/
inductive Finishes (s t : DeadlineTask V) : Prop
  | already : s.outcome.isSome = true → core t = core s → Finishes s t
  | resolves (o : TaskOutcome V) : s.outcome = none → o.status = outcomeStatus s.cancellation →
      o.stopStatus = stopStatus s.settlement s.cancellation s.acknowledged →
      core t = { core s with outcome := some o, log := s.log ++ [.resolved o] } → Finishes s t

theorem finish_cases (s : DeadlineTask V) : Finishes s s.finish := by
  unfold DeadlineTask.finish
  split
  · rename_i hsome
    exact .already hsome rfl
  · rename_i hnone
    have hd := core_disarmed s
    have hcore : ∀ (t : DeadlineTask V) (o : TaskOutcome V), core t = core s →
        core { t with outcome := some o, log := t.log ++ [.resolved o] } =
          { core s with outcome := some o, log := s.log ++ [.resolved o] } := by
      intro t o ht
      have hlog : t.log = s.log := congrArg Core.log ht
      rw [← ht, ← hlog]
      rfl
    refine .resolves _ (Option.not_isSome_iff_eq_none.mp hnone) ?_ ?_ (hcore _ _ hd)
    · show outcomeStatus s.disarmed.cancellation = _
      rw [show s.disarmed.cancellation = s.cancellation from congrArg Core.cancellation hd]
    · show stopStatus s.disarmed.settlement s.disarmed.cancellation s.disarmed.acknowledged = _
      rw [show s.disarmed.cancellation = s.cancellation from congrArg Core.cancellation hd,
        show s.disarmed.settlement = s.settlement from congrArg Core.settlement hd,
        show s.disarmed.acknowledged = s.acknowledged from congrArg Core.acknowledged hd]

theorem Finishes.outcome {s t : DeadlineTask V} (h : Finishes s t) : t.outcome.isSome = true := by
  cases h with
  | already hsome hcore => rwa [show t.outcome = s.outcome from congrArg Core.outcome hcore]
  | resolves o _ _ _ hcore => rw [show t.outcome = some o from congrArg Core.outcome hcore]; rfl

theorem Finishes.log {s t : DeadlineTask V} (h : Finishes s t) : s.log <+: t.log := by
  cases h with
  | already _ hcore =>
    have hlog : t.log = s.log := congrArg Core.log hcore
    simp only [hlog, List.prefix_rfl]
  | resolves o _ _ _ hcore =>
    rw [show t.log = s.log ++ [.resolved o] from congrArg Core.log hcore]
    exact List.prefix_append ..

/-- An outcome may be written once there is a cancellation or a settlement and no
body was started or ended without one. -/
theorem Finishes.run {s t : DeadlineTask V} {deadlineMs : ℚ} (h : Finishes s t)
    (hrun : (ledgerRules V deadlineMs).Run s.log (core s).ledger)
    (hready : s.cancellation.isSome = true ∨ s.settlement.isSome = true)
    (hseen : (core s).ledger.ended = s.started → s.settlement.isSome = true) :
    (ledgerRules V deadlineMs).Run (core t).log (core t).ledger := by
  cases h with
  | already _ hcore =>
    rw [hcore]
    exact hrun
  | resolves o hnone hstatus hstop hcore =>
    rw [hcore]
    exact hrun.snoc (.resolved (core s).ledger o hnone hready hseen hstatus hstop)

theorem Finishes.fields {s t : DeadlineTask V} (h : Finishes s t) :
    { core t with outcome := none, log := [] } = { core s with outcome := none, log := [] } := by
  cases h with
  | already _ hcore => rw [hcore]
  | resolves o _ _ _ hcore => rw [hcore]

/-- `finish` keeps everything but the outcome and the log. -/
theorem Finishes.core {s t : DeadlineTask V} (h : Finishes s t) :
    core t = { core s with outcome := t.outcome, log := t.log } :=
  congrArg (fun c : Core V => { c with outcome := t.outcome, log := t.log }) h.fields

theorem Kept.of_finishes {s t : DeadlineTask V} {pending : List (Rest V)} (h : Finishes s t)
    (hs : Kept deadlineMs past pending (core s))
    (hready : s.cancellation.isSome = true ∨ s.settlement.isSome = true)
    (hseen : (core s).ledger.ended = s.started → s.settlement.isSome = true) :
    Kept deadlineMs past pending (core t) := by
  have hrun := h.run hs.ledger hready hseen
  have hpast := hs.past.trans h.log
  rw [h.core] at hrun ⊢
  exact ⟨hs.deadline, hpast, hrun, hs.begun, hs.grace, hs.settling, hs.once, hs.completing, hs.window,
    hs.running, hs.waiting⟩

/-- The outcome is not resolved between the end of the body and its settlement. -/
theorem Sound.seen {s : DeadlineTask V} {pending : List (Rest V)} (h : Sound deadlineMs past pending (core s))
    (hready : s.cancellation.isSome = true ∨ s.settlement.isSome = true)
    (hsettling : s.settling = false) :
    (core s).ledger.ended = s.started → s.settlement.isSome = true := by
  intro hsame
  cases hstarted : s.started with
  | false => exact hready.elim (h.early hstarted) id
  | true =>
    rw [hstarted] at hsame
    have hended : s.body = .ended := of_decide_eq_true hsame
    cases hs : s.settlement with
    | some r => rfl
    | none =>
      have hany := h.completing.mpr ⟨hs, hended⟩
      rw [← h.settling] at hany
      rw [show s.settling = true from hany] at hsettling
      cases hsettling

theorem Sound.finish {s : DeadlineTask V} {pending : List (Rest V)} (h : Sound deadlineMs past pending (core s))
    (hready : s.cancellation.isSome = true ∨ s.settlement.isSome = true)
    (hsettling : s.settling = false) : Sound deadlineMs past pending (core s.finish) := by
  have hf := finish_cases s
  refine ⟨.of_finishes hf h.toKept hready (h.seen hready hsettling), ?_⟩
  rw [hf.core]
  exact h.early

/-- A rest that does not complete the body can be dropped. -/
theorem Sound.drop {c : Core V} {r : Rest V} {rest : List (Rest V)} (h : Sound deadlineMs past (r :: rest) c)
    (hr : isComplete r = false) : Sound deadlineMs past rest c := by
  have hany : (c.todo (r :: rest)).any isComplete = (c.todo rest).any isComplete := by
    unfold Core.todo
    rw [List.cons_append, List.any_cons, hr, Bool.false_or]
  have hcount : (c.todo (r :: rest)).countP isComplete = (c.todo rest).countP isComplete := by
    unfold Core.todo
    rw [List.cons_append, List.countP_cons_of_neg (by rw [hr]; exact Bool.false_ne_true)]
  refine ⟨⟨h.deadline, h.past, h.ledger, h.begun, h.grace, ?_, ?_, ?_, h.window, h.running, h.waiting⟩, h.early⟩
  · rw [← hany]
    exact h.settling
  · rw [← hcount]
    exact h.once
  · rw [← hany]
    exact h.completing

/-- A settlement is written and the outcome resolved. -/
theorem Kept.settleFinish {s : DeadlineTask V} {pending rest : List (Rest V)}
    (h : Kept deadlineMs past pending (core s)) {r : TaskSettleReceipt V} (hnone : s.settlement = none)
    (hkept : r.cancellation = s.cancellation) (hended : (core s).ledger.ended = s.started)
    (hsome : r.completion.isSome = s.started)
    (hintime : s.cancellation = none → InTime deadlineMs r)
    (htodo : ((core s).todo rest).any isComplete = false) :
    Sound deadlineMs past rest (core { s.settle r with settling := false }.finish) := by
  have hf := finish_cases { s.settle r with settling := false }
  have hrun := h.ledger.snoc (.settled (core s).ledger r hnone hkept hended hsome hintime)
  have hcount : ((core s).todo rest).countP isComplete = 0 := by
    rw [List.countP_eq_zero]
    intro a ha
    exact fun hc => absurd (List.any_eq_true.mpr ⟨a, ha, hc⟩) (by rw [htodo]; exact Bool.false_ne_true)
  have hsettled : Kept deadlineMs past rest (core { s.settle r with settling := false }) := by
    refine ⟨h.deadline, h.past.trans (List.prefix_append ..), hrun, h.begun, h.grace, htodo.symm, ?_, ?_,
      h.window, ?_, ?_⟩
    · show ((core s).todo rest).countP isComplete ≤ 1
      omega
    · show ((core s).todo rest).any isComplete = true ↔ some r = none ∧ _
      rw [htodo]
      exact ⟨(fun hc => nomatch hc), (fun hc => nomatch hc.1)⟩
    · intro hrunning
      have hrunning : s.body = .running := hrunning
      have hstarted : s.started = true := h.begun.mpr (by
        rw [show (core s).body = .running from hrunning]
        exact fun hc => nomatch hc)
      rw [hstarted] at hended
      rw [show s.body = .ended from of_decide_eq_true hended] at hrunning
      cases hrunning
    · intro hwaiting _
      show s.cancellation.isSome = true
      cases hc : s.cancellation with
      | some c => rfl
      | none =>
        have hstarted : s.started = true := hsome.symm.trans (hintime hc).1
        exact absurd hwaiting (h.begun.mp hstarted)
  refine ⟨.of_finishes hf hsettled (.inr rfl) fun _ => rfl, ?_⟩
  rw [hf.core]
  exact fun _ _ => rfl

theorem Sound.complete {s : DeadlineTask V} {completion : Completion V} {now : Option ℚ}
    {rest : List (Rest V)} (h : Sound deadlineMs past (.complete completion now :: rest) (core s))
    (hintime : s.cancellation = none → ∃ t, now = some t ∧ t < s.deadlineMs) :
    Sound deadlineMs past rest (core { s.settle ⟨some completion, now, s.cancellation⟩ with
      settling := false }.finish) := by
  have hany : ((core s).todo (.complete completion now :: rest)).any isComplete = true := rfl
  obtain ⟨hnone, hbody⟩ := h.completing.mp hany
  have hended : (core s).ledger.ended = true := decide_eq_true hbody
  have hstarted : s.started = true := h.begun.mpr (by rw [hbody]; exact fun hc => nomatch hc)
  have honce := h.once
  have htodo : ((core s).todo rest).any isComplete = false := by
    unfold Core.todo at honce ⊢
    rw [List.cons_append, List.countP_cons_of_pos rfl] at honce
    have hzero : (rest ++ (core s).window.getD []).countP isComplete = 0 := by omega
    rw [List.countP_eq_zero] at hzero
    rw [List.any_eq_false]
    exact hzero
  exact h.toKept.settleFinish hnone rfl (hended.trans hstarted.symm) hstarted.symm
    (fun hc => ⟨rfl, by rw [← h.deadline]; exact hintime hc⟩) htodo

/-! ### Cancelling -/

theorem Sound.startGrace {s : DeadlineTask V} {pending : List (Rest V)}
    (h : Sound deadlineMs past pending (core s)) (hcancelled : s.cancellation.isSome = true)
    (hwindow : s.window = none) (reading : Reading) (scheduling : Scheduling) :
    Sound deadlineMs past pending (core (s.startGrace reading scheduling)) := by
  unfold DeadlineTask.startGrace
  split
  · exact h
  · rename_i hsettling
    rw [Bool.not_eq_true] at hsettling
    split
    · exact h.finish (.inl hcancelled) hsettling
    · have harm := core_arm s .grace (s.last + s.graceMs) reading scheduling
      have hsound : Sound deadlineMs past pending
          (core (s.arm .grace (s.last + s.graceMs) reading scheduling).1) := by
        rw [harm]
        exact ⟨⟨h.deadline, h.past, h.ledger, h.begun, fun _ => ⟨hcancelled, hwindow⟩, h.settling, h.once,
          h.completing, h.window, h.running, h.waiting⟩, h.early⟩
      have hstill : ∀ t : DeadlineTask V, core t = core (s.arm .grace (s.last + s.graceMs) reading
          scheduling).1 → t.cancellation.isSome = true ∧ t.settling = false := by
        intro t ht
        rw [show t.cancellation = s.cancellation from congrArg Core.cancellation (ht.trans harm),
          show t.settling = s.settling from congrArg Core.settling (ht.trans harm)]
        exact ⟨hcancelled, hsettling⟩
      split
      · rename_i t heq
        rw [heq] at hsound
        exact hsound
      · rename_i t heq
        rw [heq] at hsound hstill
        exact hsound.finish (.inl (hstill t rfl).1) (hstill t rfl).2
      · rename_i t heq
        rw [heq] at hsound hstill
        exact Sound.finish (s := { t with clockFailure := true }) hsound (.inl (hstill t rfl).1)
          (hstill t rfl).2

/-- What a rest needs before it goes on. -/
def Ready (s : DeadlineTask V) : Rest V → Prop
  | .requested => s.cancellation.isSome = true ∧ s.window = none
  | .clockFailed => s.cancellation.isSome = true ∨ s.settlement.isSome = true
  | .complete _ now => s.cancellation = none → ∃ t, now = some t ∧ t < s.deadlineMs

/-- The fields a rest leaves alone. -/
structure Continues (s t : DeadlineTask V) : Prop where
  cancellation : t.cancellation = s.cancellation
  deadlineMs : t.deadlineMs = s.deadlineMs
  settlement : s.settlement.isSome = true → t.settlement.isSome = true
  window : t.window = s.window
  body : t.body = s.body

theorem Continues.of_core {s t : DeadlineTask V} {graceArmed : Bool}
    {outcome : Option (TaskOutcome V)} {log : List (Write V)}
    (h : core t = { core s with graceArmed, outcome, log }) : Continues s t where
  cancellation := congrArg Core.cancellation h
  deadlineMs := congrArg Core.deadlineMs h
  settlement hs := by rwa [show t.settlement = s.settlement from congrArg Core.settlement h]
  window := congrArg Core.window h
  body := congrArg Core.body h

theorem Continues.trans {s t u : DeadlineTask V} (h : Continues s t) (h' : Continues t u) :
    Continues s u where
  cancellation := h'.cancellation.trans h.cancellation
  deadlineMs := h'.deadlineMs.trans h.deadlineMs
  settlement hs := h'.settlement (h.settlement hs)
  window := h'.window.trans h.window
  body := h'.body.trans h.body

theorem Ready.mono {s t : DeadlineTask V} {r : Rest V} (h : Ready s r) (hc : Continues s t) :
    Ready t r := by
  cases r with
  | requested =>
    unfold Ready at h ⊢
    rw [hc.cancellation, hc.window]
    exact h
  | clockFailed =>
    unfold Ready at h ⊢
    rw [hc.cancellation]
    exact h.imp id hc.settlement
  | complete completion now =>
    unfold Ready at h ⊢
    rw [hc.cancellation, hc.deadlineMs]
    exact h

theorem Finishes.continues {s t : DeadlineTask V} (h : Finishes s t) : Continues s t := by
  cases h with
  | already _ hcore => exact .of_core hcore
  | resolves o _ _ _ hcore => exact .of_core hcore

theorem startGrace_continues (s : DeadlineTask V) (reading : Reading) (scheduling : Scheduling) :
    Continues s (s.startGrace reading scheduling) := by
  unfold DeadlineTask.startGrace
  split
  · exact ⟨rfl, rfl, id, rfl, rfl⟩
  · split
    · exact (finish_cases s).continues
    · have harm : Continues s (s.arm .grace (s.last + s.graceMs) reading scheduling).1 :=
        .of_core (core_arm s .grace (s.last + s.graceMs) reading scheduling)
      split
      · rename_i t heq
        rw [heq] at harm
        exact harm
      · rename_i t heq
        rw [heq] at harm
        exact harm.trans (finish_cases t).continues
      · rename_i t heq
        rw [heq] at harm
        have hfailed : Continues t { t with clockFailure := true } := ⟨rfl, rfl, id, rfl, rfl⟩
        exact (harm.trans hfailed).trans (finish_cases _).continues

theorem runRest_continues (s : DeadlineTask V) (reading : Reading) (scheduling : Scheduling)
    (r : Rest V) : Continues s (DeadlineTask.runRest reading scheduling s r) := by
  cases r with
  | requested => exact startGrace_continues s reading scheduling
  | clockFailed =>
    show Continues s s.finishUnlessSettling
    unfold DeadlineTask.finishUnlessSettling
    split
    · exact ⟨rfl, rfl, id, rfl, rfl⟩
    · exact (finish_cases s).continues
  | complete completion now =>
    have h := (finish_cases { s.settle ⟨some completion, now, s.cancellation⟩ with
      settling := false }).continues
    exact ⟨h.cancellation, h.deadlineMs, fun _ => h.settlement rfl, h.window, h.body⟩

theorem Sound.runRest {s : DeadlineTask V} {r : Rest V} {rest : List (Rest V)}
    (h : Sound deadlineMs past (r :: rest) (core s)) (hready : Ready s r) (reading : Reading)
    (scheduling : Scheduling) :
    Sound deadlineMs past rest (core (DeadlineTask.runRest reading scheduling s r)) := by
  cases r with
  | requested => exact (h.drop rfl).startGrace hready.1 hready.2 reading scheduling
  | clockFailed =>
    show Sound deadlineMs past rest (core s.finishUnlessSettling)
    unfold DeadlineTask.finishUnlessSettling
    split
    · exact h.drop rfl
    · rename_i hsettling
      exact (h.drop rfl).finish hready (Bool.not_eq_true _ ▸ hsettling)
  | complete completion now => exact h.complete hready

theorem Sound.runAll {s : DeadlineTask V} {rest : List (Rest V)} (h : Sound deadlineMs past rest (core s))
    (hready : ∀ r ∈ rest, Ready s r) (reading : Reading) (scheduling : Scheduling) :
    Sound deadlineMs past [] (core (s.runAll reading scheduling rest)) := by
  induction rest generalizing s with
  | nil => exact h
  | cons r rest ih =>
    have hc := runRest_continues s reading scheduling r
    refine ih (h.runRest (hready r (List.mem_cons_self ..)) reading scheduling) fun r' hr' => ?_
    exact (hready r' (List.mem_cons_of_mem _ hr')).mono hc

/-- A rest that has no grace to start. -/
def Plain (rest : List (Rest V)) : Prop := ∀ r ∈ rest, r ≠ .requested

theorem core_recordCancellation (s : DeadlineTask V) (kind : CancellationKind) (message : String) :
    core (s.recordCancellation kind message) = { core s with
      cancellation := some ⟨kind, s.last, message⟩
      log := s.log ++ [.cancelled ⟨kind, s.last, message⟩] } := by
  unfold DeadlineTask.recordCancellation
  have hlistening : ∀ t : DeadlineTask V, core { t with listening := false } = core t :=
    fun _ => rfl
  rw [hlistening, core_disarmed]
  rfl

theorem Sound.window_none {pending : List (Rest V)} {c : Core V} (h : Sound deadlineMs past pending c)
    (hnone : c.cancellation = none) : c.window = none := by
  cases hw : c.window with
  | none => rfl
  | some rest =>
    have hsome := (h.window (by rw [hw]; rfl)).1
    rw [hnone] at hsome
    cases hsome

/-- The first cancellation of a task that is not settled. -/
theorem Kept.record {s : DeadlineTask V} {rest : List (Rest V)} (h : Kept deadlineMs past rest (core s))
    (hnone : s.cancellation = none) (hunsettled : s.settlement = none) (kind : CancellationKind)
    (message : String) : Kept deadlineMs past rest (core (s.recordCancellation kind message)) := by
  rw [core_recordCancellation]
  have hrun := h.ledger.snoc (.cancelled (core s).ledger ⟨kind, s.last, message⟩ hnone hunsettled)
  exact ⟨h.deadline, h.past.trans (List.prefix_append ..), hrun, h.begun, fun hg => ⟨rfl, (h.grace hg).2⟩,
    h.settling, h.once, h.completing, fun hw => ⟨rfl, (h.window hw).2⟩, h.running,
    fun _ _ => rfl⟩

/-- The listeners of a body that is running run first. -/
theorem Kept.listen {t : DeadlineTask V} {rest : List (Rest V)} (h : Kept deadlineMs past rest (core t))
    (hcancelled : t.cancellation.isSome = true) (hstarted : t.started = true)
    (hwindow : t.window = none) (hgrace : (core t).graceArmed = false) :
    Sound deadlineMs past [] (core { t with window := some (.requested :: rest) }) := by
  have htodo : (core t).todo rest = rest := by
    show rest ++ t.window.getD [] = rest
    rw [hwindow]
    exact List.append_nil rest
  have hsettling := h.settling
  have honce := h.once
  have hcompleting := h.completing
  rw [htodo] at hsettling honce hcompleting
  refine ⟨⟨h.deadline, h.past, h.ledger, h.begun, ?_, ?_, ?_, ?_, ?_, h.running, h.waiting⟩, ?_⟩
  · intro harmed
    rw [show (core t).graceArmed = true from harmed] at hgrace
    cases hgrace
  · show t.settling = (Rest.requested :: rest).any isComplete
    rw [List.any_cons]
    exact hsettling
  · show (Rest.requested :: rest).countP isComplete ≤ 1
    rw [List.countP_cons_of_neg Bool.false_ne_true]
    exact honce
  · show (Rest.requested :: rest).any isComplete = true ↔ _
    rw [List.any_cons]
    exact hcompleting
  · exact fun _ => ⟨hcancelled, hstarted⟩
  · intro hnot
    rw [show t.started = false from hnot] at hstarted
    cases hstarted

/-- A body that was not started settles at once. -/
theorem Kept.refuse {t : DeadlineTask V} {rest : List (Rest V)} (h : Kept deadlineMs past rest (core t))
    (hunsettled : t.settlement = none) (hcancelled : t.cancellation.isSome = true)
    (hnot : t.started = false) : Sound deadlineMs past rest (core t.notStarted) := by
  have hbody : t.body = .waiting := by
    by_contra hbody
    rw [show t.started = true from h.begun.mpr hbody] at hnot
    cases hnot
  have htodo : ((core t).todo rest).any isComplete = false := by
    rw [Bool.eq_false_iff]
    intro hany
    have hended : t.body = .ended := (h.completing.mp hany).2
    rw [hbody] at hended
    cases hended
  have hsettling : t.settling = false := h.settling.trans htodo
  have hended : (core t).ledger.ended = t.started := by
    show decide (t.body = .ended) = t.started
    rw [hbody, hnot]
    rfl
  have hnone : t.cancellation ≠ none := by
    intro hnone
    rw [hnone] at hcancelled
    cases hcancelled
  have hsame : ∀ r : TaskSettleReceipt V, { t.settle r with settling := false } = t.settle r := by
    intro r
    rw [← hsettling]
    rfl
  have hsound := h.settleFinish (r := ⟨none, if t.clockFailure then none else some t.last,
    t.cancellation⟩) hunsettled rfl hended hnot.symm (fun hn => absurd hn hnone) htodo
  rw [hsame] at hsound
  exact hsound

theorem notStarted_continues (t : DeadlineTask V) : Continues t t.notStarted := by
  have h := (finish_cases (t.settle ⟨none, if t.clockFailure then none else some t.last,
    t.cancellation⟩)).continues
  exact ⟨h.cancellation, h.deadlineMs, fun _ => h.settlement rfl, h.window, h.body⟩

theorem Sound.requestCancellation {s : DeadlineTask V} {rest : List (Rest V)}
    (h : Sound deadlineMs past rest (core s)) (hplain : Plain rest) (kind : CancellationKind) (message : String) :
    Sound deadlineMs past [] (core (s.requestCancellation kind message rest)) := by
  unfold DeadlineTask.requestCancellation
  split
  · rename_i hwritten
    refine h.runAll (fun r hr => ?_) none .failed
    cases r with
    | requested => exact absurd rfl (hplain _ hr)
    | clockFailed => exact hwritten
    | complete completion now =>
      intro hnone
      have hany : ((core s).todo rest).any isComplete = true :=
        List.any_eq_true.mpr ⟨_, List.mem_append_left _ hr, rfl⟩
      have hunsettled : s.settlement = none := (h.completing.mp hany).1
      rw [hnone, hunsettled] at hwritten
      rcases hwritten with hc | hc <;> cases hc
  · rename_i hfresh
    rw [not_or] at hfresh
    have hnone : s.cancellation = none := Option.not_isSome_iff_eq_none.mp hfresh.1
    have hunsettled : s.settlement = none := Option.not_isSome_iff_eq_none.mp hfresh.2
    have hcore := core_recordCancellation s kind message
    have hkept := h.toKept.record hnone hunsettled kind message
    have hwindow : s.window = none := h.window_none hnone
    have hgrace : (core s).graceArmed = false := by
      cases hg : (core s).graceArmed with
      | false => rfl
      | true =>
        have hsome := (h.grace hg).1
        rw [show (core s).cancellation = none from hnone] at hsome
        cases hsome
    generalize s.recordCancellation kind message = t at hcore hkept ⊢
    have hcancelled : t.cancellation = some ⟨kind, s.last, message⟩ :=
      congrArg Core.cancellation hcore
    have ht : t.settlement = s.settlement := congrArg Core.settlement hcore
    have hw : t.window = s.window := congrArg Core.window hcore
    have hstarts : t.started = s.started := congrArg Core.started hcore
    split
    · rename_i hstarted
      exact hkept.listen (by rw [hcancelled]; rfl) (hstarts.trans hstarted) (hw.trans hwindow)
        ((congrArg Core.graceArmed hcore).trans hgrace)
    · rename_i hstarted
      rw [Bool.not_eq_true] at hstarted
      have hsound := hkept.refuse (ht.trans hunsettled) (by rw [hcancelled]; rfl)
        (hstarts.trans hstarted)
      have hc := notStarted_continues t
      refine hsound.runAll (fun r hr => ?_) none .failed
      cases r with
      | requested => exact absurd rfl (hplain _ hr)
      | clockFailed => exact .inl (by rw [hc.cancellation, hcancelled]; rfl)
      | complete completion now =>
        intro hn
        rw [hc.cancellation, hcancelled] at hn
        cases hn

theorem runAll_continues (s : DeadlineTask V) (reading : Reading) (scheduling : Scheduling)
    (rest : List (Rest V)) : Continues s (s.runAll reading scheduling rest) := by
  induction rest generalizing s with
  | nil => exact ⟨rfl, rfl, id, rfl, rfl⟩
  | cons r rest ih => exact (runRest_continues s reading scheduling r).trans (ih _)

theorem requestCancellation_body (s : DeadlineTask V) (kind : CancellationKind) (message : String)
    (rest : List (Rest V)) : (s.requestCancellation kind message rest).body = s.body := by
  have hrecord : (s.recordCancellation kind message).body = s.body :=
    congrArg Core.body (core_recordCancellation s kind message)
  unfold DeadlineTask.requestCancellation
  split
  · exact (runAll_continues ..).body
  · split
    · exact hrecord
    · rw [(runAll_continues ..).body, (notStarted_continues _).body, hrecord]

/-! ### The operations -/

/-- A clock failure that is not handled yet. -/
theorem Sound.push {c : Core V} {rest : List (Rest V)} (h : Sound deadlineMs past rest c) :
    Sound deadlineMs past (.clockFailed :: rest) c := by
  have hcount : (c.todo (.clockFailed :: rest)).countP isComplete =
      (c.todo rest).countP isComplete := by
    unfold Core.todo
    rw [List.cons_append, List.countP_cons_of_neg Bool.false_ne_true]
  refine ⟨⟨h.deadline, h.past, h.ledger, h.begun, h.grace, h.settling, ?_, h.completing, h.window, h.running,
    h.waiting⟩, h.early⟩
  rw [hcount]
  exact h.once

theorem Sound.clockFailed {s : DeadlineTask V} {rest : List (Rest V)} (h : Sound deadlineMs past rest (core s))
    (hplain : Plain rest) : Sound deadlineMs past [] (core (s.clockFailed rest)) := by
  refine Sound.requestCancellation (s := { s with clockFailure := true }) h.push ?_ _ _
  intro r hr
  rcases List.mem_cons.mp hr with rfl | hr
  · exact fun hc => nomatch hc
  · exact hplain r hr

theorem plain_nil : Plain ([] : List (Rest V)) := fun _ hr => nomatch hr

theorem plain_complete (completion : Completion V) (now : Option ℚ) :
    Plain [.complete completion now] := by
  intro r hr
  rw [List.mem_singleton.mp hr]
  exact fun hc => nomatch hc

/-- A clock that is read leaves the results alone. -/
theorem Sound.read {s : DeadlineTask V} {rest : List (Rest V)} (h : Sound deadlineMs past rest (core s))
    {reading : Reading} {t : DeadlineTask V} {now : Option ℚ} (hread : s.read reading = (t, now)) :
    Sound deadlineMs past rest (core t) := by
  have hcore := core_read s reading
  rw [hread] at hcore
  rw [hcore]
  exact h

theorem Sound.externalAbort {s : DeadlineTask V} (h : Sound deadlineMs past [] (core s)) (reading : Reading) :
    Sound deadlineMs past [] (core (s.externalAbort reading)) := by
  unfold DeadlineTask.externalAbort
  split
  · rename_i t heq
    exact (h.read heq).clockFailed plain_nil
  · rename_i t now heq
    exact (h.read heq).requestCancellation plain_nil _ _

theorem Sound.remainingMs {s : DeadlineTask V} (h : Sound deadlineMs past [] (core s)) (reading : Reading) :
    Sound deadlineMs past [] (core (s.remainingMs reading)) := by
  unfold DeadlineTask.remainingMs
  split
  · rename_i t heq
    exact (h.read heq).clockFailed plain_nil
  · rename_i t now heq
    split
    · exact (h.read heq).requestCancellation plain_nil _ _
    · exact h.read heq

theorem Sound.cancel {s : DeadlineTask V} (h : Sound deadlineMs past [] (core s)) (message : String)
    (reading : Reading) : Sound deadlineMs past [] (core (s.cancel message reading)) := by
  unfold DeadlineTask.cancel
  split
  · exact h
  · split
    · rename_i t heq
      exact (h.read heq).clockFailed plain_nil
    · rename_i t now heq
      exact (h.read heq).requestCancellation plain_nil _ _

theorem Sound.acknowledge {s : DeadlineTask V} (h : Sound deadlineMs past [] (core s)) :
    Sound deadlineMs past [] (core s.acknowledgeCancellation) := by
  unfold DeadlineTask.acknowledgeCancellation
  split
  · exact h
  · rename_i hopen
    rw [not_or] at hopen
    have hcancelled : s.cancellation.isSome = true := by
      cases hc : s.cancellation with
      | none => exact absurd (by rw [hc]; rfl) hopen.1
      | some c => rfl
    have hunsettled : s.settlement = none := Option.not_isSome_iff_eq_none.mp hopen.2
    have hrun := h.ledger.snoc (.acknowledged (core s).ledger hcancelled hunsettled)
    exact ⟨⟨h.deadline, h.past.trans (List.prefix_append ..), hrun, h.begun, h.grace, h.settling, h.once,
      h.completing, h.window, h.running, h.waiting⟩, h.early⟩

/-- The body ended: its completion is pending. -/
theorem Sound.ended {s : DeadlineTask V} (h : Sound deadlineMs past [] (core s)) (hbody : s.body = .running)
    (hwindow : s.window = none) (completion : Completion V) (now : Option ℚ) :
    Sound deadlineMs past [.complete completion now] (core { s.bodyEnds with settling := true }) := by
  have hunsettled : s.settlement = none := h.running hbody
  have hstarted : s.started = true := h.begun.mpr (by
    rw [show (core s).body = .running from hbody]
    exact fun hc => nomatch hc)
  have hrun : (ledgerRules V deadlineMs).Run (s.log ++ [.ended])
      ⟨s.started, true, s.cancellation, s.acknowledged, s.settlement, s.outcome⟩ :=
    h.ledger.snoc (.ended (core s).ledger hstarted
      (by show decide (s.body = .ended) = false; rw [hbody]; rfl) hunsettled)
  have htodo : ∀ rest : List (Rest V), rest ++ s.window.getD [] = rest := by
    intro rest
    rw [hwindow]
    exact List.append_nil rest
  refine ⟨⟨h.deadline, h.past.trans (List.prefix_append ..), hrun, ?_, h.grace, rfl, ?_, ?_, h.window,
    (fun hc => nomatch hc), (fun hc => nomatch hc)⟩, h.early⟩
  · exact ⟨(fun _ hc => nomatch hc), fun _ => hstarted⟩
  · show List.countP isComplete ([.complete completion now] ++ s.window.getD []) ≤ 1
    rw [htodo]
    exact Nat.le_refl 1
  · exact ⟨fun _ => ⟨hunsettled, rfl⟩, fun _ => rfl⟩

theorem Sound.settle {s : DeadlineTask V} (h : Sound deadlineMs past [] (core s)) (hbody : s.body = .running)
    (hwindow : s.window = none) (completion : Completion V) (reading : Reading) :
    Sound deadlineMs past [] (core (s.bodyEnds.complete completion reading)) := by
  have hended := h.ended hbody hwindow completion
  unfold DeadlineTask.complete
  split
  · rename_i hsettled
    have hunsettled : s.settlement = none := h.running hbody
    have hsettled : s.settlement.isSome = true := hsettled
    rw [hunsettled] at hsettled
    cases hsettled
  · split
    · rename_i t heq
      exact ((hended none).read heq).clockFailed (plain_complete completion none)
    · rename_i t now heq
      have ht := (hended (some now)).read heq
      split
      · exact ht.requestCancellation (plain_complete completion (some now)) _ _
      · rename_i hearlier
        refine ht.runAll (fun r hr => ?_) none .failed
        rw [List.mem_singleton.mp hr]
        exact fun _ => ⟨now, rfl, not_le.mp hearlier⟩

theorem Sound.timerEnds {s : DeadlineTask V} (h : Sound deadlineMs past [] (core s)) {kind : ArmKind}
    (hgrace : kind = .grace → s.cancellation.isSome = true ∧ s.settling = false)
    (result : DeadlineTask.ArmResult) : Sound deadlineMs past [] (core (s.timerEnds kind result)) := by
  cases result with
  | armed => exact h
  | elapsed =>
    cases kind with
    | deadline => exact h.requestCancellation plain_nil _ _
    | grace => exact h.finish (.inl (hgrace rfl).1) (hgrace rfl).2
  | failed => exact h.clockFailed plain_nil

/-- Only a cancelled task whose listeners are done has a timer of the cancellation
grace. -/
theorem Sound.armed {s : DeadlineTask V} (h : Sound deadlineMs past [] (core s)) {k : Nat} {a : Arm}
    (ha : s.arms[k]? = some a) (hkind : a.kind = .grace) :
    s.cancellation.isSome = true ∧ s.settling = false := by
  have harmed : (core s).graceArmed = true := by
    refine List.any_eq_true.mpr ⟨a, List.mem_of_getElem? ha, ?_⟩
    rw [hkind]
    rfl
  obtain ⟨hcancelled, hwindow⟩ := h.grace harmed
  refine ⟨hcancelled, h.settling.trans ?_⟩
  unfold Core.todo
  rw [hwindow]
  rfl

/-- What a timer does after its arm was looked at again. -/
theorem Sound.timer {s t : DeadlineTask V} (h : Sound deadlineMs past [] (core s)) {k : Nat} {a : Arm}
    (ha : s.arms[k]? = some a) (ht : core t = core s) (result : DeadlineTask.ArmResult) :
    Sound deadlineMs past [] (core (t.timerEnds a.kind result)) := by
  have hcancellation : t.cancellation = s.cancellation := congrArg Core.cancellation ht
  have hsettling : t.settling = s.settling := congrArg Core.settling ht
  have hsound : Sound deadlineMs past [] (core t) := by rwa [ht]
  refine hsound.timerEnds (fun hkind => ?_) result
  rw [hcancellation, hsettling]
  exact h.armed ha hkind

theorem Sound.fire {s t : DeadlineTask V} (h : Sound deadlineMs past [] (core s)) {k : Nat} {before : ℚ}
    {reading later : Reading} {scheduling : Scheduling}
    (hfire : s.fire k before reading later scheduling = some t) : Sound deadlineMs past [] (core t) := by
  unfold DeadlineTask.fire at hfire
  split at hfire
  · cases hfire
  · rename_i a ha
    split at hfire
    · cases hfire
    · split at hfire
      · cases hfire
        exact h
      · have hread := core_read s reading
        split at hfire
        · rename_i u heq
          rw [heq] at hread
          cases hfire
          exact h.timer ha ((core_stopArm u k).trans hread) .failed
        · rename_i u now heq
          rw [heq] at hread
          split at hfire
          · cases hfire
            exact h.timer ha ((core_stopArm u k).trans hread) .elapsed
          · split at hfire
            · cases hfire
              exact h.timer ha ((core_stopArm { u with broken := true } k).trans hread) .failed
            · have hschedule := core_schedule u k a.targetMs later scheduling
              split at hfire
              rename_i v result hv
              rw [hv] at hschedule
              cases hfire
              exact h.timer ha (hschedule.trans hread) result

/-- The body is called when nothing cancelled the task. -/
theorem Sound.bodyBegins {s : DeadlineTask V} (h : Sound deadlineMs past [] (core s))
    (hnone : s.cancellation = none) (hbody : s.body = .waiting) :
    Sound deadlineMs past [] (core s.bodyBegins) := by
  have hwindow : s.window = none := h.window_none hnone
  have hunsettled : s.settlement = none := by
    cases hs : s.settlement with
    | none => rfl
    | some r =>
      have hsome := h.waiting hbody (by show s.settlement.isSome = true; rw [hs]; rfl)
      rw [show (core s).cancellation = none from hnone] at hsome
      cases hsome
  have hnot : s.started = false := by
    rw [Bool.eq_false_iff]
    exact fun hstarted => h.begun.mp hstarted hbody
  have hwaiting : decide (s.body = .ended) = false := by
    rw [hbody]
    rfl
  have hrun : (ledgerRules V deadlineMs).Run (s.log ++ [.started])
      ⟨true, false, s.cancellation, s.acknowledged, s.settlement, s.outcome⟩ := by
    have hsnoc := h.ledger.snoc (.started (core s).ledger hnot hnone hunsettled)
    rw [← hwaiting]
    exact hsnoc
  refine ⟨⟨h.deadline, h.past.trans (List.prefix_append ..), hrun, ?_, h.grace, h.settling, h.once, ?_, ?_,
    fun _ => hunsettled, (fun hc => nomatch hc)⟩, (fun hc => nomatch hc)⟩
  · exact ⟨(fun _ hc => nomatch hc), fun _ => rfl⟩
  · show (s.window.getD []).any isComplete = true ↔ s.settlement = none ∧ Body.running = .ended
    rw [hwindow]
    exact ⟨(fun hc => nomatch hc), (fun hc => nomatch hc.2)⟩
  · exact fun hw => ⟨(h.window hw).1, rfl⟩

theorem read_body (s : DeadlineTask V) (reading : Reading) : (s.read reading).1.body = s.body :=
  congrArg Core.body (core_read s reading)

theorem externalAbort_body (s : DeadlineTask V) (reading : Reading) :
    (s.externalAbort reading).body = s.body := by
  have hread := read_body s reading
  unfold DeadlineTask.externalAbort
  split
  · rename_i t heq
    rw [heq] at hread
    exact (requestCancellation_body ..).trans hread
  · rename_i t now heq
    rw [heq] at hread
    exact (requestCancellation_body ..).trans hread

theorem timerEnds_body (s : DeadlineTask V) (kind : ArmKind) (result : DeadlineTask.ArmResult) :
    (s.timerEnds kind result).body = s.body := by
  cases result with
  | armed => rfl
  | elapsed =>
    cases kind with
    | deadline => exact requestCancellation_body ..
    | grace => exact (finish_cases s).continues.body
  | failed => exact requestCancellation_body ..

theorem Sound.start {s : DeadlineTask V} (h : Sound deadlineMs past [] (core s)) (hbody : s.body = .waiting)
    (aborted : Bool) (reading : Reading) (scheduling : Scheduling) :
    Sound deadlineMs past [] (core (s.start aborted reading scheduling)) := by
  have hbegin : ∀ t : DeadlineTask V, Sound deadlineMs past [] (core t) → t.body = .waiting →
      Sound deadlineMs past [] (core (if t.cancellation.isNone then t.bodyBegins else t)) := by
    intro t ht htbody
    split
    · rename_i hnone
      exact ht.bodyBegins (Option.isNone_iff_eq_none.mp hnone) htbody
    · exact ht
  unfold DeadlineTask.start
  cases aborted with
  | true => exact hbegin _ (h.externalAbort reading) ((externalAbort_body s reading).trans hbody)
  | false =>
    have harm := core_arm { s with listening := true } .deadline s.deadlineMs reading scheduling
    have hplain : core (DeadlineTask.arm { s with listening := true } .deadline s.deadlineMs reading
        scheduling).1 = core s := by
      rw [harm]
      show { core s with graceArmed := (core s).graceArmed || false } = core s
      rw [Bool.or_false]
    rw [← hplain] at h
    generalize DeadlineTask.arm { s with listening := true } .deadline s.deadlineMs reading
      scheduling = armed at hplain h
    obtain ⟨t, result⟩ := armed
    have hgrace : ArmKind.deadline = .grace → t.cancellation.isSome = true ∧ t.settling = false :=
      fun hc => nomatch hc
    have hends := Sound.timerEnds h hgrace result
    have htbody : t.body = .waiting := (congrArg Core.body hplain).trans hbody
    exact hbegin (t.timerEnds .deadline result) hends ((timerEnds_body ..).trans htbody)

theorem Sound.listenersDone {s : DeadlineTask V} (h : Sound deadlineMs past [] (core s))
    {rest : List (Rest V)} (hwindow : s.window = some rest) (reading : Reading)
    (scheduling : Scheduling) :
    Sound deadlineMs past [] (core ({ s with window := none }.runAll reading scheduling rest)) := by
  have htodo : (core s).todo [] = rest := by
    show s.window.getD [] = rest
    rw [hwindow]
    rfl
  have hdone : (core { s with window := none }).todo rest = rest := List.append_nil rest
  have hcancelled : s.cancellation.isSome = true :=
    (h.window (by show s.window.isSome = true; rw [hwindow]; rfl)).1
  have hsettling := h.settling
  have honce := h.once
  have hcompleting := h.completing
  rw [htodo] at hsettling honce hcompleting
  have hsound : Sound deadlineMs past rest (core { s with window := none }) := by
    refine ⟨⟨h.deadline, h.past, h.ledger, h.begun, fun hg => ⟨hcancelled, rfl⟩, ?_, ?_, ?_, (fun hc => nomatch hc),
      h.running, h.waiting⟩, h.early⟩
    · rw [hdone]
      exact hsettling
    · rw [hdone]
      exact honce
    · rw [hdone]
      exact hcompleting
  refine hsound.runAll (fun r _ => ?_) reading scheduling
  cases r with
  | requested => exact ⟨hcancelled, rfl⟩
  | clockFailed => exact .inl hcancelled
  | complete completion now =>
    intro hnone
    have hnone : s.cancellation = none := hnone
    rw [hnone] at hcancelled
    cases hcancelled

/-! ## Runs -/

theorem next_sound {s t : DeadlineTask V} (h : Sound deadlineMs past [] (core s)) {e : Event V}
    (hnext : next s e = some t) : Sound deadlineMs past [] (core t) := by
  cases e with
  | start aborted reading scheduling =>
    simp only [next] at hnext
    split at hnext
    · rename_i hguard
      cases hnext
      exact h.start hguard.1 aborted reading scheduling
    · cases hnext
  | settle completion reading =>
    simp only [next] at hnext
    split at hnext
    · rename_i hguard
      cases hnext
      exact h.settle hguard.1 (Option.isNone_iff_eq_none.mp hguard.2) completion reading
    · cases hnext
  | externalAbort reading =>
    simp only [next] at hnext
    split at hnext
    · cases hnext
      exact h.externalAbort reading
    · cases hnext
  | cancel message reading =>
    simp only [next] at hnext
    split at hnext
    · cases hnext
      exact h.cancel message reading
    · cases hnext
  | remainingMs reading =>
    simp only [next] at hnext
    split at hnext
    · cases hnext
      exact h.remainingMs reading
    · cases hnext
  | acknowledgeCancellation =>
    simp only [next] at hnext
    split at hnext
    · cases hnext
      exact h.acknowledge
    · cases hnext
  | fire k before reading later scheduling => exact h.fire hnext
  | listenersDone reading scheduling =>
    simp only [next] at hnext
    split at hnext
    · cases hnext
    · rename_i rest hwindow
      cases hnext
      exact h.listenersDone hwindow reading scheduling

theorem create_sound (startedAtMs timeoutMs graceMs : ℚ) :
    Sound (startedAtMs + timeoutMs) [] [] (core (create startedAtMs timeoutMs graceMs : DeadlineTask V)) where
  deadline := rfl
  past := List.prefix_rfl
  ledger := .init rfl
  begun := ⟨(fun hc => nomatch hc), fun hc => absurd rfl hc⟩
  grace hc := nomatch hc
  settling := rfl
  once := Nat.zero_le 1
  completing := ⟨(fun hc => nomatch hc), (fun hc => nomatch hc.2)⟩
  window hc := nomatch hc
  running hc := nomatch hc
  waiting _ hc := nomatch hc
  early _ hc := nomatch hc

theorem sound_invariant (startedAtMs timeoutMs graceMs : ℚ) :
    (task V startedAtMs timeoutMs graceMs).Invariant fun s => Sound (startedAtMs + timeoutMs) [] [] (core s) where
  init := by
    rintro s rfl
    exact create_sound startedAtMs timeoutMs graceMs
  step := fun _ _ _ _ h hstep => next_sound h hstep

/-- Nothing that was written is changed. -/
theorem exec_log {startedAtMs timeoutMs graceMs : ℚ} {s t : DeadlineTask V} {events : List (Event V)}
    (h : (task V startedAtMs timeoutMs graceMs).Reachable s)
    (he : (task V startedAtMs timeoutMs graceMs).Exec s events t) : s.log <+: t.log := by
  induction he with
  | nil => exact List.prefix_rfl
  | @snoc t u events e he hstep ih =>
    have ht := (sound_invariant startedAtMs timeoutMs graceMs).reachable (h.exec he)
    have hnow : Sound (startedAtMs + timeoutMs) t.log [] (core t) := ⟨⟨ht.deadline, List.prefix_rfl, ht.ledger, ht.begun, ht.grace,
      ht.settling, ht.once, ht.completing, ht.window, ht.running, ht.waiting⟩, ht.early⟩
    exact ih.trans (next_sound hnow hstep).past

/-! ## The results of a task -/

/-- In every reachable state each result was written once, nothing was cancelled
after a settlement, and the outcome says what was written before it. -/
theorem deadline_task_writes_once {startedAtMs timeoutMs graceMs : ℚ} {s : DeadlineTask V}
    (h : (task V startedAtMs timeoutMs graceMs).Reachable s) :
    (s.log.countP isCancelled ≤ 1 ∧ s.log.countP isSettled ≤ 1 ∧ s.log.countP isResolved ≤ 1) ∧
    ((∀ c, .cancelled c ∈ s.log ↔ s.cancellation = some c) ∧
      (∀ r, .settled r ∈ s.log ↔ s.settlement = some r) ∧
      ∀ o, .resolved o ∈ s.log ↔ s.outcome = some o) ∧
    (∀ pre post c, s.log = pre ++ .cancelled c :: post → ∀ r, .settled r ∉ pre) ∧
    (∀ events t, (task V startedAtMs timeoutMs graceMs).Exec s events t →
      (∀ c, s.cancellation = some c → t.cancellation = some c) ∧
      (∀ r, s.settlement = some r → t.settlement = some r) ∧
      ∀ o, s.outcome = some o → t.outcome = some o) ∧
    ∀ pre post o, s.log = pre ++ .resolved o :: post →
      (o.status = .settled ↔ ∀ c, .cancelled c ∉ pre) ∧
      (o.status = .settled → ∃ r, .settled r ∈ pre ∧ InTime (startedAtMs + timeoutMs) r) ∧
      (o.stopStatus = .unconfirmed ↔ .started ∈ pre ∧ .ended ∉ pre) ∧
      (o.stopStatus = .notStarted ↔ .started ∉ pre) ∧
      (o.stopStatus = .cooperativeStopped → ∃ before between after c r,
        pre = before ++ .acknowledged :: between ++ .settled r :: after ∧
          .cancelled c ∈ before) := by
  have hinv := sound_invariant (V := V) startedAtMs timeoutMs graceMs
  have hrecorded : ∀ t : DeadlineTask V, (task V startedAtMs timeoutMs graceMs).Reachable t →
      Recorded t.log (core t).ledger := fun t ht =>
    (recorded_invariant _).run (hinv.reachable ht).ledger
  have hs := (hinv.reachable h).ledger
  have hcounted := (counted_invariant _).run hs
  have hmem := hrecorded s h
  refine ⟨⟨?_, ?_, ?_⟩, ⟨hmem.cancelled, hmem.settled, hmem.resolved⟩, ?_, ?_, ?_⟩
  · refine hcounted.cancelled.trans_le ?_
    split <;> omega
  · refine hcounted.settled.trans_le ?_
    split <;> omega
  · refine hcounted.resolved.trans_le ?_
    split <;> omega
  · intro pre post c hlog
    have hrun : (ledgerRules V (startedAtMs + timeoutMs)).Run s.log (core s).ledger := hs
    rw [hlog] at hrun
    exact unsettled_before hrun (.inr ⟨c, rfl⟩)
  · intro events t he
    have hlog := exec_log h he
    have ht := hrecorded t (h.exec he)
    exact ⟨fun c hc => (ht.cancelled c).mp (hlog.subset ((hmem.cancelled c).mpr hc)),
      fun r hr => (ht.settled r).mp (hlog.subset ((hmem.settled r).mpr hr)),
      fun o ho => (ht.resolved o).mp (hlog.subset ((hmem.resolved o).mpr ho))⟩
  · intro pre post o hlog
    have hrun : (ledgerRules V (startedAtMs + timeoutMs)).Run s.log (core s).ledger := hs
    rw [hlog] at hrun
    obtain ⟨hstatus, hintime⟩ := status_settled hrun
    obtain ⟨hunconfirmed, hnotStarted⟩ := stop_unconfirmed hrun
    exact ⟨hstatus, hintime, hunconfirmed, hnotStarted, stop_cooperative hrun⟩

/-- A body that is asked to stop, acknowledges it and ends within the grace. -/
def stopsInGrace : List (Event Nat) :=
  [.start false (some 0) .accepted, .remainingMs (some 2), .cancel "stop" (some 3),
    .acknowledgeCancellation, .listenersDone (some 4) .accepted, .settle (.fulfilled 7) (some 6)]

theorem stopsInGrace_writes_once :
    let s := (System.replay next (create 0 10 5) stopsInGrace).get (by decide +kernel)
    s.outcome.map (fun o => (o.status, o.stopStatus)) = some (.cancelled, .cooperativeStopped) ∧
    s.log.countP isCancelled ≤ 1 ∧
    ∀ pre post o, s.log = pre ++ .resolved o :: post → o.stopStatus = .cooperativeStopped →
      ∃ before between after c r,
        pre = before ++ .acknowledged :: between ++ .settled r :: after ∧ .cancelled c ∈ before := by
  intro s
  have h : (task Nat 0 10 5).Reachable s :=
    System.reachable_of_replay (Option.some_get _).symm
  obtain ⟨hcount, -, -, -, houtcome⟩ := deadline_task_writes_once h
  exact ⟨by decide +kernel, hcount.1, fun pre post o hlog => (houtcome pre post o hlog).2.2.2.2⟩

/-- A task whose signal is aborted already never calls its body: the outcome is not
unconfirmed although the body did not settle. -/
theorem aborted_task_not_unconfirmed :
    ¬ ∀ s : DeadlineTask Nat, (task Nat 0 10 5).Reachable s →
      ∀ pre post o, s.log = pre ++ .resolved o :: post →
        (o.stopStatus = .unconfirmed ↔ .ended ∉ pre) := by
  intro hclaim
  have hrun : System.replay next (create 0 10 5 : DeadlineTask Nat) [.start true (some 1) .accepted] =
      some ((create 0 10 5 : DeadlineTask Nat).start true (some 1) .accepted) := rfl
  have hlog : ((create 0 10 5 : DeadlineTask Nat).start true (some 1) .accepted).log =
      [.cancelled ⟨.external, 1, "Execution was cancelled by the external signal."⟩,
        .settled ⟨none, some 1,
          some ⟨.external, 1, "Execution was cancelled by the external signal."⟩⟩] ++
        .resolved ⟨⟨false, some ⟨none, some 1,
          some ⟨.external, 1, "Execution was cancelled by the external signal."⟩⟩,
          some ⟨.external, 1, "Execution was cancelled by the external signal."⟩, false, false⟩,
          .cancelled, .notStarted⟩ :: [] := by decide +kernel
  have hiff := hclaim _ (System.reachable_of_replay hrun) _ _ _ hlog
  exact absurd (hiff.mpr (by decide)) (by decide)

end SurfaceLoom.Test.DeadlineSafety
