import SurfaceLoom.Test.DeadlineSafety

/-! # Where the outcome of a deadline task comes from

The completion an outcome reports is one the body ended with, and an outcome
without a cancellation has one. -/
namespace SurfaceLoom.Test.DeadlineOutcomes
open SurfaceLoom.Test.Deadline SurfaceLoom.Test.DeadlineSafety

variable {V : Type} {P : Completion V → Prop} {s t : DeadlineTask V}

/-- A receipt whose completion, if it has one, is one of these. -/
def Known (P : Completion V → Prop) (r : TaskSettleReceipt V) : Prop :=
  ∀ c, r.completion = some c → P c

/-- The task is over: it was cancelled, or its body ended. -/
def Over (cancellation : Option DeadlineCancellation) (settlement : Option (TaskSettleReceipt V)) :
    Prop :=
  cancellation.isSome ∨ ∃ r, settlement = some r ∧ r.completion.isSome

structure Reports (P : Completion V → Prop) (o : TaskOutcome V) : Prop where
  status : o.status = outcomeStatus o.cancellation
  ended : Over o.cancellation o.settlement
  settlement : ∀ r, o.settlement = some r → Known P r

/-- What the rest of a call needs of the task. -/
def Allows (P : Completion V → Prop) (c : Core V) : Rest V → Prop
  | .requested => c.cancellation.isSome
  | .clockFailed => Over c.cancellation c.settlement
  | .complete completion _ => P completion

structure Kept (P : Completion V → Prop) (c : Core V) : Prop where
  settlement : ∀ r, c.settlement = some r → Known P r
  notStarted : ∀ r, c.settlement = some r → r.completion = none → c.cancellation.isSome
  outcome : ∀ o, c.outcome = some o → Reports P o
  window : ∀ rest, c.window = some rest → ∀ r ∈ rest, Allows P c r
  grace : c.graceArmed = true → c.cancellation.isSome

/-- A cancellation or a settlement says that the task is over. -/
theorem Kept.ended {c : Core V} (h : Kept P c)
    (hsome : c.cancellation.isSome = true ∨ c.settlement.isSome = true) :
    Over c.cancellation c.settlement := by
  rcases hsome with hcancelled | hsettled
  · exact .inl hcancelled
  · obtain ⟨r, hr⟩ := Option.isSome_iff_exists.mp hsettled
    cases hcompletion : r.completion with
    | none => exact .inl (h.notStarted r hr hcompletion)
    | some x => exact .inr ⟨r, hr, by rw [hcompletion]; rfl⟩

/-! ## Finishing -/

theorem finish_outcome (h : s.outcome = none) : ∃ o, s.finish.outcome = some o ∧
    o.cancellation = s.cancellation ∧ o.settlement = s.settlement ∧
      o.status = outcomeStatus s.cancellation := by
  have hd := core_disarmed s
  have hcancellation : s.disarmed.cancellation = s.cancellation := congrArg Core.cancellation hd
  have hsettlement : s.disarmed.settlement = s.settlement := congrArg Core.settlement hd
  refine ⟨DeadlineTask.toOutcome { s.disarmed with listening := false }, ?_, hcancellation,
    hsettlement, ?_⟩
  · unfold DeadlineTask.finish
    rw [if_neg (by simp [h])]
  · show outcomeStatus s.disarmed.cancellation = _
    rw [hcancellation]

theorem Kept.finish (h : Kept P (core s)) (hover : Over s.cancellation s.settlement) :
    Kept P (core s.finish) := by
  have hcore := (finish_cases s).core
  have houtcome : ∀ o, s.finish.outcome = some o → Reports P o := by
    intro o ho
    cases hbefore : s.outcome with
    | some o' =>
      have hsame : s.finish = s := by
        unfold DeadlineTask.finish
        rw [if_pos (by simp [hbefore])]
      rw [hsame] at ho
      exact h.outcome o ho
    | none =>
      obtain ⟨o', ho', hcancellation, hsettlement, hstatus⟩ := finish_outcome hbefore
      cases ho.symm.trans ho'
      refine ⟨by rw [hcancellation, hstatus], by rwa [hcancellation, hsettlement], fun r hr => ?_⟩
      exact h.settlement r (hsettlement.symm.trans hr)
  rw [hcore]
  exact ⟨h.settlement, h.notStarted, houtcome, h.window, h.grace⟩

theorem Kept.armGrace (h : Kept P (core s)) (hcancelled : s.cancellation.isSome = true)
    (targetMs : ℚ) (reading : Reading) (scheduling : Scheduling) :
    Kept P (core (s.arm .grace targetMs reading scheduling).1) := by
  rw [core_arm]
  exact ⟨h.settlement, h.notStarted, h.outcome, h.window, fun _ => hcancelled⟩

theorem Kept.startGrace (h : Kept P (core s)) (hcancelled : s.cancellation.isSome = true)
    (reading : Reading) (scheduling : Scheduling) :
    Kept P (core (s.startGrace reading scheduling)) := by
  unfold DeadlineTask.startGrace
  split
  · exact h
  · split
    · exact h.finish (.inl hcancelled)
    · have harmed := h.armGrace hcancelled (s.last + s.graceMs) reading scheduling
      have hsame : (s.arm .grace (s.last + s.graceMs) reading scheduling).1.cancellation =
          s.cancellation :=
        congrArg Core.cancellation (core_arm s .grace (s.last + s.graceMs) reading scheduling)
      split
      · rename_i u heq
        rw [heq] at harmed
        exact harmed
      · rename_i u heq
        rw [heq] at harmed hsame
        exact harmed.finish (.inl (hsame ▸ hcancelled))
      · rename_i u heq
        rw [heq] at harmed hsame
        exact Kept.finish (s := { u with clockFailure := true }) harmed
          (.inl (hsame ▸ hcancelled))

/-! ## The rest of a call -/

theorem Over.continues (h : Over s.cancellation s.settlement) (hc : Continues s t)
    (hk : Kept P (core t)) : Over t.cancellation t.settlement := by
  rcases h with hcancelled | ⟨r, hr, -⟩
  · exact .inl (hc.cancellation ▸ hcancelled)
  · exact hk.ended (.inr (hc.settlement (by rw [hr]; rfl)))

theorem Allows.continues {r : Rest V} (h : Allows P (core s) r) (hc : Continues s t)
    (hk : Kept P (core t)) : Allows P (core t) r := by
  cases r with
  | requested => exact (congrArg Option.isSome hc.cancellation).trans h
  | clockFailed => exact Over.continues h hc hk
  | complete completion now => exact h

theorem Kept.complete {completion : Completion V} {now : Option ℚ} (h : Kept P (core s))
    (hcompletion : P completion) :
    Kept P (core (DeadlineTask.finish
      { s.settle ⟨some completion, now, s.cancellation⟩ with settling := false })) := by
  refine Kept.finish ⟨fun r hr x hx => ?_, fun r hr hnone => ?_, h.outcome, fun rest hrest r hr => ?_,
    h.grace⟩ (.inr ⟨_, rfl, rfl⟩)
  · cases hr
    cases hx
    exact hcompletion
  · cases hr
    cases hnone
  · have hallows := h.window rest hrest r hr
    cases r with
    | requested => exact hallows
    | clockFailed => exact .inr ⟨_, rfl, rfl⟩
    | complete completion now => exact hallows

theorem Kept.runRest {r : Rest V} (h : Kept P (core s)) (hallows : Allows P (core s) r)
    (reading : Reading) (scheduling : Scheduling) :
    Kept P (core (DeadlineTask.runRest reading scheduling s r)) := by
  cases r with
  | requested => exact h.startGrace hallows reading scheduling
  | clockFailed =>
    show Kept P (core s.finishUnlessSettling)
    unfold DeadlineTask.finishUnlessSettling
    split
    · exact h
    · exact h.finish hallows
  | complete completion now => exact h.complete hallows

theorem Kept.runAll {rest : List (Rest V)} (h : Kept P (core s))
    (hallows : ∀ r ∈ rest, Allows P (core s) r) (reading : Reading) (scheduling : Scheduling) :
    Kept P (core (s.runAll reading scheduling rest)) := by
  induction rest generalizing s with
  | nil => exact h
  | cons r rest ih =>
    have hc := runRest_continues s reading scheduling r
    have hk := h.runRest (hallows r List.mem_cons_self) reading scheduling
    exact ih hk fun r' hr' => (hallows r' (List.mem_cons_of_mem _ hr')).continues hc hk

/-! ## Cancellations -/

theorem Kept.notStartedTask (h : Kept P (core s)) (hcancelled : s.cancellation.isSome = true) :
    Kept P (core s.notStarted) := by
  refine Kept.finish ⟨fun r hr x hx => ?_, fun _ _ _ => hcancelled, h.outcome,
    fun rest hrest r hr => ?_, h.grace⟩ (.inl hcancelled)
  · cases hr
    cases hx
  · have hallows := h.window rest hrest r hr
    cases r with
    | requested => exact hallows
    | clockFailed => exact .inl hcancelled
    | complete completion now => exact hallows

theorem Kept.record (h : Kept P (core s)) (kind : CancellationKind) (message : String) :
    Kept P (core (s.recordCancellation kind message)) := by
  rw [core_recordCancellation]
  refine ⟨h.settlement, fun _ _ _ => rfl, h.outcome, fun rest hrest r hr => ?_, fun _ => rfl⟩
  have hallows := h.window rest hrest r hr
  cases r with
  | requested => exact rfl
  | clockFailed => exact .inl rfl
  | complete completion now => exact hallows

/-- The rest of a call that asks for a cancellation: it may need that there is one. -/
def Waits (P : Completion V → Prop) : Rest V → Prop
  | .requested => False
  | .clockFailed => True
  | .complete completion _ => P completion

theorem Waits.allows {r : Rest V} (h : Waits P r) (hover : Over s.cancellation s.settlement) :
    Allows P (core s) r := by
  cases r with
  | requested => exact h.elim
  | clockFailed => exact hover
  | complete completion now => exact h

theorem Kept.requestCancellation {rest : List (Rest V)} (h : Kept P (core s))
    (hrest : ∀ r ∈ rest, Waits P r) (kind : CancellationKind) (message : String) :
    Kept P (core (s.requestCancellation kind message rest)) := by
  unfold DeadlineTask.requestCancellation
  have hrecorded := h.record kind message
  have hcancelled : (s.recordCancellation kind message).cancellation.isSome = true := by
    rw [show (s.recordCancellation kind message).cancellation = some ⟨kind, s.last, message⟩ from
      congrArg Core.cancellation (core_recordCancellation s kind message)]
    rfl
  split
  · rename_i hsome
    exact h.runAll (fun r hr => (hrest r hr).allows (h.ended hsome)) none .failed
  · split
    · refine ⟨hrecorded.settlement, hrecorded.notStarted, hrecorded.outcome, ?_, hrecorded.grace⟩
      intro rest' hrest' r hr
      cases hrest'
      rcases List.mem_cons.mp hr with rfl | hr
      · exact hcancelled
      · exact (hrest r hr).allows (s := s.recordCancellation kind message) (.inl hcancelled)
    · have hk := hrecorded.notStartedTask hcancelled
      have hc := notStarted_continues (s.recordCancellation kind message)
      exact hk.runAll (fun r hr => (hrest r hr).allows (.inl (hc.cancellation ▸ hcancelled))) none
        .failed

theorem Kept.clockFailed {rest : List (Rest V)} (h : Kept P (core s))
    (hrest : ∀ r ∈ rest, Waits P r) : Kept P (core (s.clockFailed rest)) := by
  refine Kept.requestCancellation (s := { s with clockFailure := true }) h (fun r hr => ?_) _ _
  rcases List.mem_cons.mp hr with rfl | hr
  · trivial
  · exact hrest r hr

theorem waits_nil : ∀ r ∈ ([] : List (Rest V)), Waits P r := fun _ hr => absurd hr List.not_mem_nil

theorem Kept.read (h : Kept P (core s)) (reading : Reading) : Kept P (core (s.read reading).1) := by
  rwa [core_read]

theorem Kept.externalAbort (h : Kept P (core s)) (reading : Reading) :
    Kept P (core (s.externalAbort reading)) := by
  have hread := h.read reading
  unfold DeadlineTask.externalAbort
  split
  · rename_i u heq
    rw [heq] at hread
    exact hread.clockFailed waits_nil
  · rename_i u now heq
    rw [heq] at hread
    exact hread.requestCancellation waits_nil _ _

theorem Kept.cancel (h : Kept P (core s)) (message : String) (reading : Reading) :
    Kept P (core (s.cancel message reading)) := by
  have hread := h.read reading
  unfold DeadlineTask.cancel
  split
  · exact h
  · split
    · rename_i u heq
      rw [heq] at hread
      exact hread.clockFailed waits_nil
    · rename_i u now heq
      rw [heq] at hread
      exact hread.requestCancellation waits_nil _ _

theorem Kept.remainingMs (h : Kept P (core s)) (reading : Reading) :
    Kept P (core (s.remainingMs reading)) := by
  have hread := h.read reading
  unfold DeadlineTask.remainingMs
  split
  · rename_i u heq
    rw [heq] at hread
    exact hread.clockFailed waits_nil
  · rename_i u now heq
    rw [heq] at hread
    split
    · exact hread.requestCancellation waits_nil _ _
    · exact hread

theorem Kept.acknowledge (h : Kept P (core s)) : Kept P (core s.acknowledgeCancellation) := by
  unfold DeadlineTask.acknowledgeCancellation
  split
  · exact h
  · exact ⟨h.settlement, h.notStarted, h.outcome, h.window, h.grace⟩

theorem Kept.settle {completion : Completion V} (h : Kept P (core s)) (hcompletion : P completion)
    (reading : Reading) : Kept P (core (s.bodyEnds.complete completion reading)) := by
  have hended : Kept P (core { s.bodyEnds with settling := true }) :=
    ⟨h.settlement, h.notStarted, h.outcome, h.window, h.grace⟩
  have hread := hended.read reading
  have hwaits (now : Option ℚ) : ∀ r ∈ [Rest.complete completion now], Waits P r := by
    intro r hr
    rw [List.mem_singleton.mp hr]
    exact hcompletion
  unfold DeadlineTask.complete
  split
  · exact ⟨h.settlement, h.notStarted, h.outcome, h.window, h.grace⟩
  · split
    · rename_i u heq
      rw [heq] at hread
      exact hread.clockFailed (hwaits none)
    · rename_i u now heq
      rw [heq] at hread
      split
      · exact hread.requestCancellation (hwaits (some now)) _ _
      · refine hread.runAll (fun r hr => ?_) none .failed
        rw [List.mem_singleton.mp hr]
        exact hcompletion

/-! ## Timers -/

theorem Kept.timerEnds (h : Kept P (core s)) {kind : ArmKind}
    (hgrace : kind = .grace → s.cancellation.isSome = true) (result : DeadlineTask.ArmResult) :
    Kept P (core (s.timerEnds kind result)) := by
  cases result with
  | armed => exact h
  | elapsed =>
    cases kind with
    | deadline => exact h.requestCancellation waits_nil _ _
    | grace => exact h.finish (.inl (hgrace rfl))
  | failed => exact h.clockFailed waits_nil

theorem Kept.armed (h : Kept P (core s)) {k : Nat} {a : Arm} (ha : s.arms[k]? = some a)
    (hkind : a.kind = .grace) : s.cancellation.isSome = true := by
  refine h.grace (List.any_eq_true.mpr ⟨a, List.mem_of_getElem? ha, ?_⟩)
  rw [hkind]
  rfl

theorem Kept.timer (h : Kept P (core s)) {k : Nat} {a : Arm} (ha : s.arms[k]? = some a)
    (ht : core t = core s) (result : DeadlineTask.ArmResult) :
    Kept P (core (t.timerEnds a.kind result)) := by
  have hcancellation : t.cancellation = s.cancellation := congrArg Core.cancellation ht
  have hkept : Kept P (core t) := by rwa [ht]
  refine hkept.timerEnds (fun hkind => ?_) result
  rw [hcancellation]
  exact h.armed ha hkind

theorem Kept.fire (h : Kept P (core s)) {k : Nat} {before : ℚ} {reading later : Reading}
    {scheduling : Scheduling} (hfire : s.fire k before reading later scheduling = some t) :
    Kept P (core t) := by
  unfold DeadlineTask.fire at hfire
  split at hfire
  · cases hfire
  · rename_i a ha
    split at hfire
    · cases hfire
    · split at hfire
      · cases hfire
        exact h
      · have hread := core_read s reading
        split at hfire
        · rename_i u heq
          rw [heq] at hread
          cases hfire
          exact h.timer ha ((core_stopArm u k).trans hread) .failed
        · rename_i u now heq
          rw [heq] at hread
          split at hfire
          · cases hfire
            exact h.timer ha ((core_stopArm u k).trans hread) .elapsed
          · split at hfire
            · cases hfire
              exact h.timer ha ((core_stopArm { u with broken := true } k).trans hread) .failed
            · have hschedule := core_schedule u k a.targetMs later scheduling
              split at hfire
              rename_i v result hv
              rw [hv] at hschedule
              cases hfire
              exact h.timer ha (hschedule.trans hread) result

theorem Kept.bodyBegins (h : Kept P (core s)) : Kept P (core s.bodyBegins) :=
  ⟨h.settlement, h.notStarted, h.outcome, h.window, h.grace⟩

theorem Kept.start (h : Kept P (core s)) (aborted : Bool) (reading : Reading)
    (scheduling : Scheduling) : Kept P (core (s.start aborted reading scheduling)) := by
  have harmed : Kept P (core (DeadlineTask.arm { s with listening := true } .deadline s.deadlineMs
      reading scheduling).1) := by
    rw [core_arm]
    refine ⟨h.settlement, h.notStarted, h.outcome, h.window, fun hgrace => h.grace ?_⟩
    have hsame : ((core s).graceArmed || decide (ArmKind.deadline = .grace)) = true := hgrace
    simpa using hsame
  unfold DeadlineTask.start
  dsimp only
  split
  · split
    · exact (h.externalAbort reading).bodyBegins
    · exact h.externalAbort reading
  · have hends := fun result => harmed.timerEnds (fun hkind : ArmKind.deadline = .grace =>
      (nomatch hkind)) result
    split
    · exact (hends _).bodyBegins
    · exact hends _

theorem Kept.listenersDone (h : Kept P (core s)) {rest : List (Rest V)}
    (hwindow : s.window = some rest) (reading : Reading) (scheduling : Scheduling) :
    Kept P (core (({ s with window := none } : DeadlineTask V).runAll reading scheduling rest)) := by
  have hkept : Kept P (core { s with window := none }) :=
    ⟨h.settlement, h.notStarted, h.outcome, fun _ hnone => (nomatch hnone), h.grace⟩
  refine hkept.runAll (fun r hr => ?_) reading scheduling
  have hallows := h.window rest hwindow r hr
  cases r with
  | requested => exact hallows
  | clockFailed => exact hallows
  | complete completion now => exact hallows

theorem create_kept (startedAtMs timeoutMs graceMs : ℚ) :
    Kept P (core (create startedAtMs timeoutMs graceMs : DeadlineTask V)) where
  settlement _ hr := nomatch hr
  notStarted _ hr := nomatch hr
  outcome _ ho := nomatch ho
  window _ hw := nomatch hw
  grace hg := nomatch hg

/-- A step keeps what is known of the completions, if the body ends with a known one. -/
theorem Kept.next (h : Kept P (core s)) {e : Event V}
    (hsettle : ∀ completion reading, e = .settle completion reading → P completion)
    (hnext : Deadline.next s e = some t) : Kept P (core t) := by
  cases e with
  | start aborted reading scheduling =>
    simp only [Deadline.next] at hnext
    split at hnext
    · cases hnext
      exact h.start aborted reading scheduling
    · cases hnext
  | settle completion reading =>
    simp only [Deadline.next] at hnext
    split at hnext
    · cases hnext
      exact h.settle (hsettle completion reading rfl) reading
    · cases hnext
  | externalAbort reading =>
    simp only [Deadline.next] at hnext
    split at hnext
    · cases hnext
      exact h.externalAbort reading
    · cases hnext
  | cancel message reading =>
    simp only [Deadline.next] at hnext
    split at hnext
    · cases hnext
      exact h.cancel message reading
    · cases hnext
  | remainingMs reading =>
    simp only [Deadline.next] at hnext
    split at hnext
    · cases hnext
      exact h.remainingMs reading
    · cases hnext
  | acknowledgeCancellation =>
    simp only [Deadline.next] at hnext
    split at hnext
    · cases hnext
      exact h.acknowledge
    · cases hnext
  | fire k before reading later scheduling => exact h.fire hnext
  | listenersDone reading scheduling =>
    simp only [Deadline.next] at hnext
    split at hnext
    · cases hnext
    · rename_i rest hwindow
      cases hnext
      exact h.listenersDone hwindow reading scheduling

end SurfaceLoom.Test.DeadlineOutcomes
