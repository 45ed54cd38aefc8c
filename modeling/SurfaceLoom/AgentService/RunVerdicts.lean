import SurfaceLoom.AgentService.RunStoreInvariants

/-! # Which operation writes which verdict

Only `finish` can make a run completed, and then with the status and outcome of
the result it was given; every other operation leaves the outcome of a live run
or makes the run interrupted without one. -/
namespace SurfaceLoom.Service.RunVerdicts
open SurfaceLoom.Lib SurfaceLoom.Service.SafeData SurfaceLoom.Service.Validation
open SurfaceLoom.Service.StoredRun SurfaceLoom.Service.RunStore
open SurfaceLoom.Service.RunStoreInvariants

/-- The verdict of a finished run is the one of its result. -/
structure Finishes (result : JsValue) (r : StoredRunRecord) : Prop where
  status : ∃ fields, properties (some result) = .ok fields ∧
    get? fields "executionStatus" = some (.string r.status.name) ∧
    get? fields "outcome" = some (outcomeValue r.outcome)

/-- What a call does to the verdict of one run. -/
inductive Rules (call : Call) (r r' : StoredRunRecord) : Prop
  | live : r.status.terminal = false → r'.status.terminal = false → r'.outcome = r.outcome →
      Rules call r r'
  | interrupted : r'.status = .interrupted → r'.outcome = none → Rules call r r'
  | finished (result : JsValue) (release : Option JsValue) :
      call = .finish r.runId.1 result release → Finishes result r' → Rules call r r'

/-- Where a record after a call comes from. -/
inductive Origin (m : Memory) (call : Call) (runId : String) (r' : StoredRunRecord) : Prop
  | same : m.byRun.get? runId = some r' → Origin m call runId r'
  | created : r'.status = .queued → r'.outcome = none → Origin m call runId r'
  | ruled (r : StoredRunRecord) : m.byRun.get? runId = some r → Rules call r r' →
      Origin m call runId r'

/-- What the change function of an `#update` does to the verdict. -/
def ChangeRules (call : Call) (change : StoredRunRecord → Except Failure RawRun) : Prop :=
  ∀ current raw next, current.status ≠ .preparing → change current = .ok raw → ReadsAs raw next →
    raw = current.toRaw ∨ Rules call current next

theorem runningChange_rules {call : Call} {startedAt : String} :
    ChangeRules call (runningChange startedAt) := by
  intro current raw next _ h hread
  unfold runningChange at h
  split at h
  · cases h
  · rename_i hqueued
    rw [not_ne_iff] at hqueued
    cases h
    refine .inr (.live (by rw [hqueued]; rfl) ?_ (outcome_of_reads _ hread rfl))
    rw [status_of_reads .running hread rfl]
    rfl

theorem cancellingChange_rules {call : Call} {updatedAt : String} :
    ChangeRules call (cancellingChange updatedAt) := by
  intro current raw next _ h hread
  unfold cancellingChange at h
  split at h
  · cases h
    exact .inl rfl
  · rename_i hlive
    split at h
    · cases h
      exact .inl rfl
    · split at h
      · cases h
      · cases h
        refine .inr (.live (Bool.eq_false_iff.mpr hlive) ?_ (outcome_of_reads _ hread rfl))
        rw [status_of_reads .cancelling hread rfl]
        rfl

theorem attachChange_rules {call : Call} {artifact : JsValue} {updatedAt : String} :
    ChangeRules call (attachChange artifact updatedAt) := by
  intro current raw next _ h hread
  unfold attachChange at h
  split at h
  · cases h
  · rename_i hlive
    simp only [bind_eq_ok] at h
    obtain ⟨safe, -, h⟩ := h
    split at h
    · cases h
    · simp only [bind_eq_ok, pure_eq_ok] at h
      obtain ⟨artifacts, -, rfl⟩ := h
      have hlive := Bool.eq_false_iff.mpr hlive
      refine .inr (.live hlive ?_ (outcome_of_reads _ hread rfl))
      rw [status_of_reads current.status hread rfl]
      exact hlive

theorem interruptChange_rules {call : Call} {error cleanup : JsValue} {finishedAt : String} :
    ChangeRules call (interruptChange error cleanup finishedAt) := by
  intro current raw next _ h hread
  unfold interruptChange at h
  split at h
  · cases h
    exact .inl rfl
  · simp only [bind_eq_ok, pure_eq_ok] at h
    obtain ⟨_, -, _, -, rfl⟩ := h
    exact .inr (.interrupted (status_of_reads .interrupted hread rfl)
      (outcome_of_reads none hread rfl))

theorem finishChange_rules {runId : String} {result : JsValue} {release : Option JsValue}
    {current : StoredRunRecord} {raw : RawRun} {next : StoredRunRecord}
    (hid : current.runId.1 = runId) (h : finishChange result release current = .ok raw)
    (hread : ReadsAs raw next) : Rules (.finish runId result release) current next := by
  obtain ⟨-, safe, cleanup, receipt, artifacts, ⟨hprops, -⟩, -, -, -, -, rfl⟩ := finishChange_ok h
  refine .finished result release (by rw [hid]) ⟨safe, hprops, ?_, ?_⟩
  · exact hread.status
  · exact hread.outcome

/-- What a call makes of a stored record keeps to the rules. -/
theorem Builds.rules {current : StoredRunRecord} {call : Call} {raw : RawRun}
    {next : StoredRunRecord} (hprepared : current.status ≠ .preparing)
    (h : Builds current call raw) (hread : ReadsAs raw next) :
    raw = current.toRaw ∨ Rules call current next := by
  cases h with
  | running h => exact runningChange_rules current raw next hprepared h hread
  | cancelling h => exact cancellingChange_rules current raw next hprepared h hread
  | finish h => exact .inr (finishChange_rules rfl h hread)
  | interrupt h => exact interruptChange_rules current raw next hprepared h hread
  | attach h => exact attachChange_rules current raw next hprepared h hread
  | recover _ =>
    exact .inr (.interrupted (status_of_reads .interrupted hread rfl)
      (outcome_of_reads none hread rfl))

theorem operation_origin {m m' : Memory} (h : WellFormed m) {call : Call} {reply : Reply}
    (hok : operation m call = (m', .ok reply)) {id : String} {r' : StoredRunRecord}
    (hr' : m'.byRun.get? id = some r') : Origin m call id r' := by
  cases operation_traced h hok hr' with
  | same hold => exact .same hold
  | reserved input _ hparsed =>
    exact .created (newRun_reads hparsed).2.1 (outcome_of_reads none (readsAs_of_parse hparsed) rfl)
  | built r raw hr hbuilds hread =>
    obtain ⟨-, hstorable, hprepared⟩ := h.fits _ _ hr
    rcases Builds.rules hprepared hbuilds hread with rfl | hrules
    · rw [readsAs_unique hread (readsAs_of_storable hstorable)]
      exact .same hr
    · exact .ruled r hr hrules

end SurfaceLoom.Service.RunVerdicts
