import SurfaceLoom.AgentService.RunStore

/-! # What store operations keep

The maps stay aligned, every record can be read back, and an operation changes
each record at most by one step of its life. -/
namespace SurfaceLoom.Service.RunStoreInvariants
open SurfaceLoom.Lib SurfaceLoom.Service.SafeData SurfaceLoom.Service.Validation
open SurfaceLoom.Service.StoredRun SurfaceLoom.Service.RunStore

/-- The order in which statuses may follow each other. -/
def rank : RunStatus → Nat
  | .queued => 0
  | .preparing => 1
  | .running => 2
  | .cancelling => 3
  | .completed | .failed | .cancelled | .interrupted => 4

theorem rank_le_of_terminal {s t : RunStatus} (h : t.terminal = true) : rank s ≤ rank t := by
  cases s <;> cases t <;> first | decide | cases h

structure RecordFits (runId : String) (r : StoredRunRecord) : Prop where
  keyed : r.runId.1 = runId
  storable : Storable r
  prepared : r.status ≠ .preparing

structure WellFormed (m : Memory) : Prop where
  aligned : m.byRequest.entries = m.byRun.entries.map fun e => (e.2.requestId.1, e.1)
  fits : ∀ runId r, m.byRun.get? runId = some r → RecordFits runId r

/-- What a record keeps for life. -/
structure SameRun (r r' : StoredRunRecord) : Prop where
  requestId : r'.requestId = r.requestId
  fingerprint : r'.fingerprint = r.fingerprint
  runId : r'.runId = r.runId
  snapshot : r'.snapshot = r.snapshot
  testId : r'.testId = r.testId
  parameters : r'.parameters = r.parameters
  taskId : r'.taskId = r.taskId
  executionLinks : r'.executionLinks = r.executionLinks
  createdAt : r'.createdAt = r.createdAt

/-- One change of a record that is not terminal. -/
structure Advances (r r' : StoredRunRecord) : Prop where
  same : SameRun r r'
  live : r.status.terminal = false
  revision : r'.revision.1 = r.revision.1 + 1
  forward : rank r.status ≤ rank r'.status
  prepared : r'.status ≠ .preparing

/-- What an operation may do to the record of one run id. -/
inductive Change : Option StoredRunRecord → Option StoredRunRecord → Prop
  | same (o : Option StoredRunRecord) : Change o o
  | created {r : StoredRunRecord} : r.revision.1 = 0 → r.status = .queued → Change none (some r)
  | advanced {r r' : StoredRunRecord} : Advances r r' → Change (some r) (some r')

structure Evolves (m m' : Memory) : Prop where
  change : ∀ runId, Change (m.byRun.get? runId) (m'.byRun.get? runId)
  order : m.byRun.keys <+: m'.byRun.keys

theorem Evolves.refl (m : Memory) : Evolves m m := ⟨fun _ => .same _, List.prefix_refl _⟩

theorem SameRun.refl (r : StoredRunRecord) : SameRun r r :=
  ⟨rfl, rfl, rfl, rfl, rfl, rfl, rfl, rfl, rfl⟩

theorem SameRun.trans {r r' r'' : StoredRunRecord} (h : SameRun r r') (h' : SameRun r' r'') :
    SameRun r r'' :=
  ⟨h'.requestId.trans h.requestId, h'.fingerprint.trans h.fingerprint, h'.runId.trans h.runId,
    h'.snapshot.trans h.snapshot, h'.testId.trans h.testId, h'.parameters.trans h.parameters,
    h'.taskId.trans h.taskId, h'.executionLinks.trans h.executionLinks,
    h'.createdAt.trans h.createdAt⟩

theorem Evolves.keeps {m m' : Memory} (h : Evolves m m') {runId : String} {r : StoredRunRecord}
    (hr : m.byRun.get? runId = some r) : ∃ r', m'.byRun.get? runId = some r' ∧ SameRun r r' := by
  have hchange := h.change runId
  rw [hr] at hchange
  generalize m'.byRun.get? runId = o at hchange
  cases hchange with
  | same => exact ⟨r, rfl, .refl r⟩
  | advanced hadvances => exact ⟨_, rfl, hadvances.same⟩

/-! ## One record -/

theorem readsAs_unique {raw : RawRun} {r r' : StoredRunRecord} (h : ReadsAs raw r)
    (h' : ReadsAs raw r') : r = r' := by
  have := (parseRaw_ok.mpr h).symm.trans (parseRaw_ok.mpr h')
  exact Except.ok.inj this

theorem readsAs_of_storable {r : StoredRunRecord} (h : Storable r) : ReadsAs r.toRaw r := by
  obtain ⟨-, fields, heq, -, hread⟩ := parseStoredRun_ok.mp h
  cases heq
  rwa [ofFields_toRaw] at hread

theorem readsAs_of_parse {raw : RawRun} {r : StoredRunRecord}
    (h : parseStoredRun raw.toValue = .ok r) : ReadsAs raw r := by
  obtain ⟨-, fields, heq, -, hread⟩ := parseStoredRun_ok.mp h
  cases heq
  rwa [ofFields_toRaw] at hread

/-- The properties no change touches. -/
structure KeepsRun (current : StoredRunRecord) (raw : RawRun) : Prop where
  requestId : raw.requestId = current.toRaw.requestId
  fingerprint : raw.fingerprint = current.toRaw.fingerprint
  runId : raw.runId = current.toRaw.runId
  snapshot : raw.snapshot = current.toRaw.snapshot
  testId : raw.testId = current.toRaw.testId
  parameters : raw.parameters = current.toRaw.parameters
  taskId : raw.taskId = current.toRaw.taskId
  executionLinks : raw.executionLinks = current.toRaw.executionLinks
  createdAt : raw.createdAt = current.toRaw.createdAt

theorem string_inj {s t : String} (h : some (JsValue.string s) = some (.string t)) : s = t := by
  cases h
  rfl

theorem KeepsRun.sameRun {current next : StoredRunRecord} {raw : RawRun} (h : KeepsRun current raw)
    (hs : Storable current) (hread : ReadsAs raw next) : SameRun current next := by
  have hcur := readsAs_of_storable hs
  have hopt : ∀ {p : String → Prop} {o o' : Option { s : String // p s }},
      (o.map fun t => JsValue.string t.1) = (o'.map fun t => .string t.1) → o = o' := by
    intro p o o' heq
    cases o <;> cases o' <;> simp_all [Subtype.ext_iff]
  refine ⟨?_, ?_, ?_, ?_, ?_, ?_, ?_, ?_, ?_⟩
  · exact Subtype.ext (string_inj (hread.requestId.symm.trans h.requestId))
  · exact Subtype.ext (string_inj (hread.fingerprint.symm.trans h.fingerprint))
  · exact Subtype.ext (string_inj (hread.runId.symm.trans h.runId))
  · have hnew := hread.snapshot
    rw [h.snapshot, hcur.snapshot] at hnew
    exact (Except.ok.inj hnew).symm
  · exact Subtype.ext (string_inj (hread.testId.symm.trans h.testId))
  · have hnew := hread.parameters.symm.trans h.parameters
    exact Subtype.ext (by simpa [StoredRunRecord.toRaw, Record.toValue] using hnew)
  · exact hopt (hread.taskId.symm.trans h.taskId)
  · have hnew : next.executionLinks.map Record.toValue = current.executionLinks.map Record.toValue :=
      hread.executionLinks.symm.trans h.executionLinks
    refine Option.map_injective (fun a b hab => ?_) hnew
    exact Subtype.ext (by simpa [Record.toValue] using hab)
  · exact Subtype.ext (string_inj (hread.createdAt.symm.trans h.createdAt))

/-- What a change function answers: the record as it is, or its next step. -/
def StepsTo (current : StoredRunRecord) (raw : RawRun) : Prop :=
  raw = current.toRaw ∨ current.status.terminal = false ∧ KeepsRun current raw ∧
    raw.revision = nextRevision current ∧
    ∀ next, ReadsAs raw next → rank current.status ≤ rank next.status ∧ next.status ≠ .preparing

theorem revision_of_reads {raw : RawRun} {r next : StoredRunRecord} (hread : ReadsAs raw next)
    (h : raw.revision = nextRevision r) : next.revision.1 = r.revision.1 + 1 := by
  have hnext := hread.revision.symm.trans h
  simp only [nextRevision, Option.some.injEq, JsValue.number.injEq] at hnext
  have hnum := congrArg (fun q : ℚ => q.num.toNat) hnext
  simpa only [Rat.num_natCast, Int.toNat_natCast] using hnum

theorem StepsTo.change {current next : StoredRunRecord} {raw : RawRun} (h : StepsTo current raw)
    (hs : Storable current) (hread : ReadsAs raw next) : next = current ∨ Advances current next := by
  rcases h with rfl | ⟨hlive, hkeeps, hrev, hstatus⟩
  · exact .inl (readsAs_unique hread (readsAs_of_storable hs))
  · obtain ⟨hforward, hprepared⟩ := hstatus next hread
    exact .inr ⟨hkeeps.sameRun hs hread, hlive, revision_of_reads hread hrev, hforward, hprepared⟩

theorem status_of_reads {raw : RawRun} {next : StoredRunRecord} (status : RunStatus)
    (hread : ReadsAs raw next) (h : raw.status = some (.string status.name)) :
    next.status = status := by
  have hname := string_inj (hread.status.symm.trans h)
  cases hn : next.status <;> cases hs : status <;> rw [hn, hs] at hname <;>
    first | rfl | (revert hname; decide)

theorem outcomeValue_injective {o o' : Option BusinessOutcome}
    (h : outcomeValue o = outcomeValue o') : o = o' := by
  have hread : outcome (some (outcomeValue o)) = .ok o' := outcome_ok.mpr (congrArg some h)
  exact Except.ok.inj ((outcome_ok.mpr rfl).symm.trans hread)

theorem outcome_of_reads {raw : RawRun} {next : StoredRunRecord} (outcome : Option BusinessOutcome)
    (hread : ReadsAs raw next) (h : raw.outcome = some (outcomeValue outcome)) :
    next.outcome = outcome :=
  outcomeValue_injective (Option.some.inj (hread.outcome.symm.trans h))

/-- A stored result fits a terminal status only. -/
theorem terminal_of_result {raw : RawRun} {next : StoredRunRecord} {value : JsValue}
    (hread : ReadsAs raw next) (h : raw.result = some value) : next.status.terminal = true := by
  have hresult := hread.result
  rw [h] at hresult
  unfold optionalField at hresult
  simp only at hresult
  cases hp : parseResult next.runId next.status (some value) with
  | error e =>
    rw [hp] at hresult
    cases hresult
  | ok record =>
    unfold parseResult at hp
    simp only [bind_eq_ok] at hp
    obtain ⟨r, -, id, -, hp⟩ := hp
    split at hp
    · cases hp
    · split at hp
      · cases hp
      · rename_i execution hex
        split at hp
        · cases hp
        · rename_i heq
          rw [← not_ne_iff.mp heq]
          unfold named at hex
          split at hex
          · split at hex
            · rename_i s a hfind
              cases hex
              have hmem := List.mem_of_find?_eq_some hfind
              simp only [List.mem_cons, List.not_mem_nil, or_false] at hmem
              rcases hmem with rfl | rfl | rfl | rfl <;> rfl
            · cases hex
          · cases hex

/-! ## The change functions -/

theorem runningChange_steps {startedAt : String} {current : StoredRunRecord} {raw : RawRun}
    (h : runningChange startedAt current = .ok raw) : StepsTo current raw := by
  unfold runningChange at h
  split at h
  · cases h
  · rename_i hqueued
    rw [not_ne_iff] at hqueued
    cases h
    refine .inr ⟨by rw [hqueued]; rfl, ⟨rfl, rfl, rfl, rfl, rfl, rfl, rfl, rfl, rfl⟩, rfl, ?_⟩
    intro next hread
    rw [status_of_reads .running hread rfl, hqueued]
    exact ⟨by decide, by decide⟩

theorem cancellingChange_steps {updatedAt : String} {current : StoredRunRecord} {raw : RawRun}
    (h : cancellingChange updatedAt current = .ok raw) : StepsTo current raw := by
  unfold cancellingChange at h
  split at h
  · cases h
    exact .inl rfl
  · rename_i hlive
    split at h
    · cases h
      exact .inl rfl
    · split at h
      · cases h
      · rename_i hcancelling hstatus
        cases h
        refine .inr ⟨Bool.eq_false_iff.mpr hlive, ⟨rfl, rfl, rfl, rfl, rfl, rfl, rfl, rfl, rfl⟩,
          rfl, ?_⟩
        intro next hread
        rw [status_of_reads .cancelling hread rfl]
        refine ⟨?_, by decide⟩
        have hst : current.status = .running ∨ current.status = .queued := by
          by_contra hnot
          exact hstatus (not_or.mp hnot)
        rcases hst with hst | hst <;> rw [hst] <;> decide

theorem finishChange_ok {result : JsValue} {release : Option JsValue} {current : StoredRunRecord}
    {raw : RawRun} (h : finishChange result release current = .ok raw) :
    current.status.terminal = false ∧ ∃ safe cleanup receipt artifacts,
      (properties (some result) = .ok safe ∧ Safe result) ∧
      asString (get? safe "runId") = some current.runId.1 ∧
      properties (get? safe "cleanup") = .ok cleanup ∧
      optionalField release (parseCleanup current.runId) = .ok receipt ∧
      (∃ items, iterate (get? safe "artifacts") = .ok items ∧
        mergeArtifacts current.artifacts items = .ok artifacts) ∧
      raw = finishedRun current safe cleanup receipt artifacts := by
  unfold finishChange at h
  split at h
  · simp only [bind_eq_ok] at h
    obtain ⟨_, -, h⟩ := h
    cases h
  · rename_i hlive
    simp only [bind_eq_ok, liftSafe_ok, cloneSafeData_ok] at h
    obtain ⟨_, ⟨rfl, hsafe⟩, safe, hprops, h⟩ := h
    split at h
    · cases h
    · rename_i hrun
      simp only [bind_eq_ok] at h
      obtain ⟨snapshot, -, h⟩ := h
      split at h
      · cases h
      · simp only [bind_eq_ok, pure_eq_ok] at h
        obtain ⟨receipt, hreceipt, items, hitems, artifacts, hmerge, cleanup, hcleanup, rfl⟩ := h
        exact ⟨Bool.eq_false_iff.mpr hlive, safe, cleanup, receipt, artifacts, ⟨hprops, hsafe⟩,
          not_ne_iff.mp hrun, hcleanup, hreceipt, ⟨items, hitems, hmerge⟩, rfl⟩

theorem finishChange_steps {result : JsValue} {release : Option JsValue}
    {current : StoredRunRecord} {raw : RawRun}
    (h : finishChange result release current = .ok raw) : StepsTo current raw := by
  obtain ⟨hlive, safe, cleanup, receipt, artifacts, -, -, -, -, -, rfl⟩ := finishChange_ok h
  refine .inr ⟨hlive, ⟨rfl, rfl, rfl, rfl, rfl, rfl, rfl, rfl, rfl⟩, rfl, ?_⟩
  intro next hread
  have hterminal := terminal_of_result hread rfl
  refine ⟨rank_le_of_terminal hterminal, ?_⟩
  intro hp
  rw [hp] at hterminal
  cases hterminal

theorem interruptedRun_steps {current : StoredRunRecord} {error cleanup : JsValue}
    {finishedAt : String} (hlive : current.status.terminal = false) :
    StepsTo current (interruptedRun current error cleanup finishedAt) := by
  refine .inr ⟨hlive, ⟨rfl, rfl, rfl, rfl, rfl, rfl, rfl, rfl, rfl⟩, rfl, ?_⟩
  intro next hread
  rw [status_of_reads .interrupted hread rfl]
  exact ⟨rank_le_of_terminal rfl, by decide⟩

theorem interruptChange_steps {error cleanup : JsValue} {finishedAt : String}
    {current : StoredRunRecord} {raw : RawRun}
    (h : interruptChange error cleanup finishedAt current = .ok raw) : StepsTo current raw := by
  unfold interruptChange at h
  split at h
  · cases h
    exact .inl rfl
  · rename_i hlive
    simp only [bind_eq_ok, pure_eq_ok] at h
    obtain ⟨_, -, _, -, rfl⟩ := h
    exact interruptedRun_steps (Bool.eq_false_iff.mpr hlive)

theorem attachChange_steps {artifact : JsValue} {updatedAt : String} {current : StoredRunRecord}
    {raw : RawRun} (hprepared : current.status ≠ .preparing)
    (h : attachChange artifact updatedAt current = .ok raw) : StepsTo current raw := by
  unfold attachChange at h
  split at h
  · cases h
  · rename_i hlive
    simp only [bind_eq_ok] at h
    obtain ⟨safe, -, h⟩ := h
    split at h
    · cases h
    · simp only [bind_eq_ok, pure_eq_ok] at h
      obtain ⟨artifacts, -, rfl⟩ := h
      refine .inr ⟨Bool.eq_false_iff.mpr hlive, ⟨rfl, rfl, rfl, rfl, rfl, rfl, rfl, rfl, rfl⟩, rfl,
        ?_⟩
      intro next hread
      rw [status_of_reads current.status hread rfl]
      exact ⟨le_refl _, hprepared⟩

/-! ## The maps -/

theorem Memory.require_ok {m : Memory} {runId : String} {r : StoredRunRecord}
    (h : m.require runId = .ok r) : m.byRun.get? runId = some r := by
  unfold Memory.require at h
  split at h
  · rename_i record hr
    cases h
    exact hr
  · cases h

namespace WellFormed

variable {m : Memory}

/-- The index names exactly the runs, each by its request. -/
theorem byRequest_iff (h : WellFormed m) {requestId runId : String} :
    m.byRequest.get? requestId = some runId ↔
      ∃ r, m.byRun.get? runId = some r ∧ r.requestId.1 = requestId := by
  rw [OrderedMap.get?_eq_some_iff, h.aligned, List.mem_map]
  constructor
  · intro hmem
    obtain ⟨e, he, heq⟩ := hmem
    cases heq
    exact ⟨e.2, OrderedMap.get?_eq_some_iff.mpr he, rfl⟩
  · intro hr
    obtain ⟨r, hr, rfl⟩ := hr
    exact ⟨(runId, r), OrderedMap.get?_eq_some_iff.mp hr, rfl⟩

theorem empty : WellFormed Memory.empty := ⟨rfl, fun _ _ h => nomatch h⟩

theorem fits_set (h : WellFormed m) {runId : String} {r : StoredRunRecord}
    (hr : RecordFits runId r) (runId' : String) (r' : StoredRunRecord)
    (hr' : (m.byRun.set runId r).get? runId' = some r') : RecordFits runId' r' := by
  rw [OrderedMap.get?_set] at hr'
  split at hr'
  · rename_i heq
    cases hr'
    exact heq ▸ hr
  · exact h.fits runId' r' hr'

/-- The record of a run is replaced by one of the same run. -/
theorem replace (h : WellFormed m) {r next : StoredRunRecord}
    (hr : m.byRun.get? r.runId.1 = some r) (hsame : SameRun r next) (hs : Storable next)
    (hp : next.status ≠ .preparing) :
    ∃ m', m.set next = .ok m' ∧ WellFormed m' ∧ m'.byRun = m.byRun.set r.runId.1 next := by
  have howner : m.byRequest.get? r.requestId.1 = some r.runId.1 :=
    h.byRequest_iff.mpr ⟨r, hr, rfl⟩
  refine ⟨⟨m.byRun.set r.runId.1 next, m.byRequest⟩, ?_,
    ⟨?_, h.fits_set ⟨by rw [hsame.runId], hs, hp⟩⟩, rfl⟩
  · unfold Memory.set
    rw [hsame.requestId, hsame.runId, howner, OrderedMap.set_of_get? howner]
    simp
  · rw [OrderedMap.map_entries_set _ hr (by simp [hsame.requestId])]
    exact h.aligned

/-- A record of a new run under a new request goes to the end. -/
theorem append (h : WellFormed m) {r : StoredRunRecord} (hrun : m.byRun.get? r.runId.1 = none)
    (hrequest : m.byRequest.get? r.requestId.1 = none) (hs : Storable r)
    (hp : r.status ≠ .preparing) :
    ∃ m', m.set r = .ok m' ∧ WellFormed m' ∧ m'.byRun = m.byRun.set r.runId.1 r := by
  refine ⟨⟨m.byRun.set r.runId.1 r, m.byRequest.set r.requestId.1 r.runId.1⟩, ?_,
    ⟨?_, h.fits_set ⟨rfl, hs, hp⟩⟩, rfl⟩
  · unfold Memory.set
    rw [hrequest]
    simp
  · rw [OrderedMap.entries_set_of_get?_none hrun, OrderedMap.entries_set_of_get?_none hrequest,
      List.map_append, h.aligned]
    rfl

end WellFormed

theorem Evolves.set_existing {m m' : Memory} {r next : StoredRunRecord} {runId : String}
    (hr : m.byRun.get? runId = some r) (hbyRun : m'.byRun = m.byRun.set runId next)
    (hchange : Change (some r) (some next)) : Evolves m m' := by
  refine ⟨fun runId' => ?_, ?_⟩
  · rw [hbyRun, OrderedMap.get?_set]
    split
    · rename_i heq
      rw [heq, hr]
      exact hchange
    · exact .same _
  · simp only [hbyRun, OrderedMap.keys_set_of_get?_some hr, List.prefix_rfl]

theorem Evolves.set_new {m m' : Memory} {r : StoredRunRecord} {runId : String}
    (hnone : m.byRun.get? runId = none) (hbyRun : m'.byRun = m.byRun.set runId r)
    (hrev : r.revision.1 = 0) (hqueued : r.status = .queued) : Evolves m m' := by
  refine ⟨fun runId' => ?_, ?_⟩
  · rw [hbyRun, OrderedMap.get?_set]
    split
    · rename_i heq
      rw [heq, hnone]
      exact .created hrev hqueued
    · exact .same _
  · rw [hbyRun]
    unfold OrderedMap.keys
    rw [OrderedMap.entries_set_of_get?_none hnone, List.map_append]
    exact List.prefix_append _ _

/-! ## Operations -/

/-- A successful `#update`: the record of the run was replaced by what the
change function built, and the caller got it. -/
structure Updates (m : Memory) (runId : String) (change : StoredRunRecord → Except Failure RawRun)
    (m' : Memory) (reply : Reply) (current next : StoredRunRecord) (raw : RawRun) : Prop where
  found : m.byRun.get? runId = some current
  changes : change current = .ok raw
  parsed : parseStoredRun raw.toValue = .ok next
  set : m.set next = .ok m'
  reply : reply = .record next

theorem update_ok {m m' : Memory} {runId : String} {reply : Reply}
    {change : StoredRunRecord → Except Failure RawRun}
    (h : update m runId change = (m', .ok reply)) :
    ∃ current next raw, Updates m runId change m' reply current next raw := by
  unfold update at h
  split at h
  · cases h
  · rename_i next hnext
    simp only [bind_eq_ok, parseRunId_ok] at hnext
    obtain ⟨id, hid, current, hcurrent, raw, hraw, hparsed⟩ := hnext
    cases hid
    split at h
    · cases h
    · rename_i m₁ hset
      have hclone : cloneRecord next = .ok next := storable_of_parse hparsed
      rw [hclone] at h
      cases h
      exact ⟨current, next, raw, Memory.require_ok hcurrent, hraw, hparsed, hset, rfl⟩

theorem WellFormed.update {m m' : Memory} (h : WellFormed m) {runId : String} {reply : Reply}
    {change : StoredRunRecord → Except Failure RawRun}
    (hsteps : ∀ current raw, current.status ≠ .preparing → change current = .ok raw →
      StepsTo current raw)
    (hok : RunStore.update m runId change = (m', .ok reply)) : WellFormed m' ∧ Evolves m m' := by
  obtain ⟨current, next, raw, hu⟩ := update_ok hok
  obtain ⟨hkeyed, hstorable, hprepared⟩ := h.fits _ _ hu.found
  have hread := readsAs_of_parse hu.parsed
  subst hkeyed
  rcases (hsteps current raw hprepared hu.changes).change hstorable hread with rfl | hadv
  · obtain ⟨m₁, hset, hwf, hbyRun⟩ := h.replace hu.found
      ⟨rfl, rfl, rfl, rfl, rfl, rfl, rfl, rfl, rfl⟩ (storable_of_parse hu.parsed) hprepared
    cases hset.symm.trans hu.set
    exact ⟨hwf, .set_existing hu.found hbyRun (.same _)⟩
  · obtain ⟨m₁, hset, hwf, hbyRun⟩ := h.replace hu.found hadv.same
      (storable_of_parse hu.parsed) hadv.prepared
    cases hset.symm.trans hu.set
    exact ⟨hwf, .set_existing hu.found hbyRun (.advanced hadv)⟩

/-- A successful reservation: the stored run of the request, or a new one. -/
inductive Reserves (m : Memory) (input : RunReservation) : Memory → Reply → Prop
  | existing {r : StoredRunRecord} {runId : String} :
      m.byRequest.get? input.requestId = some runId → m.byRun.get? runId = some r →
      r.fingerprint.1 = input.fingerprint → Reserves m input m (.reserved false r)
  | created {m' : Memory} {r : StoredRunRecord} :
      m.byRequest.get? input.requestId = none → m.byRun.get? input.proposedRunId = none →
      parseStoredRun (newRun input).toValue = .ok r → m.set r = .ok m' →
      Reserves m input m' (.reserved true r)

theorem reserve_ok {m m' : Memory} {input : RunReservation} {reply : Reply}
    (h : reserve m input = (m', .ok reply)) : Reserves m input m' reply := by
  unfold reserve at h
  split at h
  · cases h
  · rename_i requestId hvalid
    have hid : requestId = input.requestId := by
      unfold validateRequestId at hvalid
      split at hvalid
      · cases hvalid
      · cases hvalid
        rfl
    subst hid
    split at h
    · rename_i existingId hexisting
      split at h
      · cases h
      · rename_i existing hrequire
        split at h
        · cases h
        · rename_i hfingerprint
          cases h
          exact .existing hexisting (Memory.require_ok hrequire) (not_ne_iff.mp hfingerprint)
    · rename_i hnone
      split at h
      · cases h
      · rename_i hrun
        split at h
        · cases h
        · rename_i record hparsed
          split at h
          · cases h
          · rename_i m₁ hset
            cases h
            refine .created hnone ?_ hparsed hset
            exact OrderedMap.has_eq_false_iff.mp (Bool.eq_false_iff.mpr hrun)

/-- The fields of a new record. -/
theorem newRun_reads {input : RunReservation} {r : StoredRunRecord}
    (h : parseStoredRun (newRun input).toValue = .ok r) : r.revision.1 = 0 ∧
      r.status = .queued ∧ r.runId.1 = input.proposedRunId ∧ r.requestId.1 = input.requestId := by
  have hread := readsAs_of_parse h
  refine ⟨?_, status_of_reads _ hread rfl, (string_inj hread.runId).symm,
    (string_inj hread.requestId).symm⟩
  have hrev := hread.revision
  simp only [newRun, Option.some.injEq, JsValue.number.injEq] at hrev
  have := congrArg (fun q : ℚ => q.num.toNat) hrev
  simpa using this.symm

theorem WellFormed.reserve {m m' : Memory} (h : WellFormed m) {input : RunReservation}
    {reply : Reply} (hok : RunStore.reserve m input = (m', .ok reply)) :
    WellFormed m' ∧ Evolves m m' := by
  cases reserve_ok hok with
  | existing _ _ _ => exact ⟨h, .refl m⟩
  | created hrequest hrun hparsed hset =>
    rename_i r
    obtain ⟨hrev, hqueued, hid, hreq⟩ := newRun_reads hparsed
    rw [← hid] at hrun
    rw [← hreq] at hrequest
    obtain ⟨m₁, hset', hwf, hbyRun⟩ := h.append hrun hrequest (storable_of_parse hparsed)
      (by rw [hqueued]; decide)
    cases hset'.symm.trans hset
    exact ⟨hwf, .set_new hrun hbyRun hrev hqueued⟩

/-- What the recovery loop has done to the maps when it is through. -/
structure Recovers (m m' : Memory) (records recovered : List StoredRunRecord) : Prop where
  wellFormed : WellFormed m'
  order : m'.byRun.keys = m.byRun.keys
  others : ∀ runId, (∀ r ∈ records, r.runId.1 ≠ runId) →
    m'.byRun.get? runId = m.byRun.get? runId
  changes : ∀ r ∈ records, ∃ r', m'.byRun.get? r.runId.1 = some r' ∧
    r'.status.terminal = true ∧
      (r' = r ∨ Advances r r' ∧ r'.status = .interrupted ∧ r'.outcome = none)
  storable : ∀ r ∈ recovered, Storable r
  none : recovered = [] → m' = m

theorem recoverAll_ok {now : String} : ∀ {records : List StoredRunRecord} {m m' : Memory}
    {recovered : List StoredRunRecord}, WellFormed m →
    (records.map (·.runId.1)).Nodup → (∀ r ∈ records, m.byRun.get? r.runId.1 = some r) →
    recoverAll now m records = (m', .ok recovered) → Recovers m m' records recovered
  | [], m, m', recovered, h, _, _, hok => by
    cases hok
    exact ⟨h, rfl, fun _ _ => rfl, (fun _ hr => nomatch hr), (fun _ hr => nomatch hr), fun _ => rfl⟩
  | r :: rest, m, m', recovered, h, hnd, hmem, hok => by
    rw [List.map_cons, List.nodup_cons] at hnd
    have hr := hmem r (List.mem_cons_self ..)
    have hapart : ∀ r' ∈ rest, r'.runId.1 ≠ r.runId.1 := fun r' hr' heq =>
      hnd.1 (List.mem_map.mpr ⟨r', hr', heq⟩)
    unfold recoverAll at hok
    split at hok
    · rename_i hterminal
      have ih := recoverAll_ok h hnd.2 (fun r' hr' => hmem r' (List.mem_cons_of_mem _ hr')) hok
      refine ⟨ih.wellFormed, ih.order, fun runId hne => ?_, fun r' hr' => ?_, ih.storable,
        ih.none⟩
      · exact ih.others runId fun r' hr' => hne r' (List.mem_cons_of_mem _ hr')
      · rcases List.mem_cons.mp hr' with rfl | hr'
        · refine ⟨r', ?_, hterminal, .inl rfl⟩
          rw [ih.others _ hapart, hr]
        · exact ih.changes r' hr'
    · rename_i hlive
      split at hok
      · cases hok
      · rename_i next hparsed
        have hread := readsAs_of_parse hparsed
        obtain ⟨-, hstorable, -⟩ := h.fits _ _ hr
        have hlive := Bool.eq_false_iff.mpr hlive
        have hadv : Advances r next := by
          have hsteps : StepsTo r (recoveredRun now r) := interruptedRun_steps hlive
          rcases hsteps.change hstorable hread with rfl | hadv
          · have := status_of_reads .interrupted hread rfl
            rw [this] at hlive
            cases hlive
          · exact hadv
        obtain ⟨m₁, hset, hwf, hbyRun⟩ := h.replace hr hadv.same (storable_of_parse hparsed)
          hadv.prepared
        rw [hset] at hok
        simp only at hok
        split at hok
        · cases hok
        · rename_i m₂ recovered₂ hrec
          cases hok
          have hrest : ∀ r' ∈ rest, m₁.byRun.get? r'.runId.1 = some r' := by
            intro r' hr'
            rw [hbyRun, OrderedMap.get?_set, if_neg (hapart r' hr')]
            exact hmem r' (List.mem_cons_of_mem _ hr')
          have ih := recoverAll_ok hwf hnd.2 hrest hrec
          refine ⟨ih.wellFormed, ?_, fun runId hne => ?_, fun r' hr' => ?_, fun r' hr' => ?_,
            fun hnil => nomatch hnil⟩
          · rw [ih.order, hbyRun, OrderedMap.keys_set_of_get?_some hr]
          · rw [ih.others runId fun r' hr' => hne r' (List.mem_cons_of_mem _ hr'), hbyRun,
              OrderedMap.get?_set, if_neg fun heq => hne r (List.mem_cons_self ..) heq.symm]
          · rcases List.mem_cons.mp hr' with rfl | hr'
            · have hstatus := status_of_reads .interrupted hread rfl
              refine ⟨next, ?_, ?_, .inr ⟨hadv, hstatus, outcome_of_reads none hread rfl⟩⟩
              · rw [ih.others _ hapart, hbyRun, OrderedMap.get?_set, if_pos rfl]
              · rw [hstatus]
                rfl
            · exact ih.changes r' hr'
          · rcases List.mem_cons.mp hr' with rfl | hr'
            · exact storable_of_parse hparsed
            · exact ih.storable r' hr'

theorem Evolves.of_recovers {m m' : Memory} {records recovered : List StoredRunRecord}
    (h : Recovers m m' records recovered)
    (hmem : ∀ r ∈ records, m.byRun.get? r.runId.1 = some r) : Evolves m m' := by
  refine ⟨fun runId => ?_, ?_⟩
  · by_cases hin : ∃ r ∈ records, r.runId.1 = runId
    · obtain ⟨r, hr, rfl⟩ := hin
      obtain ⟨r', hr', -, heq⟩ := h.changes r hr
      rw [hmem r hr, hr']
      rcases heq with rfl | ⟨hadv, -, -⟩
      · exact .same _
      · exact .advanced hadv
    · rw [h.others runId fun r hr heq => hin ⟨r, hr, heq⟩]
      exact .same _
  · simp only [h.order, List.prefix_rfl]

theorem mapM_clone {records : List StoredRunRecord} (h : ∀ r ∈ records, Storable r) :
    records.mapM cloneRecord = .ok records := by
  induction records with
  | nil => rfl
  | cons r records ih =>
    simp only [List.mapM_cons, bind_eq_ok, pure_eq_ok]
    exact ⟨r, h r (List.mem_cons_self ..), records,
      ih fun r' hr' => h r' (List.mem_cons_of_mem _ hr'), rfl⟩

/-- The records of the table, each under its own run id. -/
theorem WellFormed.values_spec {m : Memory} (h : WellFormed m) :
    (m.byRun.values.map (·.runId.1)).Nodup ∧
      ∀ r ∈ m.byRun.values, m.byRun.get? r.runId.1 = some r := by
  have hentry : ∀ e ∈ m.byRun.entries, e.2.runId.1 = e.1 := fun e he =>
    (h.fits e.1 e.2 (OrderedMap.get?_eq_some_iff.mpr he)).keyed
  constructor
  · have hkeys : m.byRun.values.map (·.runId.1) = m.byRun.keys := by
      unfold OrderedMap.values OrderedMap.keys
      rw [List.map_map]
      exact List.map_congr_left hentry
    rw [hkeys]
    exact m.byRun.keys_nodup
  · intro r hr
    obtain ⟨runId, hget⟩ := OrderedMap.mem_values_iff.mp hr
    rw [(h.fits runId r hget).keyed]
    exact hget

theorem recoverInterrupted_ok {m m' : Memory} (h : WellFormed m) {now : String} {reply : Reply}
    (hok : recoverInterrupted m now = (m', .ok reply)) :
    ∃ recovered, reply = .records recovered ∧ Recovers m m' m.byRun.values recovered := by
  unfold recoverInterrupted at hok
  split at hok
  · cases hok
  · rename_i m₁ recovered hrec
    have hspec := recoverAll_ok h h.values_spec.1 h.values_spec.2 hrec
    rw [mapM_clone hspec.storable] at hok
    cases hok
    exact ⟨recovered, rfl, hspec⟩

/-- What every successful operation does to the maps. -/
structure Serves (m : Memory) (call : Call) (m' : Memory) (reply : Reply) : Prop where
  wellFormed : WellFormed m'
  evolves : Evolves m m'
  unchanged : call.reads = true ∨ changed call reply = false → m' = m

theorem operation_ok {m m' : Memory} (h : WellFormed m) {call : Call} {reply : Reply}
    (hok : operation m call = (m', .ok reply)) : Serves m call m' reply := by
  have hupdate : ∀ {runId : String} {change : StoredRunRecord → Except Failure RawRun},
      (∀ current raw, current.status ≠ .preparing → change current = .ok raw →
        StepsTo current raw) → update m runId change = (m', .ok reply) →
      call.reads = false → changed call reply = true → Serves m call m' reply := by
    intro runId change hsteps hu hreads hchanged
    obtain ⟨hwf, hev⟩ := h.update hsteps hu
    exact ⟨hwf, hev, by simp [hreads, hchanged]⟩
  have hread : ∀ {answer : Except Failure Reply}, (m, answer) = (m', .ok reply) →
      Serves m call m' reply := by
    intro answer heq
    cases heq
    exact ⟨h, .refl m, fun _ => rfl⟩
  cases call with
  | reserve input =>
    obtain ⟨hwf, hev⟩ := h.reserve hok
    exact ⟨hwf, hev, by simp [Call.reads, changed]⟩
  | markRunning runId startedAt =>
    exact hupdate (fun _ _ _ => runningChange_steps) hok rfl rfl
  | markCancelling runId updatedAt =>
    exact hupdate (fun _ _ _ => cancellingChange_steps) hok rfl rfl
  | finish runId result release =>
    exact hupdate (fun _ _ _ => finishChange_steps) hok rfl rfl
  | interrupt runId error cleanup finishedAt =>
    exact hupdate (fun _ _ _ => interruptChange_steps) hok rfl rfl
  | attachArtifact runId artifact updatedAt =>
    exact hupdate (fun _ _ hp => attachChange_steps hp) hok rfl rfl
  | recoverInterrupted now =>
    obtain ⟨recovered, rfl, hrec⟩ := recoverInterrupted_ok h hok
    refine ⟨hrec.wellFormed, .of_recovers hrec h.values_spec.2, fun hun => hrec.none ?_⟩
    simpa [Call.reads, changed] using hun
  | get runId => exact hread hok
  | getByRequestId requestId => exact hread hok
  | list => exact hread hok

/-! ## Where a record comes from -/

theorem set_record {m m' : Memory} {r r' : StoredRunRecord} {runId : String}
    (hset : m.set r = .ok m') (hr' : m'.byRun.get? runId = some r') :
    r' = r ∧ r.runId.1 = runId ∨ m.byRun.get? runId = some r' := by
  unfold Memory.set at hset
  split at hset
  · cases hset
  · cases hset
    rw [OrderedMap.get?_set] at hr'
    split at hr'
    · rename_i heq
      cases hr'
      exact .inl ⟨rfl, heq.symm⟩
    · exact .inr hr'

/-- The raw record a call makes of a stored one. -/
inductive Builds (r : StoredRunRecord) : Call → RawRun → Prop
  | running {startedAt : String} {raw : RawRun} :
      runningChange startedAt r = .ok raw → Builds r (.markRunning r.runId.1 startedAt) raw
  | cancelling {updatedAt : String} {raw : RawRun} :
      cancellingChange updatedAt r = .ok raw → Builds r (.markCancelling r.runId.1 updatedAt) raw
  | finish {result : JsValue} {release : Option JsValue} {raw : RawRun} :
      finishChange result release r = .ok raw → Builds r (.finish r.runId.1 result release) raw
  | interrupt {error cleanup : JsValue} {finishedAt : String} {raw : RawRun} :
      interruptChange error cleanup finishedAt r = .ok raw →
      Builds r (.interrupt r.runId.1 error cleanup finishedAt) raw
  | attach {artifact : JsValue} {updatedAt : String} {raw : RawRun} :
      attachChange artifact updatedAt r = .ok raw →
      Builds r (.attachArtifact r.runId.1 artifact updatedAt) raw
  | recover {now : String} :
      r.status.terminal = false → Builds r (.recoverInterrupted now) (recoveredRun now r)

theorem Builds.steps {r : StoredRunRecord} {call : Call} {raw : RawRun}
    (hprepared : r.status ≠ .preparing) (h : Builds r call raw) : StepsTo r raw := by
  cases h with
  | running h => exact runningChange_steps h
  | cancelling h => exact cancellingChange_steps h
  | finish h => exact finishChange_steps h
  | interrupt h => exact interruptChange_steps h
  | attach h => exact attachChange_steps hprepared h
  | recover hlive => exact interruptedRun_steps hlive

/-- Where the record of one run comes from that an operation leaves. -/
inductive Traced (m : Memory) (call : Call) (runId : String) (r' : StoredRunRecord) : Prop
  | same : m.byRun.get? runId = some r' → Traced m call runId r'
  | reserved (input : RunReservation) : call = .reserve input →
      parseStoredRun (newRun input).toValue = .ok r' → Traced m call runId r'
  | built (r : StoredRunRecord) (raw : RawRun) : m.byRun.get? runId = some r →
      Builds r call raw → ReadsAs raw r' → Traced m call runId r'

theorem Traced.of_built {m : Memory} (h : WellFormed m) {call : Call} {runId id : String}
    {r r' : StoredRunRecord} {raw : RawRun} (hr : m.byRun.get? runId = some r)
    (hbuilds : Builds r call raw) (hread : ReadsAs raw r') (hid : r'.runId.1 = id) :
    Traced m call id r' := by
  obtain ⟨hkeyed, hstorable, hprepared⟩ := h.fits _ _ hr
  have hsame : r'.runId = r.runId := by
    rcases (hbuilds.steps hprepared).change hstorable hread with rfl | hadv
    · rfl
    · exact hadv.same.runId
  refine .built r raw ?_ hbuilds hread
  rw [← hid, hsame, hkeyed]
  exact hr

theorem update_traced {m m' : Memory} (h : WellFormed m) {call : Call} {runId : String}
    {reply : Reply} {change : StoredRunRecord → Except Failure RawRun}
    (hbuilds : ∀ r raw, r.runId.1 = runId → change r = .ok raw → Builds r call raw)
    (hok : update m runId change = (m', .ok reply)) {id : String} {r' : StoredRunRecord}
    (hr' : m'.byRun.get? id = some r') : Traced m call id r' := by
  obtain ⟨current, next, raw, hu⟩ := update_ok hok
  rcases set_record hu.set hr' with ⟨rfl, hid⟩ | hold
  · exact .of_built h hu.found (hbuilds _ _ (h.fits _ _ hu.found).keyed hu.changes)
      (readsAs_of_parse hu.parsed) hid
  · exact .same hold

/-- Every record after the recovery loop is an old one, or one of the loop's. -/
theorem recoverAll_record {now : String} {id : String} {r' : StoredRunRecord} :
    ∀ {records : List StoredRunRecord} {m m' : Memory} {recovered : List StoredRunRecord},
      recoverAll now m records = (m', .ok recovered) → m'.byRun.get? id = some r' →
      m.byRun.get? id = some r' ∨ ∃ r ∈ records, r.status.terminal = false ∧
        parseStoredRun (recoveredRun now r).toValue = .ok r' ∧ r'.runId.1 = id := by
  intro records
  induction records with
  | nil =>
    intro m m' recovered hok hr'
    cases hok
    exact .inl hr'
  | cons r rest ih =>
    intro m m' recovered hok hr'
    have hlater : ∀ {m₁ : Memory} {recovered : List StoredRunRecord},
        recoverAll now m₁ rest = (m', .ok recovered) → m₁.byRun.get? id = some r' ∨
          ∃ r₁ ∈ r :: rest, r₁.status.terminal = false ∧
            parseStoredRun (recoveredRun now r₁).toValue = .ok r' ∧ r'.runId.1 = id := by
      intro m₁ recovered hrest
      rcases ih hrest hr' with hold | ⟨r₁, hmem, hnew⟩
      · exact .inl hold
      · exact .inr ⟨r₁, List.mem_cons_of_mem _ hmem, hnew⟩
    unfold recoverAll at hok
    split at hok
    · exact hlater hok
    · rename_i hlive
      split at hok
      · cases hok
      · rename_i next hparsed
        split at hok
        · cases hok
        · rename_i m₁ hset
          split at hok
          · cases hok
          · rename_i hrest
            cases hok
            rcases hlater hrest with hfirst | hnew
            · rcases set_record hset hfirst with ⟨rfl, hid⟩ | hold
              · exact .inr ⟨r, List.mem_cons_self .., Bool.eq_false_iff.mpr hlive, hparsed, hid⟩
              · exact .inl hold
            · exact .inr hnew

theorem operation_traced {m m' : Memory} (h : WellFormed m) {call : Call} {reply : Reply}
    (hok : operation m call = (m', .ok reply)) {id : String} {r' : StoredRunRecord}
    (hr' : m'.byRun.get? id = some r') : Traced m call id r' := by
  have hread : ∀ {answer : Except Failure Reply}, (m, answer) = (m', .ok reply) →
      Traced m call id r' := by
    intro answer heq
    cases heq
    exact .same hr'
  cases call with
  | reserve input =>
    cases reserve_ok hok with
    | existing _ _ _ => exact .same hr'
    | created _ _ hparsed hset =>
      rcases set_record hset hr' with ⟨rfl, -⟩ | hold
      · exact .reserved input rfl hparsed
      · exact .same hold
  | markRunning runId startedAt =>
    exact update_traced h (fun r raw hid hc => hid ▸ Builds.running hc) hok hr'
  | markCancelling runId updatedAt =>
    exact update_traced h (fun r raw hid hc => hid ▸ Builds.cancelling hc) hok hr'
  | finish runId result release =>
    exact update_traced h (fun r raw hid hc => hid ▸ Builds.finish hc) hok hr'
  | interrupt runId error cleanup finishedAt =>
    exact update_traced h (fun r raw hid hc => hid ▸ Builds.interrupt hc) hok hr'
  | attachArtifact runId artifact updatedAt =>
    exact update_traced h (fun r raw hid hc => hid ▸ Builds.attach hc) hok hr'
  | recoverInterrupted now =>
    unfold operation recoverInterrupted at hok
    simp only at hok
    split at hok
    · cases hok
    · rename_i m₁ recovered hrec
      obtain rfl : m₁ = m' := congrArg Prod.fst hok
      rcases recoverAll_record hrec hr' with hold | ⟨r, hr, hlive, hparsed, hid⟩
      · exact .same hold
      · exact .of_built h (h.values_spec.2 r hr) (.recover hlive) (readsAs_of_parse hparsed) hid
  | get runId => exact hread hok
  | getByRequestId requestId => exact hread hok
  | list => exact hread hok

/-! ## Reading -/

theorem WellFormed.clone_ok {m : Memory} (h : WellFormed m) {runId : String} {r : StoredRunRecord}
    (hr : m.byRun.get? runId = some r) : cloneRecord r = .ok r := (h.fits runId r hr).storable

theorem get_ok {m : Memory} (h : WellFormed m) {runId : String} {reply : Reply}
    (hok : RunStore.get m runId = .ok reply) : reply = .found (m.byRun.get? runId) := by
  unfold RunStore.get at hok
  simp only [bind_eq_ok, parseRunId_ok] at hok
  obtain ⟨id, hid, hok⟩ := hok
  cases hid
  split at hok
  · rename_i hnone
    cases hok
    rw [hnone]
  · rename_i r hr
    rw [h.clone_ok hr] at hok
    cases hok
    rw [hr]

theorem list_ok {m : Memory} (h : WellFormed m) : RunStore.list m = .ok (.records m.byRun.values) := by
  unfold RunStore.list
  rw [mapM_clone]
  · rfl
  · intro r hr
    exact h.clone_ok (h.values_spec.2 r hr)

theorem getByRequestId_ok {m : Memory} (h : WellFormed m) {requestId : String} {reply : Reply}
    (hok : RunStore.getByRequestId m requestId = .ok reply) :
    reply = .found ((m.byRequest.get? requestId).bind m.byRun.get?) := by
  unfold RunStore.getByRequestId at hok
  simp only [bind_eq_ok] at hok
  obtain ⟨id, hid, hok⟩ := hok
  have hid : id = requestId := by
    unfold validateRequestId at hid
    split at hid
    · cases hid
    · cases hid
      rfl
  subst hid
  split at hok
  · rename_i hnone
    cases hok
    rw [hnone]
    rfl
  · rename_i runId hrun
    simp only [bind_eq_ok, pure_eq_ok] at hok
    obtain ⟨r, hr, r', hclone, rfl⟩ := hok
    have hr := Memory.require_ok hr
    rw [h.clone_ok hr] at hclone
    cases hclone
    rw [hrun, Option.bind_some, hr]

/-! ## The file -/

/-- Loading a list of written records, one after the other. -/
theorem foldl_load : ∀ (rest : List (String × StoredRunRecord)) {m : Memory},
    WellFormed m → (∀ e ∈ rest, RecordFits e.1 e.2) →
    ((m.byRun.entries ++ rest).map Prod.fst).Nodup →
    ((m.byRun.entries ++ rest).map (·.2.requestId.1)).Nodup →
    ∃ m', (rest.map fun e => e.2.toValue).foldlM
        (fun m item => do Memory.set m (← parseStoredRun item)) m = .ok m' ∧
      WellFormed m' ∧ m'.byRun.entries = m.byRun.entries ++ rest
  | [], m, h, _, _, _ => ⟨m, rfl, h, (List.append_nil _).symm⟩
  | e :: rest, m, h, hfits, hkeys, hrequests => by
    obtain ⟨hkeyed, hstorable, hprepared⟩ := hfits e (List.mem_cons_self ..)
    have hrun : m.byRun.get? e.2.runId.1 = none := by
      rw [hkeyed, OrderedMap.get?_eq_none_iff]
      intro hmem
      rw [List.map_append, List.nodup_append] at hkeys
      exact hkeys.2.2 _ hmem _ (List.mem_cons_self ..) rfl
    have hrequest : m.byRequest.get? e.2.requestId.1 = none := by
      rw [OrderedMap.get?_eq_none_iff]
      intro hmem
      unfold OrderedMap.keys at hmem
      rw [h.aligned, List.map_map] at hmem
      rw [List.map_append, List.nodup_append] at hrequests
      exact hrequests.2.2 _ hmem _ (List.mem_cons_self ..) rfl
    obtain ⟨m₁, hset, hwf, hbyRun⟩ := h.append hrun hrequest hstorable hprepared
    have hentries : m₁.byRun.entries = m.byRun.entries ++ [e] := by
      rw [hbyRun, OrderedMap.entries_set_of_get?_none hrun, hkeyed]
    obtain ⟨m', hfold, hwf', hentries'⟩ := foldl_load rest hwf
      (fun e' he' => hfits e' (List.mem_cons_of_mem _ he'))
      (by rw [hentries, List.append_assoc]; exact hkeys)
      (by rw [hentries, List.append_assoc]; exact hrequests)
    refine ⟨m', ?_, hwf', by rw [hentries', hentries, List.append_assoc]; rfl⟩
    simp only [List.map_cons, List.foldlM_cons, bind_eq_ok]
    exact ⟨m₁, ⟨e.2, hstorable, hset⟩, hfold⟩

theorem WellFormed.ext {m m' : Memory} (h : WellFormed m) (h' : WellFormed m')
    (heq : m.byRun.entries = m'.byRun.entries) : m = m' := by
  obtain ⟨byRun, byRequest⟩ := m
  obtain ⟨byRun', byRequest'⟩ := m'
  obtain rfl : byRun = byRun' := OrderedMap.ext heq
  obtain rfl : byRequest = byRequest' := OrderedMap.ext (h.aligned.trans h'.aligned.symm)
  rfl

/-- Opening the file that was written gives back the maps. -/
theorem load_toFile {limits : Limits} {m : Memory} (h : WellFormed m)
    (hsize : m.toFile.bytes limits ≤ limits.maxStoreBytes) :
    load limits (some m.toFile) = .ok m := by
  have hrequests : (m.byRun.entries.map (·.2.requestId.1)).Nodup := by
    have hnd := m.byRequest.keys_nodup
    unfold OrderedMap.keys at hnd
    rw [h.aligned, List.map_map] at hnd
    exact hnd
  obtain ⟨m', hfold, hwf, hentries⟩ := foldl_load m.byRun.entries .empty
    (fun e he => h.fits e.1 e.2 (OrderedMap.get?_eq_some_iff.mpr he)) m.byRun.nodup hrequests
  have heq : m' = m := hwf.ext h hentries
  unfold load readRunStoreFile
  simp only [if_neg (Nat.not_lt.mpr hsize), bind_eq_ok]
  refine ⟨_, rfl, ?_⟩
  unfold Memory.toFile OrderedMap.values
  rw [List.map_map]
  exact heq ▸ hfold

end SurfaceLoom.Service.RunStoreInvariants
