import SurfaceLoom.Lib.Checked
import SurfaceLoom.AgentService.AgentTestService

/-! # One run for a snapshot

A call that reserves a run owns the snapshot of its request, and keeps it while
calls that rely on it are not given up. Two runs of one snapshot would then be two
runs of one request, which the store refuses. -/
namespace SurfaceLoom.Service.SnapshotOwnership
open SurfaceLoom.Lib SurfaceLoom.Lib.Transition SurfaceLoom.Service.SafeData
open SurfaceLoom.Service.Validation SurfaceLoom.Service.StoredRun SurfaceLoom.Service.RunStore
open SurfaceLoom.Service.RunStoreInvariants SurfaceLoom.Service.RunStoreQueue
open SurfaceLoom.Service.AgentTestService hiding Event next
open SurfaceLoom.Service.SnapshotLifecycle (WorkspaceSnapshot)

/-! ## A request reserves once -/

/-- A call of the store that created a run. -/
def Creates (e : Entry) (record : StoredRunRecord) : Prop := e.reply = .ok (.reserved true record)

section
variable {limits : Limits} {start : Memory} {s t : RunStoreQueue.State}

/-- A request that has a run keeps it. -/
theorem Evolves.requested {m m' : Memory} (h : Evolves m m') (hm : WellFormed m)
    (hm' : WellFormed m') {requestId runId : String} (hr : m.byRequest.get? requestId = some runId) :
    m'.byRequest.get? requestId = some runId := by
  obtain ⟨r, hrun, hrequest⟩ := hm.byRequest_iff.mp hr
  refine hm'.byRequest_iff.mpr ?_
  have hchange := h.change runId
  rw [hrun] at hchange
  generalize hafter : m'.byRun.get? runId = o at hchange
  cases hchange with
  | same => exact ⟨r, rfl, hrequest⟩
  | advanced hadvances => exact ⟨_, rfl, by rw [hadvances.same.requestId, hrequest]⟩

theorem entry_requested (h : RunStoreQueue.Sound limits start s) {requestId runId : String} :
    ∀ (post pre : List Entry), s.log = pre ++ post →
      (effects start pre).byRequest.get? requestId = some runId →
      ∀ e ∈ post, e.before.byRequest.get? requestId = some runId
  | [], _, _, _, _, he => nomatch he
  | e :: post, pre, heq, hr, e', he' => by
    have he := h.entries e (by rw [heq]; simp)
    have hbefore : e.before.byRequest.get? requestId = some runId := by
      rwa [h.replayed pre e post heq]
    have hafter := Evolves.requested he.evolves he.wellFormed he.durable.1 hbefore
    rw [h.after_eq heq] at hafter
    rcases List.mem_cons.mp he' with rfl | hlater
    · exact hbefore
    · exact entry_requested h post (pre ++ [e]) (by rw [heq, List.append_assoc]; rfl) hafter e'
        hlater

/-- What a created run was reserved with. -/
structure Reserved (e : Entry) (record : StoredRunRecord) (input : RunReservation) : Prop where
  call : e.call = .reserve input
  fresh : e.before.byRequest.get? input.requestId = none
  indexed : e.after.byRequest.get? input.requestId = some record.runId.1
  reads : parseStoredRun (newRun input).toValue = .ok record

theorem reserves_new {m m' : Memory} {input : RunReservation} {record : StoredRunRecord}
    (h : Reserves m input m' (.reserved true record)) :
    m.byRequest.get? input.requestId = none ∧
      m'.byRequest.get? input.requestId = some record.runId.1 ∧
      parseStoredRun (newRun input).toValue = .ok record := by
  cases h with
  | created hrequest hrun hparsed hset =>
    refine ⟨hrequest, ?_, hparsed⟩
    obtain ⟨-, -, -, hid⟩ := newRun_reads hparsed
    unfold Memory.set at hset
    split at hset
    · cases hset
    · cases hset
      rw [← hid, OrderedMap.get?_set, if_pos rfl]

theorem update_reply {m m' : Memory} {runId : String} {reply : Reply}
    {change : StoredRunRecord → Except Failure RawRun}
    (h : update m runId change = (m', .ok reply)) : ∃ record, reply = .record record := by
  obtain ⟨current, next, raw, hu⟩ := update_ok h
  exact ⟨next, hu.reply⟩

/-- Only a reservation answers that it reserved. -/
theorem operation_reserved {m m' : Memory} (hm : WellFormed m) {call : Call} {created : Bool}
    {record : StoredRunRecord} (h : operation m call = (m', .ok (.reserved created record))) :
    ∃ input, call = .reserve input := by
  have hupdate : ∀ {runId : String} {change : StoredRunRecord → Except Failure RawRun},
      update m runId change = (m', .ok (.reserved created record)) → False := by
    intro runId change hu
    obtain ⟨record', hreply⟩ := update_reply hu
    cases hreply
  cases call with
  | reserve input => exact ⟨input, rfl⟩
  | markRunning runId startedAt => exact (hupdate h).elim
  | markCancelling runId updatedAt => exact (hupdate h).elim
  | finish runId result release => exact (hupdate h).elim
  | interrupt runId error cleanup finishedAt => exact (hupdate h).elim
  | attachArtifact runId artifact updatedAt => exact (hupdate h).elim
  | recoverInterrupted now =>
    obtain ⟨recovered, hreply, -⟩ := recoverInterrupted_ok hm h
    cases hreply
  | get runId => cases get_ok hm (congrArg Prod.snd h)
  | getByRequestId requestId => cases getByRequestId_ok hm (congrArg Prod.snd h)
  | list => cases (list_ok hm).symm.trans (congrArg Prod.snd h)

theorem creates_reserved {e : Entry} (h : EntrySound limits e) {record : StoredRunRecord}
    (hc : Creates e record) : ∃ input, Reserved e record input := by
  have hop := h.resolved _ hc
  obtain ⟨input, hcall⟩ := operation_reserved h.wellFormed hop
  rw [hcall] at hop
  obtain ⟨hfresh, hindexed, hreads⟩ := reserves_new (reserve_ok hop)
  exact ⟨input, hcall, hfresh, hindexed, hreads⟩

/-- Two runs that were created for one request are one. -/
theorem created_once (h : RunStoreQueue.Sound limits start s) {i j : Nat} {e e' : Entry}
    {record record' : StoredRunRecord} {input input' : RunReservation} (hi : s.log[i]? = some e)
    (hj : s.log[j]? = some e') (hr : Reserved e record input) (hr' : Reserved e' record' input')
    (hsame : input.requestId = input'.requestId) : ¬ i < j := by
  intro hlt
  obtain ⟨hlength, rfl⟩ := List.getElem?_eq_some_iff.mp hi
  have hsplit : s.log = s.log.take i ++ s.log[i] :: s.log.drop (i + 1) := by
    rw [List.getElem_cons_drop, List.take_append_drop]
  have hlater : e' ∈ s.log.drop (i + 1) := by
    refine List.mem_of_getElem? (i := j - (i + 1)) ?_
    rw [List.getElem?_drop, ← hj]
    congr 1
    omega
  have hindexed := hr.indexed
  rw [h.after_eq hsplit] at hindexed
  have hrest : s.log = (s.log.take i ++ [s.log[i]]) ++ s.log.drop (i + 1) := by
    rw [List.append_assoc]
    exact hsplit
  have hknown := entry_requested h (s.log.drop (i + 1)) _ hrest hindexed e' hlater
  rw [hsame, hr'.fresh] at hknown
  cases hknown

/-! ## What the store issued -/

theorem started_grows (call : Call) (tail : PromiseTail.Tail Call Writing) :
    s.log <+: (started limits s call tail).log ∧ (started limits s call tail).issued = s.issued := by
  unfold started
  split
  · exact ⟨List.prefix_append .., rfl⟩
  · split
    · exact ⟨List.prefix_append .., rfl⟩
    · exact ⟨List.prefix_rfl, rfl⟩

theorem settled_grows (w : Writing) (tail : PromiseTail.Tail Call Writing) (written renamed : Bool) :
    s.log <+: (settled s w tail written renamed).log ∧
      (settled s w tail written renamed).issued = s.issued := by
  unfold settled
  split
  · exact ⟨List.prefix_append .., rfl⟩
  · exact ⟨List.prefix_append .., rfl⟩

theorem next_log {event : RunStoreQueue.Event} (h : RunStoreQueue.next limits s event = some t) :
    s.log <+: t.log := by
  cases event with
  | issue call =>
    cases h
    exact List.prefix_rfl
  | start index =>
    obtain ⟨⟨call, tail⟩, -, rfl⟩ := Option.map_eq_some_iff.mp h
    exact (started_grows call tail).1
  | writeSettled index written renamed =>
    obtain ⟨⟨w, tail⟩, -, rfl⟩ := Option.map_eq_some_iff.mp h
    exact (settled_grows w tail written renamed).1

theorem issue_reserve {call : Call} {i : Nat} {input : RunReservation}
    (hi : (issue s call).issued[i]? = some (.reserve input)) :
    s.issued[i]? = some (.reserve input) ∨ i = s.issued.length ∧ call = .reserve input := by
  have hi : (s.issued ++ [call])[i]? = some (.reserve input) := hi
  rw [List.getElem?_append] at hi
  split at hi
  · exact .inl hi
  · rename_i hlast
    obtain ⟨hzero, hcall⟩ := List.getElem?_eq_some_iff.mp hi
    have hlength : i - s.issued.length < 1 := hzero
    exact .inr ⟨by omega, by simpa using hcall⟩

/-- What others do to the store reserves nothing. -/
theorem others_issued {event : RunStoreQueue.Event} (hothers : ofOthers event = true)
    (h : RunStoreQueue.next limits s event = some t) {i : Nat} {input : RunReservation}
    (hi : t.issued[i]? = some (.reserve input)) : s.issued[i]? = some (.reserve input) := by
  cases event with
  | issue call =>
    cases h
    rcases issue_reserve hi with hold | ⟨-, rfl⟩
    · exact hold
    · cases hothers
  | start index =>
    obtain ⟨⟨call, tail⟩, -, rfl⟩ := Option.map_eq_some_iff.mp h
    rwa [(started_grows call tail).2] at hi
  | writeSettled index written renamed =>
    obtain ⟨⟨w, tail⟩, -, rfl⟩ := Option.map_eq_some_iff.mp h
    rwa [(settled_grows w tail written renamed).2] at hi

theorem log_issued (h : RunStoreQueue.Sound limits start s) {i : Nat} {e : Entry}
    (hi : s.log[i]? = some e) : s.issued[i]? = some e.call := by
  have hlt : i < s.log.length := (List.getElem?_eq_some_iff.mp hi).1
  rw [← h.calls, List.append_assoc, List.getElem?_append_left (by simpa using hlt),
    List.getElem?_map, hi]
  rfl

end

/-! ## Calls that rely on a snapshot -/

/-- The reservation a call issued. -/
def reservationOf : Stage → Option Nat
  | .reading _ => none
  | .reserving index _ => some index
  | .ended _ reservation => reservation

/-- A call relies on its snapshot from its check of the owner on, unless it fails. -/
def relies : Stage → Bool
  | .reserving .. => true
  | .ended (.ok _) (some _) => true
  | _ => false

/-- The answer that makes a call give its snapshot back. -/
def GivesBack (s : ServiceState) (c : StartCall) : Prop :=
  ∃ index failure, c.stage = .reserving index none ∧
    s.store.log[index]?.map Entry.reply = some (.error failure)

/-- No snapshot is given back that another call relies on. -/
def Undisturbed (s : ServiceState) (event : AgentTestService.Event) : Prop :=
  ∀ (k : Nat) (c : StartCall), event = .reserved k → s.calls[k]? = some c → GivesBack s c →
    ∀ (j : Nat) (c' : StartCall), j ≠ k → s.calls[j]? = some c' →
      c'.snapshotId = c.snapshotId → relies c'.stage = false

/-- Who relies on a snapshot owns it. -/
def Owned (s : ServiceState) : Prop :=
  ∀ (k : Nat) (c : StartCall), s.calls[k]? = some c → relies c.stage = true →
    s.owners.get? c.snapshotId = some c.requestId

/-- The call a reservation belongs to. -/
structure Belongs (s : ServiceState) (index : Nat) (input : RunReservation) (c : StartCall) :
    Prop where
  reservation : reservationOf c.stage = some index
  requestId : input.requestId = c.requestId
  snapshot : ∃ revision, input.snapshot = .object
    [("snapshotId", .string c.snapshotId), ("resolvedRevision", .string revision)]
  failed : relies c.stage = false →
    ∃ failure, s.store.log[index]?.map Entry.reply = some (.error failure)

def Tracked (s : ServiceState) : Prop :=
  ∀ (index : Nat) (input : RunReservation), s.store.issued[index]? = some (.reserve input) →
    ∃ (k : Nat) (c : StartCall), s.calls[k]? = some c ∧ Belongs s index input c

def Keyed (s : ServiceState) : Prop :=
  ∀ id snapshot, s.snapshots.get? id = some snapshot → snapshot.snapshotId = id

structure Sound (limits : Limits) (m : Memory) (file : Option StoreFile) (s : ServiceState) :
    Prop where
  store : (RunStoreQueue.store limits m file).Reachable s.store
  owned : Owned s
  tracked : Tracked s
  keyed : Keyed s

variable {fingerprint : Execution → String} {options : ServiceOptions} {m : Memory}
  {file : Option StoreFile} {s t : ServiceState} {k : Nat} {a : Accepted}

/-! ### Calls after an update -/

theorem update_get {c : StartCall} (h : s.calls[k]? = some c) (stage : Stage) :
    (s.update k stage).calls[k]? = some { c with stage } := by
  show (s.calls.modify k _)[k]? = _
  rw [List.getElem?_modify_eq, h]
  rfl

theorem update_other (stage : Stage) {j : Nat} (hj : j ≠ k) :
    (s.update k stage).calls[j]? = s.calls[j]? := by
  show (s.calls.modify k _)[j]? = _
  exact List.getElem?_modify_ne _ _ (Ne.symm hj)

/-- A reply stays in the log. -/
theorem reply_mono {log log' : List Entry} (h : log <+: log') {index : Nat}
    {reply : Except Failure Reply} (hr : log[index]?.map Entry.reply = some reply) :
    log'[index]?.map Entry.reply = some reply := by
  obtain ⟨e, he, rfl⟩ := Option.map_eq_some_iff.mp hr
  obtain ⟨rest, rfl⟩ := h
  rw [List.getElem?_append_left (List.getElem?_eq_some_iff.mp he).1, he]
  rfl

theorem Belongs.log {index : Nat} {input : RunReservation} {c : StartCall}
    (h : Belongs s index input c) (hlog : s.store.log <+: t.store.log) : Belongs t index input c :=
  ⟨h.reservation, h.requestId, h.snapshot, fun hfailed =>
    (h.failed hfailed).imp fun _ hr => reply_mono hlog hr⟩

/-- A step that changes no call and issues no reservation. -/
theorem Tracked.of_calls (h : Tracked s) (hcalls : ∀ (k : Nat) (c : StartCall), s.calls[k]? = some c →
    t.calls[k]? = some c) (hlog : s.store.log <+: t.store.log)
    (hissued : ∀ (index : Nat) (input : RunReservation), t.store.issued[index]? = some (.reserve input) →
      s.store.issued[index]? = some (.reserve input)) : Tracked t := by
  intro index input hindex
  obtain ⟨k, c, hk, hbelongs⟩ := h index input (hissued index input hindex)
  exact ⟨k, c, hcalls k c hk, hbelongs.log hlog⟩

/-! ### The end of a call -/

/-- A call that had reserved nothing ends. -/
theorem Owned.ends (h : Owned s) {stage : Stage} (hstage : relies stage = false) :
    Owned (s.update k stage) := by
  intro j c hj hrelies
  by_cases hjk : j = k
  · subst hjk
    cases hc : s.calls[j]? with
    | none =>
      have hnone : (s.calls.modify j fun c => { c with stage })[j]? = some c := hj
      rw [List.getElem?_modify_eq, hc] at hnone
      cases hnone
    | some c₀ =>
      rw [update_get hc] at hj
      cases hj
      rw [hstage] at hrelies
      cases hrelies
  · rw [update_other _ hjk] at hj
    exact h j c hj hrelies

theorem Tracked.ends (h : Tracked s) {c : StartCall} (hk : s.calls[k]? = some c)
    (hc : reservationOf c.stage = none) (stage : Stage) : Tracked (s.update k stage) := by
  intro index input hindex
  obtain ⟨j, c', hj, hbelongs⟩ := h index input hindex
  have hjk : j ≠ k := by
    rintro rfl
    cases hk.symm.trans hj
    cases hc.symm.trans hbelongs.reservation
  exact ⟨j, c', by rw [update_other _ hjk]; exact hj, hbelongs.log List.prefix_rfl⟩

theorem Sound.ends {limits : Limits} (h : Sound limits m file s) {c : StartCall}
    (hk : s.calls[k]? = some c) (hc : reservationOf c.stage = none) {stage : Stage}
    (hstage : relies stage = false) : Sound limits m file (s.update k stage) :=
  ⟨h.store, h.owned.ends hstage, h.tracked.ends hk hc stage, h.keyed⟩

/-! ### A call begins -/

theorem Sound.begins {limits : Limits} (h : Sound limits m file s) (a : Accepted) :
    Sound limits m file { s with
      calls := s.calls ++ [⟨a, .reading s.store.issued.length⟩]
      store := issue s.store (.getByRequestId a.request.requestId) } := by
  refine ⟨h.store.step (a := .issue (.getByRequestId a.request.requestId)) rfl, ?_, ?_, h.keyed⟩
  · intro k c hk hrelies
    have hk : (s.calls ++ [⟨a, .reading s.store.issued.length⟩])[k]? = some c := hk
    rw [List.getElem?_append] at hk
    split at hk
    · exact h.owned k c hk hrelies
    · have hmem := List.mem_of_getElem? hk
      rw [List.mem_singleton.mp hmem] at hrelies
      cases hrelies
  · refine h.tracked.of_calls (fun k c hk => ?_) List.prefix_rfl fun index input hindex => ?_
    · show (s.calls ++ _)[k]? = some c
      rw [List.getElem?_append_left (List.getElem?_eq_some_iff.mp hk).1]
      exact hk
    · rcases issue_reserve hindex with hold | ⟨-, hcall⟩
      · exact hold
      · cases hcall

/-! ### A call takes the snapshot -/

/-- What the checks say about the snapshot of a request. -/
structure Admits (s : ServiceState) (a : Accepted) (snapshot : WorkspaceSnapshot) : Prop where
  known : s.snapshots.get? a.request.snapshotId = some snapshot
  owner : ∀ owner, s.owners.get? a.request.snapshotId = some owner → owner = a.request.requestId

theorem checkNewRun_ok {snapshot : WorkspaceSnapshot} (h : checkNewRun options s a = .ok snapshot) :
    Admits s a snapshot := by
  unfold checkNewRun at h
  split at h
  · cases h
  · rename_i snapshot' hknown
    split at h
    · cases h
    · split at h
      · cases h
      · split at h
        · cases h
        · split at h
          · cases h
          · split at h
            · cases h
            · rename_i howner
              cases h
              refine ⟨hknown, fun owner hsome => ?_⟩
              rw [hsome] at howner
              simpa using howner

theorem Sound.takes {limits : Limits} (h : Sound limits m file s) {c : StartCall}
    (hk : s.calls[k]? = some c) (hc : reservationOf c.stage = none) {snapshot : WorkspaceSnapshot}
    (hadmits : Admits s c.accepted snapshot) (refused : Option Failure)
    (proposedRunId createdAt : String) : Sound limits m file
      (s.take fingerprint k c.accepted snapshot refused proposedRunId createdAt) := by
  unfold ServiceState.take
  split
  · exact h.ends hk hc rfl
  · set owner := s.owners.get? c.accepted.request.snapshotId
    set stage := Stage.reserving s.store.issued.length owner
    refine ⟨h.store.step (a := .issue (.reserve _)) rfl, ?_, ?_, h.keyed⟩
    · intro j c' hj hrelies
      show (s.owners.set c.snapshotId c.requestId).get? c'.snapshotId = some c'.requestId
      by_cases hjk : j = k
      · subst hjk
        cases (update_get hk stage).symm.trans hj
        rw [OrderedMap.get?_set]
        exact if_pos rfl
      · have hbefore := h.owned j c' ((update_other stage hjk).symm.trans hj) hrelies
        rw [OrderedMap.get?_set]
        split
        · rename_i hsame
          rw [hsame] at hbefore
          rw [hadmits.owner _ hbefore]
          rfl
        · exact hbefore
    · intro index input hindex
      rcases issue_reserve hindex with hold | ⟨rfl, hcall⟩
      · obtain ⟨j, c', hj, hbelongs⟩ := h.tracked.ends hk hc stage index input hold
        exact ⟨j, c', hj, hbelongs.log List.prefix_rfl⟩
      · cases hcall
        refine ⟨k, _, update_get hk stage, rfl, rfl, ⟨snapshot.resolvedRevision, ?_⟩,
          fun hfailed => (nomatch hfailed)⟩
        show JsValue.object [("snapshotId", .string snapshot.snapshotId), _] = _
        rw [h.keyed _ _ hadmits.known]
        rfl

/-! ### The answer to a reservation -/

theorem Sound.answers {limits : Limits} (h : Sound limits m file s) {a : Accepted} {index : Nat}
    {owner : Option String} (hk : s.calls[k]? = some ⟨a, .reserving index owner⟩)
    (result : StartRunResult) :
    Sound limits m file (s.update k (.ended (.ok result) (some index))) := by
  refine ⟨h.store, fun j c hj hrelies => ?_, fun index' input hindex => ?_, h.keyed⟩
  · by_cases hjk : j = k
    · subst hjk
      cases (update_get hk _).symm.trans hj
      exact h.owned j ⟨a, .reserving index owner⟩ hk rfl
    · exact h.owned j c ((update_other _ hjk).symm.trans hj) hrelies
  · obtain ⟨j, c, hj, hbelongs⟩ := h.tracked index' input hindex
    by_cases hjk : j = k
    · subst hjk
      cases hk.symm.trans hj
      exact ⟨j, _, update_get hk _, hbelongs.reservation, hbelongs.requestId, hbelongs.snapshot,
        fun hfailed => (nomatch hfailed)⟩
    · exact ⟨j, c, (update_other _ hjk).trans hj, hbelongs.log List.prefix_rfl⟩

theorem Tracked.fails (h : Tracked s) {a : Accepted} {index : Nat} {owner : Option String}
    (hk : s.calls[k]? = some ⟨a, .reserving index owner⟩) {failure : Failure}
    (hreply : s.store.log[index]?.map Entry.reply = some (.error failure)) :
    Tracked (s.update k (.ended (.error failure) (some index))) := by
  intro index' input hindex
  obtain ⟨j, c, hj, hbelongs⟩ := h index' input hindex
  by_cases hjk : j = k
  · subst hjk
    cases hk.symm.trans hj
    cases Option.some.inj hbelongs.reservation
    exact ⟨j, _, update_get hk _, rfl, hbelongs.requestId, hbelongs.snapshot,
      fun _ => ⟨failure, hreply⟩⟩
  · exact ⟨j, c, (update_other _ hjk).trans hj, hbelongs.log List.prefix_rfl⟩

/-- A call that fails gives back a snapshot no other call relies on. -/
theorem Sound.fails {limits : Limits} (h : Sound limits m file s) {a : Accepted} {index : Nat}
    {owner : Option String} (hk : s.calls[k]? = some ⟨a, .reserving index owner⟩)
    {failure : Failure} (hreply : s.store.log[index]?.map Entry.reply = some (.error failure))
    (hundisturbed : Undisturbed s (.reserved k)) :
    Sound limits m file ((s.update k (.ended (.error failure) (some index))).giveBack a owner) := by
  have howned : Owned (s.update k (.ended (.error failure) (some index))) := h.owned.ends rfl
  have htracked := h.tracked.fails hk hreply
  unfold ServiceState.giveBack
  split
  · rename_i hnone
    rw [Option.isNone_iff_eq_none] at hnone
    subst hnone
    refine ⟨h.store, fun j c hj hrelies => ?_,
      htracked.of_calls (fun _ _ hj => hj) List.prefix_rfl (fun _ _ hi => hi), h.keyed⟩
    show (s.owners.erase a.request.snapshotId).get? c.snapshotId = some c.requestId
    have hbefore := howned j c hj hrelies
    rw [OrderedMap.get?_erase]
    split
    · rename_i hsame
      have hjk : j ≠ k := by
        rintro rfl
        cases (update_get hk _).symm.trans hj
        cases hrelies
      have hother := hundisturbed k _ rfl hk ⟨index, failure, rfl, hreply⟩ j c hjk
        ((update_other _ hjk).symm.trans hj) hsame
      rw [hother] at hrelies
      cases hrelies
    · exact hbefore
  · exact ⟨h.store, howned, htracked, h.keyed⟩

/-! ### Every run -/

theorem Sound.next {options : ServiceOptions} (h : Sound options.limits m file s)
    {event : AgentTestService.Event}
    (hnext : AgentTestService.next fingerprint options s event = some t)
    (hundisturbed : Undisturbed s event) : Sound options.limits m file t := by
  cases event with
  | store event =>
    simp only [AgentTestService.next] at hnext
    split at hnext
    · rename_i hothers
      obtain ⟨store, hstore, rfl⟩ := Option.map_eq_some_iff.mp hnext
      exact ⟨h.store.step hstore, h.owned, h.tracked.of_calls (fun _ _ hk => hk) (next_log hstore)
        fun _ _ hindex => others_issued hothers hstore hindex, h.keyed⟩
    · cases hnext
  | prepared snapshot =>
    cases hnext
    refine ⟨h.store, h.owned, h.tracked.of_calls (fun _ _ hj => hj) List.prefix_rfl
      (fun _ _ hi => hi), fun id snapshot' hget => ?_⟩
    have hget : (s.snapshots.set snapshot.snapshotId snapshot).get? id = some snapshot' := hget
    rw [OrderedMap.get?_set] at hget
    split at hget
    · rename_i hsame
      cases hget
      exact hsame.symm
    · exact h.keyed id snapshot' hget
  | start input =>
    simp only [AgentTestService.next] at hnext
    split at hnext
    · cases hnext
      exact h
    · cases hnext
      exact h.begins _
  | found k refused proposedRunId createdAt =>
    simp only [AgentTestService.next] at hnext
    split at hnext
    · rename_i a index hk
      split at hnext
      · rename_i record hrecord
        cases hnext
        unfold ServiceState.found
        split
        · exact h.ends hk rfl (by cases reuse _ a <;> rfl)
        · split
          · exact h.ends hk rfl rfl
          · rename_i snapshot hadmit
            exact h.takes hk rfl (checkNewRun_ok hadmit) refused proposedRunId createdAt
      · cases hnext
        exact h.ends hk rfl rfl
      · cases hnext
    · cases hnext
  | reserved k =>
    simp only [AgentTestService.next] at hnext
    split at hnext
    · rename_i a index owner hk
      split at hnext
      · cases hnext
        exact h.answers hk _
      · rename_i failure hreply
        cases hnext
        exact h.fails hk hreply hundisturbed
      · cases hnext
    · cases hnext

theorem sound_invariant (fingerprint : Execution → String) (options : ServiceOptions) (m : Memory)
    (file : Option StoreFile) : ((service fingerprint options m file).restrict Undisturbed).Invariant
      (Sound options.limits m file) where
  init := by
    intro s hs
    cases hs
    exact ⟨.init rfl, fun _ _ hk => (nomatch hk), fun _ _ hi => (nomatch hi), fun _ _ hs =>
      (nomatch hs)⟩
  step := fun _ _ _ _ h hnext => h.next hnext.1 hnext.2

/-- The runs that were created for a snapshot are one. -/
def OneRun (s : ServiceState) : Prop :=
  ∀ (i j : Nat) (e e' : Entry) (record record' : StoredRunRecord), s.store.log[i]? = some e →
    s.store.log[j]? = some e' → Creates e record → Creates e' record' →
      record.snapshot.snapshotId = record'.snapshot.snapshotId → i = j

theorem stringPair_id {id revision : String} {snapshot : SnapshotRef}
    (h : stringPair (some (.object
      [("snapshotId", .string id), ("resolvedRevision", .string revision)])) = .ok snapshot) :
    snapshot.snapshotId.1 = id := by
  unfold stringPair at h
  simp only [bind_eq_ok, liftSafe_ok, readSafeRecordEnvelope_ok, pure_eq_ok, text_ok] at h
  obtain ⟨fields, ⟨hfields, -⟩, snapshotId, hid, revision', -, hsnapshot⟩ := h
  cases hfields
  rw [← hsnapshot]
  have hid : some (JsValue.string id) = some (.string snapshotId.1) := by simpa using hid
  exact (string_inj hid).symm

/-- The run of a reservation is for the snapshot of the call that issued it. -/
theorem Reserved.snapshot {e : Entry} {record : StoredRunRecord} {input : RunReservation}
    (h : Reserved e record input) {id revision : String} (hinput : input.snapshot = .object
      [("snapshotId", .string id), ("resolvedRevision", .string revision)]) :
    record.snapshot.snapshotId.1 = id := by
  have hreads := (readsAs_of_parse h.reads).snapshot
  have hraw : (newRun input).snapshot = some (.object
      [("snapshotId", .string id), ("resolvedRevision", .string revision)]) := by
    rw [← hinput]
    rfl
  rw [hraw] at hreads
  exact stringPair_id hreads

/-- A created run belongs to a call that relies on the snapshot. -/
theorem Sound.creator {limits : Limits} (hopen : Opens limits m file) (h : Sound limits m file s)
    {i : Nat} {e : Entry} {record : StoredRunRecord} (hi : s.store.log[i]? = some e)
    (hc : Creates e record) : ∃ input, Reserved e record input ∧
      s.owners.get? record.snapshot.snapshotId.1 = some input.requestId := by
  have hstore := (RunStoreQueue.sound_invariant hopen).reachable h.store
  obtain ⟨input, hreserved⟩ := creates_reserved (hstore.entries e (List.mem_of_getElem? hi)) hc
  have hissued := log_issued hstore hi
  rw [hreserved.call] at hissued
  obtain ⟨k, c, hk, hbelongs⟩ := h.tracked i input hissued
  obtain ⟨revision, hsnapshot⟩ := hbelongs.snapshot
  refine ⟨input, hreserved, ?_⟩
  rw [hreserved.snapshot hsnapshot, hbelongs.requestId]
  refine h.owned k c hk ?_
  by_contra hfailed
  obtain ⟨failure, hreply⟩ := hbelongs.failed (Bool.eq_false_iff.mpr hfailed)
  rw [hi, Option.map_some, hc] at hreply
  cases hreply

def demoDefinition : TestDefinition where
  testId := ⟨"service-test:demo/login", by decide⟩
  caseSpecs := []
  parameters := ⟨[], []⟩
  executorId := "command"
  kind := .node
  effect := .readOnly
  platforms := [.linux]

def demoOptions : ServiceOptions := ⟨[demoDefinition], "command", .linux, demoLimits⟩

def demoFingerprint : Execution → String :=
  fun _ => "00112233445566778899aabbccddeeff00112233445566778899aabbccddeeff"

def demoSnapshot : WorkspaceSnapshot :=
  ⟨"operation:00000000-0000-4000-8000-000000000001", "snapshot-1", "head", "/work"⟩

def demoRequest (requestId : String) : JsValue := .object [("requestId", .string requestId),
  ("snapshotId", .string "snapshot-1"), ("testId", .string "service-test:demo/login")]

/-- The store answers call `k`, which then goes on with this run id. -/
def demoFound (k : Nat) (runId : String) : AgentTestService.Event :=
  .found k none runId "2026-01-01T00:00:00.000Z"

def demoService (events : List AgentTestService.Event) : Option ServiceState :=
  System.replay (AgentTestService.next demoFingerprint demoOptions)
    ⟨opened .empty none, .empty, .empty, []⟩ events

/-- The snapshots of the runs the store created. -/
def createdFor (s : ServiceState) : List (Option String) :=
  s.store.log.map fun e => match e.reply with
    | .ok (.reserved true record) => some record.snapshot.snapshotId.1
    | _ => none

theorem createdFor_creates {i : Nat} {id : String} (h : (createdFor s)[i]? = some (some id)) :
    ∃ e record, s.store.log[i]? = some e ∧ Creates e record ∧
      record.snapshot.snapshotId.1 = id := by
  unfold createdFor at h
  rw [List.getElem?_map] at h
  obtain ⟨e, he, hid⟩ := Option.map_eq_some_iff.mp h
  split at hid
  · rename_i record hreply
    exact ⟨e, record, he, hreply, Option.some.inj hid⟩
  · cases hid

/-- A call whose write fails gives the snapshot back to another request. -/
def failedFirst : List AgentTestService.Event :=
  [.prepared demoSnapshot, .start (demoRequest "request-1"), .store (.start 0),
    demoFound 0 "run:00000000-0000-4000-8000-000000000001", .store (.start 0),
    .store (.writeSettled 0 true false), .reserved 0, .start (demoRequest "request-2"),
    .store (.start 0), demoFound 1 "run:00000000-0000-4000-8000-000000000002", .store (.start 0),
    .store (.writeSettled 0 true true)]

/-- The steps of a service with one call, and those that answer no reservation. -/
def Alone (s : ServiceState) (event : AgentTestService.Event) : Prop :=
  s.calls.length ≤ 1 ∨ (match event with | .reserved _ => false | _ => true) = true

instance (s : ServiceState) (event : AgentTestService.Event) : Decidable (Alone s event) :=
  inferInstanceAs (Decidable (_ ∨ _))

theorem Alone.undisturbed {event : AgentTestService.Event} (h : Alone s event) :
    Undisturbed s event := by
  intro k c hevent hk _ j c' hjk hj _
  subst hevent
  rcases h with hone | hother
  · have hklt := (List.getElem?_eq_some_iff.mp hk).1
    have hjlt := (List.getElem?_eq_some_iff.mp hj).1
    omega
  · cases hother

def aloneService : Option ServiceState :=
  System.replay (fun s event => if Alone s event then
      AgentTestService.next demoFingerprint demoOptions s event else none)
    ⟨opened .empty none, .empty, .empty, []⟩ failedFirst

/-- A retry relies on the snapshot that the first call gives back. -/
def retriedFirst : List AgentTestService.Event :=
  [.prepared demoSnapshot, .start (demoRequest "request-1"), .start (demoRequest "request-1"),
    .store (.start 0), .store (.start 0),
    demoFound 0 "run:00000000-0000-4000-8000-000000000001",
    demoFound 1 "run:00000000-0000-4000-8000-000000000002", .store (.start 0),
    .store (.writeSettled 0 true false), .reserved 0, .store (.start 0),
    .store (.writeSettled 0 true true), .reserved 1, .start (demoRequest "request-2"),
    .store (.start 0), demoFound 2 "run:00000000-0000-4000-8000-000000000003", .store (.start 0),
    .store (.writeSettled 0 true true)]

/-- Both runs are evaluated together: what they parse is the same. -/
theorem runs_created :
    aloneService.map createdFor = some [none, none, none, some "snapshot-1"] ∧
      (demoService retriedFirst).map createdFor =
        some [none, none, none, some "snapshot-1", none, some "snapshot-1"] := by
  decide +kernel

end SurfaceLoom.Service.SnapshotOwnership
