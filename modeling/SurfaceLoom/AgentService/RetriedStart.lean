import Mathlib.Data.List.Induction
import Mathlib.Data.List.Perm.Subperm
import Mathlib.Data.List.ReduceOption
import SurfaceLoom.AgentService.SnapshotOwnership

/-! # A start that is tried again

A call that was answered left a run in the store that is what the call asked for, and the store
keeps what a run is for. A later call of that request finds the run and reserves nothing. -/
namespace SurfaceLoom.Service.RetriedStart
open SurfaceLoom.Lib SurfaceLoom.Lib.Transition SurfaceLoom.Service.SafeData
open SurfaceLoom.Service.Validation SurfaceLoom.Service.StoredRun SurfaceLoom.Service.RunStore
open SurfaceLoom.Service.RunStoreInvariants SurfaceLoom.Service.RunStoreQueue
open SurfaceLoom.Service.AgentTestService hiding Event next
open SurfaceLoom.Service.SnapshotOwnership
  (entry_requested log_issued next_log started_grows settled_grows issue_reserve others_issued
    update_get update_other reply_mono stringPair_id checkNewRun_ok Keyed)
open SurfaceLoom.Service.SnapshotLifecycle (WorkspaceSnapshot)

/-! ## The same intent -/

abbrev Parameters := List (String × ParameterValue)

/-- The parameters as the object they are. -/
def fieldsOf (parameters : Parameters) : Fields := parameters.map fun p => (p.1, p.2.toValue)

/-- Two requests that ask for one run: parameters are compared as objects. -/
structure SameIntent (a a' : Accepted) : Prop where
  snapshotId : a.request.snapshotId = a'.request.snapshotId
  testId : a.definition.testId = a'.definition.testId
  parameters : ∀ name, get? (fieldsOf a.parameters) name = get? (fieldsOf a'.parameters) name
  taskId : a.taskId = a'.taskId

theorem SameIntent.refl (a : Accepted) : SameIntent a a := ⟨rfl, rfl, fun _ => rfl, rfl⟩

theorem keys_fieldsOf (parameters : Parameters) :
    (fieldsOf parameters).map Prod.fst = parameters.map Prod.fst := by
  rw [fieldsOf, List.map_map]
  rfl

theorem get?_of_mem {fields : Fields} (h : (fields.map Prod.fst).Nodup) {key : String}
    {v : JsValue} (hv : (key, v) ∈ fields) : get? fields key = some v := by
  induction fields with
  | nil => cases hv
  | cons e rest ih =>
    obtain ⟨hfirst, hrest⟩ := List.nodup_cons.mp h
    rw [get?_cons]
    rcases List.mem_cons.mp hv with rfl | hlater
    · rw [if_pos rfl]
    · have hne : key ≠ e.1 := by
        intro heq
        exact hfirst (heq ▸ List.mem_map_of_mem (f := Prod.fst) hlater)
      rw [if_neg hne]
      exact ih hrest hlater

theorem get?_eq_none {fields : Fields} {key : String} (h : key ∉ fields.map Prod.fst) :
    get? fields key = none := by
  by_contra hsome
  obtain ⟨v, hv⟩ := Option.ne_none_iff_exists'.mp hsome
  exact h (List.mem_map.mpr ⟨_, mem_of_get? hv, rfl⟩)

/-- `isDeepStrictEqual` asks for as many properties, each with its value. -/
theorem sameParameters_iff {recorded : Fields} {parameters : Parameters} :
    sameParameters recorded parameters = true ↔
      recorded.length = parameters.length ∧
        ∀ e ∈ fieldsOf parameters, get? recorded e.1 = some e.2 := by
  rw [sameParameters, Bool.and_eq_true, decide_eq_true_eq, List.all_eq_true, fieldsOf,
    List.forall_mem_map]
  refine and_congr_right fun _ => forall₂_congr fun p _ => ?_
  cases p.2 with
  | string s =>
    cases get? recorded p.1 with
    | none => simp
    | some v => cases v <;> simp [ParameterValue.toValue, eq_comm]
  | number q =>
    cases get? recorded p.1 with
    | none => simp
    | some v => cases v <;> simp [ParameterValue.toValue, eq_comm]
  | boolean b =>
    cases get? recorded p.1 with
    | none => simp
    | some v => cases v <;> simp [ParameterValue.toValue, eq_comm]

/-- As many properties with these values are all there are. -/
theorem sameParameters_get? {recorded : Fields} {parameters : Parameters}
    (hnodup : (parameters.map Prod.fst).Nodup) (h : sameParameters recorded parameters = true)
    (name : String) : get? recorded name = get? (fieldsOf parameters) name := by
  obtain ⟨hlength, hall⟩ := sameParameters_iff.mp h
  rw [← keys_fieldsOf] at hnodup
  by_cases hname : name ∈ (fieldsOf parameters).map Prod.fst
  · obtain ⟨e, he, rfl⟩ := List.mem_map.mp hname
    rw [hall e he, get?_of_mem hnodup he]
  · have hsubset : (fieldsOf parameters).map Prod.fst ⊆ recorded.map Prod.fst := by
      intro key hkey
      obtain ⟨e, he, rfl⟩ := List.mem_map.mp hkey
      exact List.mem_map.mpr ⟨_, mem_of_get? (hall e he), rfl⟩
    have hperm := (List.subperm_of_subset hnodup hsubset).perm_of_length_le (by
      rw [List.length_map, List.length_map, hlength, fieldsOf, List.length_map])
    rw [get?_eq_none hname, get?_eq_none fun hin => hname (hperm.mem_iff.mpr hin)]

/-- Objects with the same properties have as many. -/
theorem length_eq_of_get? {fields fields' : Fields} (h : (fields.map Prod.fst).Nodup)
    (h' : (fields'.map Prod.fst).Nodup) (hsame : ∀ name, get? fields name = get? fields' name) :
    fields.length = fields'.length := by
  have hkeys : ∀ name, name ∈ fields.map Prod.fst ↔ name ∈ fields'.map Prod.fst := by
    intro name
    have hmem : ∀ {l : Fields}, name ∈ l.map Prod.fst ↔ get? l name ≠ none := by
      intro l
      constructor
      · intro hin hnone
        obtain ⟨e, he, rfl⟩ := List.mem_map.mp hin
        rw [get?, List.lookup_eq_none_iff] at hnone
        exact absurd (hnone e he) (by simp)
      · intro hsome
        by_contra hnot
        exact hsome (get?_eq_none hnot)
    rw [hmem, hmem, hsame]
  have hperm := (List.perm_ext_iff_of_nodup h h').mpr hkeys
  rw [← List.length_map (f := Prod.fst), hperm.length_eq, List.length_map]

/-- The run of a record is one that the request asks for. -/
def Matches (record : StoredRunRecord) (a : Accepted) : Prop := assertSameIntent record a = .ok ()

theorem matches_iff {record : StoredRunRecord} {a : Accepted} : Matches record a ↔
    record.snapshot.snapshotId.1 = a.request.snapshotId ∧ record.testId = a.definition.testId ∧
      sameParameters record.parameters.1 a.parameters = true ∧ record.taskId = a.taskId := by
  rw [Matches, assertSameIntent]
  split
  · rename_i h
    refine ⟨nofun, fun hsame => ?_⟩
    obtain ⟨hsnapshot, htest, hparameters, htask⟩ := hsame
    simp [hsnapshot, htest, hparameters, htask] at h
  · rename_i h
    simp only [not_or, not_not, Bool.not_eq_false] at h
    exact ⟨fun _ => h, fun _ => rfl⟩

/-- Among the requests a record is compared with it tells those of one intent. -/
theorem Matches.iff {record : StoredRunRecord} {a a' : Accepted} (h : Matches record a)
    (hnodup : (a.parameters.map Prod.fst).Nodup) (hnodup' : (a'.parameters.map Prod.fst).Nodup) :
    Matches record a' ↔ SameIntent a a' := by
  obtain ⟨hsnapshot, htest, hparameters, htask⟩ := matches_iff.mp h
  rw [matches_iff]
  constructor
  · intro h'
    obtain ⟨hsnapshot', htest', hparameters', htask'⟩ := h'
    exact ⟨hsnapshot.symm.trans hsnapshot', htest.symm.trans htest', fun name =>
      (sameParameters_get? hnodup hparameters name).symm.trans
        (sameParameters_get? hnodup' hparameters' name), htask.symm.trans htask'⟩
  · intro hsame
    refine ⟨hsnapshot.trans hsame.snapshotId, htest.trans hsame.testId, ?_,
      htask.trans hsame.taskId⟩
    rw [← keys_fieldsOf] at hnodup hnodup'
    have hlength := length_eq_of_get? hnodup hnodup' hsame.parameters
    rw [fieldsOf, fieldsOf, List.length_map, List.length_map] at hlength
    refine sameParameters_iff.mpr ⟨(sameParameters_iff.mp hparameters).1.trans hlength, ?_⟩
    intro e he
    rw [sameParameters_get? (by rwa [keys_fieldsOf] at hnodup) hparameters, hsame.parameters,
      get?_of_mem hnodup' he]

/-! ## What an accepted request has -/

/-- A definition has each of its parameters once. -/
def Named (catalog : List TestDefinition) : Prop :=
  ∀ definition ∈ catalog, (definition.parameters.properties.map Prod.fst).Nodup

theorem normalizeParameter_key {schema : ParameterSchema} {source : Fields}
    {property : String × ParameterDefinition} {p : String × ParameterValue}
    (h : normalizeParameter schema source property = .ok (some p)) : p.1 = property.1 := by
  unfold normalizeParameter at h
  split at h
  · split at h <;> cases h
  · simp only [bind_eq_ok, pure_eq_ok] at h
    obtain ⟨value, -, hp⟩ := h
    rw [← Option.some.inj hp]

theorem normalized_keys {schema : ParameterSchema} {source : Fields} :
    ∀ {properties : List (String × ParameterDefinition)}
      {values : List (Option (String × ParameterValue))},
    properties.mapM (normalizeParameter schema source) = .ok values →
      (values.reduceOption.map Prod.fst).Sublist (properties.map Prod.fst)
  | [], values, h => by
    cases h
    exact List.Sublist.slnil
  | property :: rest, values, h => by
    simp only [List.mapM_cons, bind_eq_ok, pure_eq_ok] at h
    obtain ⟨value, hvalue, values', hvalues, rfl⟩ := h
    have hrest := normalized_keys hvalues
    cases value with
    | none => exact hrest.cons property.1
    | some p =>
      rw [List.reduceOption_cons_of_some, List.map_cons, List.map_cons,
        normalizeParameter_key hvalue]
      exact hrest.cons_cons property.1

/-- What later steps use of a request that was read. -/
structure WellRead (a : Accepted) : Prop where
  nodup : (a.parameters.map Prod.fst).Nodup
  requestId : validateRequestId a.request.requestId = .ok a.request.requestId

theorem requestText_ok {value : Option JsValue} {label text : String} {maxBytes : Nat}
    (h : requestText value label maxBytes = .ok text) :
    isText text = true ∧ text.utf8ByteSize ≤ maxBytes := by
  unfold requestText at h
  split at h
  · split at h
    · rename_i hvalid
      cases h
      exact hvalid
    · cases h
  · cases h

theorem accept_wellRead {catalog : List TestDefinition} (hnamed : Named catalog) {input : JsValue}
    {a : Accepted} (h : accept catalog input = .ok a) : WellRead a := by
  simp only [accept, bind_eq_ok, pure_eq_ok] at h
  obtain ⟨request, hrequest, testId, -, definition, hdefinition, parameters, hparameters, taskId, -,
    rfl⟩ := h
  constructor
  · unfold normalizeParameters at hparameters
    simp only [bind_eq_ok] at hparameters
    obtain ⟨source, -, hparameters⟩ := hparameters
    split at hparameters
    · cases hparameters
    · simp only [bind_eq_ok, pure_eq_ok] at hparameters
      obtain ⟨values, hvalues, rfl⟩ := hparameters
      have hmem : definition ∈ catalog := by
        unfold AgentTestService.require at hdefinition
        split at hdefinition
        · rename_i found hfound
          cases hdefinition
          exact List.mem_of_find?_eq_some hfound
        · cases hdefinition
      exact (hnamed definition hmem).sublist (normalized_keys hvalues)
  · simp only [snapshotStartRequest, bind_eq_ok, pure_eq_ok] at hrequest
    obtain ⟨value, -, -, -, acknowledged, -, requestId, hrequestId, snapshotId, -, testId', -,
      taskId', -, rfl⟩ := hrequest
    obtain ⟨htext, hsize⟩ := requestText_ok hrequestId
    have hvalid : ¬ (requestId = "" ∨ requestId.utf8ByteSize > 256) := by
      intro hbad
      rcases hbad with hempty | hlong
      · rw [hempty] at htext
        cases htext
      · omega
    exact if_neg hvalid

/-! ## What the store keeps -/

theorem Matches.same {r r' : StoredRunRecord} {a : Accepted} (h : Matches r a)
    (hsame : SameRun r r') : Matches r' a := by
  rw [matches_iff] at h ⊢
  rw [hsame.snapshot, hsame.testId, hsame.parameters, hsame.taskId]
  exact h

/-- The maps have a run with this id, of this request and for what it asks. -/
structure Established (m : Memory) (a : Accepted) (runId : RunId) : Prop where
  intro ::
  exists_run : ∃ r, m.byRun.get? runId.1 = some r ∧ r.runId = runId ∧
    r.requestId.1 = a.request.requestId ∧ Matches r a

theorem Established.evolves {m m' : Memory} {a : Accepted} {runId : RunId}
    (h : Established m a runId) (hev : Evolves m m') : Established m' a runId := by
  obtain ⟨r, hr, hid, hrequest, hmatches⟩ := h.exists_run
  obtain ⟨r', hr', hsame⟩ := hev.keeps hr
  exact ⟨r', hr', by rw [hsame.runId, hid], by rw [hsame.requestId, hrequest], hmatches.same hsame⟩

section
variable {limits : Limits} {start : Memory} {s : RunStoreQueue.State}

/-- A run stays while calls settle. -/
theorem established_log (h : RunStoreQueue.Sound limits start s) {a : Accepted} {runId : RunId} :
    ∀ (middle pre post : List Entry), s.log = pre ++ (middle ++ post) →
      Established (effects start pre) a runId → Established (effects start (pre ++ middle)) a runId
  | [], pre, _, _, hrun => by rwa [List.append_nil]
  | e :: middle, pre, post, heq, hrun => by
    have hev := (h.entries e (by rw [heq]; simp)).evolves
    rw [h.replayed pre e (middle ++ post) heq, h.after_eq heq] at hev
    have hrest := established_log h middle (pre ++ [e]) post (by rw [heq]; simp) (hrun.evolves hev)
    rwa [List.append_assoc] at hrest

/-- A run was there from the start, or a reservation that settled made it. -/
theorem run_origin (h : RunStoreQueue.Sound limits start s) {id : String} :
    ∀ (pre post : List Entry), s.log = pre ++ post → ∀ r,
      (effects start pre).byRun.get? id = some r →
      (∃ r₀, start.byRun.get? id = some r₀ ∧ SameRun r₀ r) ∨
        ∃ e ∈ pre, ∃ input record, e.call = .reserve input ∧
          parseStoredRun (newRun input).toValue = .ok record ∧ SameRun record r := by
  intro pre
  induction pre using List.reverseRecOn with
  | nil => exact fun _ _ r hr => .inl ⟨r, hr, .refl r⟩
  | append_singleton pre e ih =>
    intro post heq r hr
    rw [List.append_assoc] at heq
    have hcons : s.log = pre ++ e :: post := heq
    have he := h.entries e (by rw [hcons]; simp)
    rw [← h.after_eq hcons] at hr
    have hlater : ∀ r₁, e.before.byRun.get? id = some r₁ → SameRun r₁ r →
        (∃ r₀, start.byRun.get? id = some r₀ ∧ SameRun r₀ r) ∨
          ∃ e' ∈ pre ++ [e], ∃ input record, e'.call = .reserve input ∧
            parseStoredRun (newRun input).toValue = .ok record ∧ SameRun record r := by
      intro r₁ hr₁ hsame
      rw [h.replayed pre e post hcons] at hr₁
      rcases ih _ hcons r₁ hr₁ with ⟨r₀, hr₀, hfirst⟩ | ⟨e', he', input, record, hcall, hparsed, hfirst⟩
      · exact .inl ⟨r₀, hr₀, hfirst.trans hsame⟩
      · exact .inr ⟨e', List.mem_append_left _ he', input, record, hcall, hparsed,
          hfirst.trans hsame⟩
    cases hreply : e.reply with
    | error failure =>
      rw [(he.rejected (by rw [hreply]; rfl)).1] at hr
      exact hlater r hr (.refl r)
    | ok reply =>
      cases operation_traced he.wellFormed (he.resolved reply hreply) hr with
      | same hold => exact hlater r hold (.refl r)
      | reserved input hcall hparsed =>
        exact .inr ⟨e, by simp, input, r, hcall, hparsed, .refl r⟩
      | built r₁ raw hr₁ hbuilds hread =>
        refine hlater r₁ hr₁ ?_
        obtain ⟨-, hstorable, hprepared⟩ := he.wellFormed.fits _ _ hr₁
        rcases (hbuilds.steps hprepared).change hstorable hread with rfl | hadvances
        · exact .refl _
        · exact hadvances.same

end

/-! ## What every call rests on -/

section Service

variable {fingerprint : Execution → String} {options : ServiceOptions} {m : Memory}
  {file : Option StoreFile} {s t : ServiceState} {k : Nat} {a : Accepted}

/-- The reservation is one for this request. -/
def Asks (fingerprint : Execution → String) (input : RunReservation) (a : Accepted) : Prop :=
  ∃ snapshot proposedRunId createdAt, snapshot.snapshotId = a.request.snapshotId ∧
    input = reservation fingerprint a.request.requestId (execution snapshot a) proposedRunId createdAt

/-- The run that a reservation makes is for what the request asks. -/
theorem Asks.record {input : RunReservation} {record : StoredRunRecord}
    (h : Asks fingerprint input a) (hread : WellRead a)
    (hparsed : parseStoredRun (newRun input).toValue = .ok record) :
    record.requestId.1 = a.request.requestId ∧ Matches record a := by
  obtain ⟨snapshot, proposedRunId, createdAt, hid, rfl⟩ := h
  have hreads := readsAs_of_parse hparsed
  refine ⟨(string_inj hreads.requestId).symm, matches_iff.mpr ⟨?_, ?_, ?_, ?_⟩⟩
  · rw [stringPair_id hreads.snapshot, ← hid]
    rfl
  · exact Subtype.ext (string_inj hreads.testId).symm
  · have hfields : record.parameters.1 = fieldsOf a.parameters := by
      have hobject := hreads.parameters
      exact (JsValue.object.inj (Option.some.inj hobject)).symm
    rw [hfields]
    refine sameParameters_iff.mpr ⟨List.length_map .., fun e he => ?_⟩
    exact get?_of_mem (by rw [keys_fieldsOf]; exact hread.nodup) he
  · have htask : a.taskId.map (fun id => JsValue.string id.1) =
        record.taskId.map fun id => .string id.1 := by
      have htask := hreads.taskId
      simp only [newRun, reservation, execution, Option.map_map] at htask
      exact htask
    cases ha : a.taskId with
    | none =>
      cases hr : record.taskId with
      | none => rfl
      | some id => simp [ha, hr] at htask
    | some id =>
      cases hr : record.taskId with
      | none => simp [ha, hr] at htask
      | some id' =>
        rw [ha, hr] at htask
        exact congrArg some (Subtype.ext (string_inj htask).symm)

def Issued (fingerprint : Execution → String) (s : ServiceState) (index : Nat) (a : Accepted) :
    Prop :=
  ∃ input, s.store.issued[index]? = some (.reserve input) ∧ Asks fingerprint input a

/-- What a call has seen of the store. -/
inductive Staged (fingerprint : Execution → String) (m : Memory) (s : ServiceState) (a : Accepted) :
    Stage → Prop
  | reading {index : Nat} :
      s.store.issued[index]? = some (.getByRequestId a.request.requestId) →
      Staged fingerprint m s a (.reading index)
  | reserving {index : Nat} {owner : Option String} : Issued fingerprint s index a →
      m.byRequest.get? a.request.requestId = none →
      Staged fingerprint m s a (.reserving index owner)
  | reused {index : Nat} {e : Entry} {record : StoredRunRecord} {result : StartRunResult} :
      s.store.log[index]? = some e → e.call = .getByRequestId a.request.requestId →
      e.reply = .ok (.found (some record)) → reuse record a = .ok result →
      Staged fingerprint m s a (.ended (.ok result) none)
  | reserved {index : Nat} {e : Entry} {created : Bool} {record : StoredRunRecord} :
      Issued fingerprint s index a → m.byRequest.get? a.request.requestId = none →
      s.store.log[index]? = some e → e.reply = .ok (.reserved created record) →
      Staged fingerprint m s a (.ended (.ok (startResult created record)) (some index))
  | failed {failure : Failure} {index : Option Nat} :
      Staged fingerprint m s a (.ended (.error failure) index)

theorem getElem?_mono {α : Type} {l l' : List α} (h : l <+: l') {i : Nat} {x : α}
    (hx : l[i]? = some x) : l'[i]? = some x := by
  obtain ⟨rest, rfl⟩ := h
  rw [List.getElem?_append_left (List.getElem?_eq_some_iff.mp hx).1, hx]

/-- What a call has seen stays as it was. -/
theorem Staged.mono {stage : Stage} (h : Staged fingerprint m s a stage)
    (hlog : s.store.log <+: t.store.log) (hissued : s.store.issued <+: t.store.issued) :
    Staged fingerprint m t a stage := by
  have hkeep : ∀ {index : Nat}, Issued fingerprint s index a → Issued fingerprint t index a :=
    fun ⟨input, hinput, hasks⟩ => ⟨input, getElem?_mono hissued hinput, hasks⟩
  cases h with
  | reading hindex => exact .reading (getElem?_mono hissued hindex)
  | reserving hindex hstart => exact .reserving (hkeep hindex) hstart
  | reused he hcall hreply hreuse => exact .reused (getElem?_mono hlog he) hcall hreply hreuse
  | reserved hindex hstart he hreply =>
    exact .reserved (hkeep hindex) hstart (getElem?_mono hlog he) hreply
  | failed => exact .failed

structure Sound (fingerprint : Execution → String) (options : ServiceOptions) (m : Memory)
    (file : Option StoreFile) (s : ServiceState) : Prop where
  store : (RunStoreQueue.store options.limits m file).Reachable s.store
  keyed : Keyed s
  calls : ∀ (k : Nat) (c : StartCall), s.calls[k]? = some c →
    WellRead c.accepted ∧ Staged fingerprint m s c.accepted c.stage
  tracked : ∀ (index : Nat) (input : RunReservation),
    s.store.issued[index]? = some (.reserve input) →
      ∃ (k : Nat) (c : StartCall), s.calls[k]? = some c ∧ Asks fingerprint input c.accepted

theorem next_issued {limits : Limits} {u v : RunStoreQueue.State} {event : RunStoreQueue.Event}
    (h : RunStoreQueue.next limits u event = some v) : u.issued <+: v.issued := by
  cases event with
  | issue call =>
    cases h
    exact List.prefix_append ..
  | start index =>
    obtain ⟨⟨call, tail⟩, -, rfl⟩ := Option.map_eq_some_iff.mp h
    exact (started_grows call tail).2.symm ▸ List.prefix_rfl
  | writeSettled index written renamed =>
    obtain ⟨⟨w, tail⟩, -, rfl⟩ := Option.map_eq_some_iff.mp h
    exact (settled_grows w tail written renamed).2.symm ▸ List.prefix_rfl

/-- A step that leaves the calls as they are and reserves nothing. -/
theorem Sound.quiet (h : Sound fingerprint options m file s)
    (hstore : (RunStoreQueue.store options.limits m file).Reachable t.store) (hkeyed : Keyed t)
    (hcalls : t.calls = s.calls) (hlog : s.store.log <+: t.store.log)
    (hissued : s.store.issued <+: t.store.issued)
    (hnew : ∀ (index : Nat) (input : RunReservation), t.store.issued[index]? = some (.reserve input) →
      s.store.issued[index]? = some (.reserve input)) : Sound fingerprint options m file t := by
  refine ⟨hstore, hkeyed, fun k c hk => ?_, fun index input hindex => ?_⟩
  · rw [hcalls] at hk
    obtain ⟨hread, hstaged⟩ := h.calls k c hk
    exact ⟨hread, hstaged.mono hlog hissued⟩
  · obtain ⟨k, c, hk, hasks⟩ := h.tracked index input (hnew index input hindex)
    exact ⟨k, c, by rw [hcalls]; exact hk, hasks⟩

/-- A call goes on to a stage that rests on what the store says now. -/
theorem Sound.moves (h : Sound fingerprint options m file s) {c : StartCall}
    (hk : s.calls[k]? = some c) (stage : Stage) (hcalls : t.calls = (s.update k stage).calls)
    (hstore : t.store = s.store) (hkeyed : Keyed t)
    (hstaged : Staged fingerprint m s c.accepted stage) : Sound fingerprint options m file t := by
  have hmono : ∀ {b : Accepted} {stage : Stage}, Staged fingerprint m s b stage →
      Staged fingerprint m t b stage := by
    intro b stage hb
    exact hb.mono (hstore ▸ List.prefix_rfl) (hstore ▸ List.prefix_rfl)
  refine ⟨by rw [hstore]; exact h.store, hkeyed, fun j c' hj => ?_, fun index input hindex => ?_⟩
  · rw [hcalls] at hj
    by_cases hjk : j = k
    · subst hjk
      cases (update_get hk stage).symm.trans hj
      exact ⟨(h.calls j c hk).1, hmono hstaged⟩
    · rw [update_other stage hjk] at hj
      obtain ⟨hread, hold⟩ := h.calls j c' hj
      exact ⟨hread, hmono hold⟩
  · rw [hstore] at hindex
    obtain ⟨j, c', hj, hasks⟩ := h.tracked index input hindex
    by_cases hjk : j = k
    · subst hjk
      cases hk.symm.trans hj
      exact ⟨j, { c with stage }, by rw [hcalls]; exact update_get hk stage, hasks⟩
    · exact ⟨j, c', by rw [hcalls, update_other stage hjk]; exact hj, hasks⟩

/-- A request that was known from the start is never found to be unknown. -/
theorem unknown_start {limits : Limits} {start : Memory} {u : RunStoreQueue.State}
    (h : RunStoreQueue.Sound limits start u) {e : Entry} (he : e ∈ u.log) {requestId : String}
    (hnone : e.before.byRequest.get? requestId = none) : start.byRequest.get? requestId = none := by
  by_contra hsome
  obtain ⟨runId, hrun⟩ := Option.ne_none_iff_exists'.mp hsome
  have hknown := entry_requested h u.log [] rfl hrun e he
  rw [hnone] at hknown
  cases hknown

/-- What the store answers to a question about a request. -/
theorem found_before {limits : Limits} {start : Memory} {u : RunStoreQueue.State}
    (h : RunStoreQueue.Sound limits start u) {e : Entry} (he : e ∈ u.log) {requestId : String}
    (hcall : e.call = .getByRequestId requestId) {record : Option StoredRunRecord}
    (hreply : e.reply = .ok (.found record)) :
    record = (e.before.byRequest.get? requestId).bind e.before.byRun.get? := by
  have hfound := (h.entries e he).honest.getByRequestId requestId _ hcall hreply
  injection hfound

theorem Sound.takes (h : Sound fingerprint options m file s) {index : Nat}
    (hk : s.calls[k]? = some ⟨a, .reading index⟩) {snapshot : WorkspaceSnapshot}
    (hid : snapshot.snapshotId = a.request.snapshotId)
    (hstart : m.byRequest.get? a.request.requestId = none) (refused : Option Failure)
    (proposedRunId createdAt : String) : Sound fingerprint options m file
      (s.take fingerprint k a snapshot refused proposedRunId createdAt) := by
  unfold ServiceState.take
  split
  · exact h.moves hk _ rfl rfl h.keyed .failed
  · set input := reservation fingerprint a.request.requestId (execution snapshot a) proposedRunId
      createdAt
    set stage := Stage.reserving s.store.issued.length (s.owners.get? a.request.snapshotId)
    have hasks : Asks fingerprint input a := ⟨snapshot, proposedRunId, createdAt, hid, rfl⟩
    have hissued : s.store.issued <+: (RunStoreQueue.issue s.store (.reserve input)).issued :=
      List.prefix_append ..
    have hlast : (RunStoreQueue.issue s.store (.reserve input)).issued[s.store.issued.length]? =
        some (.reserve input) := List.getElem?_concat_length
    refine ⟨h.store.step (a := .issue (.reserve input)) rfl, h.keyed, fun j c hj => ?_,
      fun index' input' hindex => ?_⟩
    · by_cases hjk : j = k
      · subst hjk
        cases (update_get hk stage).symm.trans hj
        exact ⟨(h.calls j _ hk).1, .reserving ⟨input, hlast, hasks⟩ hstart⟩
      · obtain ⟨hread, hstaged⟩ := h.calls j c ((update_other stage hjk).symm.trans hj)
        exact ⟨hread, hstaged.mono List.prefix_rfl hissued⟩
    · rcases issue_reserve hindex with hold | ⟨rfl, hcall⟩
      · obtain ⟨j, c, hj, hasks'⟩ := h.tracked index' input' hold
        by_cases hjk : j = k
        · subst hjk
          cases hk.symm.trans hj
          exact ⟨j, ⟨a, stage⟩, update_get hk stage, hasks'⟩
        · exact ⟨j, c, (update_other stage hjk).trans hj, hasks'⟩
      · cases hcall
        exact ⟨k, ⟨a, stage⟩, update_get hk stage, hasks⟩

theorem Sound.found (hopen : Opens options.limits m file) (h : Sound fingerprint options m file s)
    {index : Nat} (hk : s.calls[k]? = some ⟨a, .reading index⟩) {record : Option StoredRunRecord}
    (hreply : s.store.log[index]?.map Entry.reply = some (.ok (.found record)))
    (refused : Option Failure) (proposedRunId createdAt : String) :
    Sound fingerprint options m file
      (s.found fingerprint options k a record refused proposedRunId createdAt) := by
  have hstore := (RunStoreQueue.sound_invariant hopen).reachable h.store
  obtain ⟨e, he, hreply⟩ := Option.map_eq_some_iff.mp hreply
  obtain ⟨-, hstaged⟩ := h.calls k _ hk
  have hcall : e.call = .getByRequestId a.request.requestId := by
    cases hstaged with
    | reading hindex => exact Option.some.inj ((log_issued hstore he).symm.trans hindex)
  unfold ServiceState.found
  cases record with
  | some record =>
    cases hreuse : reuse record a with
    | error failure =>
      simp only [hreuse]
      exact h.moves hk _ rfl rfl h.keyed .failed
    | ok result =>
      simp only [hreuse]
      exact h.moves hk _ rfl rfl h.keyed (.reused he hcall hreply hreuse)
  | none =>
    simp only
    split
    · exact h.moves hk _ rfl rfl h.keyed .failed
    · rename_i snapshot hadmit
      have hknown := (checkNewRun_ok hadmit).known
      have hmem := List.mem_of_getElem? he
      have hbefore := found_before hstore hmem hcall hreply
      refine h.takes hk (h.keyed _ _ hknown) (unknown_start hstore hmem ?_) refused proposedRunId
        createdAt
      -- an index entry without its run would be answered by an error
      by_contra hsome
      obtain ⟨runId, hrun⟩ := Option.ne_none_iff_exists'.mp hsome
      obtain ⟨r, hr, -⟩ := (hstore.entries e hmem).wellFormed.byRequest_iff.mp hrun
      rw [hrun, Option.bind_some, hr] at hbefore
      cases hbefore

theorem Sound.next (hopen : Opens options.limits m file) (hnamed : Named options.catalog)
    (h : Sound fingerprint options m file s) {event : AgentTestService.Event}
    (hnext : AgentTestService.next fingerprint options s event = some t) :
    Sound fingerprint options m file t := by
  cases event with
  | store event =>
    simp only [AgentTestService.next] at hnext
    split at hnext
    · rename_i hothers
      obtain ⟨store, hstore, rfl⟩ := Option.map_eq_some_iff.mp hnext
      exact h.quiet (h.store.step hstore) h.keyed rfl (next_log hstore) (next_issued hstore)
        fun _ _ hindex => others_issued hothers hstore hindex
    · cases hnext
  | prepared snapshot =>
    cases hnext
    refine h.quiet h.store (fun id snapshot' hget => ?_) rfl List.prefix_rfl List.prefix_rfl
      fun _ _ hindex => hindex
    have hget : (s.snapshots.set snapshot.snapshotId snapshot).get? id = some snapshot' := hget
    rw [OrderedMap.get?_set] at hget
    split at hget
    · rename_i hsame
      cases hget
      exact hsame.symm
    · exact h.keyed id snapshot' hget
  | start input =>
    simp only [AgentTestService.next] at hnext
    split at hnext
    · cases hnext
      exact h
    · rename_i a haccept
      cases hnext
      have hissued : s.store.issued <+:
          (RunStoreQueue.issue s.store (.getByRequestId a.request.requestId)).issued :=
        List.prefix_append ..
      refine ⟨h.store.step (a := .issue (.getByRequestId a.request.requestId)) rfl, h.keyed,
        fun k c hk => ?_, fun index input' hindex => ?_⟩
      · have hk : (s.calls ++ [⟨a, .reading s.store.issued.length⟩])[k]? = some c := hk
        rcases List.mem_append.mp (List.mem_of_getElem? hk) with hold | hnew
        · obtain ⟨j, hj⟩ := List.mem_iff_getElem?.mp hold
          obtain ⟨hread, hstaged⟩ := h.calls j c hj
          exact ⟨hread, hstaged.mono List.prefix_rfl hissued⟩
        · rw [List.mem_singleton.mp hnew]
          exact ⟨accept_wellRead hnamed haccept, .reading List.getElem?_concat_length⟩
      · rcases issue_reserve hindex with hold | ⟨-, hcall⟩
        · obtain ⟨k, c, hk, hasks⟩ := h.tracked index input' hold
          refine ⟨k, c, ?_, hasks⟩
          have hlt := (List.getElem?_eq_some_iff.mp hk).1
          exact (List.getElem?_append_left hlt).trans hk
        · cases hcall
  | found k refused proposedRunId createdAt =>
    simp only [AgentTestService.next] at hnext
    split at hnext
    · rename_i a index hk
      split at hnext
      · rename_i record hrecord
        cases hnext
        exact h.found hopen hk hrecord refused proposedRunId createdAt
      · cases hnext
        exact h.moves hk _ rfl rfl h.keyed .failed
      · cases hnext
    · cases hnext
  | reserved k =>
    simp only [AgentTestService.next] at hnext
    split at hnext
    · rename_i a index owner hk
      split at hnext
      · rename_i created record hrecord
        cases hnext
        obtain ⟨e, he, hreply⟩ := Option.map_eq_some_iff.mp hrecord
        have hstaged := (h.calls k _ hk).2
        cases hstaged with
        | reserving hindex hstart =>
          exact h.moves hk _ rfl rfl h.keyed (.reserved hindex hstart he hreply)
      · rename_i failure _
        cases hnext
        refine h.moves hk (.ended (.error failure) (some index)) ?_ ?_ ?_ .failed
        · unfold ServiceState.giveBack
          split <;> rfl
        · unfold ServiceState.giveBack
          split <;> rfl
        · unfold ServiceState.giveBack
          split <;> exact h.keyed
      · cases hnext
    · cases hnext

theorem sound_invariant (fingerprint : Execution → String) (options : ServiceOptions) (m : Memory)
    (file : Option StoreFile) (hopen : Opens options.limits m file)
    (hnamed : Named options.catalog) : (service fingerprint options m file).Invariant
      (Sound fingerprint options m file) where
  init := by
    intro s hs
    cases hs
    exact ⟨.init rfl, fun _ _ hs => (nomatch hs), fun _ _ hk => (nomatch hk), fun _ _ hi =>
      (nomatch hi)⟩
  step := fun _ _ _ _ h hnext => h.next hopen hnamed hnext

/-! ## A later call -/

/-- No two requests of the calls so far that differ have one fingerprint. -/
def NoCollision (fingerprint : Execution → String) (s : ServiceState) : Prop :=
  ∀ (j k : Nat) (c c' : StartCall), s.calls[j]? = some c → s.calls[k]? = some c' →
    ∀ snapshot snapshot' : WorkspaceSnapshot, snapshot.snapshotId = c.snapshotId →
      snapshot'.snapshotId = c'.snapshotId →
      fingerprint (execution snapshot c.accepted) = fingerprint (execution snapshot' c'.accepted) →
      SameIntent c.accepted c'.accepted

theorem split_at {α : Type} {l : List α} {i : Nat} {x : α} (h : l[i]? = some x) :
    l = l.take i ++ x :: l.drop (i + 1) := by
  obtain ⟨hlt, rfl⟩ := List.getElem?_eq_some_iff.mp h
  rw [List.getElem_cons_drop, List.take_append_drop]

/-- A run that stood after an entry of the log stands now. -/
theorem established_after {limits : Limits} {start : Memory} {u : RunStoreQueue.State}
    (h : RunStoreQueue.Sound limits start u) {index : Nat} {e : Entry} (he : u.log[index]? = some e)
    {runId : RunId} (hrun : Established e.after a runId) :
    Established (effects start u.log) a runId := by
  have hsplit := split_at he
  rw [h.after_eq hsplit] at hrun
  have hlog : u.log = (u.log.take index ++ [e]) ++ (u.log.drop (index + 1) ++ []) := by
    rw [List.append_nil, List.append_assoc]
    exact hsplit
  have hkept := established_log h (u.log.drop (index + 1)) _ [] hlog hrun
  rwa [List.append_assoc, List.singleton_append, ← hsplit] at hkept

/-- A call that was answered has its run in the store. -/
theorem Sound.established (hopen : Opens options.limits m file)
    (h : Sound fingerprint options m file s) (hno : NoCollision fingerprint s) {c : StartCall}
    (hk : s.calls[k]? = some c) {result : StartRunResult} {reservation : Option Nat}
    (hended : c.stage = .ended (.ok result) reservation) :
    Established (effects m s.store.log) c.accepted result.runId := by
  have hstore := (RunStoreQueue.sound_invariant hopen).reachable h.store
  obtain ⟨hread, hstaged⟩ := h.calls k c hk
  rw [hended] at hstaged
  cases hstaged with
  | @reused index e record _ he hcall hreply hreuse =>
    have hentry := hstore.entries e (List.mem_of_getElem? he)
    have hbefore := found_before hstore (List.mem_of_getElem? he) hcall hreply
    obtain ⟨runId, hrequest, hrun⟩ := Option.bind_eq_some_iff.mp hbefore.symm
    obtain ⟨r, hr, hid⟩ := hentry.wellFormed.byRequest_iff.mp hrequest
    cases hr.symm.trans hrun
    unfold reuse at hreuse
    obtain ⟨⟨⟩, hmatches, rfl⟩ := Checked.map_ok.mp hreuse
    have hkeyed := (hentry.wellFormed.fits _ _ hr).keyed
    have hestablished : Established e.before c.accepted record.runId :=
      ⟨record, by rw [hkeyed]; exact hr, rfl, hid, hmatches⟩
    exact established_after hstore he (hestablished.evolves hentry.evolves)
  | @reserved index e created record hissued hstart he hreply =>
    have hentry := hstore.entries e (List.mem_of_getElem? he)
    obtain ⟨input, hinput, hasks⟩ := hissued
    have hcall : e.call = .reserve input :=
      Option.some.inj ((log_issued hstore he).symm.trans hinput)
    have hop := hentry.resolved _ hreply
    rw [hcall] at hop
    have hrunId : (startResult created record).runId = record.runId := by
      unfold startResult
      split <;> rfl
    rw [hrunId]
    refine established_after hstore he ?_
    obtain ⟨snapshot, proposedRunId, createdAt, hsnapshot, rfl⟩ := hasks
    have hreserves := reserve_ok hop
    generalize e.after = after at hreserves ⊢
    cases hreserves with
    | created hnone hfresh hparsed hset =>
      have hfor := Asks.record ⟨snapshot, proposedRunId, createdAt, hsnapshot, rfl⟩ hread hparsed
      refine ⟨record, ?_, rfl, hfor.1, hfor.2⟩
      unfold Memory.set at hset
      split at hset
      · cases hset
      · rw [← Except.ok.inj hset]
        exact (OrderedMap.get?_set).trans (if_pos rfl)
    | @existing _ runId hrequest hrun hfingerprint =>
      obtain ⟨r, hr, hid⟩ := hentry.wellFormed.byRequest_iff.mp hrequest
      cases hr.symm.trans hrun
      have hkeyed := (hentry.wellFormed.fits _ _ hr).keyed
      -- the run is not one the store was opened with, so another call of this run made it
      have hsplit := split_at he
      have hbefore := hstore.replayed _ _ _ hsplit
      rw [hbefore] at hr
      rcases run_origin hstore _ _ hsplit _ hr with ⟨r₀, hr₀, hsame⟩ | ⟨e', he', input', record', hcall',
        hparsed', hsame⟩
      · have hwf : WellFormed m := hopen.1
        have hold := hwf.byRequest_iff.mpr ⟨r₀, hr₀, congrArg Subtype.val hsame.requestId.symm⟩
        have hknown : record.requestId.1 = c.accepted.request.requestId := hid
        rw [hknown, hstart] at hold
        cases hold
      · have hmem : e' ∈ s.store.log := List.mem_of_mem_take he'
        obtain ⟨index', hindex'⟩ := List.mem_iff_getElem?.mp hmem
        have hissued' := log_issued hstore hindex'
        rw [hcall'] at hissued'
        obtain ⟨k', c', hk', hasks'⟩ := h.tracked index' input' hissued'
        obtain ⟨hread', -⟩ := h.calls k' c' hk'
        obtain ⟨-, hmatches'⟩ := hasks'.record hread' hparsed'
        obtain ⟨snapshot', proposedRunId', createdAt', hsnapshot', rfl⟩ := hasks'
        have hfingerprint' : record'.fingerprint.1 =
            fingerprint (execution snapshot' c'.accepted) :=
          (string_inj (readsAs_of_parse hparsed').fingerprint).symm
        have hcollide : fingerprint (execution snapshot' c'.accepted) =
            fingerprint (execution snapshot c.accepted) := by
          rw [← hfingerprint', ← hsame.fingerprint]
          exact hfingerprint
        have hintent := hno k' k c' c hk' hk snapshot' snapshot hsnapshot' hsnapshot hcollide
        have hmatches := (hmatches'.iff hread'.nodup hread.nodup).mpr hintent
        rw [← hbefore] at hr
        exact ⟨_, by rw [hkeyed]; exact hr, rfl, hid, hmatches.same hsame⟩

/-- What the store answers to the request of a run it has. -/
theorem Established.answer {n : Memory} (hn : WellFormed n) {runId : RunId}
    (h : Established n a runId) (hread : WellRead a) :
    ∃ r, getByRequestId n a.request.requestId = .ok (.found (some r)) ∧ r.runId = runId ∧
      Matches r a := by
  obtain ⟨r, hr, hrunId, hrequest, hmatches⟩ := h.exists_run
  refine ⟨r, ?_, hrunId, hmatches⟩
  have hknown := hn.byRequest_iff.mpr ⟨r, hr, hrequest⟩
  unfold getByRequestId Memory.require
  simp [hread.requestId, hknown, hr, hn.clone_ok hr]

def differentRequest : Failure :=
  .typeError "requestId was already used for a different run request."

/-- How a call stands that retries one which was answered, for the same intent or not; `index`
counts what it asked the store, and it reserves nothing. -/
inductive Retries (same : Prop) (runId : RunId) (index : Nat) : Stage → Prop
  | reading : Retries same runId index (.reading index)
  | reused {status : RunStatus} : same →
      Retries same runId index (.ended (.ok ⟨runId, status, true⟩) none)
  | refused : ¬ same → Retries same runId index (.ended (.error differentRequest) none)

/-- A run is compared with the request that retries. -/
theorem reuse_retries {first : Accepted} {r : StoredRunRecord} (h : Matches r first)
    (hfirst : WellRead first) (hread : WellRead a) (index : Nat) :
    Retries (SameIntent first a) r.runId index (.ended (reuse r a) none) := by
  by_cases hsame : SameIntent first a
  · have hmatches : assertSameIntent r a = .ok () := (h.iff hfirst.nodup hread.nodup).mpr hsame
    unfold reuse
    rw [hmatches]
    exact .reused hsame
  · have hother : reuse r a = .error differentRequest := by
      have hdiffers := mt (h.iff hfirst.nodup hread.nodup).mp hsame
      rw [Matches] at hdiffers
      unfold reuse
      unfold assertSameIntent at hdiffers ⊢
      split
      · rfl
      · rename_i hnot
        rw [if_neg hnot] at hdiffers
        exact absurd rfl hdiffers
    rw [hother]
    exact .refused hsame

/-- Call `k` retries one whose run the store had when it started. -/
structure Later (fingerprint : Execution → String) (options : ServiceOptions) (m : Memory)
    (file : Option StoreFile) (first a : Accepted) (runId : RunId) (log : List Entry)
    (index k : Nat) (t : ServiceState) : Prop where
  sound : Sound fingerprint options m file t
  log : log <+: t.store.log
  call : ∃ stage, t.calls[k]? = some ⟨a, stage⟩ ∧ Retries (SameIntent first a) runId index stage

/-- What the store answers a call that retries. -/
theorem Later.answer {first : Accepted} {runId : RunId} {log : List Entry} {index : Nat}
    (hopen : Opens options.limits m file)
    (h : Later fingerprint options m file first a runId log index k t) (hfirst : WellRead first)
    (hrequest : first.request.requestId = a.request.requestId)
    (hrun : Established (effects m log) first runId) (hlength : log.length ≤ index)
    (hk : t.calls[k]? = some ⟨a, .reading index⟩) {e : Entry}
    (he : t.store.log[index]? = some e) :
    ∃ r, e.reply = .ok (.found (some r)) ∧ r.runId = runId ∧ Matches r first := by
  have hstore := (RunStoreQueue.sound_invariant hopen).reachable h.sound.store
  have hentry := hstore.entries e (List.mem_of_getElem? he)
  have hcall : e.call = .getByRequestId a.request.requestId := by
    have hstaged := (h.sound.calls k _ hk).2
    cases hstaged with
    | reading hindex => exact Option.some.inj ((log_issued hstore he).symm.trans hindex)
  have hsplit := split_at he
  obtain ⟨middle, hmiddle⟩ : ∃ middle, t.store.log.take index = log ++ middle := by
    obtain ⟨rest, hrest⟩ := h.log
    refine ⟨rest.take (index - log.length), ?_⟩
    rw [← hrest, List.take_append, List.take_of_length_le hlength]
  rw [hmiddle, List.append_assoc] at hsplit
  have hbefore := established_log hstore middle log _ hsplit hrun
  rw [← List.append_assoc] at hsplit
  rw [← hstore.replayed _ _ _ hsplit] at hbefore
  obtain ⟨r, hget, hrunId, hmatches⟩ := hbefore.answer hentry.wellFormed hfirst
  refine ⟨r, ?_, hrunId, hmatches⟩
  rw [hentry.reads (by rw [hcall]; rfl), hcall, ← hrequest]
  exact hget

theorem Later.next {first : Accepted} {runId : RunId} {log : List Entry} {index : Nat}
    (hopen : Opens options.limits m file) (hnamed : Named options.catalog)
    (h : Later fingerprint options m file first a runId log index k s) (hfirst : WellRead first)
    (hrequest : first.request.requestId = a.request.requestId)
    (hrun : Established (effects m log) first runId) (hlength : log.length ≤ index)
    {event : AgentTestService.Event}
    (hnext : AgentTestService.next fingerprint options s event = some t) :
    Later fingerprint options m file first a runId log index k t := by
  have hsound := h.sound.next hopen hnamed hnext
  obtain ⟨stage, hk, hretries⟩ := h.call
  have hread := (h.sound.calls k _ hk).1
  cases event with
  | store event =>
    simp only [AgentTestService.next] at hnext
    split at hnext
    · obtain ⟨store, hstore, rfl⟩ := Option.map_eq_some_iff.mp hnext
      exact ⟨hsound, h.log.trans (next_log hstore), stage, hk, hretries⟩
    · cases hnext
  | prepared snapshot =>
    cases hnext
    exact ⟨hsound, h.log, stage, hk, hretries⟩
  | start input =>
    simp only [AgentTestService.next] at hnext
    split at hnext
    · cases hnext
      exact h
    · cases hnext
      have hlt := (List.getElem?_eq_some_iff.mp hk).1
      exact ⟨hsound, h.log, stage, (List.getElem?_append_left hlt).trans hk, hretries⟩
  | found j refused proposedRunId createdAt =>
    by_cases hjk : j = k
    · subst hjk
      simp only [AgentTestService.next, hk] at hnext
      cases hretries with
      | reused _ => cases hnext
      | refused _ => cases hnext
      | reading =>
        simp only at hnext
        cases hlog : s.store.log[index]? with
        | none =>
          rw [hlog] at hnext
          cases hnext
        | some e =>
          obtain ⟨r, hreply, hrunId, hmatches⟩ :=
            h.answer hopen hfirst hrequest hrun hlength hk hlog
          simp only [hlog, Option.map_some, hreply, Option.some.injEq] at hnext
          subst hnext hrunId
          exact ⟨hsound, h.log, _, update_get hk _, reuse_retries hmatches hfirst hread index⟩
    · have hother : t.calls[k]? = s.calls[k]? ∧ s.store.log <+: t.store.log := by
        simp only [AgentTestService.next] at hnext
        split at hnext
        · rename_i b i hj
          split at hnext
          · cases hnext
            unfold ServiceState.found ServiceState.take
            split
            · exact ⟨update_other _ (Ne.symm hjk), List.prefix_rfl⟩
            · split
              · exact ⟨update_other _ (Ne.symm hjk), List.prefix_rfl⟩
              · split
                · exact ⟨update_other _ (Ne.symm hjk), List.prefix_rfl⟩
                · exact ⟨update_other _ (Ne.symm hjk), List.prefix_rfl⟩
          · cases hnext
            exact ⟨update_other _ (Ne.symm hjk), List.prefix_rfl⟩
          · cases hnext
        · cases hnext
      exact ⟨hsound, h.log.trans hother.2, stage, hother.1.trans hk, hretries⟩
  | reserved j =>
    by_cases hjk : j = k
    · subst hjk
      simp only [AgentTestService.next, hk] at hnext
      cases hretries <;> cases hnext
    · have hother : t.calls[k]? = s.calls[k]? ∧ t.store = s.store := by
        simp only [AgentTestService.next] at hnext
        split at hnext
        · rename_i b i owner hj
          split at hnext
          · cases hnext
            exact ⟨update_other _ (Ne.symm hjk), rfl⟩
          · cases hnext
            unfold ServiceState.giveBack
            split <;> exact ⟨update_other _ (Ne.symm hjk), rfl⟩
          · cases hnext
        · cases hnext
      exact ⟨hsound, by rw [hother.2]; exact h.log, stage, hother.1.trans hk, hretries⟩

/-- A start that is tried again is answered with the run of the first call or refused, and
reserves nothing; it goes on as soon as the store has answered it. -/
theorem retried_later (hopen : Opens options.limits m file) (hnamed : Named options.catalog)
    (hs : (service fingerprint options m file).Reachable s) (hno : NoCollision fingerprint s)
    {first : StartCall} (hj : first ∈ s.calls) {result : StartRunResult} {reservation : Option Nat}
    (hended : first.stage = .ended (.ok result) reservation) {input : JsValue}
    (haccept : accept options.catalog input = .ok a)
    (hrequest : first.accepted.request.requestId = a.request.requestId) {s₁ : ServiceState}
    (hstart : AgentTestService.next fingerprint options s (.start input) = some s₁)
    {events : List AgentTestService.Event}
    (hexec : (service fingerprint options m file).Exec s₁ events t) :
    ∃ stage, t.calls[s.calls.length]? = some ⟨a, stage⟩ ∧
      Retries (SameIntent first.accepted a) result.runId s.store.issued.length stage ∧
      (stage = .reading s.store.issued.length → t.store.log[s.store.issued.length]?.isSome →
        ∀ refused proposedRunId createdAt, (AgentTestService.next fingerprint options t
          (.found s.calls.length refused proposedRunId createdAt)).isSome) := by
  have hsound := (sound_invariant fingerprint options m file hopen hnamed).reachable hs
  have hstore := (RunStoreQueue.sound_invariant hopen).reachable hsound.store
  obtain ⟨j, hj⟩ := List.mem_iff_getElem?.mp hj
  have hrun := hsound.established hopen hno hj hended
  have hfirst := (hsound.calls j _ hj).1
  have hlength : s.store.log.length ≤ s.store.issued.length := by
    have hcount := congrArg List.length hstore.calls
    simp only [List.length_append, List.length_map] at hcount
    omega
  have hlater : Later fingerprint options m file first.accepted a result.runId s.store.log
      s.store.issued.length s.calls.length t := by
    have hnow : Later fingerprint options m file first.accepted a result.runId s.store.log
        s.store.issued.length s.calls.length s₁ := by
      have hnow := hsound.next hopen hnamed hstart
      simp only [AgentTestService.next, haccept] at hstart
      cases hstart
      exact ⟨hnow, List.prefix_rfl, _, List.getElem?_concat_length, .reading⟩
    clear hstart
    induction hexec with
    | nil => exact hnow
    | snoc _ hnext ih => exact ih.next hopen hnamed hfirst hrequest hrun hlength hnext
  obtain ⟨stage, hk, hretries⟩ := hlater.call
  refine ⟨stage, hk, hretries, ?_⟩
  rintro rfl hanswered refused proposedRunId createdAt
  obtain ⟨e, he⟩ := Option.isSome_iff_exists.mp hanswered
  obtain ⟨r, hreply, -⟩ := hlater.answer hopen hfirst hrequest hrun hlength hk he
  simp only [AgentTestService.next, hk, he, Option.map_some, hreply]
  rfl

end Service

end SurfaceLoom.Service.RetriedStart
