import Mathlib.Tactic.Ring
import SurfaceLoom.AgentService.RunStoreQueue

/-! # Ending the runs of a store

An interrupted record holds a result that repeats most of the record, so it
needs more of the data budget and more bytes of the file than the reservation
that was accepted. Here is how much more, and when the store can pay it. -/
namespace SurfaceLoom.Service.RunRecovery
open SurfaceLoom.Lib SurfaceLoom.Lib.PromiseTail SurfaceLoom.Lib.Transition
open SurfaceLoom.Service.SafeData SurfaceLoom.Service.Validation SurfaceLoom.Service.StoredRun
open SurfaceLoom.Service.RunStore SurfaceLoom.Service.RunStoreInvariants
open SurfaceLoom.Service.RunStoreQueue

/-! ## Weights -/

/-- A size of values that adds up over the properties of an object. -/
structure Weight where
  size : JsValue → Nat
  own : Nat
  key : String → Nat
  object : ∀ fields : Fields, fields ≠ [] →
    size (.object fields) = own + (fields.map fun e => key e.1 + size e.2).sum

theorem fieldsNodeCount_eq (fields : Fields) :
    fieldsNodeCount fields = (fields.map fun e => 0 + nodeCount e.2).sum := by
  induction fields with
  | nil => rfl
  | cons e fields ih => simp [fieldsNodeCount, ih]

theorem fieldsStringCost_eq (fields : Fields) :
    fieldsStringCost fields = (fields.map fun e => e.1.utf8ByteSize + stringCost e.2).sum := by
  induction fields with
  | nil => rfl
  | cons e fields ih => simp [fieldsStringCost, ih]

theorem fieldsBytes_eq (numberBytes : ℚ → Nat) : ∀ fields : Fields, fields ≠ [] →
    fieldsBytes numberBytes fields + 1 =
      (fields.map fun e => stringBytes e.1 + 2 + jsonBytes numberBytes e.2).sum
  | [], h => absurd rfl h
  | [e], _ => by
    simp only [fieldsBytes, List.isEmpty_nil, if_true, List.map_cons, List.map_nil,
      List.sum_cons, List.sum_nil]
    omega
  | e :: e' :: rest, _ => by
    have ih := fieldsBytes_eq numberBytes (e' :: rest) (List.cons_ne_nil _ _)
    rw [List.map_cons, List.sum_cons, ← ih, fieldsBytes]
    simp only [List.isEmpty_cons, Bool.false_eq_true, if_false]
    omega

namespace Weight

def nodes : Weight where
  size := nodeCount
  own := 1
  key _ := 0
  object fields _ := by rw [nodeCount, fieldsNodeCount_eq]

def strings : Weight where
  size := stringCost
  own := 0
  key := String.utf8ByteSize
  object fields _ := by rw [stringCost, fieldsStringCost_eq, Nat.zero_add]

def bytes (numberBytes : ℚ → Nat) : Weight where
  size := jsonBytes numberBytes
  own := 1
  key s := stringBytes s + 2
  object fields h := by
    have := fieldsBytes_eq numberBytes fields h
    rw [jsonBytes]
    omega

/-- What a property weighs, if it is defined. -/
def property (μ : Weight) (e : String × Option JsValue) : Nat :=
  match e.2 with
  | none => 0
  | some v => μ.key e.1 + μ.size v

theorem sum_defined (μ : Weight) (entries : List (String × Option JsValue)) :
    ((defined entries).map fun e => μ.key e.1 + μ.size e.2).sum =
      (entries.map μ.property).sum := by
  induction entries with
  | nil => rfl
  | cons e entries ih =>
    obtain ⟨key, value⟩ := e
    cases value with
    | none => simpa [defined, property] using ih
    | some v =>
      have hcons : defined ((key, some v) :: entries) = (key, v) :: defined entries := rfl
      rw [hcons, List.map_cons, List.sum_cons, ih]
      rfl

theorem size_defined (μ : Weight) {entries : List (String × Option JsValue)}
    (h : defined entries ≠ []) :
    μ.size (.object (defined entries)) = μ.own + (entries.map μ.property).sum := by
  rw [μ.object _ h, sum_defined]

end Weight

/-! ## The interrupted record -/

/-- The properties an interrupted record holds twice, once in its result. -/
def repeated (r : StoredRunRecord) (error cleanup : JsValue) (finishedAt : String) :
    List (String × Option JsValue) :=
  [("runId", r.toRaw.runId), ("snapshot", r.toRaw.snapshot), ("testId", r.toRaw.testId),
    ("parameters", r.toRaw.parameters), ("taskId", r.toRaw.taskId),
    ("executionLinks", r.toRaw.executionLinks), ("artifacts", r.toRaw.artifacts),
    ("finishedAt", some (.string finishedAt)), ("cleanup", some cleanup), ("outcome", some .null),
    ("error", some error)]

/-- The properties it holds once, those of the result last. -/
def single (r : StoredRunRecord) (finishedAt : String) : List (String × Option JsValue) :=
  [("schemaVersion", some schemaVersion), ("revision", nextRevision r),
    ("requestId", r.toRaw.requestId), ("fingerprint", r.toRaw.fingerprint),
    ("status", some (.string RunStatus.interrupted.name)), ("createdAt", r.toRaw.createdAt),
    ("updatedAt", some (.string finishedAt)), ("startedAt", r.toRaw.startedAt),
    ("workspaceRelease", r.toRaw.workspaceRelease), ("tainted", some (.boolean true)),
    ("startedAt", r.toRaw.startedAt.or r.toRaw.createdAt),
    ("executionStatus", some (.string RunStatus.interrupted.name))]

/-- The properties of the result of an interrupted run. -/
def resultEntries (r : StoredRunRecord) (error cleanup : JsValue) (finishedAt : String) :
    List (String × Option JsValue) :=
  [("runId", r.toRaw.runId), ("snapshot", r.toRaw.snapshot), ("testId", r.toRaw.testId),
    ("parameters", r.toRaw.parameters), ("taskId", r.toRaw.taskId),
    ("executionLinks", r.toRaw.executionLinks),
    ("startedAt", r.toRaw.startedAt.or r.toRaw.createdAt),
    ("finishedAt", some (.string finishedAt)), ("artifacts", r.toRaw.artifacts),
    ("cleanup", some cleanup), ("executionStatus", some (.string RunStatus.interrupted.name)),
    ("outcome", some .null), ("error", some error)]

theorem interruptedRun_result (r : StoredRunRecord) (error cleanup : JsValue)
    (finishedAt : String) : (interruptedRun r error cleanup finishedAt).result =
      some (.object (defined (resultEntries r error cleanup finishedAt))) := rfl

/-- What a run weighs once it is interrupted. -/
def Weight.interrupted (μ : Weight) (r : StoredRunRecord) (error cleanup : JsValue)
    (finishedAt : String) : Nat :=
  2 * μ.own + μ.key "result" +
    2 * ((repeated r error cleanup finishedAt).map μ.property).sum +
    ((single r finishedAt).map μ.property).sum

theorem interrupted_size (μ : Weight) (r : StoredRunRecord) (error cleanup : JsValue)
    (finishedAt : String) :
    μ.size (interruptedRun r error cleanup finishedAt).toValue =
      μ.interrupted r error cleanup finishedAt := by
  have hrecord : defined (interruptedRun r error cleanup finishedAt).entries ≠ [] :=
    List.cons_ne_nil _ _
  have hentries : defined (resultEntries r error cleanup finishedAt) ≠ [] :=
    List.cons_ne_nil _ _
  have hresult : μ.property ("result", (interruptedRun r error cleanup finishedAt).result) =
      μ.key "result" +
        (μ.own + ((resultEntries r error cleanup finishedAt).map μ.property).sum) := by
    rw [interruptedRun_result, ← μ.size_defined hentries]
    rfl
  have hschema : (interruptedRun r error cleanup finishedAt).schemaVersion =
      some schemaVersion := rfl
  unfold RawRun.toValue Weight.interrupted
  rw [μ.size_defined hrecord]
  simp only [RawRun.entries, List.map_cons, List.map_nil, List.sum_cons, List.sum_nil, hresult,
    hschema, resultEntries, repeated, single]
  simp only [interruptedRun]
  ring

/-- The record that replaces an interrupted run. -/
def interruptedRecord (r : StoredRunRecord) (error : ExecutionError) (cleanup : CleanupReceipt)
    (finishedAt : Timestamp) (h : r.revision.1 < maxSafeInteger) : StoredRunRecord :=
  { r with
    revision := ⟨r.revision.1 + 1, h⟩
    status := .interrupted
    outcome := none
    updatedAt := finishedAt
    finishedAt := some finishedAt
    result := some ⟨defined (resultEntries r error.toValue cleanup.toValue finishedAt.1),
      le_trans (defined_length_le _) (Nat.le_of_ble_eq_true rfl)⟩
    error := some error
    cleanup := some cleanup
    tainted := true }

theorem interruptedRecord_toRaw {r : StoredRunRecord} {error : ExecutionError}
    {cleanup : CleanupReceipt} {finishedAt : Timestamp} (h : r.revision.1 < maxSafeInteger) :
    (interruptedRecord r error cleanup finishedAt h).toRaw =
      interruptedRun r error.toValue cleanup.toValue finishedAt.1 := rfl

/-- What an interruption asks of one run, whatever else the file holds. -/
structure Interruptible (r : StoredRunRecord) (error : ExecutionError) (cleanup : CleanupReceipt)
    (finishedAt : Timestamp) : Prop where
  revision : r.revision.1 < maxSafeInteger
  receipt : ∀ id ∈ cleanup.runId, id = r.runId
  parameters : Plain r.parameters.toValue 2
  links : ∀ links ∈ r.executionLinks, Plain links.toValue 2
  nodes : Weight.nodes.interrupted r error.toValue cleanup.toValue finishedAt.1 ≤ maxNodes
  strings :
    Weight.strings.interrupted r error.toValue cleanup.toValue finishedAt.1 ≤ maxStringBytes

/-! ## Its depth -/

theorem plain_defined {entries : List (String × Option JsValue)} {depth : Nat} :
    Plain (.object (defined entries)) depth ↔ depth ≤ maxDepth ∧
      (defined entries).length ≤ maxCollectionEntries ∧
        ∀ e ∈ entries, ∀ v ∈ e.2, Plain v (depth + 1) := by
  simp only [Plain, fieldsPlain_iff]
  refine and_congr_right fun _ => and_congr_right fun _ => ?_
  constructor
  · intro h e he v hv
    exact h (e.1, v) (List.mem_filterMap.mpr ⟨e, he, by rw [Option.mem_def.mp hv]; rfl⟩)
  · intro h e he
    obtain ⟨e', he', heq⟩ := List.mem_filterMap.mp he
    obtain ⟨v, hv, rfl⟩ := Option.map_eq_some_iff.mp heq
    exact h e' he' v hv

theorem itemsPlain_iff {items : List JsValue} {depth : Nat} :
    ItemsPlain items depth ↔ ∀ item ∈ items, Plain item (depth + 1) := by
  induction items with
  | nil => simp [ItemsPlain]
  | cons item items ih => simp [ItemsPlain, ih]

@[simp] theorem plain_string {s : String} {depth : Nat} :
    Plain (.string s) depth ↔ depth ≤ maxDepth := by simp [Plain]

@[simp] theorem plain_number {q : ℚ} {depth : Nat} :
    Plain (.number q) depth ↔ depth ≤ maxDepth := by simp [Plain]

@[simp] theorem plain_boolean {b : Bool} {depth : Nat} :
    Plain (.boolean b) depth ↔ depth ≤ maxDepth := by simp [Plain]

@[simp] theorem plain_null {depth : Nat} : Plain .null depth ↔ depth ≤ maxDepth := by simp [Plain]

theorem plain_some {v : JsValue} {depth : Nat} (h : Plain v depth) :
    ∀ w ∈ some v, Plain w depth := by
  intro w hw
  cases hw
  exact h

theorem plain_texts {α : Type} {o : Option α} {f : α → String} {depth : Nat}
    (h : depth ≤ maxDepth) : ∀ w ∈ o.map fun t => JsValue.string (f t), Plain w depth := by
  intro w hw
  obtain ⟨t, -, rfl⟩ := Option.map_eq_some_iff.mp hw
  exact plain_string.mpr h

/-- An object of a few leaves fits wherever its leaves do. -/
theorem plain_leaves {entries : List (String × Option JsValue)} {depth : Nat}
    (hwidth : entries.length ≤ maxCollectionEntries) (hdepth : depth + 1 ≤ maxDepth)
    (h : ∀ e ∈ entries, ∀ v ∈ e.2, ∀ d, d ≤ maxDepth → Plain v d) :
    Plain (.object (defined entries)) depth :=
  plain_defined.mpr ⟨le_trans (Nat.le_succ _) hdepth, le_trans (defined_length_le _) hwidth,
    fun e he v hv => h e he v hv _ hdepth⟩

theorem snapshot_plain (s : SnapshotRef) {depth : Nat} (h : depth + 1 ≤ maxDepth) :
    Plain s.toValue depth := by
  refine @plain_leaves s.entries depth (Nat.le_of_ble_eq_true rfl) h ?_
  simp [SnapshotRef.entries]

theorem artifact_plain (a : Artifact) {depth : Nat} (h : depth + 1 ≤ maxDepth) :
    Plain a.toValue depth := by
  refine @plain_leaves a.entries depth (Nat.le_of_ble_eq_true rfl) h ?_
  simp [Artifact.entries]

theorem cleanup_plain (c : CleanupReceipt) {depth : Nat} (h : depth + 1 ≤ maxDepth) :
    Plain c.toValue depth := by
  refine @plain_leaves c.entries depth (Nat.le_of_ble_eq_true rfl) h ?_
  simp [CleanupReceipt.entries]

theorem error_plain (e : ExecutionError) {depth : Nat} (h : depth + 1 ≤ maxDepth) :
    Plain e.toValue depth := by
  refine @plain_leaves e.entries depth (Nat.le_of_ble_eq_true rfl) h ?_
  simp [ExecutionError.entries]

/-- What the depth of a stored record says about its properties. -/
theorem stored_plain {r : StoredRunRecord} (hs : Storable r) :
    ∀ e ∈ r.toRaw.entries, ∀ v ∈ e.2, Plain v 1 :=
  (plain_defined.mp (parseStoredRun_ok.mp hs).1.plain).2.2

theorem artifacts_plain {r : StoredRunRecord} (hs : Storable r) :
    Plain (.array (r.artifacts.map Artifact.toValue)) 2 := by
  have hstored : Plain (.array (r.artifacts.map Artifact.toValue)) 1 := by
    refine stored_plain hs ("artifacts", r.toRaw.artifacts) ?_ _ rfl
    simp [RawRun.entries]
  simp only [Plain] at hstored ⊢
  refine ⟨by decide, hstored.2.1, itemsPlain_iff.mpr fun item hitem => ?_⟩
  obtain ⟨a, -, rfl⟩ := List.mem_map.mp hitem
  exact artifact_plain a (by decide)

/-- One level deeper, only the parameters and the links may not fit. -/
theorem interrupted_plain {r : StoredRunRecord} (hs : Storable r) (error : ExecutionError)
    (cleanup : CleanupReceipt) (finishedAt : Timestamp) :
    Plain (interruptedRun r error.toValue cleanup.toValue finishedAt.1).toValue 0 ↔
      Plain r.parameters.toValue 2 ∧ ∀ links ∈ r.executionLinks, Plain links.toValue 2 := by
  unfold RawRun.toValue
  rw [plain_defined]
  constructor
  · intro h
    have hresult := h.2.2 ("result", _) (by simp [RawRun.entries]) _
      (interruptedRun_result r error.toValue cleanup.toValue finishedAt.1)
    have hinner := (plain_defined.mp hresult).2.2
    refine ⟨hinner ("parameters", r.toRaw.parameters) (by simp [resultEntries]) _ rfl, ?_⟩
    intro links hlinks
    exact hinner ("executionLinks", r.toRaw.executionLinks) (by simp [resultEntries]) _
      (Option.mem_map_of_mem Record.toValue hlinks)
  · intro h
    obtain ⟨hparameters, hlinks⟩ := h
    have htext : ∀ {s : String} {depth : Nat}, depth ≤ maxDepth →
        ∀ w ∈ some (JsValue.string s), Plain w depth := fun h => plain_some (plain_string.mpr h)
    have hstarted : ∀ w ∈ r.toRaw.startedAt.or r.toRaw.createdAt, Plain w 2 := by
      show ∀ w ∈ (r.startedAt.map fun t => JsValue.string t.1).or (some (.string r.createdAt.1)),
        Plain w 2
      cases r.startedAt with
      | none => exact htext (by decide)
      | some t => exact htext (by decide)
    have hlinks' : ∀ w ∈ r.toRaw.executionLinks, Plain w 2 := by
      intro w hw
      obtain ⟨links, hmem, rfl⟩ := Option.map_eq_some_iff.mp hw
      exact hlinks links hmem
    have hresult : Plain (.object (defined
        (resultEntries r error.toValue cleanup.toValue finishedAt.1))) 1 := by
      refine plain_defined.mpr ⟨by decide,
        le_trans (defined_length_le _) (Nat.le_of_ble_eq_true rfl), ?_⟩
      simp only [resultEntries, List.forall_mem_cons, List.not_mem_nil, false_implies,
        implies_true, and_true]
      exact ⟨htext (by decide), plain_some (snapshot_plain _ (by decide)), htext (by decide),
        plain_some hparameters, plain_texts (by decide), hlinks', hstarted, htext (by decide),
        plain_some (artifacts_plain hs), plain_some (cleanup_plain _ (by decide)),
        htext (by decide), plain_some (plain_null.mpr (by decide)),
        plain_some (error_plain _ (by decide))⟩
    have hstored := stored_plain hs
    refine ⟨by decide, le_trans (defined_length_le _) (Nat.le_of_ble_eq_true rfl), ?_⟩
    simp only [RawRun.entries, List.forall_mem_cons, List.not_mem_nil, false_implies,
      implies_true, and_true] at hstored ⊢
    obtain ⟨h₁, -, h₃, h₄, h₅, h₆, h₇, h₈, -, -, h₁₁, h₁₂, -, h₁₄, -, h₁₆, h₁₇, -, -, -, h₂₁, -⟩ :=
      hstored
    exact ⟨h₁, plain_some (plain_number.mpr (by decide)), h₃, h₄, h₅, h₆, h₇, h₈,
      htext (by decide), plain_some (plain_null.mpr (by decide)), h₁₁, h₁₂, htext (by decide),
      h₁₄, htext (by decide), h₁₆, h₁₇, plain_some hresult,
      plain_some (error_plain _ (by decide)), plain_some (cleanup_plain _ (by decide)), h₂₁,
      plain_some (plain_boolean.mpr (by decide))⟩

/-! ## Its reading -/

theorem parseError_toValue (e : ExecutionError) : parseError (some e.toValue) = .ok e :=
  parseError_ok.mpr ⟨_, rfl, le_trans (defined_length_le _) (Nat.le_of_ble_eq_true rfl),
    fun _ he => get?_defined_of_mem (by simp [ExecutionError.entries]) he⟩

theorem cleanup_keys (c : CleanupReceipt) : (c.entries.map Prod.fst).Nodup := by
  simp [CleanupReceipt.entries]

theorem parseCleanup_toValue {runId : RunId} {c d : CleanupReceipt} :
    parseCleanup runId (some c.toValue) = .ok d ↔ d = c ∧ ∀ id ∈ c.runId, id = runId := by
  have hown : ∀ c : CleanupReceipt,
      (c.runId.any (· ≠ runId)) = false ↔ ∀ id ∈ c.runId, id = runId := by
    intro c
    cases c.runId <;> simp
  have hself : ∀ e ∈ c.entries, get? (defined c.entries) e.1 = e.2 :=
    fun e he => get?_defined_of_mem (cleanup_keys c) he
  have hwidth : (defined c.entries).length ≤ maxCollectionEntries :=
    le_trans (defined_length_le _) (Nat.le_of_ble_eq_true rfl)
  have hparse : (∀ id ∈ c.runId, id = runId) → parseCleanup runId (some c.toValue) = .ok c :=
    fun hid => parseCleanup_ok.mpr ⟨(hown c).mpr hid, _, rfl, hwidth, hself⟩
  constructor
  · intro h
    obtain ⟨hmatch, fields, heq, -, hread⟩ := parseCleanup_ok.mp h
    cases heq
    have hrun : (c.runId.map fun id => JsValue.string id.1) = d.runId.map fun id => .string id.1 :=
      (hself ("runId", _) (List.mem_cons_self ..)).symm.trans
        (hread ("runId", _) (List.mem_cons_self ..))
    have hid : c.runId = d.runId := Option.map_injective (fun a b hab => by simpa [Subtype.ext_iff]
      using hab) hrun
    have hid : ∀ id ∈ c.runId, id = runId := hid ▸ (hown d).mp hmatch
    exact ⟨Except.ok.inj (h.symm.trans (hparse hid)), hid⟩
  · intro h
    obtain ⟨rfl, hid⟩ := h
    exact hparse hid

/-- The result of an interrupted run fits it. -/
theorem parseResult_interrupted {r : StoredRunRecord} {error : JsValue}
    {cleanup : CleanupReceipt} {finishedAt : String}
    (hid : ∀ id ∈ cleanup.runId, id = r.runId)
    (hwidth : (defined (resultEntries r error cleanup.toValue finishedAt)).length ≤
      maxCollectionEntries) :
    parseResult r.runId .interrupted
      (some (.object (defined (resultEntries r error cleanup.toValue finishedAt)))) =
        .ok ⟨defined (resultEntries r error cleanup.toValue finishedAt), hwidth⟩ := by
  have hkeys : ((resultEntries r error cleanup.toValue finishedAt).map Prod.fst).Nodup := by
    simp [resultEntries]
  have hget : ∀ e ∈ resultEntries r error cleanup.toValue finishedAt,
      get? (defined (resultEntries r error cleanup.toValue finishedAt)) e.1 = e.2 :=
    fun e he => get?_defined_of_mem hkeys he
  have hrun := hget ("runId", r.toRaw.runId) (by simp [resultEntries])
  have hcleanup := hget ("cleanup", some cleanup.toValue) (by simp [resultEntries])
  have hstatus := hget ("executionStatus", some (.string RunStatus.interrupted.name))
    (by simp [resultEntries])
  unfold parseResult
  simp only [bind_eq_ok, record_ok, parseRunId_ok]
  refine ⟨⟨_, hwidth⟩, rfl, r.runId, hrun, ?_⟩
  rw [if_neg (not_not_intro rfl), hstatus]
  have hnamed : named RunStatus.name [.completed, .failed, .cancelled, .interrupted]
      (some (.string RunStatus.interrupted.name)) "Invalid result execution status." =
        .ok .interrupted := by
    simp [named, RunStatus.name]
  rw [hnamed]
  simp only [ne_eq, not_true_eq_false, if_false, bind_eq_ok, pure_eq_ok]
  exact ⟨cleanup, by rw [hcleanup]; exact parseCleanup_toValue.mpr ⟨rfl, hid⟩, trivial⟩

theorem optionalField_some {α : Type} {parse : Option JsValue → Except Failure α} {v : JsValue}
    {o : Option α} :
    optionalField (some v) parse = .ok o ↔ ∃ a, parse (some v) = .ok a ∧ o = some a := by
  unfold optionalField
  cases hv : parse (some v) with
  | error e => simp [hv, Except.map]
  | ok a => simp [hv, Except.map, eq_comm]

theorem interruptedRecord_reads {r : StoredRunRecord} (hs : Storable r) {error : ExecutionError}
    {cleanup : CleanupReceipt} {finishedAt : Timestamp} (hrevision : r.revision.1 < maxSafeInteger)
    (hid : ∀ id ∈ cleanup.runId, id = r.runId) :
    ReadsAs (interruptedRun r error.toValue cleanup.toValue finishedAt.1)
      (interruptedRecord r error cleanup finishedAt hrevision) :=
  have hold := readsAs_of_storable hs
  { schemaVersion := rfl
    revision := rfl
    requestId := rfl
    fingerprint := rfl
    runId := rfl
    testId := rfl
    status := rfl
    snapshot := hold.snapshot
    parameters := rfl
    artifacts := hold.artifacts
    result := optionalField_some.mpr ⟨_, parseResult_interrupted hid _, rfl⟩
    cleanup := optionalField_some.mpr ⟨_, parseCleanup_toValue.mpr ⟨rfl, hid⟩, rfl⟩
    workspaceRelease := hold.workspaceRelease
    outcome := rfl
    createdAt := rfl
    updatedAt := rfl
    startedAt := rfl
    finishedAt := rfl
    taskId := rfl
    executionLinks := rfl
    error := optionalField_some.mpr ⟨_, parseError_toValue error, rfl⟩
    tainted := rfl }

/-- An interruption is parsed exactly when its run can pay for it. -/
theorem parse_interrupted {r next : StoredRunRecord} (hs : Storable r) {error : ExecutionError}
    {cleanup : CleanupReceipt} {finishedAt : Timestamp} :
    parseStoredRun (interruptedRun r error.toValue cleanup.toValue finishedAt.1).toValue = .ok next ↔
      ∃ h : Interruptible r error cleanup finishedAt,
        next = interruptedRecord r error cleanup finishedAt h.revision := by
  have hnodes := interrupted_size .nodes r error.toValue cleanup.toValue finishedAt.1
  have hstrings := interrupted_size .strings r error.toValue cleanup.toValue finishedAt.1
  constructor
  · intro h
    obtain ⟨hplain, hn, hb⟩ := (parseStoredRun_ok.mp h).1
    have hread := readsAs_of_parse h
    obtain ⟨hparameters, hlinks⟩ := (interrupted_plain hs error cleanup finishedAt).mp hplain
    have hrun : r.runId = next.runId := Subtype.ext (string_inj hread.runId)
    obtain ⟨c, hc, -⟩ := optionalField_some.mp hread.cleanup
    have hid : ∀ id ∈ cleanup.runId, id = r.runId := hrun ▸ (parseCleanup_toValue.mp hc).2
    have hrevision : r.revision.1 < maxSafeInteger :=
      (revision_of_reads hread rfl).symm.trans_le next.revision.2
    exact ⟨⟨hrevision, hid, hparameters, hlinks, hnodes.symm.trans_le hn,
      hstrings.symm.trans_le hb⟩, readsAs_unique hread (interruptedRecord_reads hs hrevision hid)⟩
  · intro h
    obtain ⟨h, rfl⟩ := h
    refine parseStoredRun_ok.mpr ⟨⟨?_, hnodes.trans_le h.nodes, hstrings.trans_le h.strings⟩, _,
      rfl, le_trans (defined_length_le _) (Nat.le_of_ble_eq_true rfl), ?_⟩
    · exact (interrupted_plain hs error cleanup finishedAt).mpr ⟨h.parameters, h.links⟩
    · rw [ofFields_toRaw]
      exact interruptedRecord_reads hs h.revision h.receipt

/-! ## The file -/

theorem itemsBytes_eq (numberBytes : ℚ → Nat) (items : List JsValue) :
    itemsBytes numberBytes items =
      (items.map (jsonBytes numberBytes)).sum + (items.length - 1) := by
  induction items with
  | nil => rfl
  | cons item items ih =>
    rw [itemsBytes, ih]
    cases items with
    | nil => simp
    | cons item' items =>
      simp only [List.isEmpty_cons, Bool.false_eq_true, if_false, List.map_cons, List.sum_cons,
        List.length_cons]
      omega

def recordBytes (limits : Limits) (r : StoredRunRecord) : Nat :=
  jsonBytes limits.numberBytes r.toValue

theorem toFile_bytes (limits : Limits) (m : Memory) :
    m.toFile.bytes limits =
      55 + OrderedMap.sumBy (recordBytes limits) m.byRun + (m.byRun.size - 1) := by
  have hheader : stringBytes "schemaVersion" + stringBytes "surfaceloom.run-store/v1" +
      stringBytes "runs" = 47 := by decide +kernel
  have hlength : m.toFile.runs.length = m.byRun.size := by
    simp [Memory.toFile, OrderedMap.values, OrderedMap.size]
  have hsum : (m.toFile.runs.map (jsonBytes limits.numberBytes)).sum =
      OrderedMap.sumBy (recordBytes limits) m.byRun := by
    simp only [Memory.toFile, OrderedMap.sumBy, List.map_map]
    rfl
  unfold StoreFile.bytes
  simp only [jsonBytes, fieldsBytes, List.isEmpty_cons, List.isEmpty_nil, Bool.false_eq_true,
    if_false, if_true, itemsBytes_eq, hlength, hsum]
  omega

/-- What a replaced record does to the file. -/
theorem bytes_replace (limits : Limits) {m m' : Memory} {runId : String}
    {r next : StoredRunRecord} (hr : m.byRun.get? runId = some r)
    (hm : m'.byRun = m.byRun.set runId next) :
    m'.toFile.bytes limits + recordBytes limits r =
      m.toFile.bytes limits + recordBytes limits next := by
  have hsum := OrderedMap.sumBy_set (recordBytes limits) m.byRun runId next
  have hsize : m'.byRun.size = m.byRun.size := by
    have hkeys := congrArg List.length (OrderedMap.keys_set_of_get?_some (v := next) hr)
    rw [hm]
    simpa [OrderedMap.keys, OrderedMap.size] using hkeys
  rw [hr, Option.map_some, Option.getD_some] at hsum
  rw [toFile_bytes, toFile_bytes, hsize, hm]
  omega

/-! ## Interrupting one run -/

/-- The answer of a mutation whose file is written. -/
def answer (limits : Limits) (m : Memory) (call : Call) : Except Failure Reply :=
  match mutate limits m call with
  | .writes _ reply => .ok reply
  | .settles _ reply => reply

/-- When the store can interrupt a run: its data fits, and so does the file with
the longer record in place of the present one. -/
structure InterruptFits (limits : Limits) (m : Memory) (r : StoredRunRecord)
    (error : ExecutionError) (cleanup : CleanupReceipt) (finishedAt : Timestamp) : Prop where
  run : Interruptible r error cleanup finishedAt
  bytes : m.toFile.bytes limits +
      (Weight.bytes limits.numberBytes).interrupted r error.toValue cleanup.toValue finishedAt.1 ≤
    limits.maxStoreBytes + recordBytes limits r

theorem Interruptible.safe_error {r : StoredRunRecord} {error : ExecutionError}
    {cleanup : CleanupReceipt} {finishedAt : Timestamp}
    (h : Interruptible r error cleanup finishedAt) : Safe error.toValue := by
  have hle : ∀ μ : Weight, μ.size error.toValue ≤
      μ.interrupted r error.toValue cleanup.toValue finishedAt.1 := by
    intro μ
    have hmem : μ.property ("error", some error.toValue) ∈
        (repeated r error.toValue cleanup.toValue finishedAt.1).map μ.property :=
      List.mem_map_of_mem (by simp [repeated])
    have hsum := List.le_sum_of_mem hmem
    have hproperty : μ.property ("error", some error.toValue) =
        μ.key "error" + μ.size error.toValue := rfl
    unfold Weight.interrupted
    omega
  exact ⟨error_plain error (by decide), (hle .nodes).trans h.nodes,
    (hle .strings).trans h.strings⟩

/-- The converse of `update_ok`. -/
theorem update_of {m m' : Memory} {runId : String} {reply : Reply}
    {change : StoredRunRecord → Except Failure RawRun} {current next : StoredRunRecord}
    {raw : RawRun} (hkeyed : current.runId.1 = runId)
    (h : Updates m runId change m' reply current next raw) :
    update m runId change = (m', .ok reply) := by
  obtain ⟨hfound, hchanges, hparsed, hset, rfl⟩ := h
  have hnext : (do
      let id ← parseRunId (some (.string runId))
      let current ← m.require id.1
      let raw ← change current
      parseStoredRun raw.toValue) = .ok next := by
    simp only [bind_eq_ok, parseRunId_ok]
    refine ⟨current.runId, by rw [hkeyed], current, ?_, raw, hchanges, hparsed⟩
    unfold Memory.require
    rw [hkeyed, hfound]
  have hclone : cloneRecord next = .ok next := storable_of_parse hparsed
  unfold update
  rw [hnext]
  simp only [hset, hclone]
  rfl

/-- The interruption of a live run, before the file is written. -/
theorem interrupt_operation {m m' : Memory} (h : WellFormed m) {runId : String}
    {r : StoredRunRecord} (hr : m.byRun.get? runId = some r) (hlive : r.status.terminal = false)
    {error : ExecutionError} {cleanup : CleanupReceipt} {finishedAt : Timestamp} {reply : Reply} :
    operation m (.interrupt runId error.toValue cleanup.toValue finishedAt.1) = (m', .ok reply) ↔
      ∃ hi : Interruptible r error cleanup finishedAt,
        m.set (interruptedRecord r error cleanup finishedAt hi.revision) = .ok m' ∧
          reply = .record (interruptedRecord r error cleanup finishedAt hi.revision) := by
  obtain ⟨hkeyed, hs, -⟩ := h.fits _ _ hr
  constructor
  · intro hop
    obtain ⟨current, next, raw, hu⟩ := update_ok hop
    cases hr.symm.trans hu.found
    have hchange := hu.changes
    unfold interruptChange at hchange
    rw [if_neg (Bool.eq_false_iff.mp hlive)] at hchange
    simp only [bind_eq_ok, pure_eq_ok, parseCleanup_toValue, liftSafe_ok, cloneSafeData_ok]
      at hchange
    obtain ⟨_, ⟨rfl, -⟩, _, ⟨rfl, -⟩, rfl⟩ := hchange
    obtain ⟨hi, rfl⟩ := (parse_interrupted hs).mp hu.parsed
    exact ⟨hi, hu.set, hu.reply⟩
  · intro hi
    obtain ⟨hi, hset, rfl⟩ := hi
    have hparsed := (parse_interrupted hs).mpr ⟨hi, rfl⟩
    have hchange : interruptChange error.toValue cleanup.toValue finishedAt.1 r =
        .ok (interruptedRun r error.toValue cleanup.toValue finishedAt.1) := by
      unfold interruptChange
      rw [if_neg (Bool.eq_false_iff.mp hlive)]
      simp only [bind_eq_ok, pure_eq_ok, parseCleanup_toValue, liftSafe_ok, cloneSafeData_ok]
      exact ⟨_, ⟨rfl, hi.receipt⟩, _, ⟨rfl, hi.safe_error⟩, rfl⟩
    exact update_of hkeyed ⟨hr, hchange, hparsed, hset, rfl⟩

theorem succeeded_answer {limits : Limits} {m : Memory} {call : Call} :
    succeeded (answer limits m call) = true ↔ ∃ m' reply, operation m call = (m', .ok reply) ∧
      (changed call reply = true → m'.toFile.bytes limits ≤ limits.maxStoreBytes) := by
  unfold answer mutate
  split
  · rename_i memory reply hmutate
    split at hmutate
    · cases hmutate
    · rename_i m' reply' hop
      split at hmutate
      · split at hmutate
        · cases hmutate
        · rename_i hsize
          cases hmutate
          refine ⟨fun _ => ⟨_, _, hop, fun _ => Nat.not_lt.mp hsize⟩, fun _ => rfl⟩
      · cases hmutate
  · rename_i memory reply hmutate
    split at hmutate
    · rename_i hop
      cases hmutate
      simp only [succeeded, Bool.false_eq_true, false_iff]
      intro h
      obtain ⟨_, _, hok, -⟩ := h
      cases hop.symm.trans hok
    · rename_i m' reply' hop
      split at hmutate
      · rename_i hchanged
        split at hmutate
        · rename_i hsize
          cases hmutate
          simp only [succeeded, Bool.false_eq_true, false_iff]
          intro h
          obtain ⟨_, _, hok, hfits⟩ := h
          cases hop.symm.trans hok
          exact Nat.not_le.mpr hsize (hfits hchanged)
        · cases hmutate
      · rename_i hchanged
        cases hmutate
        exact ⟨fun _ => ⟨_, _, hop, fun hc => absurd hc hchanged⟩, fun _ => rfl⟩

/-- The maps and the file with the interrupted record in place. -/
theorem interrupted_set (limits : Limits) {m : Memory} (h : WellFormed m) {r : StoredRunRecord}
    (hr : m.byRun.get? r.runId.1 = some r) {error : ExecutionError} {cleanup : CleanupReceipt}
    {finishedAt : Timestamp} (hi : Interruptible r error cleanup finishedAt) :
    ∃ m', m.set (interruptedRecord r error cleanup finishedAt hi.revision) = .ok m' ∧
      WellFormed m' ∧
      m'.byRun = m.byRun.set r.runId.1
        (interruptedRecord r error cleanup finishedAt hi.revision) ∧
      m'.toFile.bytes limits + recordBytes limits r = m.toFile.bytes limits +
        (Weight.bytes limits.numberBytes).interrupted r error.toValue cleanup.toValue
          finishedAt.1 := by
  obtain ⟨-, hs, -⟩ := h.fits _ _ hr
  have hparsed := (parse_interrupted hs).mpr ⟨hi, rfl⟩
  have hsame : SameRun r (interruptedRecord r error cleanup finishedAt hi.revision) :=
    ⟨rfl, rfl, rfl, rfl, rfl, rfl, rfl, rfl, rfl⟩
  obtain ⟨m', hset, hwf, hbyRun⟩ :=
    h.replace hr hsame (storable_of_parse hparsed) fun hp => nomatch hp
  have hbytes := bytes_replace limits hr hbyRun
  have hrecord : recordBytes limits (interruptedRecord r error cleanup finishedAt hi.revision) =
      (Weight.bytes limits.numberBytes).interrupted r error.toValue cleanup.toValue
        finishedAt.1 := interrupted_size (.bytes limits.numberBytes) r _ _ _
  exact ⟨m', hset, hwf, hbyRun, hrecord ▸ hbytes⟩

/-- A live run is interrupted exactly when the store can pay for it. -/
theorem interrupt_answer (limits : Limits) {m : Memory} (h : WellFormed m) {runId : String}
    {r : StoredRunRecord} (hr : m.byRun.get? runId = some r) (hlive : r.status.terminal = false)
    (error : ExecutionError) (cleanup : CleanupReceipt) (finishedAt : Timestamp) :
    succeeded (answer limits m
      (.interrupt runId error.toValue cleanup.toValue finishedAt.1)) = true ↔
        InterruptFits limits m r error cleanup finishedAt := by
  obtain ⟨hkeyed, hs, -⟩ := h.fits _ _ hr
  subst hkeyed
  rw [succeeded_answer]
  constructor
  · intro hok
    obtain ⟨m', reply, hop, hsize⟩ := hok
    obtain ⟨hi, hset, -⟩ := (interrupt_operation h hr hlive).mp hop
    obtain ⟨m'', hset', -, -, hbytes⟩ := interrupted_set limits h hr hi
    cases hset.symm.trans hset'
    have hfits := hsize rfl
    exact ⟨hi, by omega⟩
  · intro hfits
    obtain ⟨hi, hsize⟩ := hfits
    obtain ⟨m', hset, -, -, hbytes⟩ := interrupted_set limits h hr hi
    exact ⟨m', _, (interrupt_operation h hr hlive).mpr ⟨hi, hset, rfl⟩, fun _ => by omega⟩

/-! ## Recovering all runs -/

/-- The error of a run that a restart found unfinished. -/
def restart : ExecutionError where
  code := ⟨"service_restarted", by decide +kernel⟩
  message := ⟨"Service restarted before the run reached a terminal state.", by decide +kernel⟩
  retryable := true

def recoveryReceipt (r : StoredRunRecord) (now : Timestamp) : CleanupReceipt where
  runId := some r.runId
  snapshotId := r.snapshot.snapshotId
  status := .unconfirmed
  tainted := true
  attemptedAt := now
  detail := some ⟨"Service restart left process cleanup unconfirmed; workspace remains quarantined.",
    by decide +kernel⟩

theorem recoveredRun_eq (r : StoredRunRecord) (now : Timestamp) : recoveredRun now.1 r =
    interruptedRun r restart.toValue (recoveryReceipt r now).toValue now.1 := rfl

def live (records : List StoredRunRecord) : List StoredRunRecord :=
  records.filter fun r => !r.status.terminal

theorem live_cons_of_terminal {r : StoredRunRecord} {rest : List StoredRunRecord}
    (h : r.status.terminal = true) : live (r :: rest) = live rest := by
  simp [live, h]

theorem live_cons_of_live {r : StoredRunRecord} {rest : List StoredRunRecord}
    (h : r.status.terminal = false) : live (r :: rest) = r :: live rest := by
  simp [live, h]

/-- The bytes of the records as the recovery writes them. -/
def recoveredBytes (limits : Limits) (now : Timestamp) (records : List StoredRunRecord) : Nat :=
  (records.map fun r => (Weight.bytes limits.numberBytes).interrupted r restart.toValue
    (recoveryReceipt r now).toValue now.1).sum

/-- When the store can end all its runs: the data of each fits, and so does the
file with the longer records. -/
structure RecoverFits (limits : Limits) (m : Memory) (now : Timestamp) : Prop where
  runs : ∀ r ∈ live m.byRun.values, Interruptible r restart (recoveryReceipt r now) now
  bytes : live m.byRun.values ≠ [] →
    m.toFile.bytes limits + recoveredBytes limits now (live m.byRun.values) ≤
      limits.maxStoreBytes + ((live m.byRun.values).map (recordBytes limits)).sum

theorem recoverAll_terminal {now : String} {m : Memory} {r : StoredRunRecord}
    {rest : List StoredRunRecord} (h : r.status.terminal = true) :
    recoverAll now m (r :: rest) = recoverAll now m rest := by
  rw [recoverAll, if_pos h]

/-- The loop body for a record that is not over. -/
theorem recoverAll_live {now : Timestamp} {m m' : Memory} {r : StoredRunRecord}
    {rest recovered : List StoredRunRecord} (hs : Storable r) (h : r.status.terminal = false) :
    recoverAll now.1 m (r :: rest) = (m', .ok recovered) ↔
      ∃ (hi : Interruptible r restart (recoveryReceipt r now) now) (m₁ : Memory)
        (recovered' : List StoredRunRecord),
        m.set (interruptedRecord r restart (recoveryReceipt r now) now hi.revision) = .ok m₁ ∧
        recoverAll now.1 m₁ rest = (m', .ok recovered') ∧
        recovered = interruptedRecord r restart (recoveryReceipt r now) now hi.revision ::
          recovered' := by
  rw [recoverAll, if_neg (Bool.eq_false_iff.mp h), recoveredRun_eq]
  constructor
  · intro hok
    split at hok
    · cases hok
    · rename_i next hparsed
      obtain ⟨hi, rfl⟩ := (parse_interrupted hs).mp hparsed
      split at hok
      · cases hok
      · rename_i m₁ hset
        split at hok
        · cases hok
        · rename_i m₂ recovered' hrest
          cases hok
          exact ⟨hi, m₁, recovered', hset, hrest, rfl⟩
  · intro hok
    obtain ⟨hi, m₁, recovered', hset, hrest, rfl⟩ := hok
    rw [(parse_interrupted hs).mpr ⟨hi, rfl⟩]
    simp only [hset, hrest]

/-- What the recovery of a list of records comes to. -/
structure RecoversAll (limits : Limits) (now : Timestamp) (m : Memory)
    (records : List StoredRunRecord) : Prop where
  goesThrough : (∀ r ∈ live records, Interruptible r restart (recoveryReceipt r now) now) ↔
    ∃ m' recovered, recoverAll now.1 m records = (m', .ok recovered)
  recovered : ∀ m' recovered, recoverAll now.1 m records = (m', .ok recovered) →
    recovered.length = (live records).length
  bytes : ∀ m' recovered, recoverAll now.1 m records = (m', .ok recovered) →
    m'.toFile.bytes limits + ((live records).map (recordBytes limits)).sum =
      m.toFile.bytes limits + recoveredBytes limits now (live records)

theorem recoversAll (limits : Limits) {now : Timestamp} : ∀ {records : List StoredRunRecord}
    {m : Memory}, WellFormed m → (records.map (·.runId.1)).Nodup →
    (∀ r ∈ records, m.byRun.get? r.runId.1 = some r) → RecoversAll limits now m records
  | [], m, _, _, _ => by
    refine ⟨⟨fun _ => ⟨m, [], rfl⟩, fun _ r hr => nomatch hr⟩, fun m' recovered h => ?_,
      fun m' recovered h => ?_⟩
    · cases h
      rfl
    · cases h
      simp [live, recoveredBytes]
  | r :: rest, m, h, hnd, hmem => by
    rw [List.map_cons, List.nodup_cons] at hnd
    have hr := hmem r (List.mem_cons_self ..)
    have hapart : ∀ r' ∈ rest, r'.runId.1 ≠ r.runId.1 := fun r' hr' heq =>
      hnd.1 (List.mem_map.mpr ⟨r', hr', heq⟩)
    cases hterminal : r.status.terminal with
    | true =>
      obtain ⟨hthrough, hrecovered, hbytes⟩ : RecoversAll limits now m rest :=
        recoversAll limits h hnd.2 fun r' hr' => hmem r' (List.mem_cons_of_mem _ hr')
      refine ⟨?_, ?_, ?_⟩
      all_goals rw [live_cons_of_terminal hterminal, recoverAll_terminal hterminal]
      · exact hthrough
      · exact hrecovered
      · exact hbytes
    | false =>
      obtain ⟨-, hs, -⟩ := h.fits _ _ hr
      have hnext : ∀ (hi : Interruptible r restart (recoveryReceipt r now) now) (m₁ : Memory),
          m.set (interruptedRecord r restart (recoveryReceipt r now) now hi.revision) = .ok m₁ →
          RecoversAll limits now m₁ rest ∧
            m₁.toFile.bytes limits + recordBytes limits r = m.toFile.bytes limits +
              recoveredBytes limits now [r] := by
        intro hi m₁ hset
        obtain ⟨m₂, hset', hwf, hbyRun, hbytes⟩ := interrupted_set limits h hr hi
        cases hset.symm.trans hset'
        refine ⟨recoversAll limits hwf hnd.2 fun r' hr' => ?_, by simpa [recoveredBytes] using hbytes⟩
        rw [hbyRun, OrderedMap.get?_set, if_neg (hapart r' hr')]
        exact hmem r' (List.mem_cons_of_mem _ hr')
      refine ⟨⟨fun hall => ?_, fun hok => ?_⟩, fun m' recovered hok => ?_,
        fun m' recovered hok => ?_⟩
      · rw [live_cons_of_live hterminal, List.forall_mem_cons] at hall
        obtain ⟨hi, hall⟩ := hall
        obtain ⟨m₁, hset, -⟩ := interrupted_set limits h hr hi
        obtain ⟨m', recovered, hrest⟩ := (hnext hi m₁ hset).1.goesThrough.mp hall
        exact ⟨m', _, (recoverAll_live hs hterminal).mpr ⟨hi, m₁, recovered, hset, hrest, rfl⟩⟩
      · obtain ⟨m', recovered, hok⟩ := hok
        obtain ⟨hi, m₁, recovered', hset, hrest, -⟩ := (recoverAll_live hs hterminal).mp hok
        rw [live_cons_of_live hterminal, List.forall_mem_cons]
        exact ⟨hi, (hnext hi m₁ hset).1.goesThrough.mpr ⟨m', recovered', hrest⟩⟩
      · obtain ⟨hi, m₁, recovered', hset, hrest, rfl⟩ := (recoverAll_live hs hterminal).mp hok
        rw [live_cons_of_live hterminal, List.length_cons, List.length_cons,
          (hnext hi m₁ hset).1.recovered m' recovered' hrest]
      · obtain ⟨hi, m₁, recovered', hset, hrest, rfl⟩ := (recoverAll_live hs hterminal).mp hok
        obtain ⟨hrecovers, hbytes⟩ := hnext hi m₁ hset
        have hrest := hrecovers.bytes m' recovered' hrest
        rw [live_cons_of_live hterminal]
        simp only [recoveredBytes, List.map_cons, List.sum_cons, List.map_nil, List.sum_nil]
          at hbytes hrest ⊢
        omega

theorem recoverInterrupted_iff {m m' : Memory} (h : WellFormed m) {now : String} {reply : Reply} :
    recoverInterrupted m now = (m', .ok reply) ↔
      ∃ recovered, recoverAll now m m.byRun.values = (m', .ok recovered) ∧
        reply = .records recovered := by
  unfold recoverInterrupted
  constructor
  · intro hok
    split at hok
    · cases hok
    · rename_i m₁ recovered hrec
      have hspec := recoverAll_ok h h.values_spec.1 h.values_spec.2 hrec
      rw [mapM_clone hspec.storable] at hok
      cases hok
      exact ⟨recovered, hrec, rfl⟩
  · intro hok
    obtain ⟨recovered, hrec, rfl⟩ := hok
    have hspec := recoverAll_ok h h.values_spec.1 h.values_spec.2 hrec
    rw [hrec]
    simp only [mapM_clone hspec.storable]
    rfl

/-- All live runs are ended exactly when the store can pay for them. -/
theorem recover_answer (limits : Limits) {m : Memory} (h : WellFormed m) (now : Timestamp) :
    succeeded (answer limits m (.recoverInterrupted now.1)) = true ↔ RecoverFits limits m now := by
  obtain ⟨hthrough, hrecovered, hbytes⟩ : RecoversAll limits now m m.byRun.values :=
    recoversAll limits h h.values_spec.1 h.values_spec.2
  have hchanged : ∀ m' recovered, recoverAll now.1 m m.byRun.values = (m', .ok recovered) →
      (changed (.recoverInterrupted now.1) (.records recovered) = true ↔
        live m.byRun.values ≠ []) := by
    intro m' recovered hok
    have hlength := hrecovered m' recovered hok
    simp only [changed, decide_eq_true_eq, ne_eq, ← List.length_eq_zero_iff, hlength]
  rw [succeeded_answer]
  constructor
  · intro hok
    obtain ⟨m', reply, hop, hsize⟩ := hok
    obtain ⟨recovered, hrec, rfl⟩ := (recoverInterrupted_iff h).mp hop
    refine ⟨hthrough.mpr ⟨m', recovered, hrec⟩, fun hlive => ?_⟩
    have hfits := hsize ((hchanged m' recovered hrec).mpr hlive)
    have hgrowth := hbytes m' recovered hrec
    omega
  · intro hfits
    obtain ⟨m', recovered, hrec⟩ := hthrough.mp hfits.runs
    refine ⟨m', _, (recoverInterrupted_iff h).mpr ⟨recovered, hrec, rfl⟩, fun hc => ?_⟩
    have hfit := hfits.bytes ((hchanged m' recovered hrec).mp hc)
    have hgrowth := hbytes m' recovered hrec
    omega

/-! ## Over a whole run -/

/-- Every mutation is answered as `answer` says, unless its write fails. -/
structure Answered (limits : Limits) (s : State) : Prop where
  writing : ∀ w ∈ s.tail.running, answer limits w.previous w.call = .ok w.reply
  entries : ∀ e ∈ s.log, e.call.reads = false →
    e.reply = answer limits e.before e.call ∨ e.reply = .error .write

theorem Answered.logged {limits : Limits} {s t : State} (h : Answered limits s) {e : Entry}
    (hlog : t.log = s.log ++ [e]) (hrunning : t.tail.running = [])
    (he : e.call.reads = false →
      e.reply = answer limits e.before e.call ∨ e.reply = .error .write) : Answered limits t := by
  refine ⟨fun w hw => ?_, fun e' he' => ?_⟩
  · rw [hrunning] at hw
    cases hw
  · rw [hlog, List.mem_append, List.mem_singleton] at he'
    rcases he' with hold | rfl
    · exact h.entries e' hold
    · exact he

theorem answered_invariant {limits : Limits} {start : Memory} {file : Option StoreFile}
    (hopen : Opens limits start file) :
    (store limits start file).Invariant (Answered limits) where
  init := by
    intro s hs
    cases hs
    exact ⟨(fun _ hw => nomatch hw), fun _ he => nomatch he⟩
  step := by
    intro s event t hs h hstep
    have hsound := (sound_invariant hopen).reachable hs
    replace hstep : next limits s event = some t := hstep
    cases event with
    | issue call =>
      cases hstep
      exact ⟨h.writing, h.entries⟩
    | start index =>
      obtain ⟨⟨call, tail⟩, hb, rfl⟩ := Option.map_eq_some_iff.mp hstep
      obtain ⟨⟨-, -, hrunning⟩, -⟩ := hsound.ordered.begin hb
      show Answered limits (started limits s call tail)
      unfold started
      split
      · rename_i hreads
        refine h.logged rfl ?_ fun hc => by simp [hreads] at hc
        simpa [chains, hreads] using hrunning
      · rename_i hreads
        have hchains : chains call = true := by simp [chains, hreads]
        rw [if_pos hchains] at hrunning
        split
        · rename_i memory reply hmutate
          refine h.logged rfl (by simpa [goesOn, hmutate] using hrunning) fun _ => .inl ?_
          simp [answer, hmutate]
        · rename_i memory reply hmutate
          refine ⟨fun w hw => ?_, h.entries⟩
          have hrun : tail.running = [⟨call, s.memory, reply⟩] := by
            simpa [goesOn, hmutate] using hrunning
          rw [hrun, List.mem_singleton] at hw
          subst hw
          simp [answer, hmutate]
    | writeSettled index written renamed =>
      obtain ⟨⟨w, tail⟩, hsettle, rfl⟩ := Option.map_eq_some_iff.mp hstep
      obtain ⟨hrun, hrunning, -, -⟩ := hsound.ordered.settle hsettle
      have hw := h.writing w (by rw [hrun]; exact List.mem_singleton_self w)
      show Answered limits (settled s w tail written renamed)
      unfold settled
      split
      · exact h.logged rfl hrunning fun _ => .inl hw.symm
      · exact h.logged rfl hrunning fun _ => .inr rfl

def isTimeout (value : ℚ) : Bool :=
  0 < value && value.isInt && value ≤ (maxSafeInteger : ℚ)

/-- `PersistentRunService.create` on a store whose file can be written. -/
def create (limits : Limits) (m : Memory) (cancelTimeoutMs : Option ℚ) (now : String) :
    Except Failure Unit :=
  if isTimeout (cancelTimeoutMs.getD 5000) then
    (answer limits m (.recoverInterrupted now)).map fun _ => ()
  else .error (.typeError "cancelTimeoutMs must be a positive integer.")

theorem create_ok {limits : Limits} {m : Memory} (h : WellFormed m) {timeout : Option ℚ}
    {now : Timestamp} : create limits m timeout now.1 = .ok () ↔
      isTimeout (timeout.getD 5000) = true ∧ RecoverFits limits m now := by
  rw [← recover_answer limits h now]
  unfold create
  split
  · rename_i htimeout
    cases answer limits m (.recoverInterrupted now.1) <;>
      simp [htimeout, succeeded, Except.map]
  · rename_i htimeout
    simp [htimeout]

/-- What a settled call of the two is held to, its write not failing. -/
structure Releases (limits : Limits) (e : Entry) : Prop where
  interrupt : ∀ (runId : String) (r : StoredRunRecord) (error : ExecutionError)
    (cleanup : CleanupReceipt) (finishedAt : Timestamp),
    e.call = .interrupt runId error.toValue cleanup.toValue finishedAt.1 →
    e.before.byRun.get? runId = some r → r.status.terminal = false →
    (succeeded e.reply = true ↔ InterruptFits limits e.before r error cleanup finishedAt)
  interrupted : ∀ runId error cleanup finishedAt,
    e.call = .interrupt runId error cleanup finishedAt → succeeded e.reply = true →
    ∃ r, e.after.byRun.get? runId = some r ∧ r.status.terminal = true
  recover : ∀ now : Timestamp, e.call = .recoverInterrupted now.1 →
    (succeeded e.reply = true ↔ RecoverFits limits e.before now)
  recovered : ∀ now, e.call = .recoverInterrupted now → succeeded e.reply = true →
    ∀ runId r, e.after.byRun.get? runId = some r → r.status.terminal = true

/-- When the store can end its runs, in the order of its calls and when it is
opened again. -/
structure StoreReleases (limits : Limits) (s : State) : Prop where
  entries : ∀ e ∈ s.log, e.reply ≠ .error .write → Releases limits e
  interrupt : s.tail.running = [] → ∀ (runId : String) (r : StoredRunRecord)
    (error : ExecutionError) (cleanup : CleanupReceipt) (finishedAt : Timestamp),
    s.memory.byRun.get? runId = some r → r.status.terminal = false →
    (succeeded (answer limits s.memory
      (.interrupt runId error.toValue cleanup.toValue finishedAt.1)) = true ↔
        InterruptFits limits s.memory r error cleanup finishedAt)
  create : ∃ m, load limits s.file = .ok m ∧ ∀ (timeout : Option ℚ) (now : Timestamp),
    create limits m timeout now.1 = .ok () ↔
      isTimeout (timeout.getD 5000) = true ∧ RecoverFits limits m now

theorem interrupt_ends {m m' : Memory} (h : WellFormed m) {runId : String}
    {error cleanup : JsValue} {finishedAt : String} {reply : Reply}
    (hop : operation m (.interrupt runId error cleanup finishedAt) = (m', .ok reply)) :
    ∃ r, m'.byRun.get? runId = some r ∧ r.status.terminal = true := by
  obtain ⟨current, next, raw, hu⟩ := update_ok hop
  obtain ⟨hkeyed, hs, -⟩ := h.fits _ _ hu.found
  have hread := readsAs_of_parse hu.parsed
  have hsteps := interruptChange_steps hu.changes
  have hrun : next.runId.1 = runId := by
    rw [← hkeyed]
    rcases hsteps.change hs hread with rfl | hadv
    · rfl
    · rw [hadv.same.runId]
  have hterminal : next.status.terminal = true := by
    have hchange := hu.changes
    unfold interruptChange at hchange
    split at hchange
    · rename_i hterminal
      cases hchange
      rwa [readsAs_unique hread (readsAs_of_storable hs)]
    · simp only [bind_eq_ok, pure_eq_ok] at hchange
      obtain ⟨_, -, _, -, rfl⟩ := hchange
      rw [status_of_reads .interrupted hread rfl]
      rfl
  refine ⟨next, ?_, hterminal⟩
  have hset := hu.set
  unfold Memory.set at hset
  split at hset
  · cases hset
  · cases hset
    rw [OrderedMap.get?_set, if_pos hrun.symm]

theorem recovery_ends {m m' : Memory} (h : WellFormed m) {now : String} {reply : Reply}
    (hop : recoverInterrupted m now = (m', .ok reply)) {runId : String} {r : StoredRunRecord}
    (hr : m'.byRun.get? runId = some r) : r.status.terminal = true := by
  obtain ⟨recovered, -, hrec⟩ := recoverInterrupted_ok h hop
  have hkey : runId ∈ m.byRun.keys := hrec.order ▸ OrderedMap.mem_keys_iff.mpr ⟨r, hr⟩
  obtain ⟨old, hold⟩ := OrderedMap.mem_keys_iff.mp hkey
  obtain ⟨new, hnew, hterminal, -⟩ :=
    hrec.changes old (OrderedMap.mem_values_iff.mpr ⟨runId, hold⟩)
  rw [(h.fits runId old hold).keyed, hr] at hnew
  cases hnew
  exact hterminal

theorem run_store_releases (limits : Limits) (start : Memory) (file : Option StoreFile)
    (hopen : Opens limits start file) (s : State) (hs : (store limits start file).Reachable s) :
    StoreReleases limits s := by
  have hsound := (sound_invariant hopen).reachable hs
  have hanswered := (answered_invariant hopen).reachable hs
  refine ⟨fun e he hwrite => ?_, fun hquiet runId r error cleanup finishedAt hr hlive => ?_, ?_⟩
  · have hentry := hsound.entries e he
    have hreply : e.call.reads = false → e.reply = answer limits e.before e.call :=
      fun hreads => (hanswered.entries e he hreads).resolve_right hwrite
    have hop : succeeded e.reply = true →
        ∃ reply, operation e.before e.call = (e.after, .ok reply) := by
      intro hok
      cases hr : e.reply with
      | error failure => simp [hr, succeeded] at hok
      | ok reply => exact ⟨reply, hentry.resolved reply hr⟩
    refine ⟨fun runId r error cleanup finishedAt hcall hr hlive => ?_,
      fun runId error cleanup finishedAt hcall hok => ?_, fun now hcall => ?_,
      fun now hcall hok runId r hr => ?_⟩
    · rw [hreply (by rw [hcall]; rfl), hcall]
      exact interrupt_answer limits hentry.wellFormed hr hlive error cleanup finishedAt
    · obtain ⟨reply, hop⟩ := hop hok
      rw [hcall] at hop
      exact interrupt_ends hentry.wellFormed hop
    · rw [hreply (by rw [hcall]; rfl), hcall]
      exact recover_answer limits hentry.wellFormed now
    · obtain ⟨reply, hop⟩ := hop hok
      rw [hcall] at hop
      exact recovery_ends hentry.wellFormed hop hr
  · have hcommitted : committed s = s.memory := by
      unfold committed
      rw [hquiet]
    have hdurable := hsound.durable
    rw [hcommitted] at hdurable
    exact interrupt_answer limits hdurable.1 hr hlive error cleanup finishedAt
  · exact ⟨committed s, hsound.durable.load, fun timeout now => create_ok hsound.durable.1⟩

/-- Objects in objects: `nested n` is `n + 1` levels deep. -/
def nested : Nat → JsValue
  | 0 => .object []
  | n + 1 => .object [("a", nested n)]

def deepReservation : RunReservation := { demoReservation with parameters := nested 63 }

def defaultLimits : Limits := ⟨16777216, fun _ => 1⟩

def demoTime : Timestamp := ⟨"2026-01-01T00:00:01.000Z", by decide +kernel⟩

def deepError : ExecutionError where
  code := ⟨"executor_lost", by decide +kernel⟩
  message := ⟨"No live executor owns the persisted run.", by decide +kernel⟩
  retryable := true

theorem demoSnapshotId_isText : isText "snapshot-1" = true := by decide +kernel

def deepReceipt : CleanupReceipt where
  runId := some ⟨deepReservation.proposedRunId, by decide +kernel⟩
  snapshotId := ⟨"snapshot-1", demoSnapshotId_isText⟩
  status := .unconfirmed
  tainted := true
  attemptedAt := demoTime
  detail := none

/-- The reservation is written; its run can then neither be interrupted nor
recovered. -/
def deepEvents : List Event :=
  [.issue (.reserve deepReservation), .start 0, .writeSettled 0 true true,
    .issue (.interrupt deepReservation.proposedRunId deepError.toValue deepReceipt.toValue
      demoTime.1), .start 0, .issue (.recoverInterrupted demoTime.1), .start 0]

/-- One call went through, two did not, and the run is still live. -/
def stuck (s : State) : Bool :=
  s.log.map (fun e => succeeded e.reply) = [true, false, false] &&
    s.memory.byRun.values.map (fun r => r.status.terminal) = [false] &&
    !(create defaultLimits s.memory none demoTime.1).isOk

theorem deepEvents_stuck : (System.replay (next defaultLimits) (opened .empty none) deepEvents).any
    stuck = true := by decide +kernel

def deepStore : State :=
  (System.replay (next defaultLimits) (opened .empty none) deepEvents).get
    (Option.isSome_of_any deepEvents_stuck)

theorem deepStore_reachable : (store defaultLimits .empty none).Reachable deepStore :=
  System.reachable_of_replay (Option.some_get _).symm

theorem deep_store_releases : StoreReleases defaultLimits deepStore :=
  run_store_releases defaultLimits .empty none ⟨.empty, .inl ⟨rfl, rfl⟩⟩ deepStore
    deepStore_reachable

/-- A reservation that was accepted, with writes that succeed, can keep its store
from being opened by a service. -/
theorem deep_store_stuck :
    (store defaultLimits .empty none).Reachable deepStore ∧
      deepStore.log.map (fun e => succeeded e.reply) = [true, false, false] ∧
      deepStore.memory.byRun.values.map (fun r => r.status.terminal) = [false] ∧
      (create defaultLimits deepStore.memory none demoTime.1).isOk = false := by
  have hstuck : stuck deepStore = true := Option.get_of_any_eq_true _ _ deepEvents_stuck
  simp only [stuck, Bool.and_eq_true, decide_eq_true_eq, Bool.not_eq_true'] at hstuck
  exact ⟨deepStore_reachable, hstuck.1.1, hstuck.1.2, hstuck.2⟩

end SurfaceLoom.Service.RunRecovery
