import SurfaceLoom.AgentService.RetriedStart

/-! # Starts with negative zeros

A number of a request may be `-0`, which its rational does not tell. A reservation keeps the
sign, an update of the run loses it (it detaches the record through JSON, which writes `0`),
and `isDeepStrictEqual` tells the two apart. This service has the signs beside the starts. -/
namespace SurfaceLoom.Service.SignedStart
open SurfaceLoom.Lib SurfaceLoom.Lib.Transition SurfaceLoom.Service.SafeData
open SurfaceLoom.Service.Validation SurfaceLoom.Service.StoredRun SurfaceLoom.Service.RunStore
open SurfaceLoom.Service.RunStoreQueue hiding Event next
open SurfaceLoom.Service.AgentTestService SurfaceLoom.Service.RetriedStart
open SurfaceLoom.Service.SnapshotOwnership (reservationOf demoDefinition demoFingerprint
  demoSnapshot demoFound)

/-- The parameters that are `-0`. -/
abbrev Signs := List String

/-- The service, and the signs of each call. -/
structure SignedState where
  service : ServiceState
  signs : List Signs

def sameSigns (left right : Signs) : Bool :=
  left.all (· ∈ right) && right.all (· ∈ left)

/-- Only a zero has a sign of its own. -/
def Signed (a : Accepted) (signs : Signs) : Prop :=
  ∀ name ∈ signs, (name, ParameterValue.number 0) ∈ a.parameters

instance (a : Accepted) (signs : Signs) : Decidable (Signed a signs) :=
  inferInstanceAs (Decidable (∀ _ ∈ _, _))

namespace SignedState

/-- The signs of the call that issued this to the store. -/
def issuedWith (s : SignedState) (index : Nat) : Signs :=
  match s.service.calls.findIdx? fun c => reservationOf c.stage = some index with
  | some k => s.signs.getD k []
  | none => []

/-- The signs of the records after one more call of the store settled: a run that was created
has those of its reservation, one that was updated has none. -/
def settle (s : SignedState) (records : OrderedMap String Signs) (e : Entry × Nat) :
    OrderedMap String Signs :=
  match e.1.reply with
  | .ok (.reserved true record) => records.set record.runId.1 (s.issuedWith e.2)
  | .ok (.record record) => records.erase record.runId.1
  | .ok (.records recovered) =>
    if e.1.call.reads then records else recovered.foldl (fun m r => m.erase r.runId.1) records
  | _ => records

/-- The signs of the records when the store answers its call `index`. -/
def recorded (s : SignedState) (index : Nat) : OrderedMap String Signs :=
  (s.service.store.log.take index).zipIdx.foldl s.settle .empty

/-- Whether the record that the store answers call `k` with has other signs. -/
def differs (s : SignedState) (k : Nat) : Bool :=
  match s.service.calls[k]? with
  | some ⟨_, .reading index⟩ =>
    match s.service.store.log[index]?.map Entry.reply with
    | some (.ok (.found (some record))) =>
      !sameSigns (((s.recorded index).get? record.runId.1).getD []) (s.signs.getD k [])
    | _ => false
  | _ => false

end SignedState

structure SignedEvent where
  event : AgentTestService.Event
  signs : Signs

section
variable (fingerprint : Execution → String)

/-- `start` refuses a request whose parameters have other signs than the record, and goes on as
it does without signs otherwise. -/
def next (options : ServiceOptions) (s : SignedState) (e : SignedEvent) : Option SignedState :=
  match e.event with
  | .start input =>
    match accept options.catalog input with
    | .error _ => some s
    | .ok a =>
      if Signed a e.signs then
        (AgentTestService.next fingerprint options s.service (.start input)).map fun service =>
          ⟨service, s.signs ++ [e.signs]⟩
      else none
  | .found k refused proposedRunId createdAt =>
    if s.differs k then
      some { s with service := s.service.update k (.ended (.error differentRequest) none) }
    else
      (AgentTestService.next fingerprint options s.service
        (.found k refused proposedRunId createdAt)).map fun service => { s with service }
  | event =>
    (AgentTestService.next fingerprint options s.service event).map fun service =>
      { s with service }

def signedService (options : ServiceOptions) (m : Memory) (file : Option StoreFile) :
    System SignedState SignedEvent :=
  .ofMachine ⟨⟨opened m file, .empty, .empty, []⟩, []⟩ (next fingerprint options)

end

variable {fingerprint : Execution → String} {options : ServiceOptions} {m : Memory}
  {file : Option StoreFile} {s t : SignedState}

/-- Every start that is tried again is answered with the run of the first call when it asks for
the same and refused when it does not; it reserves nothing, and goes on as soon as the store
has answered it. -/
def Idempotent (fingerprint : Execution → String) (options : ServiceOptions)
    (S : System SignedState SignedEvent) : Prop :=
  ∀ s, S.Reachable s → NoCollision fingerprint s.service →
    ∀ (j : Nat) (first : StartCall), s.service.calls[j]? = some first →
    ∀ (result : StartRunResult) (reservation : Option Nat),
      first.stage = .ended (.ok result) reservation →
    ∀ (input : JsValue) (signs : Signs) (a : Accepted), accept options.catalog input = .ok a →
      first.requestId = a.request.requestId →
    ∀ s₁, S.step s ⟨.start input, signs⟩ s₁ → ∀ events t, S.Exec s₁ events t →
      ∃ stage, t.service.calls[s.service.calls.length]? = some ⟨a, stage⟩ ∧
        Retries (SameIntent first.accepted a ∧ sameSigns (s.signs.getD j []) signs = true)
          result.runId s.service.store.issued.length stage ∧
        (stage = .reading s.service.store.issued.length →
          t.service.store.log[s.service.store.issued.length]?.isSome →
          ∀ refused proposedRunId createdAt, ∃ u, S.step t
            ⟨.found s.service.calls.length refused proposedRunId createdAt, []⟩ u)

/-! ## Without negative zeros -/

/-- The steps whose starts have no negative zero. -/
def Unsigned (_ : SignedState) (e : SignedEvent) : Prop := e.signs = []

def Plain (s : SignedState) : Prop := ∀ signs ∈ s.signs, signs = []

theorem Plain.getD (h : Plain s) (k : Nat) : s.signs.getD k [] = [] := by
  rw [List.getD_eq_getElem?_getD]
  cases hk : s.signs[k]? with
  | none => rfl
  | some signs => exact h signs (List.mem_of_getElem? hk)

theorem Plain.issuedWith (h : Plain s) (index : Nat) : s.issuedWith index = [] := by
  unfold SignedState.issuedWith
  split
  · exact h.getD _
  · rfl

theorem foldl_erase_values {records : OrderedMap String Signs}
    (h : ∀ id signs, records.get? id = some signs → signs = []) :
    ∀ (recovered : List StoredRunRecord) (id : String) (signs : Signs),
      (recovered.foldl (fun m r => m.erase r.runId.1) records).get? id = some signs →
        signs = [] := by
  intro recovered
  induction recovered generalizing records with
  | nil => exact h
  | cons r rest ih =>
    refine ih fun id signs hget => ?_
    rw [OrderedMap.get?_erase] at hget
    split at hget
    · cases hget
    · exact h id signs hget

/-- The records of such a service have no signs. -/
theorem Plain.settle (h : Plain s) {records : OrderedMap String Signs}
    (hrecords : ∀ id signs, records.get? id = some signs → signs = []) (e : Entry × Nat) :
    ∀ id signs, (s.settle records e).get? id = some signs → signs = [] := by
  intro id signs hget
  unfold SignedState.settle at hget
  split at hget
  · rw [OrderedMap.get?_set] at hget
    split at hget
    · rw [← Option.some.inj hget]
      exact h.issuedWith _
    · exact hrecords id signs hget
  · rw [OrderedMap.get?_erase] at hget
    split at hget
    · cases hget
    · exact hrecords id signs hget
  · split at hget
    · exact hrecords id signs hget
    · exact foldl_erase_values hrecords _ id signs hget
  · exact hrecords id signs hget

theorem Plain.recorded (h : Plain s) (index : Nat) (id : String) :
    ((s.recorded index).get? id).getD [] = [] := by
  have hvalues : ∀ (entries : List (Entry × Nat)) (records : OrderedMap String Signs),
      (∀ id signs, records.get? id = some signs → signs = []) →
      ∀ id signs, (entries.foldl s.settle records).get? id = some signs → signs = [] := by
    intro entries
    induction entries with
    | nil => exact fun _ hrecords => hrecords
    | cons e rest ih => exact fun records hrecords => ih _ (h.settle hrecords e)
  cases hget : (s.recorded index).get? id with
  | none => rfl
  | some signs =>
    exact hvalues _ .empty (fun id signs hnone => by simp at hnone) id signs hget

theorem Plain.agrees (h : Plain s) (k : Nat) : s.differs k = false := by
  unfold SignedState.differs
  split
  · split
    · rw [h.recorded, h.getD]
      rfl
    · rfl
  · rfl

/-- A step of such a service is a step of the service without signs. -/
theorem Plain.next (h : Plain s) {event : AgentTestService.Event}
    (hnext : next fingerprint options s ⟨event, []⟩ = some t) : Plain t ∧
      AgentTestService.next fingerprint options s.service event = some t.service := by
  unfold SignedStart.next at hnext
  cases event with
  | start input =>
    simp only at hnext
    cases haccept : accept options.catalog input with
    | error failure =>
      simp only [haccept, Option.some.injEq] at hnext
      subst hnext
      refine ⟨h, ?_⟩
      simp only [AgentTestService.next, haccept]
    | ok a =>
      simp only [haccept] at hnext
      rw [if_pos (show Signed a [] from fun _ hname => absurd hname List.not_mem_nil)] at hnext
      obtain ⟨service, hservice, rfl⟩ := Option.map_eq_some_iff.mp hnext
      refine ⟨fun signs hsigns => ?_, hservice⟩
      rcases List.mem_append.mp hsigns with hold | hnew
      · exact h signs hold
      · exact List.mem_singleton.mp hnew
  | found k refused proposedRunId createdAt =>
    simp only [h.agrees, Bool.false_eq_true, if_false] at hnext
    obtain ⟨service, hservice, rfl⟩ := Option.map_eq_some_iff.mp hnext
    exact ⟨h, hservice⟩
  | store event =>
    obtain ⟨service, hservice, rfl⟩ := Option.map_eq_some_iff.mp hnext
    exact ⟨h, hservice⟩
  | prepared snapshot =>
    obtain ⟨service, hservice, rfl⟩ := Option.map_eq_some_iff.mp hnext
    exact ⟨h, hservice⟩
  | reserved k =>
    obtain ⟨service, hservice, rfl⟩ := Option.map_eq_some_iff.mp hnext
    exact ⟨h, hservice⟩

theorem unsigned_exec {events : List SignedEvent} (h : Plain s)
    (hexec : ((signedService fingerprint options m file).restrict Unsigned).Exec s events t) :
    Plain t ∧ ∃ events', (service fingerprint options m file).Exec s.service events' t.service := by
  induction hexec with
  | nil => exact ⟨h, [], .nil _⟩
  | @snoc t u as e _ hstep ih =>
    obtain ⟨hplain, events', hbase⟩ := ih
    obtain ⟨hnext, hunsigned⟩ := hstep
    obtain ⟨event, signs⟩ := e
    cases (show signs = [] from hunsigned)
    obtain ⟨hplain', hstep'⟩ := hplain.next hnext
    exact ⟨hplain', _, hbase.snoc hstep'⟩

theorem unsigned_reachable
    (h : ((signedService fingerprint options m file).restrict Unsigned).Reachable s) :
    Plain s ∧ (service fingerprint options m file).Reachable s.service := by
  obtain ⟨as, s₀, hinit, hexec⟩ := h
  cases (show s₀ = _ from hinit)
  have hstart : Plain ⟨⟨opened m file, .empty, .empty, []⟩, []⟩ := by
    intro signs hsigns
    cases hsigns
  obtain ⟨hplain, events, hbase⟩ := unsigned_exec hstart hexec
  exact ⟨hplain, System.Reachable.exec (.init rfl) hbase⟩

/-- Without negative zeros starting is idempotent. -/
theorem unsigned_idempotent (fingerprint : Execution → String) (options : ServiceOptions)
    (m : Memory) (file : Option StoreFile) (hopen : Opens options.limits m file)
    (hnamed : Named options.catalog) : Idempotent fingerprint options
      ((signedService fingerprint options m file).restrict Unsigned) := by
  intro s hs hno j first hj result reservation hended input signs a haccept hrequest s₁ hstart
    events t hexec
  obtain ⟨hplain, hbase⟩ := unsigned_reachable hs
  obtain ⟨hnext, hunsigned⟩ := hstart
  cases (show signs = [] from hunsigned)
  obtain ⟨hplain₁, hnext₁⟩ := hplain.next hnext
  obtain ⟨hplain', events', hexec'⟩ := unsigned_exec hplain₁ hexec
  obtain ⟨stage, hk, hretries, hgoes⟩ := retried_later hopen hnamed hbase hno
    (List.mem_of_getElem? hj) hended haccept hrequest hnext₁ hexec'
  refine ⟨stage, hk, ?_, ?_⟩
  · have hsame : (SameIntent first.accepted a ∧ sameSigns (s.signs.getD j []) [] = true) =
        SameIntent first.accepted a := by
      rw [hplain.getD]
      exact propext (and_iff_left rfl)
    rw [hsame]
    exact hretries
  · intro hreading hanswered refused proposedRunId createdAt
    obtain ⟨service, hservice⟩ :=
      Option.isSome_iff_exists.mp (hgoes hreading hanswered refused proposedRunId createdAt)
    refine ⟨{ t with service }, ?_, rfl⟩
    show SignedStart.next fingerprint options t _ = _
    simp only [SignedStart.next, hplain'.agrees, Bool.false_eq_true, if_false, hservice,
      Option.map_some]

/-! ## A retried negative zero -/

def countDefinition : TestDefinition :=
  { demoDefinition with parameters := ⟨[("count", ⟨.number, none, none⟩)], ["count"]⟩ }

def countOptions : ServiceOptions := ⟨[countDefinition], "command", .linux, demoLimits⟩

def countRequest : JsValue := .object [("requestId", .string "request-1"),
  ("snapshotId", .string "snapshot-1"), ("testId", .string "service-test:demo/login"),
  ("parameters", .object [("count", .number 0)])]

def unsigned (event : AgentTestService.Event) : SignedEvent := ⟨event, []⟩

/-- A request is answered, and its run is marked as running. -/
def running (signs : Signs) : List SignedEvent :=
  [unsigned (.prepared demoSnapshot), ⟨.start countRequest, signs⟩,
    unsigned (.store (.start 0)), unsigned (demoFound 0 "run:00000000-0000-4000-8000-000000000001"),
    unsigned (.store (.start 0)), unsigned (.store (.writeSettled 0 true true)),
    unsigned (.reserved 0), unsigned (.store (.issue (.markRunning
      "run:00000000-0000-4000-8000-000000000001" "2026-01-01T00:00:00.000Z"))),
    unsigned (.store (.start 0)), unsigned (.store (.writeSettled 0 true true))]

/-- The store answers the retry. -/
def answered : List SignedEvent :=
  [unsigned (.store (.start 0)), unsigned (demoFound 1 "run:00000000-0000-4000-8000-000000000002")]

def retry (signs : Signs) : List SignedEvent := ⟨.start countRequest, signs⟩ :: answered

def started : SignedState := ⟨⟨opened .empty none, .empty, .empty, []⟩, []⟩

def replayed (s : SignedState) (events : List SignedEvent) : Option SignedState :=
  System.replay (next demoFingerprint countOptions) s events

structure Intent where
  requestId : String
  snapshotId : String
  testId : String
  parameters : Parameters
  taskId : Option String
  deriving DecidableEq

/-- What a call asked for. -/
def intent (a : Accepted) : Intent :=
  ⟨a.request.requestId, a.request.snapshotId, a.definition.testId.1, a.parameters,
    a.taskId.map Subtype.val⟩

theorem sameIntent_of_eq {a a' : Accepted} (h : intent a = intent a') : SameIntent a a' := by
  simp only [intent, Intent.mk.injEq] at h
  obtain ⟨-, hsnapshot, htest, hparameters, htask⟩ := h
  exact ⟨hsnapshot, Subtype.ext htest, fun name => by rw [hparameters],
    Option.map_injective Subtype.val_injective htask⟩

def countIntent : Intent :=
  ⟨"request-1", "snapshot-1", "service-test:demo/login", [("count", .number 0)], none⟩

/-- Whether a call was answered or refused. -/
def outcome : Stage → Option Bool
  | .ended (.ok _) _ => some true
  | .ended (.error _) _ => some false
  | _ => none

def outcomes (s : SignedState) : List (Intent × Option Bool) :=
  s.service.calls.map fun c => (intent c.accepted, outcome c.stage)

theorem countRequest_accepted :
    (accept countOptions.catalog countRequest).toOption.map intent = some countIntent := by
  decide +kernel

theorem one_call {o} (h : outcomes s = [o]) : ∃ c, s.service.calls = [c] ∧
    intent c.accepted = o.1 ∧ outcome c.stage = o.2 := by
  obtain ⟨c, hc, ho⟩ := List.map_eq_singleton_iff.mp h
  exact ⟨c, hc, by rw [← ho], by rw [← ho]⟩

theorem outcome_ok {stage : Stage} (h : outcome stage = some true) :
    ∃ result reservation, stage = .ended (.ok result) reservation := by
  cases stage with
  | reading index => cases h
  | reserving index owner => cases h
  | ended result reservation =>
    cases result with
    | ok result => exact ⟨result, reservation, rfl⟩
    | error failure => cases h

/-- A service with one call has no collision. -/
theorem one_noCollision {c : StartCall} (h : s.service.calls = [c]) :
    NoCollision fingerprint s.service := by
  have hone : ∀ (k : Nat) (c' : StartCall), s.service.calls[k]? = some c' → c' = c := by
    intro k c' hk
    rw [h] at hk
    exact List.mem_singleton.mp (List.mem_of_getElem? hk)
  intro j k c₁ c₂ hj hk _ _ _ _ _
  rw [hone j c₁ hj, hone k c₂ hk]
  exact .refl c.accepted

/-- What idempotence says of the retry. -/
theorem Idempotent.retried {S : System SignedState SignedEvent} {signs : Signs}
    (h : Idempotent demoFingerprint countOptions S) (hs : S.Reachable s)
    (hone : outcomes s = [(countIntent, some true)]) {s₁ : SignedState}
    (hstart : S.step s ⟨.start countRequest, signs⟩ s₁) (hsigns : s.signs = [signs])
    {events : List SignedEvent} (hexec : S.Exec s₁ events t) :
    ∃ c, t.service.calls[1]? = some c ∧ outcome c.stage ≠ some false := by
  obtain ⟨c, hc, hintent, houtcome⟩ := one_call hone
  obtain ⟨result, reservation, hended⟩ := outcome_ok houtcome
  obtain ⟨a, ha, hasked⟩ := Option.map_eq_some_iff.mp countRequest_accepted
  have haccept : accept countOptions.catalog countRequest = .ok a := by
    cases hresult : accept countOptions.catalog countRequest with
    | error failure =>
      rw [hresult] at ha
      cases ha
    | ok b =>
      rw [hresult] at ha
      cases ha
      rfl
  have hsame : intent c.accepted = intent a := hintent.trans hasked.symm
  obtain ⟨stage, hk, hretries, -⟩ := h s hs (one_noCollision hc) 0 c (by rw [hc]; rfl) result
    reservation hended countRequest signs a haccept (congrArg Intent.requestId hsame) s₁ hstart events t hexec
  rw [hc] at hk
  refine ⟨_, hk, ?_⟩
  cases hretries with
  | reading => exact nofun
  | reused _ => exact nofun
  | refused hdiffers =>
    refine absurd ⟨sameIntent_of_eq hsame, ?_⟩ hdiffers
    rw [hsigns]
    simp [sameSigns]

/-- The runs are evaluated together: they differ in the sign alone. -/
theorem run_outcomes :
    ((replayed started (running ["count"])).map (fun s => (outcomes s, s.signs)) =
        some ([(countIntent, some true)], [["count"]]) ∧
      (replayed started (running ["count"] ++ retry ["count"])).map outcomes =
        some [(countIntent, some true), (countIntent, some false)]) ∧
    (replayed started (running [] ++ retry [])).map outcomes =
      some [(countIntent, some true), (countIntent, some true)] := by
  decide +kernel

theorem running_outcomes :
    (replayed started (running ["count"])).map (fun s => (outcomes s, s.signs)) =
      some ([(countIntent, some true)], [["count"]]) := run_outcomes.1.1

theorem retried_outcomes : (replayed started (running ["count"] ++ retry ["count"])).map outcomes =
    some [(countIntent, some true), (countIntent, some false)] := run_outcomes.1.2

/-- A retried negative zero is refused once its run was updated. -/
theorem negative_zero_refused : ¬ Idempotent demoFingerprint countOptions
    (signedService demoFingerprint countOptions .empty none) := by
  intro h
  obtain ⟨s, hs, hrunning⟩ := Option.map_eq_some_iff.mp running_outcomes
  obtain ⟨hone, hsigns⟩ := Prod.mk.inj hrunning
  obtain ⟨t, ht, houtcomes⟩ := Option.map_eq_some_iff.mp retried_outcomes
  unfold replayed at hs ht
  rw [System.replay_append, hs, Option.bind_some] at ht
  obtain ⟨s₁, hstart, ht⟩ := Option.bind_eq_some_iff.mp ht
  obtain ⟨c, hc, hgood⟩ := h.retried (System.reachable_of_replay hs) hone hstart hsigns
    (System.exec_of_replay _ _ _ ht)
  have hbad : (outcomes t)[1]? = some (countIntent, some false) := by rw [houtcomes]; rfl
  rw [outcomes, List.getElem?_map, hc] at hbad
  exact hgood (congrArg Prod.snd (Option.some.inj hbad))

/-- A zero with no sign is started again, and its run is the first call's. -/
theorem positive_zero_reused : Idempotent demoFingerprint countOptions
      ((signedService demoFingerprint countOptions .empty none).restrict Unsigned) ∧
    (replayed started (running [] ++ retry [])).map outcomes =
      some [(countIntent, some true), (countIntent, some true)] := by
  refine ⟨unsigned_idempotent demoFingerprint countOptions .empty none ⟨.empty, .inl ⟨rfl, rfl⟩⟩ ?_,
    run_outcomes.2⟩
  intro definition hdefinition
  rw [List.mem_singleton.mp hdefinition]
  decide

end SurfaceLoom.Service.SignedStart
