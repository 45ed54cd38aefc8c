import SurfaceLoom.Native.WindowsController

/-! # What `reconcileLate` returns

The slot and the mailbox do not know which acquisition was rejected last. In the
runs that never let them fall behind, a session is returned only for the latest
acquisition of its kind that was rejected with an unknown outcome. -/
namespace SurfaceLoom.Native.WindowsController
open SurfaceLoom.Lib SurfaceLoom.Lib.Transition SurfaceLoom.Native.Wire
open SurfaceLoom.Native.Client SurfaceLoom.Native.Client.NativeClient

variable {ρ : Type} {validate : ρ → Option SessionDescriptor} {c c' : Controller ρ}

/-! ## The last of its kind -/

theorem lastIndex_eq_some {α : Type} {p : α → Bool} {l : List α} {i : Nat} {x : α}
    (hx : l[i]? = some x) (hp : p x = true)
    (hlast : ∀ j y, i < j → l[j]? = some y → p y = false) : lastIndex p l = some i := by
  obtain ⟨hi, -⟩ := List.getElem?_eq_some_iff.mp hx
  unfold lastIndex
  refine List.find?_eq_some_iff_getElem.mpr ⟨by simp [hx, hp], l.length - 1 - i, ?_, ?_, ?_⟩
  · simp
    omega
  · simp
    omega
  · intro j hj
    simp only [List.getElem_reverse, List.length_range, List.getElem_range]
    cases hy : l[l.length - 1 - j]? with
    | none => rfl
    | some y => simp [hlast _ y (by omega) hy]

/-- No acquisition of the kind was begun later. -/
def LastOfKind (c : Controller ρ) (i : Nat) (kind : AcquisitionKind) : Prop :=
  ∀ a ∈ c.acquisitions.drop (i + 1), a.kind ≠ kind

instance (c : Controller ρ) (i : Nat) (kind : AcquisitionKind) : Decidable (LastOfKind c i kind) :=
  inferInstanceAs (Decidable (∀ a ∈ _, _))

theorem lastOfKind_iff {i : Nat} {kind : AcquisitionKind} : LastOfKind c i kind ↔
    ∀ (j : Nat) (a : Acquisition ρ), i < j → c.acquisitions[j]? = some a → a.kind ≠ kind := by
  constructor
  · intro h j a hj ha
    refine h a (List.mem_of_getElem? (i := j - (i + 1)) ?_)
    rw [List.getElem?_drop, Nat.add_sub_cancel' hj]
    exact ha
  · intro h a ha
    obtain ⟨j, hj⟩ := List.mem_iff_getElem?.mp ha
    rw [List.getElem?_drop] at hj
    exact h _ a (by omega) hj

/-! ## What is claimed -/

/-- The descriptor is that of the response. -/
def Delivered (validate : ρ → Option SessionDescriptor) (a : Acquisition ρ)
    (descriptor : SessionDescriptor) : Prop :=
  ∃ response, a.response = some response ∧
    response.body.toOption.bind validate = some descriptor

/-- The session is that of the latest acquisition to be rejected. -/
structure Answered (validate : ρ → Option SessionDescriptor) (c : Controller ρ) (answer : Answer) :
    Prop where
  latest : answer.latest = some answer.session.source
  delivered : ∃ a, c.acquisitions[answer.session.source]? = some a ∧
    a.RejectedUnknown answer.kind ∧ Delivered validate a answer.session.descriptor
  ownership : answer.session.descriptor.ownership = answer.kind.ownership

structure Reconciled (validate : ρ → Option SessionDescriptor) (c : Controller ρ) : Prop where
  own : ∀ answer ∈ c.answers, Answered validate c answer
  /-- Different acquisitions are reconciled to different sessions. -/
  apart : ∀ answer ∈ c.answers, ∀ other ∈ c.answers, answer.latest ≠ other.latest →
    answer.session.source ≠ other.session.source

/-- No acquisition of a kind is begun once the mailbox holds a session of it; a late response
is to the last acquisition of its kind, and of its ownership; the slot is asked for its own
kind, when its acquisition is the last of it and was rejected. -/
def Timely (validate : ρ → Option SessionDescriptor) (c : Controller ρ) : Event ρ → Prop
  | .acquire kind _ _ => c.late.get? kind = none
  | .late i response => ∀ a ∈ c.acquisitions[i]?, LastOfKind c i a.kind ∧
      ∀ descriptor ∈ response.body.toOption.bind validate,
        descriptor.ownership = a.kind.ownership
  | .reconcileLate kind => ∀ session ∈ c.recoverable, LastOfKind c session.source kind ∧
      ∃ a ∈ c.acquisitions[session.source]?, a.kind = kind ∧ a.stage.isRejected = true
  | _ => True

instance (c : Controller ρ) : (event : Event ρ) → Decidable (Timely validate c event)
  | .acquire kind _ _ => inferInstanceAs (Decidable (c.late.get? kind = none))
  | .late _ _ => inferInstanceAs (Decidable (∀ a ∈ _, _))
  | .reconcileLate _ => inferInstanceAs (Decidable (∀ session ∈ _, _))
  | .replied _ _ | .observed _ _ | .elapsed _ | .resumed _ _ => inferInstanceAs (Decidable True)

/-! ## The invariant -/

/-- A late response is awaited only by a request that was given up with an unknown outcome. -/
structure Acquisition.Sound (a : Acquisition ρ) : Prop where
  intent : a.request.call.intent = .lifecycle
  invoking : a.stage = .invoking → a.awaitingLate = false ∧ a.response = none
  awaiting : a.awaitingLate = true → a.stage = .rejected (some .unknown) ∧ a.response = none

/-- A session that may be returned for the kind. -/
structure Held (validate : ρ → Option SessionDescriptor) (c : Controller ρ)
    (kind : AcquisitionKind) (session : SessionState) : Prop where
  delivered : ∃ a, c.acquisitions[session.source]? = some a ∧ a.RejectedUnknown kind ∧
    Delivered validate a session.descriptor
  last : LastOfKind c session.source kind
  ownership : session.descriptor.ownership = kind.ownership

structure Sound (validate : ρ → Option SessionDescriptor) (c : Controller ρ) : Prop where
  acquisitions : ∀ (i : Nat) (a : Acquisition ρ), c.acquisitions[i]? = some a → a.Sound
  recoverable : ∀ session, c.recoverable = some session →
    ∃ a, c.acquisitions[session.source]? = some a ∧
      (a.stage = .observing ∨ a.stage = .rejected (some .unknown)) ∧
        Delivered validate a session.descriptor ∧
          session.descriptor.ownership = a.kind.ownership
  late : ∀ kind session, c.late.get? kind = some session → Held validate c kind session
  woken : ∀ call ∈ c.calls, ∀ session, call.stage = .woken (some session) →
    (c.late.get? call.kind).isSome = true ∧ Held validate c call.kind session
  answers : ∀ answer ∈ c.answers, Answered validate c answer

/-! ## Steps -/

/-- What an acquisition keeps. -/
structure Acquisition.Advances (a a' : Acquisition ρ) : Prop where
  kind : a'.kind = a.kind
  response : ∀ response, a.response = some response → a'.response = some response
  rejected : ∀ operationOutcome, a.stage = .rejected operationOutcome →
    a'.stage = .rejected operationOutcome

theorem Acquisition.Advances.refl (a : Acquisition ρ) : a.Advances a := ⟨rfl, fun _ h => h, fun _ h => h⟩

theorem Acquisition.Advances.rejectedUnknown {a a' : Acquisition ρ} {kind : AcquisitionKind}
    (h : a.Advances a') (hrejected : a.RejectedUnknown kind) : a'.RejectedUnknown kind :=
  ⟨h.kind.trans hrejected.1, h.rejected _ hrejected.2⟩

theorem Acquisition.Advances.delivered {a a' : Acquisition ρ} {descriptor : SessionDescriptor}
    (h : a.Advances a') (hdelivered : Delivered validate a descriptor) :
    Delivered validate a' descriptor := by
  obtain ⟨response, hresponse, hvalid⟩ := hdelivered
  exact ⟨response, h.response response hresponse, hvalid⟩

/-- Acquisitions advance, and those of a kind that the mailbox holds are no new ones. -/
structure Evolves (c c' : Controller ρ) : Prop where
  advances : ∀ (i : Nat) (a : Acquisition ρ), c.acquisitions[i]? = some a →
    ∃ a', c'.acquisitions[i]? = some a' ∧ a.Advances a'
  old : ∀ kind, (c.late.get? kind).isSome = true →
    ∀ (j : Nat) (a' : Acquisition ρ), c'.acquisitions[j]? = some a' →
    a'.kind = kind → ∃ a, c.acquisitions[j]? = some a ∧ a.kind = kind

theorem Held.evolves {kind : AcquisitionKind} {session : SessionState} (h : Held validate c kind session)
    (hev : Evolves c c') (hlate : (c.late.get? kind).isSome = true) :
    Held validate c' kind session := by
  obtain ⟨a, ha, hrejected, hdelivered⟩ := h.delivered
  obtain ⟨a', ha', hadv⟩ := hev.advances _ _ ha
  refine ⟨⟨a', ha', hadv.rejectedUnknown hrejected, hadv.delivered hdelivered⟩, ?_, h.ownership⟩
  refine lastOfKind_iff.mpr fun j b hj hb hkind => ?_
  obtain ⟨b', hb', hkind'⟩ := hev.old kind hlate j b hb hkind
  exact lastOfKind_iff.mp h.last j b' hj hb' hkind'

theorem Answered.evolves {answer : Answer} (h : Answered validate c answer) (hev : Evolves c c') :
    Answered validate c' answer := by
  obtain ⟨a, ha, hrejected, hdelivered⟩ := h.delivered
  obtain ⟨a', ha', hadv⟩ := hev.advances _ _ ha
  exact ⟨h.latest, ⟨a', ha', hadv.rejectedUnknown hrejected, hadv.delivered hdelivered⟩, h.ownership⟩

/-- One acquisition advances. -/
theorem evolves_set {i : Nat} {a a' : Acquisition ρ} (ha : c.acquisitions[i]? = some a)
    (hadv : a.Advances a') (hset : c'.acquisitions = c.acquisitions.set i a') : Evolves c c' := by
  obtain ⟨hi, -⟩ := List.getElem?_eq_some_iff.mp ha
  refine ⟨fun j b hb => ?_, fun kind _ j b hb hkind => ?_⟩
  · rw [hset, List.getElem?_set]
    split
    · rename_i heq
      subst heq
      rw [ha] at hb
      cases hb
      exact ⟨a', rfl, hadv⟩
    · exact ⟨b, hb, .refl b⟩
  · rw [hset, List.getElem?_set] at hb
    split at hb
    · rename_i heq
      subst heq
      cases hb
      exact ⟨a, ha, hadv.kind.symm.trans hkind⟩
    · exact ⟨b, hb, hkind⟩

theorem sound_set {i : Nat} {a' : Acquisition ρ} (h : Sound validate c) (ha' : a'.Sound) :
    ∀ (j : Nat) (b : Acquisition ρ), (c.acquisitions.set i a')[j]? = some b → b.Sound := by
  intro j b hb
  rw [List.getElem?_set] at hb
  split at hb
  · split at hb
    · cases hb
      exact ha'
    · cases hb
  · exact h.acquisitions j b hb

/-- What is remembered stays right while an acquisition advances. -/
theorem Sound.set {i : Nat} {a a' : Acquisition ρ} (h : Sound validate c)
    (ha : c.acquisitions[i]? = some a) (hadv : a.Advances a') (ha' : a'.Sound)
    {recoverable : Option SessionState}
    (hrecoverable : ∀ session, recoverable = some session →
      ∃ b, (c.acquisitions.set i a')[session.source]? = some b ∧
        (b.stage = .observing ∨ b.stage = .rejected (some .unknown)) ∧
          Delivered validate b session.descriptor ∧
            session.descriptor.ownership = b.kind.ownership) :
    Sound validate { c with acquisitions := c.acquisitions.set i a', recoverable := recoverable } := by
  have hev : Evolves c
      { c with acquisitions := c.acquisitions.set i a', recoverable := recoverable } :=
    evolves_set ha hadv rfl
  refine ⟨sound_set h ha', hrecoverable, fun kind session hlate => ?_, fun call hcall session hwoken => ?_,
    fun answer hanswer => (h.answers answer hanswer).evolves hev⟩
  · exact (h.late kind session hlate).evolves hev (Option.isSome_iff_exists.mpr ⟨session, hlate⟩)
  · obtain ⟨hlate, hheld⟩ := h.woken call hcall session hwoken
    exact ⟨hlate, hheld.evolves hev hlate⟩

/-- The slot stays right if its acquisition is still observed, or rejected. -/
theorem Sound.slot {i : Nat} {a a' : Acquisition ρ} (h : Sound validate c)
    (ha : c.acquisitions[i]? = some a) (hadv : a.Advances a')
    (hstage : a.stage = .observing → a'.stage = .rejected (some .unknown)) :
    ∀ session, c.recoverable = some session →
      ∃ b, (c.acquisitions.set i a')[session.source]? = some b ∧
        (b.stage = .observing ∨ b.stage = .rejected (some .unknown)) ∧
          Delivered validate b session.descriptor ∧
            session.descriptor.ownership = b.kind.ownership := by
  intro session hsession
  obtain ⟨b, hb, hheld, hdelivered, hownership⟩ := h.recoverable session hsession
  obtain ⟨hi, -⟩ := List.getElem?_eq_some_iff.mp ha
  rw [List.getElem?_set]
  split
  · rename_i heq
    rw [← heq, ha] at hb
    cases hb
    refine ⟨a', rfl, .inr ?_, hadv.delivered hdelivered, hadv.kind ▸ hownership⟩
    rcases hheld with hobserving | hrejected
    · exact hstage hobserving
    · exact hadv.rejected _ hrejected
  · exact ⟨b, hb, hheld, hdelivered, hownership⟩

/-- An acquisition that runs is rejected. -/
theorem Sound.reject {i : Nat} {a : Acquisition ρ} (awaitingLate executed : Bool)
    (operationOutcome : Option NativeOperationOutcome) (h : Sound validate c)
    (ha : c.acquisitions[i]? = some a) (hstage : a.stage = .invoking ∨ a.stage = .observing)
    (hexecuted : a.stage = .observing → executed = true)
    (hawaiting : awaitingLate = true → operationOutcome = some .unknown ∧ a.response = none) :
    Sound validate (c.reject i { a with awaitingLate := awaitingLate } executed operationOutcome) := by
  have hadv : ∀ stage, a.Advances { a with awaitingLate := awaitingLate, stage := stage } := by
    intro stage
    refine ⟨rfl, fun _ hresponse => hresponse, fun o hrejected => ?_⟩
    rcases hstage with hinvoking | hobserving
    · rw [hinvoking] at hrejected
      cases hrejected
    · rw [hobserving] at hrejected
      cases hrejected
  have hlast : Acquisition.Sound { a with
      awaitingLate := awaitingLate
      stage := .rejected
        (if c.recoverable.isSome ∨ executed then some .unknown else operationOutcome) } := by
    refine ⟨(h.acquisitions i a ha).intent, nofun, fun hlate => ?_⟩
    obtain ⟨hunknown, hresponse⟩ := hawaiting hlate
    rw [hunknown]
    exact ⟨by simp, hresponse⟩
  refine Sound.set h ha (hadv _) hlast (h.slot ha (hadv _) fun hobserving => ?_)
  rw [hexecuted hobserving]
  simp

theorem Sound.reply {i : Nat} {a : Acquisition ρ} {reply : Reply ρ} (h : Sound validate c)
    (ha : c.acquisitions[i]? = some a) (hstage : a.stage = .invoking)
    (hreply : c.reply validate i a reply = some c') : Sound validate c' := by
  have hsound := h.acquisitions i a ha
  obtain ⟨hawaiting, hresponse⟩ := hsound.invoking hstage
  have hobserving : a.stage ≠ .observing := by
    rw [hstage]
    nofun
  have hreject : ∀ executed operationOutcome,
      Sound validate (c.reject i a executed operationOutcome) := by
    intro executed operationOutcome
    refine Sound.reject a.awaitingLate executed operationOutcome h ha (.inl hstage)
      (fun hobs => absurd hobs hobserving) fun hlate => ?_
    rw [hawaiting] at hlate
    cases hlate
  cases reply with
  | gaveUp phase =>
    cases hreply
    refine Sound.reject _ _ _ h ha (.inl hstage) (fun hobs => absurd hobs hobserving)
      fun hphase => ⟨?_, hresponse⟩
    rw [disconnectedOperationOutcome, if_neg (by rw [hsound.intent]; nofun),
      if_neg (of_decide_eq_true hphase)]
  | protocolFailure phase | unsent outcomeKnown | refused error operation | undecoded response =>
    cases hreply
    exact hreject _ _
  | resolved response =>
    simp only [Controller.reply] at hreply
    split at hreply
    · cases hreply
    · rename_i descriptor hvalid
      split at hreply
      · cases hreply
        exact hreject _ _
      · rename_i receipt hreceipt
        split at hreply
        · cases hreply
          exact hreject _ _
        · split at hreply
          · cases hreply
            exact hreject _ _
          · rename_i hmatch
            cases hreply
            have hownership : descriptor.ownership = a.kind.ownership := by
              by_contra hne
              exact hmatch (.inl hne)
            obtain ⟨hi, -⟩ := List.getElem?_eq_some_iff.mp ha
            have hadv : a.Advances { a with stage := .observing, response := some response } := by
              refine ⟨rfl, fun old hold => ?_, fun o hrejected => ?_⟩
              · rw [hresponse] at hold
                cases hold
              · rw [hstage] at hrejected
                cases hrejected
            have hlast : Acquisition.Sound
                { a with stage := .observing, response := some response } := by
              refine ⟨hsound.intent, nofun, fun hlate => ?_⟩
              rw [show a.awaitingLate = true from hlate] at hawaiting
              cases hawaiting
            refine Sound.set h ha hadv hlast ?_
            rintro _ ⟨⟩
            exact ⟨_, List.getElem?_set_self hi, .inl rfl, ⟨response, rfl, hvalid⟩, hownership⟩

theorem Sound.observed {i : Nat} {a : Acquisition ρ} {ok : Bool} (h : Sound validate c)
    (ha : c.acquisitions[i]? = some a) (hstage : a.stage = .observing) :
    Sound validate (c.observed i a ok) := by
  have hsound := h.acquisitions i a ha
  have hawaiting : a.awaitingLate ≠ true := by
    intro hlate
    have hrejected := (hsound.awaiting hlate).1
    rw [hstage] at hrejected
    cases hrejected
  unfold Controller.observed
  split
  · have hadv : a.Advances { a with stage := .accepted } := by
      refine ⟨rfl, fun _ hresponse => hresponse, fun o hrejected => ?_⟩
      rw [hstage] at hrejected
      cases hrejected
    have hlast : Acquisition.Sound { a with stage := .accepted } :=
      ⟨hsound.intent, nofun, fun hlate => absurd hlate hawaiting⟩
    exact Sound.set h ha hadv hlast nofun
  · exact Sound.reject a.awaitingLate true _ h ha (.inr hstage) (fun _ => rfl)
      fun hlate => absurd hlate hawaiting

/-- The mailbox remembers a session and wakes the calls that wait for it. -/
theorem Sound.remember {kind : AcquisitionKind} {session : SessionState} (h : Sound validate c)
    (hheld : Held validate c kind session) : Sound validate
      { c with
        late := c.late.set kind session
        calls := c.calls.map fun call =>
          if call.kind = kind ∧ call.stage = .waiting then
            { call with stage := .woken (some session) }
          else call } := by
  refine ⟨h.acquisitions, h.recoverable, fun kind' session' hlate => ?_,
    fun call hcall session' hwoken => ?_, fun answer hanswer => ?_⟩
  · rw [OrderedMap.get?_set] at hlate
    split at hlate
    · rename_i heq
      cases hlate
      exact ⟨heq ▸ hheld.delivered, heq ▸ hheld.last, heq ▸ hheld.ownership⟩
    · have hold := h.late kind' session' hlate
      exact ⟨hold.delivered, hold.last, hold.ownership⟩
  · obtain ⟨call', hcall', rfl⟩ := List.mem_map.mp hcall
    split at hwoken
    · rename_i hwaiting
      rw [if_pos hwaiting]
      obtain ⟨rfl, -⟩ := hwaiting
      cases hwoken
      refine ⟨by simp, hheld.delivered, hheld.last, hheld.ownership⟩
    · rename_i hother
      rw [if_neg hother]
      obtain ⟨hlate, hold⟩ := h.woken call' hcall' session' hwoken
      refine ⟨?_, hold.delivered, hold.last, hold.ownership⟩
      rw [OrderedMap.get?_set]
      split
      · rfl
      · exact hlate
  · have hold := h.answers answer hanswer
    exact ⟨hold.latest, hold.delivered, hold.ownership⟩

/-- A late response that came for the last acquisition of its kind. -/
theorem Sound.acceptLate {i : Nat} {a : Acquisition ρ} {response : WireResponse ρ}
    (h : Sound validate c) (ha : c.acquisitions[i]? = some a) (hawaiting : a.awaitingLate = true)
    (hlast : LastOfKind c i a.kind) (hownership : ∀ descriptor,
      response.body.toOption.bind validate = some descriptor →
        descriptor.ownership = a.kind.ownership) :
    Sound validate (Controller.accept validate
      { c with
        acquisitions := c.acquisitions.set i
          { a with awaitingLate := false, response := some response } }
      a.kind.method response i) := by
  have hsound := h.acquisitions i a ha
  obtain ⟨hrejected, hnone⟩ := hsound.awaiting hawaiting
  have hadv : a.Advances { a with awaitingLate := false, response := some response } := by
    refine ⟨rfl, fun old hold => ?_, fun _ hstage => hstage⟩
    rw [hnone] at hold
    cases hold
  have hstill : Acquisition.Sound { a with awaitingLate := false, response := some response } := by
    refine ⟨hsound.intent, fun hinvoking => ?_, nofun⟩
    rw [show a.stage = .invoking from hinvoking] at hrejected
    cases hrejected
  have hset := Sound.set h ha hadv hstill (h.slot ha hadv fun _ => hrejected)
  unfold Controller.accept
  split
  · rename_i kind descriptor receipt hkind hvalid hreceipt
    rw [AcquisitionKind.ofName_method] at hkind
    cases hkind
    split
    · exact hset
    · refine hset.remember ⟨?_, lastOfKind_iff.mpr fun j b hj hb => ?_, hownership descriptor hvalid⟩
      · obtain ⟨hi, -⟩ := List.getElem?_eq_some_iff.mp ha
        exact ⟨_, List.getElem?_set_self hi, ⟨rfl, hrejected⟩, response, rfl, hvalid⟩
      · rw [List.getElem?_set_ne (Nat.ne_of_lt hj)] at hb
        exact lastOfKind_iff.mp hlast j b hj hb
  · exact hset

/-- A session that may be returned is that of the latest acquisition to be rejected. -/
theorem Held.latest {kind : AcquisitionKind} {session : SessionState}
    (h : Held validate c kind session) : c.latest kind = some session.source := by
  obtain ⟨a, ha, hrejected, -⟩ := h.delivered
  refine lastIndex_eq_some ha (decide_eq_true hrejected) fun j b hj hb => ?_
  exact decide_eq_false fun hother => lastOfKind_iff.mp h.last j b hj hb hother.1

theorem Sound.answer {kind : AcquisitionKind} {session : SessionState} (h : Sound validate c)
    (hheld : Held validate c kind session) : Sound validate (c.answer kind session) := by
  refine ⟨h.acquisitions, h.recoverable, fun kind' session' hlate => ?_,
    fun call hcall session' hwoken => ?_, fun answer hanswer => ?_⟩
  · have hold := h.late kind' session' hlate
    exact ⟨hold.delivered, hold.last, hold.ownership⟩
  · obtain ⟨hlate, hold⟩ := h.woken call hcall session' hwoken
    exact ⟨hlate, hold.delivered, hold.last, hold.ownership⟩
  · rcases List.mem_append.mp hanswer with hold | hnew
    · have hold := h.answers answer hold
      exact ⟨hold.latest, hold.delivered, hold.ownership⟩
    · rw [List.mem_singleton.mp hnew]
      exact ⟨hheld.latest, hheld.delivered, hheld.ownership⟩

/-- Calls come and go. -/
theorem Sound.calls {calls : List Reconciliation} (h : Sound validate c)
    (hcalls : ∀ call ∈ calls, ∀ session, call.stage = .woken (some session) →
      (c.late.get? call.kind).isSome = true ∧ Held validate c call.kind session) :
    Sound validate { c with calls := calls } := by
  refine ⟨h.acquisitions, h.recoverable, fun kind session hlate => ?_,
    fun call hcall session hwoken => ?_, fun answer hanswer => ?_⟩
  · have hold := h.late kind session hlate
    exact ⟨hold.delivered, hold.last, hold.ownership⟩
  · obtain ⟨hlate, hold⟩ := hcalls call hcall session hwoken
    exact ⟨hlate, hold.delivered, hold.last, hold.ownership⟩
  · have hold := h.answers answer hanswer
    exact ⟨hold.latest, hold.delivered, hold.ownership⟩

theorem Sound.reconcileLate {kind : AcquisitionKind} (h : Sound validate c)
    (htimely : ∀ session ∈ c.recoverable, LastOfKind c session.source kind ∧
      ∃ a ∈ c.acquisitions[session.source]?, a.kind = kind ∧ a.stage.isRejected = true) :
    Sound validate (c.reconcileLate kind) := by
  unfold Controller.reconcileLate
  split
  · rename_i session hsession
    obtain ⟨hlast, a, ha, hkind, hrejected⟩ := htimely session hsession
    obtain ⟨b, hb, hstage, hdelivered, hownership⟩ := h.recoverable session hsession
    obtain rfl := Option.some.inj (Eq.trans (Option.mem_def.mp ha).symm hb)
    have hunknown : a.stage = .rejected (some .unknown) := by
      rcases hstage with hobserving | hunknown
      · rw [hobserving] at hrejected
        cases hrejected
      · exact hunknown
    exact h.answer ⟨⟨a, ha, ⟨hkind, hunknown⟩, hdelivered⟩, hlast, hkind ▸ hownership⟩
  · refine h.calls fun call hcall session hwoken => ?_
    rcases List.mem_append.mp hcall with hold | hnew
    · exact h.woken call hold session hwoken
    · rw [List.mem_singleton.mp hnew] at hwoken ⊢
      simp only at hwoken
      split at hwoken
      · rename_i session' hlate
        cases hwoken
        exact ⟨Option.isSome_iff_exists.mpr ⟨session, hlate⟩, h.late kind session hlate⟩
      · cases hwoken

theorem begun_cases {a a' : Acquisition ρ} {j : Nat}
    (h : (c.acquisitions ++ [a])[j]? = some a') : c.acquisitions[j]? = some a' ∨ a' = a := by
  rw [List.getElem?_append] at h
  split at h
  · exact .inl h
  · exact .inr (List.mem_singleton.mp (List.mem_of_getElem? h))

theorem Sound.acquire {kind : AcquisitionKind} {id operationId : String} (h : Sound validate c)
    (htimely : c.late.get? kind = none) : Sound validate
      { c with
        acquisitions := c.acquisitions ++
          [⟨kind, acquisitionRequest kind id operationId, .invoking, false, none⟩] } := by
  have hev : Evolves c
      { c with
        acquisitions := c.acquisitions ++
          [⟨kind, acquisitionRequest kind id operationId, .invoking, false, none⟩] } := by
    refine ⟨fun i a ha => ?_, fun kind' hlate j a' ha' hkind => ?_⟩
    · obtain ⟨hi, -⟩ := List.getElem?_eq_some_iff.mp ha
      exact ⟨a, (List.getElem?_append_left hi).trans ha, .refl a⟩
    · rcases begun_cases ha' with hold | rfl
      · exact ⟨a', hold, hkind⟩
      · rw [← hkind, htimely] at hlate
        cases hlate
  refine ⟨fun i a ha => ?_, fun session hsession => ?_, fun kind' session hlate => ?_,
    fun call hcall session hwoken => ?_, fun answer hanswer => (h.answers answer hanswer).evolves hev⟩
  · rcases begun_cases ha with hold | rfl
    · exact h.acquisitions i a hold
    · exact ⟨rfl, fun _ => ⟨rfl, rfl⟩, nofun⟩
  · obtain ⟨a, ha, hheld⟩ := h.recoverable session hsession
    obtain ⟨hi, -⟩ := List.getElem?_eq_some_iff.mp ha
    exact ⟨a, (List.getElem?_append_left hi).trans ha, hheld⟩
  · exact (h.late kind' session hlate).evolves hev (Option.isSome_iff_exists.mpr ⟨session, hlate⟩)
  · obtain ⟨hlate, hheld⟩ := h.woken call hcall session hwoken
    exact ⟨hlate, hheld.evolves hev hlate⟩

/-- A call that goes on, or ends. -/
theorem Sound.setCall {j : Nat} {call : Reconciliation} (h : Sound validate c)
    (hcall : ∀ session, call.stage ≠ .woken (some session)) :
    Sound validate { c with calls := c.calls.set j call } := by
  refine h.calls fun other hother session hwoken => ?_
  rcases List.mem_or_eq_of_mem_set hother with hold | rfl
  · exact h.woken other hold session hwoken
  · exact absurd hwoken (hcall session)

theorem Sound.next {event : Event ρ} (h : Sound validate c) (htimely : Timely validate c event)
    (hstep : Controller.next validate c event = some c') : Sound validate c' := by
  cases event with
  | acquire kind id operationId =>
    cases hstep
    exact h.acquire htimely
  | replied i reply =>
    simp only [Controller.next] at hstep
    split at hstep
    · cases hstep
    · rename_i a ha
      split at hstep
      · rename_i hstage
        exact h.reply ha hstage hstep
      · cases hstep
  | observed i ok =>
    simp only [Controller.next] at hstep
    split at hstep
    · cases hstep
    · rename_i a ha
      split at hstep
      · rename_i hstage
        cases hstep
        exact h.observed ha hstage
      · cases hstep
  | late i response =>
    simp only [Controller.next] at hstep
    split at hstep
    · cases hstep
    · rename_i a ha
      split at hstep
      · rename_i hawaiting
        cases hstep
        obtain ⟨hlast, hownership⟩ := htimely a ha
        exact h.acceptLate ha hawaiting.1 hlast hownership
      · cases hstep
  | reconcileLate kind =>
    cases hstep
    exact h.reconcileLate htimely
  | elapsed j =>
    simp only [Controller.next] at hstep
    split at hstep
    · cases hstep
      exact h.setCall nofun
    · cases hstep
  | resumed j tracked =>
    simp only [Controller.next] at hstep
    split at hstep
    · rename_i kind value hcall
      have hrest : Sound validate { c with calls := c.calls.set j ⟨kind, .returned⟩ } :=
        h.setCall nofun
      split at hstep
      · rename_i session
        cases hstep
        split
        · obtain ⟨-, hheld⟩ := h.woken _ (List.mem_of_getElem? hcall) session rfl
          exact hrest.answer ⟨hheld.delivered, hheld.last, hheld.ownership⟩
        · exact hrest
      · cases hstep
        exact hrest
    · cases hstep

theorem sound_invariant :
    ((controller validate).restrict (Timely validate)).Invariant (Sound validate) where
  init := by
    intro c hc
    cases hc
    refine ⟨fun i a ha => ?_, fun session hsession => ?_, fun kind session hlate => ?_,
      fun call hcall => ?_, fun answer hanswer => ?_⟩
    · rw [Controller.opened, List.getElem?_nil] at ha
      cases ha
    · cases hsession
    · cases hlate
    · cases hcall
    · cases hanswer
  step := by
    intro c event c' _ h hstep
    exact h.next hstep.2 hstep.1

/-- The session a host answers a launch with. -/
def launched (sessionId : String) : SessionDescriptor where
  hostInstanceId := "host-1"
  sessionId := sessionId
  root := ⟨"host-1", sessionId, "root"⟩
  rootScope := ⟨rfl, rfl⟩
  ownership := .owned
  surface := .application

/-- A launch that times out, and whose response comes late. -/
def lateLaunch : List (Event SessionDescriptor) :=
  [.acquire .launch "request-1" "operation-1", .replied 0 (.gaveUp .written),
    .late 0 ⟨"request-1", .ok (launched "session-1"), some ⟨"operation-1", .executed⟩⟩]

/-- The session of the first launch is returned for the second. -/
def staleLaunch : List (Event SessionDescriptor) :=
  lateLaunch ++ [.acquire .launch "request-2" "operation-2", .replied 1 (.gaveUp .written),
    .reconcileLate .launch, .resumed 0 true]

end SurfaceLoom.Native.WindowsController
