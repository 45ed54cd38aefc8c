import SurfaceLoom.Lib.Transition
import SurfaceLoom.Native.Client
import SurfaceLoom.Native.RequestLifecycle

/-! # The client at one request

What the client's tables hold at one request id, when that agrees with a state
of the request's life, and that each handler keeps the agreement. -/
namespace SurfaceLoom.Native.ClientViews
open SurfaceLoom.Lib SurfaceLoom.Lib.Transition SurfaceLoom.Native.Wire
open SurfaceLoom.Native.Client SurfaceLoom.Native.Client.NativeClient
open SurfaceLoom.Native.RequestLifecycle

variable {π ρ : Type}

/-- The client's tables at one request id. -/
structure View (π ρ : Type) where
  pending : Option (Pending π)
  decoding : Option (Decoding π ρ)
  dispatched : Option (NativeRequest π)
  awaitingLate : Prop
  allocated : Prop
  write : Option Nat
  exchange : Option (Exchange π ρ)

def view (c : NativeClient π ρ) (id : String) : View π ρ where
  pending := c.pending.get? id
  decoding := c.decoding.get? id
  dispatched := c.dispatchedRequests.get? id
  awaitingLate := id ∈ c.awaitingLateResponseIds
  allocated := id ∈ c.allocatedIds
  write := c.writes.get? id
  exchange := c.exchanges.get? id

/-- The tables at a registered request agree with the state of its life. -/
structure Agrees [Inhabited π] (v : View π ρ) (id : String) (x : Exchange π ρ) (l : Lifecycle) :
    Prop where
  run : (lifecycle ρ x.request).Run x.marks l
  requestId : x.request.id = id
  allocated : v.allocated
  pending : ∀ p, v.pending = some p → p.request = x.request ∧ p.phase ≠ .beforeWrite ∧
    l.promise = .waiting ∧ l.handed = true ∧ l.nothingWritten = false ∧ v.decoding = none
  decoding : ∀ d, v.decoding = some d → d.request = x.request ∧ l.promise = .waiting ∧
    l.handed = true ∧ validateResponseForRequest x.request d.response = none ∧
    d.response.body = .ok d.result
  awaitingLate : v.awaitingLate → l.promise = .rejectedLocally ∧ l.handed = true ∧ l.late = false
  dispatched : ∀ r, v.dispatched = some r → r = requestTombstone x.request ∧ l.handed = true
  write : ∀ n, v.write = some n → 0 < n ∧ l.handed = true

/-- Nothing is known of an unregistered request. -/
structure Absent (v : View π ρ) : Prop where
  pending : v.pending = none
  decoding : v.decoding = none
  dispatched : v.dispatched = none
  awaitingLate : ¬ v.awaitingLate
  write : v.write = none

/-- Whatever the client knows of `id` is right. -/
def Right [Inhabited π] (v : View π ρ) (id : String) : Prop :=
  match v.exchange with
  | none => Absent v
  | some x => ∃ l, Agrees v id x l

theorem nothingWritten_of_failedPhase {frameBytes : Nat} {report : WriteReport}
    (h : failedPhase frameBytes report = some .beforeWrite) : NothingWritten report := by
  cases report with
  | receipt bytesWritten =>
    simp only [failedPhase] at h
    split at h
    · cases h
    · split at h
      · rename_i hzero
        exact .inl (congrArg _ hzero)
      · cases h
  | failed phase =>
    simp only [failedPhase, Option.some.injEq] at h
    cases phase with
    | none => cases h
    | some phase => exact .inr (by rw [show phase = .beforeWrite from h])

/-- A transport that took a whole frame took some bytes of it. -/
theorem not_nothingWritten {report : WriteReport} {frameBytes : Nat} (hpos : 0 < frameBytes)
    (h : failedPhase frameBytes report = none) : ¬ NothingWritten report := by
  rintro (rfl | rfl)
  · simp only [failedPhase, if_true] at h
    rw [if_neg (Nat.ne_of_lt hpos)] at h
    cases h
  · cases h

/-- A validated success of a side effect proves it executed. -/
theorem executed_of_valid {request : NativeRequest π} {response : WireResponse ρ} {result : ρ}
    (hintent : request.call.intent ≠ .observe)
    (hv : validateResponseForRequest request response = none) (hbody : response.body = .ok result) :
    response.operation.map (·.outcome) = some .executed := by
  by_contra hout
  unfold validateResponseForRequest at hv
  simp only [hintent, ne_eq, not_false_eq_true, not_true_eq_false, false_and, if_false, true_and,
    hbody, Except.toBool, hout, and_self, if_true] at hv
  split at hv
  · cases hv
  · split at hv <;> cases hv

section Views

variable [Inhabited π] {id : String}

/-- Allocating more ids keeps everything right. -/
theorem Right.allocate {v : View π ρ} (h : Right v id) (allocated : Prop)
    (ha : v.allocated → allocated) : Right { v with allocated := allocated } id := by
  unfold Right at h ⊢
  cases hx : v.exchange with
  | none =>
    rw [hx] at h
    exact ⟨h.pending, h.decoding, h.dispatched, h.awaitingLate, h.write⟩
  | some x =>
    rw [hx] at h
    obtain ⟨l, hl⟩ := h
    exact ⟨l, hl.run, hl.requestId, ha hl.allocated, hl.pending, hl.decoding, hl.awaitingLate,
      hl.dispatched, hl.write⟩

/-- Only a registered request is in any table. -/
theorem Right.registered {v : View π ρ} (h : Right v id) (hv : ¬ Absent v) :
    ∃ x l, v.exchange = some x ∧ Agrees v id x l := by
  unfold Right at h
  cases hx : v.exchange with
  | none =>
    rw [hx] at h
    exact absurd h hv
  | some x =>
    rw [hx] at h
    obtain ⟨l, hl⟩ := h
    exact ⟨x, l, rfl, hl⟩

theorem Right.of_pending {v : View π ρ} {p : Pending π} (h : Right v id)
    (hp : v.pending = some p) : ∃ x l, v.exchange = some x ∧ Agrees v id x l :=
  h.registered fun ha => by rw [ha.pending] at hp; cases hp

theorem Right.of_decoding {v : View π ρ} {d : Decoding π ρ} (h : Right v id)
    (hd : v.decoding = some d) : ∃ x l, v.exchange = some x ∧ Agrees v id x l :=
  h.registered fun ha => by rw [ha.decoding] at hd; cases hd

theorem Right.intro {v : View π ρ} {x : Exchange π ρ} {l : Lifecycle} (hx : v.exchange = some x)
    (h : Agrees v id x l) : Right v id := by
  unfold Right
  rw [hx]
  exact ⟨l, h⟩

/-- A waiting promise has seen no late response. -/
theorem Agrees.not_late {v : View π ρ} {x : Exchange π ρ} {l : Lifecycle} (h : Agrees v id x l)
    (hw : l.promise = .waiting) : l.late = false := by
  by_contra hlate
  rw [Bool.not_eq_false] at hlate
  have := (counted_invariant.run h.run).lateLocal hlate
  rw [hw] at this
  cases this

def View.mark (v : View π ρ) (m : Mark ρ) : View π ρ :=
  { v with exchange := v.exchange.map fun x => { x with marks := x.marks ++ [m] } }

/-! ## One step of one request -/

/-- The promise of a pending request is rejected before a response. -/
theorem Right.reject_pending {v : View π ρ} {p : Pending π} {phase : NativeWritePhase}
    {error : NativeClientError} (h : Right v id) (awaitingLate : Prop) (hp : v.pending = some p)
    (hphase : phase ≠ .beforeWrite) (hcode : error.code ≠ .decodeFailed)
    (hout : error.operationOutcome = disconnectedOperationOutcome p.request phase) :
    Right ({ v with pending := none, awaitingLate := awaitingLate }.mark
      (.settled (.rejected (.client error)))) id := by
  obtain ⟨x, l, hx, hl⟩ := h.of_pending hp
  obtain ⟨hreq, -, hwait, hhanded, hnothing, hdec⟩ := hl.pending p hp
  have honest : HonestOutcome x.request l error := by
    intro hintent _ _
    refine .inr ⟨hcode, ?_⟩
    rw [hout, hreq, disconnectedOperationOutcome, if_neg hintent, if_neg hphase]
  have hstep : LifecycleStep x.request l (.settled (.rejected (.client error)) : Mark ρ)
      { l with promise := .rejectedLocally } := .rejected hwait hcode honest
  refine Right.intro (x := { x with marks := x.marks ++ [_] }) (by simp [View.mark, hx])
    ⟨hl.run.snoc hstep, hl.requestId, hl.allocated, (fun p hp => nomatch hp), ?_, ?_,
      hl.dispatched, hl.write⟩
  · intro d hd
    rw [View.mark, hdec] at hd
    cases hd
  · exact fun _ => ⟨rfl, hhanded, hl.not_late hwait⟩

/-- The write of a pending request fails with the phase the transport gives. -/
theorem Right.write_failed {v : View π ρ} {p : Pending π} {report : WriteReport}
    {frameBytes : Nat} {phase : NativeWritePhase} {error : NativeClientError} (h : Right v id)
    (hp : v.pending = some p) (hfail : failedPhase frameBytes report = some phase)
    (hcode : error.code ≠ .decodeFailed)
    (hout : error.operationOutcome = disconnectedOperationOutcome p.request phase) :
    Right ((({ v with
      pending := none
      write := none
      awaitingLate := phase ≠ NativeWritePhase.beforeWrite ∨ v.awaitingLate }.mark
        (.reported report)).mark (.settled (.rejected (.client error))))) id := by
  obtain ⟨x, l, hx, hl⟩ := h.of_pending hp
  obtain ⟨hreq, -, hwait, hhanded, hnothing, hdec⟩ := hl.pending p hp
  have hreport : ∃ l₁, LifecycleStep x.request l (.reported report : Mark ρ) l₁ ∧
      l₁.promise = .waiting ∧ l₁.handed = true ∧ l₁.late = l.late ∧
      (l₁.nothingWritten = false → phase ≠ .beforeWrite) := by
    by_cases hn : NothingWritten report
    · exact ⟨_, .reportedNothing hhanded hn, hwait, hhanded, rfl, fun h => nomatch h⟩
    · refine ⟨l, .reported hhanded hn, hwait, hhanded, rfl, fun _ => ?_⟩
      rintro rfl
      exact hn (nothingWritten_of_failedPhase hfail)
  obtain ⟨l₁, hstep₁, hwait₁, hhanded₁, hlate₁, hphase₁⟩ := hreport
  have honest : HonestOutcome x.request l₁ error := by
    intro hintent _ hnw
    refine .inr ⟨hcode, ?_⟩
    rw [hout, hreq, disconnectedOperationOutcome, if_neg hintent, if_neg (hphase₁ hnw)]
  have hstep₂ : LifecycleStep x.request l₁ (.settled (.rejected (.client error)) : Mark ρ)
      { l₁ with promise := .rejectedLocally } := .rejected hwait₁ hcode honest
  refine Right.intro (x := { x with marks := x.marks ++ [.reported report] ++ [_] })
    (by simp [View.mark, hx])
    ⟨(hl.run.snoc hstep₁).snoc hstep₂, hl.requestId, hl.allocated, (fun p hp => nomatch hp), ?_, ?_,
      fun r hr => ⟨(hl.dispatched r hr).1, hhanded₁⟩, fun n hn => nomatch hn⟩
  · intro d hd
    simp only [View.mark, hdec] at hd
    cases hd
  · exact fun _ => ⟨rfl, hhanded₁, hlate₁.trans (hl.not_late hwait)⟩

/-- A report on the write of a request that is not pending, or a complete
write. -/
theorem Right.report {v : View π ρ} {report : WriteReport} {n : Nat} (h : Right v id)
    (hw : v.write = some n) (hp : ∀ p, v.pending = some p → ¬ NothingWritten report) :
    Right ({ v with write := none }.mark (.reported report)) id := by
  obtain ⟨x, l, hx, hl⟩ := h.registered fun ha => by rw [ha.write] at hw; cases hw
  obtain ⟨-, hh⟩ := hl.write n hw
  by_cases hn : NothingWritten report
  · refine Right.intro (x := { x with marks := x.marks ++ [.reported report] })
      (by simp [View.mark, hx])
      ⟨hl.run.snoc (.reportedNothing hh hn), hl.requestId, hl.allocated, ?_, hl.decoding,
        hl.awaitingLate, hl.dispatched, fun n hn => nomatch hn⟩
    exact fun p hpend => absurd hn (hp p hpend)
  · exact Right.intro (x := { x with marks := x.marks ++ [.reported report] })
      (by simp [View.mark, hx])
      ⟨hl.run.snoc (.reported hh hn), hl.requestId, hl.allocated, hl.pending, hl.decoding,
        hl.awaitingLate, hl.dispatched, fun n hn => nomatch hn⟩

theorem Right.written {v : View π ρ} {p : Pending π} (h : Right v id) (hp : v.pending = some p) :
    Right { v with pending := some { p with phase := .written } } id := by
  obtain ⟨x, l, hx, hl⟩ := h.of_pending hp
  refine Right.intro (v := { v with pending := some { p with phase := .written } }) (x := x) hx
    ⟨hl.run, hl.requestId, hl.allocated, ?_, hl.decoding, hl.awaitingLate, hl.dispatched, hl.write⟩
  rintro _ ⟨⟩
  obtain ⟨hreq, -, hrest⟩ := hl.pending p hp
  exact ⟨hreq, by simp, hrest⟩

/-- A validated success leaves the pending table for its codec. -/
theorem Right.decode {v : View π ρ} {p : Pending π} {response : WireResponse ρ} {result : ρ}
    (h : Right v id) (hp : v.pending = some p)
    (hv : validateResponseForRequest p.request response = none)
    (hbody : response.body = .ok result) :
    Right { v with pending := none, decoding := some ⟨p.request, p.phase, response, result⟩ } id := by
  obtain ⟨x, l, hx, hl⟩ := h.of_pending hp
  obtain ⟨hreq, -, hwait, hhanded, -, -⟩ := hl.pending p hp
  refine Right.intro (v := { v with pending := none, decoding := _ }) (x := x) hx
    ⟨hl.run, hl.requestId, hl.allocated, (fun p hp => nomatch hp), ?_, ?_, hl.dispatched, hl.write⟩
  · rintro _ ⟨⟩
    exact ⟨hreq, hwait, hhanded, hreq ▸ hv, hbody⟩
  · exact hl.awaitingLate

/-- A response that refuses the request. -/
theorem Right.refused {v : View π ρ} {p : Pending π} {error : NativeWireError}
    {operation : Option NativeOperationReceipt} (h : Right v id) (hp : v.pending = some p) :
    Right ({ v with pending := none }.mark (.settled (.rejected (.remote error operation)))) id := by
  obtain ⟨x, l, hx, hl⟩ := h.of_pending hp
  obtain ⟨-, -, hwait, hhanded, -, hdec⟩ := hl.pending p hp
  have hstep : LifecycleStep x.request l (.settled (.rejected (.remote error operation)) : Mark ρ)
      { l with promise := .answered } := .refused hhanded hwait
  refine Right.intro (x := { x with marks := x.marks ++ [_] }) (by simp [View.mark, hx])
    ⟨hl.run.snoc hstep, hl.requestId, hl.allocated, (fun p hp => nomatch hp),
      ?_, ?_, hl.dispatched, hl.write⟩
  · intro d hd
    rw [View.mark, hdec] at hd
    cases hd
  · intro haw
    have := (hl.awaitingLate haw).1
    rw [hwait] at this
    cases this

/-- A codec returned or threw. -/
theorem Right.decoded {v : View π ρ} {d : Decoding π ρ} {settlement : Settlement ρ}
    (h : Right v id) (hd : v.decoding = some d) (hp : v.pending = none)
    (hs : settlement = .resolved d.response ∨ ∃ error : NativeClientError,
      settlement = .rejected (.client error) ∧ error.code = .decodeFailed ∧
      error.operationOutcome = d.response.operation.map (·.outcome)) :
    Right ({ v with decoding := none }.mark (.settled settlement)) id := by
  obtain ⟨x, l, hx, hl⟩ := h.of_decoding hd
  obtain ⟨hreq, hwait, hhanded, hvalid, hbody⟩ := hl.decoding d hd
  have hstep : LifecycleStep x.request l (.settled settlement) { l with promise := .answered } := by
    rcases hs with rfl | ⟨error, rfl, hcode, hout⟩
    · exact .resolved hhanded hwait hvalid
    · refine .decodeFailed hhanded hwait hcode fun hintent _ _ => .inl ⟨hcode, ?_⟩
      rw [hout, executed_of_valid hintent hvalid hbody]
      simp
  refine Right.intro (x := { x with marks := x.marks ++ [_] }) (by simp [View.mark, hx])
    ⟨hl.run.snoc hstep, hl.requestId, hl.allocated, ?_, (fun d hd => nomatch hd), ?_,
      hl.dispatched, hl.write⟩
  · intro p hpend
    rw [View.mark, hp] at hpend
    cases hpend
  · intro haw
    have := (hl.awaitingLate haw).1
    rw [hwait] at this
    cases this

/-- A late response uses up the id's place among the awaited ones. -/
theorem Right.late {v : View π ρ} {r : NativeRequest π} {response : WireResponse ρ}
    (h : Right v id) (haw : v.awaitingLate) (hr : v.dispatched = some r)
    (hv : validateResponseForRequest r response = none) :
    Right ({ v with awaitingLate := False }.mark (.late response)) id := by
  obtain ⟨x, l, hx, hl⟩ := h.registered fun ha => ha.awaitingLate haw
  obtain ⟨hloc, hhanded, hlate⟩ := hl.awaitingLate haw
  have hvalid : validateResponseForRequest x.request response = none := by
    rw [(hl.dispatched r hr).1] at hv
    exact hv
  refine Right.intro (x := { x with marks := x.marks ++ [_] }) (by simp [View.mark, hx])
    ⟨hl.run.snoc (.late hhanded hloc hlate hvalid), hl.requestId, hl.allocated, ?_, ?_,
      (fun h => h.elim), hl.dispatched, hl.write⟩
  · intro p hp
    obtain ⟨-, -, hwait, -⟩ := hl.pending p hp
    rw [hloc] at hwait
    cases hwait
  · intro d hd
    obtain ⟨-, hwait, -⟩ := hl.decoding d hd
    rw [hloc] at hwait
    cases hwait

theorem Right.forget_late {v : View π ρ} (h : Right v id) :
    Right { v with awaitingLate := False } id := by
  unfold Right at h ⊢
  cases hx : v.exchange with
  | none =>
    rw [hx] at h
    exact ⟨h.pending, h.decoding, h.dispatched, (fun h => h), h.write⟩
  | some x =>
    rw [hx] at h
    obtain ⟨l, hl⟩ := h
    exact ⟨l, hl.run, hl.requestId, hl.allocated, hl.pending, hl.decoding, (fun h => h.elim),
      hl.dispatched, hl.write⟩

end Views

/-! ## The client's tables, one id at a time -/

section Tables

variable {c c' : NativeClient π ρ} {id id' : String}

theorem View.ext' {v w : View π ρ} (hp : v.pending = w.pending) (hd : v.decoding = w.decoding)
    (hr : v.dispatched = w.dispatched) (ha : v.awaitingLate ↔ w.awaitingLate)
    (hl : v.allocated ↔ w.allocated) (hw : v.write = w.write) (hx : v.exchange = w.exchange) :
    v = w := by
  cases v; cases w
  simp only at hp hd hr ha hl hw hx
  subst hp hd hr hw hx
  rw [propext ha, propext hl]

theorem view_mark_self (m : Mark ρ) : view (c.mark id m) id = (view c id).mark m := by
  unfold NativeClient.mark
  cases hx : c.exchanges.get? id with
  | none => exact View.ext' rfl rfl rfl Iff.rfl Iff.rfl rfl (by simp [view, View.mark, hx])
  | some x => exact View.ext' rfl rfl rfl Iff.rfl Iff.rfl rfl (by simp [view, View.mark, hx])

theorem view_mark_ne (m : Mark ρ) (hne : id' ≠ id) : view (c.mark id m) id' = view c id' := by
  unfold NativeClient.mark
  cases hx : c.exchanges.get? id with
  | none => rfl
  | some x => exact View.ext' rfl rfl rfl Iff.rfl Iff.rfl rfl (by simp [view, hne])

theorem view_rejectPending_self (r : Rejection) : view (c.rejectPending id r) id =
    ({ view c id with pending := none }.mark (.settled (.rejected r))) := by
  unfold rejectPending
  rw [view_mark_self]
  exact congrArg (View.mark · _)
    (View.ext' (by simp [view]) rfl rfl Iff.rfl Iff.rfl rfl rfl)

theorem view_rejectPending_ne (r : Rejection) (hne : id' ≠ id) :
    view (c.rejectPending id r) id' = view c id' := by
  unfold rejectPending
  rw [view_mark_ne _ hne]
  exact View.ext' (by simp [view, hne]) rfl rfl Iff.rfl Iff.rfl rfl rfl

theorem view_awaitLate_self (phase : NativeWritePhase) : view (c.awaitLate id phase) id =
    { view c id with
      awaitingLate := phase ≠ NativeWritePhase.beforeWrite ∨ (view c id).awaitingLate } := by
  unfold awaitLate
  split
  · rename_i h
    exact View.ext' rfl rfl rfl (by simp [h]) Iff.rfl rfl rfl
  · rename_i h
    exact View.ext' rfl rfl rfl (by simp [view, h]) Iff.rfl rfl rfl

theorem view_awaitLate_ne (phase : NativeWritePhase) (hne : id' ≠ id) :
    view (c.awaitLate id phase) id' = view c id' := by
  unfold awaitLate
  split
  · rfl
  · exact View.ext' rfl rfl rfl (by simp [view, hne]) Iff.rfl rfl rfl

theorem view_written {p : Pending π} (id : String) :
    view { c with pending := c.pending.set id p } id = { view c id with pending := some p } :=
  View.ext' (by simp [view]) rfl rfl Iff.rfl Iff.rfl rfl rfl

theorem view_unwrite_self : view { c with writes := c.writes.erase id } id =
    { view c id with write := none } :=
  View.ext' rfl rfl rfl Iff.rfl Iff.rfl (by simp [view]) rfl

theorem view_unwrite_ne (hne : id' ≠ id) :
    view { c with writes := c.writes.erase id } id' = view c id' :=
  View.ext' rfl rfl rfl Iff.rfl Iff.rfl (by simp [view, hne]) rfl

theorem view_forgetLate_self :
    view { c with awaitingLateResponseIds := c.awaitingLateResponseIds.erase id } id =
      { view c id with awaitingLate := False } :=
  View.ext' rfl rfl rfl (by simp [view]) Iff.rfl rfl rfl

theorem view_forgetLate_ne (hne : id' ≠ id) :
    view { c with awaitingLateResponseIds := c.awaitingLateResponseIds.erase id } id' =
      view c id' :=
  View.ext' rfl rfl rfl (by simp [view, hne]) Iff.rfl rfl rfl

theorem view_undecode_self : view { c with decoding := c.decoding.erase id } id =
    { view c id with decoding := none } :=
  View.ext' rfl (by simp [view]) rfl Iff.rfl Iff.rfl rfl rfl

theorem view_undecode_ne (hne : id' ≠ id) :
    view { c with decoding := c.decoding.erase id } id' = view c id' :=
  View.ext' rfl (by simp [view, hne]) rfl Iff.rfl Iff.rfl rfl rfl

@[simp] theorem mark_pending (m : Mark ρ) : (c.mark id m).pending = c.pending := by
  unfold NativeClient.mark
  split <;> rfl

@[simp] theorem mark_state (m : Mark ρ) : (c.mark id m).state = c.state := by
  unfold NativeClient.mark
  split <;> rfl

@[simp] theorem mark_connect (m : Mark ρ) : (c.mark id m).connect = c.connect := by
  unfold NativeClient.mark
  split <;> rfl

@[simp] theorem awaitLate_pending (phase : NativeWritePhase) :
    (c.awaitLate id phase).pending = c.pending := by
  unfold awaitLate
  split <;> rfl

@[simp] theorem awaitLate_state (phase : NativeWritePhase) :
    (c.awaitLate id phase).state = c.state := by
  unfold awaitLate
  split <;> rfl

@[simp] theorem awaitLate_connect (phase : NativeWritePhase) :
    (c.awaitLate id phase).connect = c.connect := by
  unfold awaitLate
  split <;> rfl

@[simp] theorem rejectPending_pending (r : Rejection) :
    (c.rejectPending id r).pending = c.pending.erase id := by
  simp [rejectPending]

@[simp] theorem rejectPending_state (r : Rejection) : (c.rejectPending id r).state = c.state := by
  simp [rejectPending]

@[simp] theorem rejectPending_connect (r : Rejection) :
    (c.rejectPending id r).connect = c.connectRejected id := by
  simp [rejectPending]

/-! ## Walks over the pending table -/

/-- A handler that walks a copy of the pending table, settling each entry. -/
theorem foldl_pending {P : NativeClient π ρ → Prop}
    {f : NativeClient π ρ → String × Pending π → NativeClient π ρ}
    (hpending : ∀ c e id, (f c e).pending.get? id = if id = e.1 then none else c.pending.get? id)
    (hstep : ∀ c e, P c → c.pending.get? e.1 = some e.2 → P (f c e)) :
    ∀ (entries : List (String × Pending π)) (c : NativeClient π ρ),
      (entries.map Prod.fst).Nodup → (∀ e ∈ entries, c.pending.get? e.1 = some e.2) → P c →
      P (entries.foldl f c) ∧ ∀ id, (entries.foldl f c).pending.get? id =
        if id ∈ entries.map Prod.fst then none else c.pending.get? id
  | [], c, _, _, hP => ⟨hP, fun id => by simp⟩
  | e :: es, c, hnd, hmem, hP => by
    rw [List.map_cons, List.nodup_cons] at hnd
    have hrest : ∀ e' ∈ es, (f c e).pending.get? e'.1 = some e'.2 := by
      intro e' he'
      have hne : e'.1 ≠ e.1 := fun h => hnd.1 (h ▸ List.mem_map_of_mem he')
      rw [hpending, if_neg hne]
      exact hmem e' (List.mem_cons_of_mem _ he')
    obtain ⟨hP', hget⟩ := foldl_pending hpending hstep es (f c e) hnd.2 hrest
      (hstep c e hP (hmem e (List.mem_cons_self ..)))
    refine ⟨hP', fun id => ?_⟩
    rw [List.foldl_cons, hget, hpending]
    by_cases h₁ : id ∈ es.map Prod.fst <;> by_cases h₂ : id = e.1 <;> simp [h₁, h₂]

def NoPending (c : NativeClient π ρ) : Prop := ∀ id, c.pending.get? id = none

/-- Such a walk over the whole table empties it. -/
theorem foldl_all_pending {P : NativeClient π ρ → Prop}
    {f : NativeClient π ρ → String × Pending π → NativeClient π ρ}
    (hpending : ∀ c e id, (f c e).pending.get? id = if id = e.1 then none else c.pending.get? id)
    (hstep : ∀ c e, P c → c.pending.get? e.1 = some e.2 → P (f c e)) (hP : P c) :
    P (c.pending.entries.foldl f c) ∧ NoPending (c.pending.entries.foldl f c) := by
  obtain ⟨hP', hget⟩ := foldl_pending hpending hstep c.pending.entries c c.pending.nodup
    (fun e he => OrderedMap.get?_eq_some_iff.mpr he) hP
  refine ⟨hP', fun id => ?_⟩
  rw [hget]
  split
  · rfl
  · rename_i hnot
    exact OrderedMap.get?_eq_none_iff.mpr hnot

theorem get?_rejectPending (c : NativeClient π ρ) (id id' : String) (r : Rejection) :
    (c.rejectPending id r).pending.get? id' = if id' = id then none else c.pending.get? id' := by
  simp

theorem get?_cancelPending (c : NativeClient π ρ) (id id' : String) (reason : CancellationReason)
    (cancelId : String) : (c.cancelPending id reason cancelId).pending.get? id' =
      if id' = id then none else c.pending.get? id' := by
  unfold NativeClient.cancelPending
  split
  · rename_i hnone
    split
    · rename_i h
      rw [h, hnone]
    · rfl
  · simp only
    split <;> simp

theorem view_leave (state : NativeClientState) (id : String) :
    view (c.leave state).forgetHost id = view c id := by
  unfold leave rejectOpening
  split <;> rfl

theorem view_close (id : String) : view (c.leave .closed) id = view c id := by
  unfold leave rejectOpening
  split <;> rfl

theorem leave_pending (state : NativeClientState) : (c.leave state).pending = c.pending := by
  unfold leave rejectOpening
  split <;> rfl

@[simp] theorem leave_state (state : NativeClientState) : (c.leave state).state = state := by
  unfold leave rejectOpening
  split <;> rfl

/-! ## What dispatch does -/

/-- `#allocateId` hands out an id that was not allocated. -/
theorem allocateId_ok {kind : String} (h : c.allocateId kind id = .ok c') :
    id ∉ c.allocatedIds ∧ c' = { c with allocatedIds := insert id c.allocatedIds } := by
  unfold allocateId at h
  split at h
  · cases h
  · rename_i hid
    cases h
    exact ⟨hid, rfl⟩

/-- What `prepare` does: it allocates ids, and a request it accepts has a
fresh one. -/
structure Prepares (c : NativeClient π ρ) (invocation : Invocation π)
    (result : NativeClient π ρ × Except Rejection (NativeRequest π)) : Prop where
  client : ∃ ids, result.1 = { c with allocatedIds := ids } ∧ c.allocatedIds ⊆ ids
  request : ∀ request, result.2 = .ok request → request.call.intent = invocation.intent ∧
    request.id ∉ c.allocatedIds ∧ request.id ∈ result.1.allocatedIds

theorem Prepares.rejects {invocation : Invocation π} (hc : ∃ ids,
    c' = { c with allocatedIds := ids } ∧ c.allocatedIds ⊆ ids) (rejection : Rejection) :
    Prepares c invocation (c', .error rejection) :=
  ⟨hc, fun _ h => nomatch h⟩

theorem allocateOperation_ok {invocation : Invocation π} {reads : DispatchReads}
    (h : prepare.allocateOperation c invocation reads = .ok c') :
    ∃ ids, c' = { c with allocatedIds := ids } ∧ c.allocatedIds ⊆ ids := by
  unfold prepare.allocateOperation at h
  split at h
  · cases h
    exact ⟨c.allocatedIds, rfl, subset_rfl⟩
  · obtain ⟨-, rfl⟩ := allocateId_ok h
    exact ⟨_, rfl, Finset.subset_insert _ _⟩

theorem prepare_spec (c : NativeClient π ρ) (invocation : Invocation π) (reads : DispatchReads) :
    Prepares c invocation (c.prepare invocation reads) := by
  have hsame : ∃ ids, c = { c with allocatedIds := ids } ∧ c.allocatedIds ⊆ ids :=
    ⟨c.allocatedIds, rfl, subset_rfl⟩
  unfold prepare
  split
  · exact .rejects hsame _
  · split
    · exact .rejects hsame _
    · split
      · exact .rejects hsame _
      · split
        · exact .rejects hsame _
        · rename_i c₁ hc₁
          obtain ⟨ids, rfl, hids⟩ := allocateOperation_ok hc₁
          split
          · exact .rejects ⟨ids, rfl, hids⟩ _
          · rename_i c₂ hc₂
            obtain ⟨hfresh, rfl⟩ := allocateId_ok hc₂
            have hgrown : c.allocatedIds ⊆ insert reads.requestId ids :=
              hids.trans (Finset.subset_insert _ _)
            simp only
            split
            · exact .rejects ⟨_, rfl, hgrown⟩ _
            · split
              · exact .rejects ⟨_, rfl, hgrown⟩ _
              · split
                · exact .rejects ⟨_, rfl, hgrown⟩ _
                · refine ⟨⟨_, rfl, hgrown⟩, ?_⟩
                  rintro request ⟨⟩
                  exact ⟨rfl, fun h => hfresh (hids h), Finset.mem_insert_self _ _⟩

/-- What `dispatch` does: it refuses the invocation, or registers a request
under a fresh id. -/
theorem dispatch_cases [Inhabited π] (c : NativeClient π ρ) (invocation : Invocation π)
    (reads : DispatchReads) : ∃ ids, c.allocatedIds ⊆ ids ∧
    ((∃ rejection, c.dispatch invocation reads =
        ({ c with
          allocatedIds := ids
          refusals := c.refusals ++ [(invocation.intent, rejection)] }, none)) ∨
      ∃ request, request.call.intent = invocation.intent ∧ request.id ∉ c.allocatedIds ∧
        request.id ∈ ids ∧ ∃ c', c' = { c with allocatedIds := ids }.register invocation request reads ∧
        c.dispatch invocation reads =
          (c', if c'.pending.has request.id then some request.id else none)) := by
  obtain ⟨⟨ids, hclient, hids⟩, hrequest⟩ := prepare_spec c invocation reads
  refine ⟨ids, hids, ?_⟩
  unfold NativeClient.dispatch
  split
  · rename_i c₁ rejection heq
    rw [heq] at hclient
    simp only at hclient
    subst hclient
    exact .inl ⟨rejection, rfl⟩
  · rename_i c₁ request heq
    rw [heq] at hclient hrequest
    simp only at hclient
    subst hclient
    obtain ⟨hintent, hfresh, hin⟩ := hrequest request rfl
    exact .inr ⟨request, hintent, hfresh, hin, _, rfl, rfl⟩

/-- A request stopped before its frame is written says so, or never had a
frame. -/
theorem finalRequest_error {invocation : Invocation π} {request : NativeRequest π}
    {reads : DispatchReads} {rejection : Rejection}
    (h : c.finalRequest invocation request reads = .error rejection) :
    rejection = .client (preWriteDeadline request.id invocation.intent) ∨
      ∃ code, rejection = .protocol code := by
  unfold finalRequest at h
  simp only at h
  repeat' split at h
  all_goals cases h
  · exact .inl rfl
  · exact .inr ⟨_, rfl⟩
  · exact .inr ⟨_, rfl⟩
  · exact .inl rfl

theorem finalRequest_ok {invocation : Invocation π} {request request' : NativeRequest π}
    {reads : DispatchReads} (h : c.finalRequest invocation request reads = .ok request') :
    request'.id = request.id ∧ request'.call = request.call := by
  unfold finalRequest at h
  simp only at h
  repeat' split at h
  all_goals cases h
  exact ⟨rfl, rfl⟩

/-- The first mark of a request stopped before its write. -/
theorem unwritten_step {request : NativeRequest π} {rejection : Rejection} {requestId : String}
    {intent : NativeOperationIntent}
    (h : rejection = .client (preWriteDeadline requestId intent) ∨
      ∃ code, rejection = .protocol code) :
    LifecycleStep request .start (.settled (.rejected rejection) : Mark ρ)
      { Lifecycle.start with promise := .rejectedLocally } := by
  rcases h with rfl | ⟨code, rfl⟩
  · refine .rejected rfl (by simp [preWriteDeadline]) fun _ h _ => ?_
    cases h
  · exact .unsendable rfl rfl

end Tables

end SurfaceLoom.Native.ClientViews
