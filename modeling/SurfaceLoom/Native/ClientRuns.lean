import SurfaceLoom.Native.ClientViews

/-! # Runs of the native client

Every callback and every stretch between two awaits is one event, in any
order. The main result here is that the marks of every registered request are
a run of its lifecycle, in a state the client's tables agree with; the
properties of the client are then read off the lifecycle. -/
namespace SurfaceLoom.Native.ClientRuns
open SurfaceLoom.Lib SurfaceLoom.Lib.Transition SurfaceLoom.Native.Wire
open SurfaceLoom.Native.Client SurfaceLoom.Native.Client.NativeClient
open SurfaceLoom.Native.RequestLifecycle SurfaceLoom.Native.ClientViews

variable {π ρ : Type}

inductive Event (π ρ : Type)
  | connect (timeoutMs : Int)
  | openSettled (ok : Bool)
  | openTimedOut
  | resumeConnect (remaining : Int) (reads : DispatchReads)
  | invoke (invocation : Invocation π) (reads : DispatchReads)
  | cancel (requestId : String) (reason : CancellationReason) (cancelId : String)
  | writeReported (requestId : String) (report : WriteReport)
  | receive (frame : Frame ρ)
  | decoded (requestId : String) (enrolments : List Enrolment) (outcome : Decoded)
  | disconnect
  | close (cancelIds : String → String)
  | track (enrolment : Enrolment)
  | forgetSession (sessionId : String)

def next [Inhabited π] (c : NativeClient π ρ) : Event π ρ → Option (NativeClient π ρ)
  | .connect timeoutMs => some (c.beginConnect timeoutMs)
  | .openSettled ok => some (c.openSettled ok)
  | .openTimedOut => some c.openTimedOut
  | .resumeConnect remaining reads => c.resumeConnect remaining reads
  | .invoke invocation reads => some (c.invoke invocation reads)
  | .cancel requestId reason cancelId => some (c.cancelPending requestId reason cancelId)
  | .writeReported requestId report => c.writeReported requestId report
  | .receive frame => some (c.receive frame)
  | .decoded requestId enrolments outcome => c.decoded requestId enrolments outcome
  | .disconnect => some c.disconnect
  | .close cancelIds => some (c.close cancelIds)
  | .track enrolment => some (c.track enrolment)
  | .forgetSession sessionId => some (c.forgetSession sessionId)

def client (π ρ : Type) [Inhabited π] : System (NativeClient π ρ) (Event π ρ) :=
  .ofMachine .initial next

/-! ## Soundness of the tables -/

/-- Every table is right about every request. -/
def Sound [Inhabited π] (c : NativeClient π ρ) : Prop := ∀ id, Right (view c id) id

section Soundness

variable [Inhabited π] {c c' : NativeClient π ρ} {id : String}

theorem Sound.update (h : Sound c) (id : String) (hself : Right (view c' id) id)
    (hne : ∀ id' ≠ id, view c' id' = view c id') : Sound c' := by
  intro id'
  by_cases he : id' = id
  · exact he ▸ hself
  · rw [hne id' he]
    exact h id'

theorem Sound.same (h : Sound c) (hv : ∀ id, view c' id = view c id) : Sound c' :=
  fun id => hv id ▸ h id

/-- A pending request has been handed to the transport. -/
theorem Sound.phase (h : Sound c) {p : Pending π} (hp : c.pending.get? id = some p) :
    p.phase ≠ .beforeWrite := by
  obtain ⟨x, l, -, hl⟩ := (h id).of_pending hp
  exact (hl.pending p hp).2.1

theorem Sound.rejectLocally (h : Sound c) {p : Pending π} {error : NativeClientError}
    (hp : c.pending.get? id = some p) (hcode : error.code ≠ .decodeFailed)
    (hout : error.operationOutcome = disconnectedOperationOutcome p.request p.phase) :
    Sound (c.rejectPending id (.client error)) := by
  refine h.update id ?_ fun id' hne => view_rejectPending_ne _ hne
  rw [view_rejectPending_self]
  exact (h id).reject_pending (view c id).awaitingLate hp (h.phase hp) hcode hout

/-- The same, keeping the id among those a late response is awaited for. -/
theorem Sound.rejectAwaiting (h : Sound c) {p : Pending π} {error : NativeClientError}
    (hp : c.pending.get? id = some p) (hcode : error.code ≠ .decodeFailed)
    (hout : error.operationOutcome = disconnectedOperationOutcome p.request p.phase) :
    Sound ((c.awaitLate id p.phase).rejectPending id (.client error)) := by
  refine h.update id ?_ fun id' hne => ?_
  · rw [view_rejectPending_self, view_awaitLate_self]
    exact (h id).reject_pending (v := view c id) _ hp (h.phase hp) hcode hout
  · rw [view_rejectPending_ne _ hne, view_awaitLate_ne _ hne]

theorem Sound.allocate (h : Sound c) {allocatedIds : Finset String}
    (ha : c.allocatedIds ⊆ allocatedIds) : Sound { c with allocatedIds := allocatedIds } :=
  fun id => (h id).allocate (id ∈ allocatedIds) fun hid => ha hid

theorem Sound.cancelPending (h : Sound c) (reason : CancellationReason) (cancelId : String) :
    Sound (c.cancelPending id reason cancelId) := by
  unfold NativeClient.cancelPending
  split
  · exact h
  · rename_i p hp
    simp only
    rw [if_neg (h.phase hp)]
    refine (h.rejectAwaiting hp ?_ rfl).allocate (Finset.subset_insert _ _)
    split <;> simp

theorem Sound.reported (h : Sound c) {report : WriteReport} {frameBytes : Nat}
    (hw : c.writes.get? id = some frameBytes)
    (hp : ∀ p, c.pending.get? id = some p → ¬ NothingWritten report) :
    Sound ({ c with writes := c.writes.erase id }.mark id (.reported report)) := by
  refine h.update id ?_ fun id' hne => ?_
  · rw [view_mark_self, view_unwrite_self]
    exact (h id).report hw hp
  · rw [view_mark_ne _ hne, view_unwrite_ne hne]

theorem Sound.writeReported (h : Sound c) {report : WriteReport}
    (hr : c.writeReported id report = some c') : Sound c' := by
  unfold NativeClient.writeReported at hr
  split at hr
  · cases hr
  · rename_i frameBytes hw
    obtain ⟨x, l, hx, hl⟩ := (h id).registered fun ha => nomatch ha.write.symm.trans hw
    obtain ⟨hpos, -⟩ := hl.write _ hw
    simp only at hr
    split at hr
    · rename_i phase hfail
      cases hr
      unfold NativeClient.writeFailed
      simp only [mark_pending]
      split
      · rename_i hnone
        exact h.reported hw fun p hp => nomatch hnone.symm.trans hp
      · rename_i p hp
        refine h.update id ?_ fun id' hne => ?_
        · rw [view_rejectPending_self, view_awaitLate_self, view_mark_self, view_unwrite_self]
          exact (h id).write_failed (v := view c id) hp hfail (by simp) rfl
        · rw [view_rejectPending_ne _ hne, view_awaitLate_ne _ hne, view_mark_ne _ hne,
            view_unwrite_ne hne]
    · rename_i hfail
      have hsound := h.reported hw fun p _ => not_nothingWritten hpos hfail
      split at hr
      · cases hr
        exact hsound
      · rename_i p hp
        cases hr
        refine hsound.update id ?_ fun id' hne => ?_
        · rw [view_written]
          exact (hsound id).written hp
        · exact View.ext' (by simp [view, hne]) rfl rfl Iff.rfl Iff.rfl rfl rfl

theorem Sound.disconnect (h : Sound c) : Sound c.disconnect := by
  have hleft : Sound (c.leave .disconnected).forgetHost := h.same fun id => view_leave _ id
  unfold NativeClient.disconnect
  split
  · exact h
  · refine (foldl_all_pending (fun c e id => ?_) (fun c e hc he => ?_) hleft).1
    · rw [get?_rejectPending, awaitLate_pending]
    · exact hc.rejectAwaiting he (by simp [disconnectedError]) rfl

theorem Sound.protocolFailure (h : Sound c) : Sound c.protocolFailure := by
  have hleft : Sound (c.leave .disconnected).forgetHost := h.same fun id => view_leave _ id
  unfold NativeClient.protocolFailure
  refine (foldl_all_pending (fun c e id => ?_) (fun c e hc he => ?_) hleft).1
  · exact get?_rejectPending c e.1 id _
  · exact hc.rejectLocally he (by simp [protocolError]) rfl

theorem Sound.close (h : Sound c) (cancelIds : String → String) : Sound (c.close cancelIds) := by
  have hleft : Sound (c.leave .closed) := h.same view_close
  unfold NativeClient.close
  split
  · exact h
  · refine Sound.same (foldl_all_pending (fun c e id => ?_) (fun c e hc _ => ?_) hleft).1
      fun id => rfl
    · exact get?_cancelPending c e.1 id _ _
    · exact hc.cancelPending _ _

theorem Sound.register (h : Sound c) {invocation : Invocation π} {request : NativeRequest π}
    {reads : DispatchReads} (hfresh : Absent (view c request.id))
    (hids : request.id ∈ c.allocatedIds) : Sound (c.register invocation request reads) := by
  unfold NativeClient.register
  split
  · rename_i rejection hrej
    refine h.update request.id ?_ fun id' hne => ?_
    · rw [view_rejectPending_self]
      refine Right.intro (x := ⟨request, [.settled (.rejected rejection)]⟩)
        (l := { Lifecycle.start with promise := .rejectedLocally })
        (by simp [View.mark, view]) ⟨?_, rfl, hids, (fun p hp => by cases hp), ?_, ?_, ?_, ?_⟩
      · exact (System.Run.init rfl).snoc (unwritten_step (finalRequest_error hrej))
      · exact fun d hd => by cases hfresh.decoding.symm.trans hd
      · exact fun haw => absurd haw hfresh.awaitingLate
      · exact fun r hr => by cases hfresh.dispatched.symm.trans hr
      · exact fun n hn => by cases hfresh.write.symm.trans hn
    · rw [view_rejectPending_ne _ hne]
      exact View.ext' (by simp [view, hne]) rfl rfl Iff.rfl Iff.rfl rfl (by simp [view, hne])
  · rename_i request' hreq
    obtain ⟨hid, hcall⟩ := finalRequest_ok hreq
    refine h.update request.id ?_ fun id' hne => ?_
    · refine Right.intro (x := ⟨request', [.handed]⟩)
        (l := { Lifecycle.start with handed := true }) (by simp [view, hid])
        ⟨(System.Run.init rfl).snoc (.handed rfl), hid, hids, ?_, ?_, ?_, ?_, ?_⟩
      · intro p hp
        simp only [view, hid, OrderedMap.get?_set, if_true, Option.some.injEq] at hp
        subst hp
        exact ⟨rfl, by simp, rfl, rfl, rfl, hfresh.decoding⟩
      · exact fun d hd => by cases hfresh.decoding.symm.trans hd
      · exact fun haw => absurd haw hfresh.awaitingLate
      · intro r hr
        simp only [view, hid, OrderedMap.get?_set, if_true, Option.some.injEq] at hr
        exact ⟨hr.symm, rfl⟩
      · intro n hn
        simp only [view, hid, OrderedMap.get?_set, if_true, Option.some.injEq] at hn
        exact ⟨hn ▸ reads.framed, rfl⟩
    · exact View.ext' (by simp [view, hid, hne]) rfl (by simp [view, hid, hne]) Iff.rfl Iff.rfl
        (by simp [view, hid, hne]) (by simp [view, hid, hne])

/-- An id that was never allocated belongs to no request. -/
theorem Sound.absent (h : Sound c) (hid : id ∉ c.allocatedIds) : Absent (view c id) := by
  by_contra hv
  obtain ⟨x, l, -, hl⟩ := (h id).registered hv
  exact hid hl.allocated

theorem Sound.dispatch (h : Sound c) (invocation : Invocation π) (reads : DispatchReads) :
    Sound (c.dispatch invocation reads).1 := by
  obtain ⟨ids, hids, ⟨rejection, heq⟩ | ⟨request, -, hfresh, hin, c₁, rfl, heq⟩⟩ :=
    dispatch_cases c invocation reads
  · rw [heq]
    exact (h.allocate hids).same fun id => rfl
  · rw [heq]
    have habs := h.absent hfresh
    exact (h.allocate hids).register
      ⟨habs.pending, habs.decoding, habs.dispatched, habs.awaitingLate, habs.write⟩ hin

theorem Sound.receiveUnmatched (h : Sound c) (response : WireResponse ρ) :
    Sound (c.receiveUnmatched response) := by
  unfold NativeClient.receiveUnmatched
  split
  · exact h.protocolFailure
  · rename_i dispatched hdispatched
    split
    · rename_i haw
      simp only
      split
      · refine Sound.protocolFailure (h.update response.id ?_ fun id' hne => ?_)
        · rw [view_forgetLate_self]
          exact (h response.id).forget_late
        · exact view_forgetLate_ne hne
      · rename_i hvalid
        refine h.update response.id ?_ fun id' hne => ?_
        · rw [view_mark_self, view_forgetLate_self]
          exact (h response.id).late haw hdispatched hvalid
        · rw [view_mark_ne _ hne, view_forgetLate_ne hne]
    · exact h

theorem Sound.receiveMatched (h : Sound c) {response : WireResponse ρ} {pending : Pending π}
    (hp : c.pending.get? response.id = some pending) :
    Sound (c.receiveMatched pending response) := by
  unfold NativeClient.receiveMatched
  split
  · exact h.protocolFailure
  · rename_i hvalid
    split
    · refine h.update response.id ?_ fun id' hne => view_rejectPending_ne _ hne
      rw [view_rejectPending_self]
      exact (h response.id).refused hp
    · rename_i result hbody
      refine h.update response.id ?_ fun id' hne => ?_
      · have hview : view { c with
            pending := c.pending.erase response.id
            decoding := c.decoding.set response.id
              ⟨pending.request, pending.phase, response, result⟩ } response.id =
            { view c response.id with
              pending := none
              decoding := some ⟨pending.request, pending.phase, response, result⟩ } :=
          View.ext' (by simp [view]) (by simp [view]) rfl Iff.rfl Iff.rfl rfl rfl
        rw [hview]
        exact (h response.id).decode hp hvalid hbody
      · exact View.ext' (by simp [view, hne]) (by simp [view, hne]) rfl Iff.rfl Iff.rfl rfl rfl

theorem Sound.receive (h : Sound c) (frame : Frame ρ) : Sound (c.receive frame) := by
  unfold NativeClient.receive
  split
  · exact h
  · split
    · exact h.protocolFailure
    · split
      · exact h.protocolFailure
      · split
        · exact h.receiveUnmatched _
        · rename_i hp
          exact h.receiveMatched hp

/-- A request whose codec runs has left the pending table. -/
theorem Sound.not_pending_of_decoding (h : Sound c) {d : Decoding π ρ}
    (hd : c.decoding.get? id = some d) : c.pending.get? id = none := by
  by_contra hsome
  obtain ⟨p, hp⟩ := Option.ne_none_iff_exists'.mp hsome
  obtain ⟨x, l, -, hl⟩ := (h id).of_pending hp
  obtain ⟨-, -, -, -, -, hnone⟩ := hl.pending p hp
  exact nomatch hnone.symm.trans hd

theorem Sound.decoded (h : Sound c) {enrolments : List Enrolment} {outcome : Decoded}
    (hr : c.decoded id enrolments outcome = some c') : Sound c' := by
  unfold NativeClient.decoded at hr
  split at hr
  · cases hr
  · rename_i d hd
    have hp := h.not_pending_of_decoding hd
    simp only at hr
    split at hr
    · cases hr
      refine h.update id ?_ fun id' hne => ?_
      · have hview : { view { c with decoding := c.decoding.erase id } id with pending := none } =
            { view c id with decoding := none } := by
          rw [view_undecode_self]
          exact View.ext' hp.symm rfl rfl Iff.rfl Iff.rfl rfl rfl
        rw [view_rejectPending_self, hview]
        exact (h id).decoded hd hp (.inr ⟨_, rfl, rfl, rfl⟩)
      · rw [view_rejectPending_ne _ hne, view_undecode_ne hne]
    · cases hr
      refine h.update id ?_ fun id' hne => ?_
      · rw [view_mark_self]
        exact view_undecode_self (c := c) ▸ (h id).decoded hd hp (.inl rfl)
      · rw [view_mark_ne _ hne]
        exact view_undecode_ne (c := c) hne

theorem Sound.resumeConnect (h : Sound c) {remaining : Int} {reads : DispatchReads}
    (hr : c.resumeConnect remaining reads = some c') : Sound c' := by
  unfold NativeClient.resumeConnect at hr
  split at hr
  · split at hr
    · have hdispatch := h.dispatch (handshake default remaining) reads
      split at hr
      all_goals
        rename_i heq
        rw [heq] at hdispatch
        cases hr
        exact hdispatch.same fun id => rfl
    · cases hr
      exact h.same fun id => rfl
  · split at hr
    all_goals
      cases hr
      exact h.same fun id => rfl
  · cases hr
    exact h.same fun id => rfl
  · cases hr

theorem Sound.step (h : Sound c) {e : Event π ρ} (hs : next c e = some c') : Sound c' := by
  cases e with
  | resumeConnect remaining reads => exact h.resumeConnect hs
  | writeReported id report => exact h.writeReported hs
  | decoded id enrolments outcome => exact h.decoded hs
  | connect timeoutMs =>
    cases hs
    unfold beginConnect
    split
    · exact h
    · exact h.same fun id => rfl
  | openSettled ok =>
    cases hs
    unfold openSettled
    split
    · exact h.same fun id => rfl
    · exact h
  | openTimedOut =>
    cases hs
    unfold openTimedOut
    split
    · exact h.same fun id => view_leave _ id
    · exact h
  | invoke invocation reads =>
    cases hs
    unfold invoke
    split
    · exact h.dispatch invocation reads
    · exact h.same fun id => rfl
  | cancel id reason cancelId =>
    cases hs
    exact h.cancelPending reason cancelId
  | receive frame =>
    cases hs
    exact h.receive frame
  | disconnect =>
    cases hs
    exact h.disconnect
  | close cancelIds =>
    cases hs
    exact h.close cancelIds
  | track enrolment =>
    cases hs
    unfold track
    split
    · exact h
    · exact h.same fun id => rfl
  | forgetSession sessionId =>
    cases hs
    exact h.same fun id => rfl

/-- In every run the marks of every registered request are a run of its
lifecycle, and every table agrees with the state it is in. -/
theorem sound_invariant : (client π ρ).Invariant Sound where
  init := by
    rintro c rfl id
    exact ⟨rfl, rfl, rfl, by simp [view, initial], rfl⟩
  step := fun _ _ _ _ h hs => h.step hs

end Soundness

/-! ## The pending table and the state of the client -/

section Link

/-- A request is pending only in a ready client, or it is the handshake that
`connect` waits for. -/
structure Linked (c : NativeClient π ρ) : Prop where
  pending : ∀ id p, c.pending.get? id = some p →
    c.state = .ready ∨ c.state = .connecting ∧ ∃ epoch, c.connect = .awaiting id epoch
  idle : c.state = .idle → c.connect = .notStarted
  ready : c.state = .ready → c.connect = .done
  connecting : c.state = .connecting → c.connect ≠ .notStarted ∧ c.connect ≠ .done

variable {c c' : NativeClient π ρ} {id : String}

/-- After the connection only the pending table matters. -/
theorem Linked.of_left (hs : c.state = .disconnected ∨ c.state = .closed) (hp : NoPending c) :
    Linked c := by
  refine ⟨(fun id p hget => nomatch (hp id).symm.trans hget), ?_, ?_, ?_⟩
  all_goals
    intro h
    rcases hs with hs | hs <;> rw [hs] at h <;> cases h

/-- The pending table may shrink while the state and the attempt stay. -/
theorem Linked.shrink (h : Linked c) (hs : c'.state = c.state) (hc : c'.connect = c.connect)
    (hp : ∀ id p, c'.pending.get? id = some p → ∃ p', c.pending.get? id = some p') :
    Linked c' := by
  refine ⟨fun id p hget => ?_, ?_, ?_, ?_⟩
  · obtain ⟨p', hget'⟩ := hp id p hget
    rw [hs, hc]
    exact h.pending id p' hget'
  · rw [hs, hc]
    exact h.idle
  · rw [hs, hc]
    exact h.ready
  · rw [hs, hc]
    exact h.connecting

theorem Linked.no_pending (h : Linked c) (hs : c.state ≠ .ready)
    (hc : ∀ id epoch, c.connect ≠ .awaiting id epoch) : NoPending c := by
  intro id
  by_contra hsome
  obtain ⟨p, hp⟩ := Option.ne_none_iff_exists'.mp hsome
  rcases h.pending id p hp with hr | ⟨-, epoch, haw⟩
  · exact hs hr
  · exact hc id epoch haw

/-- A rejected handshake is no longer awaited, and it was pending. -/
theorem Linked.rejectPending (h : Linked c) (r : Rejection) : Linked (c.rejectPending id r) := by
  have hconnect : c.connectRejected id = c.connect ∨
      (∃ epoch, c.connect = .awaiting id epoch) ∧ c.connectRejected id = .failed := by
    unfold connectRejected
    split
    · rename_i requestId epoch heq
      split
      · rename_i hid
        exact .inr ⟨⟨epoch, hid ▸ heq⟩, rfl⟩
      · exact .inl rfl
    · exact .inl rfl
  refine ⟨fun id' p hget => ?_, fun hs => ?_, fun hs => ?_, fun hs => ?_⟩
  all_goals simp only [rejectPending_state, rejectPending_connect] at *
  · rw [get?_rejectPending] at hget
    split at hget
    · cases hget
    · rename_i hne
      rcases h.pending id' p hget with hr | ⟨hst, epoch, haw⟩
      · exact .inl hr
      · rcases hconnect with hc | ⟨⟨epoch', haw'⟩, -⟩
        · exact .inr ⟨hst, epoch, hc.trans haw⟩
        · rw [haw] at haw'
          cases haw'
          exact absurd rfl hne
  · rcases hconnect with hc | ⟨⟨_, haw⟩, -⟩
    · exact hc.trans (h.idle hs)
    · exact nomatch (h.idle hs).symm.trans haw
  · rcases hconnect with hc | ⟨⟨_, haw⟩, -⟩
    · exact hc.trans (h.ready hs)
    · exact nomatch (h.ready hs).symm.trans haw
  · rcases hconnect with hc | ⟨-, hc⟩
    · rw [hc]
      exact h.connecting hs
    · rw [hc]
      simp

theorem Linked.awaitLate (h : Linked c) (phase : NativeWritePhase) :
    Linked (c.awaitLate id phase) :=
  h.shrink (awaitLate_state _) (awaitLate_connect _) fun id p hp =>
    ⟨p, by rwa [awaitLate_pending] at hp⟩

theorem Linked.cancelPending (h : Linked c) (reason : CancellationReason) (cancelId : String) :
    Linked (c.cancelPending id reason cancelId) := by
  unfold NativeClient.cancelPending
  split
  · exact h
  · simp only
    split
    · exact (h.awaitLate _).rejectPending _
    · exact ((h.awaitLate _).rejectPending _).shrink rfl rfl fun id p hp => ⟨p, hp⟩

theorem Linked.writeReported (h : Linked c) {report : WriteReport}
    (hr : c.writeReported id report = some c') : Linked c' := by
  unfold NativeClient.writeReported at hr
  split at hr
  · cases hr
  · have hmarked : Linked ({ c with writes := c.writes.erase id }.mark id (.reported report)) :=
      h.shrink (mark_state _) (mark_connect _) fun id p hp => ⟨p, by rwa [mark_pending] at hp⟩
    simp only at hr
    split at hr
    · cases hr
      unfold NativeClient.writeFailed
      split
      · exact hmarked
      · exact (hmarked.awaitLate _).rejectPending _
    · split at hr
      · cases hr
        exact hmarked
      · rename_i p hp
        cases hr
        refine hmarked.shrink rfl rfl fun id' p' hp' => ?_
        rw [OrderedMap.get?_set] at hp'
        split at hp'
        · rename_i heq
          exact ⟨p, heq ▸ hp⟩
        · exact ⟨p', hp'⟩

/-- Each handler that leaves the connection empties the pending table. -/
theorem disconnect_left (h : c.state ≠ .closed) (h' : c.state ≠ .disconnected) :
    c.disconnect.state = .disconnected ∧ NoPending c.disconnect := by
  unfold NativeClient.disconnect
  rw [if_neg (by simp [h, h'])]
  refine foldl_all_pending (P := fun c => c.state = .disconnected) (fun c e id => ?_)
    (fun c e hc _ => ?_) (leave_state _)
  · rw [get?_rejectPending, awaitLate_pending]
  · simpa using hc

theorem protocolFailure_left :
    c.protocolFailure.state = .disconnected ∧ NoPending c.protocolFailure := by
  unfold NativeClient.protocolFailure
  refine foldl_all_pending (P := fun c => c.state = .disconnected) (fun c e id => ?_)
    (fun c e hc _ => ?_) (leave_state _)
  · exact get?_rejectPending c e.1 id _
  · simpa using hc

theorem cancelPending_state (reason : CancellationReason) (cancelId : String) :
    (c.cancelPending id reason cancelId).state = c.state := by
  unfold NativeClient.cancelPending
  split
  · rfl
  · simp only
    split <;> simp

theorem close_left (h : c.state ≠ .closed) (cancelIds : String → String) :
    (c.close cancelIds).state = .closed ∧ NoPending (c.close cancelIds) := by
  unfold NativeClient.close
  rw [if_neg h]
  refine foldl_all_pending (P := fun c => c.state = .closed) (fun c e id => ?_)
    (fun c e hc _ => ?_) (leave_state _)
  · exact get?_cancelPending c e.1 id _ _
  · exact (cancelPending_state _ _).trans hc

theorem Linked.protocolFailure : Linked c.protocolFailure :=
  .of_left (.inl protocolFailure_left.1) protocolFailure_left.2

theorem Linked.disconnect (h : Linked c) : Linked c.disconnect := by
  by_cases hs : c.state = .closed ∨ c.state = .disconnected
  · unfold NativeClient.disconnect
    rwa [if_pos hs]
  · obtain ⟨hc, hd⟩ := not_or.mp hs
    exact .of_left (.inl (disconnect_left hc hd).1) (disconnect_left hc hd).2

theorem Linked.close (h : Linked c) (cancelIds : String → String) : Linked (c.close cancelIds) := by
  by_cases hs : c.state = .closed
  · unfold NativeClient.close
    rwa [if_pos hs]
  · exact .of_left (.inr (close_left hs _).1) (close_left hs _).2

/-- `dispatch` adds no pending request but the one it names. -/
theorem dispatch_pending [Inhabited π] (c : NativeClient π ρ) (invocation : Invocation π)
    (reads : DispatchReads) :
    (c.dispatch invocation reads).1.state = c.state ∧
    (c.connect = .done → (c.dispatch invocation reads).1.connect = .done) ∧
    ∀ id p, (c.dispatch invocation reads).1.pending.get? id = some p →
      (∃ p', c.pending.get? id = some p') ∨ (c.dispatch invocation reads).2 = some id := by
  obtain ⟨ids, -, ⟨rejection, heq⟩ | ⟨request, -, -, -, c₁, hc₁, heq⟩⟩ :=
    dispatch_cases c invocation reads
  · rw [heq]
    exact ⟨rfl, fun h => h, fun id p hp => .inl ⟨p, hp⟩⟩
  · rw [heq]
    unfold NativeClient.register at hc₁
    split at hc₁
    · subst hc₁
      refine ⟨by simp, fun h => by simp [connectRejected, h], fun id p hp => .inl ?_⟩
      rw [get?_rejectPending] at hp
      split at hp
      · cases hp
      · rename_i hne
        rw [OrderedMap.get?_set, if_neg hne] at hp
        exact ⟨p, hp⟩
    · rename_i request' hreq
      obtain ⟨hid, -⟩ := finalRequest_ok hreq
      subst hc₁
      refine ⟨rfl, fun h => h, fun id p hp => ?_⟩
      by_cases hne : id = request'.id
      · refine .inr ?_
        rw [OrderedMap.has_eq_true_iff.mpr ⟨_, by simp [hid]; rfl⟩, if_pos rfl, hne, hid]
      · rw [OrderedMap.get?_set, if_neg hne] at hp
        exact .inl ⟨p, hp⟩

theorem Linked.receiveUnmatched (h : Linked c) (response : WireResponse ρ) :
    Linked (c.receiveUnmatched response) := by
  unfold NativeClient.receiveUnmatched
  split
  · exact .protocolFailure
  · split
    · simp only
      split
      · exact .protocolFailure
      · exact h.shrink (mark_state _) (mark_connect _) fun id p hp =>
          ⟨p, by rwa [mark_pending] at hp⟩
    · exact h

theorem Linked.receiveMatched (h : Linked c) (pending : Pending π) (response : WireResponse ρ) :
    Linked (c.receiveMatched pending response) := by
  unfold NativeClient.receiveMatched
  split
  · exact .protocolFailure
  · split
    · exact h.rejectPending _
    · refine h.shrink rfl rfl fun id p hp => ⟨p, ?_⟩
      rw [OrderedMap.get?_erase] at hp
      split at hp
      · cases hp
      · exact hp

theorem Linked.receive (h : Linked c) (frame : Frame ρ) : Linked (c.receive frame) := by
  unfold NativeClient.receive
  split
  · exact h
  · split
    · exact .protocolFailure
    · split
      · exact .protocolFailure
      · split
        · exact h.receiveUnmatched _
        · exact h.receiveMatched _ _

/-- An attempt that is over, or that no request answers any more. -/
theorem Linked.of_connect (h : Linked c) {connect : ConnectStage}
    (hc : (∃ id epoch, c.connect = .awaiting id epoch ∧ c.pending.get? id = none) ∨
      (c.connect ≠ .notStarted ∧ c.connect ≠ .done ∧ ∀ id epoch, c.connect ≠ .awaiting id epoch))
    (hnew : connect ≠ .notStarted ∧ connect ≠ .done) : Linked { c with connect := connect } := by
  refine ⟨fun id p hget => ?_, fun hs => ?_, fun hs => ?_, fun _ => hnew⟩
  · rcases h.pending id p hget with hr | ⟨-, epoch, haw⟩
    · exact .inl hr
    · rcases hc with ⟨id', epoch', haw', hnone⟩ | ⟨-, -, hno⟩
      · rw [haw] at haw'
        cases haw'
        exact nomatch hnone.symm.trans hget
      · exact absurd haw (hno id epoch)
  · have := h.idle hs
    rcases hc with ⟨_, _, haw, -⟩ | ⟨hns, -⟩
    · exact nomatch this.symm.trans haw
    · exact absurd this hns
  · have := h.ready hs
    rcases hc with ⟨_, _, haw, -⟩ | ⟨-, hd, -⟩
    · exact nomatch this.symm.trans haw
    · exact absurd this hd

theorem Linked.decoded [Inhabited π] (h : Linked c) (hsound : Sound c)
    {enrolments : List Enrolment} {outcome : Decoded}
    (hr : c.decoded id enrolments outcome = some c') : Linked c' := by
  unfold NativeClient.decoded at hr
  split at hr
  · cases hr
  · rename_i d hd
    have hp := hsound.not_pending_of_decoding hd
    have hundecoded : Linked { c with decoding := c.decoding.erase id } :=
      h.shrink rfl rfl fun id p hp => ⟨p, hp⟩
    simp only at hr
    split at hr
    · cases hr
      exact hundecoded.rejectPending _
    · cases hr
      refine Linked.shrink ?_ (mark_state _) (mark_connect _) fun id p hp =>
        ⟨p, by rwa [mark_pending] at hp⟩
      have htracked : ∀ staged, Linked
          ({ c with decoding := c.decoding.erase id }.commitTracking staged) :=
        fun _ => h.shrink rfl rfl fun id p hp => ⟨p, hp⟩
      split
      · rename_i requestId epoch hconnect
        split
        · rename_i hid
          refine (htracked _).of_connect (.inl ⟨requestId, epoch, hconnect, hid ▸ hp⟩) ?_
          split <;> simp
        · exact htracked _
      · exact htracked _

theorem Linked.resumeConnect [Inhabited π] (h : Linked c) {remaining : Int} {reads : DispatchReads}
    (hr : c.resumeConnect remaining reads = some c') : Linked c' := by
  unfold NativeClient.resumeConnect at hr
  split at hr
  · rename_i epoch hconnect
    have hno : NoPending c := by
      refine h.no_pending (fun hs => ?_) fun id e heq => nomatch hconnect.symm.trans heq
      exact nomatch hconnect.symm.trans (h.ready hs)
    have hfail : Linked { c with connect := .failed } :=
      h.of_connect (.inr (by simp [hconnect])) (by simp)
    split at hr
    · rename_i hs
      obtain ⟨hstate, -, hpend⟩ := dispatch_pending c (handshake default remaining) reads
      have hst := hs.1
      split at hr
      · rename_i c₁ requestId heq
        rw [heq] at hstate hpend
        cases hr
        have hconn : c₁.state = .connecting := hstate.trans hst
        refine ⟨fun id p hget => ?_, fun hs' => ?_, fun hs' => ?_, fun _ => by simp⟩
        · rcases hpend id p hget with ⟨p', hp'⟩ | hid
          · exact nomatch (hno id).symm.trans hp'
          · cases hid
            exact .inr ⟨hconn, epoch, rfl⟩
        · exact nomatch hconn.symm.trans hs'
        · exact nomatch hconn.symm.trans hs'
      · rename_i c₁ heq
        rw [heq] at hstate hpend
        cases hr
        have hconn : c₁.state = .connecting := hstate.trans hst
        refine ⟨fun id p hget => ?_, fun hs' => ?_, fun hs' => ?_, fun _ => by simp⟩
        · rcases hpend id p hget with ⟨p', hp'⟩ | hid
          · exact nomatch (hno id).symm.trans hp'
          · cases hid
        · exact nomatch hconn.symm.trans hs'
        · exact nomatch hconn.symm.trans hs'
    · cases hr
      exact hfail
  · rename_i host epoch hconnect
    have hno : NoPending c := by
      refine h.no_pending (fun hs => ?_) fun id e heq => nomatch hconnect.symm.trans heq
      exact nomatch hconnect.symm.trans (h.ready hs)
    split at hr
    · cases hr
      refine ⟨fun id p hget => ?_, (fun hs => nomatch hs), fun _ => rfl, fun hs => nomatch hs⟩
      exact nomatch (hno id).symm.trans hget
    · cases hr
      exact h.of_connect (.inr (by simp [hconnect])) (by simp)
  · rename_i hconnect
    have hno : NoPending c := by
      refine h.no_pending (fun hs => ?_) fun id e heq => nomatch hconnect.symm.trans heq
      exact nomatch hconnect.symm.trans (h.ready hs)
    cases hr
    refine .of_left ?_ hno
    simp only
    split
    · rename_i hleft
      exact hleft
    · exact .inl rfl
  · cases hr

theorem Linked.step [Inhabited π] (h : Linked c) (hsound : Sound c) {e : Event π ρ}
    (hs : next c e = some c') : Linked c' := by
  cases e with
  | resumeConnect remaining reads => exact h.resumeConnect hs
  | writeReported id report => exact h.writeReported hs
  | decoded id enrolments outcome => exact h.decoded hsound hs
  | connect timeoutMs =>
    cases hs
    unfold beginConnect
    split
    · exact h
    · rename_i hidle
      have hst : c.state = .idle := by
        by_contra hne
        exact hidle (.inl hne)
      have hno : NoPending c := by
        refine h.no_pending (by simp [hst]) fun id e heq => ?_
        exact nomatch (h.idle hst).symm.trans heq
      refine ⟨fun id p hget => ?_, (fun hs => nomatch hs), (fun hs => nomatch hs),
        fun _ => by simp⟩
      exact nomatch (hno id).symm.trans hget
  | openSettled ok =>
    cases hs
    unfold openSettled
    split
    · rename_i epoch hconnect
      refine h.of_connect (.inr (by simp [hconnect])) ?_
      split <;> simp
    · exact h
  | openTimedOut =>
    cases hs
    unfold openTimedOut
    split
    · rename_i epoch hconnect
      have hno : NoPending c := by
        refine h.no_pending (fun hs => ?_) fun id e heq => nomatch hconnect.symm.trans heq
        exact nomatch hconnect.symm.trans (h.ready hs)
      refine .of_left (.inl (leave_state _)) fun id => ?_
      rw [leave_pending]
      exact hno id
    · exact h
  | invoke invocation reads =>
    cases hs
    unfold invoke
    split
    · rename_i hst
      obtain ⟨hstate, hdone, -⟩ := dispatch_pending c invocation reads
      have hready := hstate.trans hst
      refine ⟨fun _ _ _ => .inl hready, fun hs => ?_, fun _ => hdone (h.ready hst), fun hs => ?_⟩
      · exact nomatch hready.symm.trans hs
      · exact nomatch hready.symm.trans hs
    · exact h.shrink rfl rfl fun id p hp => ⟨p, hp⟩
  | cancel id reason cancelId =>
    cases hs
    exact h.cancelPending reason cancelId
  | receive frame =>
    cases hs
    exact h.receive frame
  | disconnect =>
    cases hs
    exact h.disconnect
  | close cancelIds =>
    cases hs
    exact h.close cancelIds
  | track enrolment =>
    cases hs
    unfold track
    split
    · exact h
    · exact h.shrink rfl rfl fun id p hp => ⟨p, hp⟩
  | forgetSession sessionId =>
    cases hs
    exact h.shrink rfl rfl fun id p hp => ⟨p, hp⟩

theorem linked_invariant [Inhabited π] : (client π ρ).Invariant Linked where
  init := by
    rintro c rfl
    exact ⟨(fun _ _ h => nomatch h), fun _ => rfl, (fun h => nomatch h), fun h => nomatch h⟩
  step := fun _ _ _ hreach h hs => h.step (sound_invariant.reachable hreach) hs

end Link

end SurfaceLoom.Native.ClientRuns
