import SurfaceLoom.Native.ClientRuns

/-! # Sessions and handles tracked by the client

What the client may send is checked against the sessions and handles it tracks.
Every event moves this part of the client in one of a few ways, and each of them
keeps the handles inside tracked sessions of the current host. -/
namespace SurfaceLoom.Native.ClientTracking
open SurfaceLoom.Lib SurfaceLoom.Lib.Transition SurfaceLoom.Native.Wire
open SurfaceLoom.Native.Client SurfaceLoom.Native.Client.NativeClient
open SurfaceLoom.Native.ClientViews SurfaceLoom.Native.ClientRuns

variable {π ρ : Type}

/-! ## The keys of the handle map -/

/-- The key of a handle in the source's map. -/
def handleKey (handle : NativeHandle) : String :=
  handle.hostInstanceId ++ "\x00" ++ handle.sessionId ++ "\x00" ++ handle.handleId

/-- The schema accepts no id with a NUL. -/
def Plain (handle : NativeHandle) : Prop :=
  '\x00' ∉ handle.hostInstanceId.toList ∧ '\x00' ∉ handle.sessionId.toList

theorem append_separator_inj {α : Type} {sep : α} :
    ∀ {l m l' m' : List α}, sep ∉ l → sep ∉ m → l ++ sep :: l' = m ++ sep :: m' → l = m ∧ l' = m'
  | [], [], _, _, _, _, h => ⟨rfl, List.tail_eq_of_cons_eq h⟩
  | [], b :: m, _, _, _, hm, h => by
    rw [List.nil_append, List.cons_append, List.cons.injEq] at h
    exact absurd (h.1 ▸ List.mem_cons_self ..) hm
  | a :: l, [], _, _, hl, _, h => by
    rw [List.nil_append, List.cons_append, List.cons.injEq] at h
    exact absurd (h.1 ▸ List.mem_cons_self ..) hl
  | a :: l, b :: m, l', m', hl, hm, h => by
    rw [List.cons_append, List.cons_append, List.cons.injEq] at h
    obtain ⟨hhead, htail⟩ := h
    rw [List.mem_cons, not_or] at hl hm
    obtain ⟨hrest, hend⟩ := append_separator_inj hl.2 hm.2 htail
    exact ⟨by rw [hhead, hrest], hend⟩

/-- Handles may be keyed by themselves. -/
theorem handleKey_injective {handle handle' : NativeHandle} (h : Plain handle) (h' : Plain handle')
    (hkey : handleKey handle = handleKey handle') : handle = handle' := by
  obtain ⟨host, session, id⟩ := handle
  obtain ⟨host', session', id'⟩ := handle'
  have hlist : host.toList ++ '\x00' :: (session.toList ++ '\x00' :: id.toList) =
      host'.toList ++ '\x00' :: (session'.toList ++ '\x00' :: id'.toList) := by
    have := congrArg String.toList hkey
    simpa [handleKey, String.toList_append] using this
  obtain ⟨hhost, hrest⟩ := append_separator_inj h.1 h'.1 hlist
  obtain ⟨hsession, hid⟩ := append_separator_inj h.2 h'.2 hrest
  rw [NativeHandle.mk.injEq]
  exact ⟨String.toList_inj.mp hhost, String.toList_inj.mp hsession, String.toList_inj.mp hid⟩

/-! ## The tracked part of a client -/

structure Tracking where
  state : NativeClientState
  host : Option String
  sessions : OrderedMap String NativeSessionDescriptor
  seen : Finset String
  handles : OrderedMap NativeHandle NativeHandle

def tracking (c : NativeClient π ρ) : Tracking :=
  ⟨c.state, c.host.map (·.hostInstanceId), c.sessions, c.seenSessionIds, c.handles⟩

/-- A tracked handle names the host and a tracked session, and the root of a
tracked session is tracked. -/
structure Tracked (t : Tracking) : Prop where
  ready : t.host.isSome → t.state = .ready
  handle : ∀ key handle, t.handles.get? key = some handle → handle = key ∧
    t.host = some handle.hostInstanceId ∧ ∃ session, t.sessions.get? handle.sessionId = some session
  session : ∀ id session, t.sessions.get? id = some session → session.sessionId = id ∧
    t.host = some session.hostInstanceId ∧ t.handles.get? session.root = some session.root ∧
    id ∈ t.seen

/-- What a codec may have staged. -/
structure Enrols (t : Tracking) (staged : Staged) : Prop where
  handle : ∀ key handle, staged.handles.get? key = some handle → handle = key ∧
    t.host = some handle.hostInstanceId ∧
    ∃ session, (staged.sessions.get? handle.sessionId).or (t.sessions.get? handle.sessionId) =
      some session
  session : ∀ id session, staged.sessions.get? id = some session → session.sessionId = id ∧
    t.host = some session.hostInstanceId ∧
    staged.handles.get? session.root = some session.root ∧
    (t.sessions.get? id = none → id ∉ t.seen)

def Tracking.commit (t : Tracking) (staged : Staged) : Tracking :=
  { t with
    sessions := staged.sessions.entries.foldl (fun m e => m.set e.1 e.2) t.sessions
    seen := t.seen ∪ staged.sessions.keys.toFinset
    handles := staged.handles.entries.foldl (fun m e => m.set e.1 e.2) t.handles }

def Tracking.forget (t : Tracking) (sessionId : String) : Tracking :=
  { t with
    sessions := t.sessions.erase sessionId
    handles := t.handles.filter fun _ handle => handle.sessionId ≠ sessionId }

/-- What one event does to the tracked part. -/
inductive Moves : Tracking → Tracking → Prop
  | same (t : Tracking) : Moves t t
  | unconnected (t : Tracking) (state : NativeClientState) : t.host = none →
      Moves t { t with state }
  | greet (t : Tracking) (host : String) : t.host = none →
      Moves t { t with host := some host, state := .ready }
  | leave (t : Tracking) (state : NativeClientState) :
      Moves t ⟨state, none, .empty, t.seen, .empty⟩
  | forget (t : Tracking) (sessionId : String) : Moves t (t.forget sessionId)
  | commit (t : Tracking) (staged : Staged) : Enrols t staged → Moves t (t.commit staged)

/-! ### What the moves keep -/

theorem Tracked.no_host {t : Tracking} (h : Tracked t) (hnone : t.host = none) :
    (∀ id, t.sessions.get? id = none) ∧ ∀ key, t.handles.get? key = none := by
  refine ⟨fun id => ?_, fun key => ?_⟩
  · by_contra hsome
    obtain ⟨session, hsession⟩ := Option.ne_none_iff_exists'.mp hsome
    have hhost := (h.session id session hsession).2.1
    rw [hnone] at hhost
    cases hhost
  · by_contra hsome
    obtain ⟨handle, hhandle⟩ := Option.ne_none_iff_exists'.mp hsome
    have hhost := (h.handle key handle hhandle).2.1
    rw [hnone] at hhost
    cases hhost

theorem Tracked.forget {t : Tracking} (h : Tracked t) (sessionId : String) :
    Tracked (t.forget sessionId) := by
  refine ⟨h.ready, fun key handle hget => ?_, fun id session hget => ?_⟩
  · have hget : (t.handles.filter fun _ handle => handle.sessionId ≠ sessionId).get? key =
      some handle := hget
    rw [OrderedMap.get?_filter, Option.filter_eq_some_iff] at hget
    obtain ⟨hget, hne⟩ := hget
    obtain ⟨hkey, hhost, session, hsession⟩ := h.handle key handle hget
    refine ⟨hkey, hhost, session, ?_⟩
    show (t.sessions.erase sessionId).get? handle.sessionId = some session
    rw [OrderedMap.get?_erase, if_neg (of_decide_eq_true hne)]
    exact hsession
  · have hget : (t.sessions.erase sessionId).get? id = some session := hget
    rw [OrderedMap.get?_erase] at hget
    split at hget
    · cases hget
    · rename_i hne
      obtain ⟨hid, hhost, hroot, hseen⟩ := h.session id session hget
      refine ⟨hid, hhost, ?_, hseen⟩
      show (t.handles.filter fun _ handle => handle.sessionId ≠ sessionId).get? session.root =
        some session.root
      rw [OrderedMap.get?_filter, hroot, Option.filter_some, session.rootScope.2, hid]
      exact if_pos (decide_eq_true hne)

theorem commit_session (t : Tracking) (staged : Staged) (id : String) :
    (t.commit staged).sessions.get? id = (staged.sessions.get? id).or (t.sessions.get? id) :=
  OrderedMap.get?_foldl_set ..

theorem commit_handle (t : Tracking) (staged : Staged) (key : NativeHandle) :
    (t.commit staged).handles.get? key = (staged.handles.get? key).or (t.handles.get? key) :=
  OrderedMap.get?_foldl_set ..

theorem Tracked.commit {t : Tracking} (h : Tracked t) {staged : Staged} (hs : Enrols t staged) :
    Tracked (t.commit staged) := by
  refine ⟨h.ready, fun key handle hget => ?_, fun id session hget => ?_⟩
  · rw [commit_handle] at hget
    rw [commit_session]
    cases hstaged : staged.handles.get? key with
    | some handle' =>
      rw [hstaged] at hget
      cases hget
      exact hs.handle key handle hstaged
    | none =>
      rw [hstaged, Option.none_or] at hget
      obtain ⟨hkey, hhost, session, hsession⟩ := h.handle key handle hget
      refine ⟨hkey, hhost, ?_⟩
      rw [hsession]
      cases staged.sessions.get? handle.sessionId with
      | none => exact ⟨session, rfl⟩
      | some session' => exact ⟨session', rfl⟩
  · rw [commit_session] at hget
    rw [commit_handle]
    cases hstaged : staged.sessions.get? id with
    | some session' =>
      rw [hstaged] at hget
      cases hget
      obtain ⟨hid, hhost, hroot, -⟩ := hs.session id session hstaged
      refine ⟨hid, hhost, by rw [hroot, Option.some_or], Finset.mem_union_right _ ?_⟩
      exact List.mem_toFinset.mpr (OrderedMap.mem_keys_iff.mpr ⟨session, hstaged⟩)
    | none =>
      rw [hstaged, Option.none_or] at hget
      obtain ⟨hid, hhost, hroot, hseen⟩ := h.session id session hget
      refine ⟨hid, hhost, ?_, Finset.mem_union_left _ hseen⟩
      cases hhandle : staged.handles.get? session.root with
      | none => exact hroot
      | some handle => rw [(hs.handle _ _ hhandle).1, Option.some_or]

/-- No move leaves a handle outside its session. -/
theorem Moves.tracked {t t' : Tracking} (h : Moves t t') (ht : Tracked t) : Tracked t' := by
  cases h with
  | same => exact ht
  | unconnected state hnone =>
    refine ⟨fun hsome => ?_, ht.handle, ht.session⟩
    have hsome : t.host.isSome = true := hsome
    rw [hnone] at hsome
    cases hsome
  | greet host hnone =>
    obtain ⟨hsessions, hhandles⟩ := ht.no_host hnone
    refine ⟨fun _ => rfl, fun key handle hget => ?_, fun id session hget => ?_⟩
    · cases (hhandles key).symm.trans hget
    · cases (hsessions id).symm.trans hget
  | leave state =>
    exact ⟨(fun hsome => nomatch hsome), (fun _ _ hget => nomatch hget),
      (fun _ _ hget => nomatch hget)⟩
  | forget sessionId => exact ht.forget sessionId
  | commit staged henrols => exact ht.commit henrols

/-- An id that was seen and is not tracked. -/
def Forgotten (t : Tracking) (id : String) : Prop := id ∈ t.seen ∧ t.sessions.get? id = none

theorem Moves.forgotten {t t' : Tracking} (h : Moves t t') {id : String} (hid : Forgotten t id) :
    Forgotten t' id := by
  obtain ⟨hseen, hnone⟩ := hid
  cases h with
  | same => exact ⟨hseen, hnone⟩
  | unconnected state _ => exact ⟨hseen, hnone⟩
  | greet host _ => exact ⟨hseen, hnone⟩
  | leave state => exact ⟨hseen, rfl⟩
  | forget sessionId =>
    refine ⟨hseen, ?_⟩
    show (t.sessions.erase sessionId).get? id = none
    rw [OrderedMap.get?_erase, hnone]
    exact ite_self none
  | commit staged henrols =>
    refine ⟨Finset.mem_union_left _ hseen, ?_⟩
    rw [commit_session, hnone, Option.or_none]
    by_contra hsome
    obtain ⟨session, hsession⟩ := Option.ne_none_iff_exists'.mp hsome
    exact (henrols.session id session hsession).2.2.2 hnone hseen

/-! ## The client moves its tracked part -/

section Client

variable {c c' : NativeClient π ρ}

theorem enrols_none (t : Tracking) : Enrols t .none :=
  ⟨(fun _ _ hget => nomatch hget), (fun _ _ hget => nomatch hget)⟩

theorem Enrols.stageSession {staged staged' : Staged} (h : Enrols (tracking c) staged)
    {session : NativeSessionDescriptor} (hs : c.stageSession staged session = .ok staged') :
    Enrols (tracking c) staged' := by
  unfold NativeClient.stageSession at hs
  split at hs
  · cases hs
  · rename_i host hhost
    simp only at hs
    split at hs
    · cases hs
    · rename_i hinstance
      split at hs
      · cases hs
      · rename_i hseen
        split at hs
        · cases hs
        · cases hs
          have hhost' : (tracking c).host = some session.hostInstanceId := by
            show c.host.map _ = _
            rw [hhost, not_not.mp hinstance]
            rfl
          refine ⟨fun key handle hget => ?_, fun id session' hget => ?_⟩
          · rw [OrderedMap.get?_set] at hget ⊢
            split at hget
            · rename_i hkey
              cases hget
              refine ⟨hkey.symm, session.rootScope.1 ▸ hhost', session, ?_⟩
              rw [if_pos session.rootScope.2, Option.some_or]
            · obtain ⟨hkey, hh, session', hsession'⟩ := h.handle key handle hget
              refine ⟨hkey, hh, ?_⟩
              split
              · exact ⟨session, rfl⟩
              · exact ⟨session', hsession'⟩
          · rw [OrderedMap.get?_set] at hget
            rw [OrderedMap.get?_set]
            split at hget
            · rename_i hid
              cases hget
              refine ⟨hid.symm, hhost', if_pos rfl, fun hnone hin => ?_⟩
              have hnone : c.sessions.get? session.sessionId = none := hid ▸ hnone
              have hin : session.sessionId ∈ c.seenSessionIds := hid ▸ hin
              cases hstaged : staged.sessions.get? session.sessionId with
              | none => exact hseen ⟨by rw [hstaged, hnone]; rfl, hin⟩
              | some prior => exact (h.session _ _ hstaged).2.2.2 hnone hin
            · obtain ⟨hid, hh, hroot, hfresh⟩ := h.session id session' hget
              refine ⟨hid, hh, ?_, hfresh⟩
              rw [hroot]
              split
              · rename_i heq
                rw [heq]
              · rfl

theorem Enrols.stageHandle {staged staged' : Staged} (ht : Tracked (tracking c))
    (h : Enrols (tracking c) staged) {handle : NativeHandle}
    (hs : c.stageHandle staged handle = .ok staged') : Enrols (tracking c) staged' := by
  unfold NativeClient.stageHandle at hs
  split at hs
  · cases hs
  · rename_i session hsession
    split at hs
    · cases hs
    · rename_i hscope
      cases hs
      rw [not_or, not_not, not_not] at hscope
      have hhost : (tracking c).host = some session.hostInstanceId := by
        cases hstaged : staged.sessions.get? handle.sessionId with
        | some session' =>
          rw [hstaged] at hsession
          cases hsession
          exact (h.session _ _ hstaged).2.1
        | none =>
          rw [hstaged, Option.none_or] at hsession
          exact (ht.session _ _ hsession).2.1
      refine ⟨fun key handle' hget => ?_, fun id session' hget => ?_⟩
      · have hget : (staged.handles.set handle handle).get? key = some handle' := hget
        rw [OrderedMap.get?_set] at hget
        split at hget
        · rename_i hkey
          cases hget
          exact ⟨hkey.symm, hscope.1 ▸ hhost, session, hsession⟩
        · exact h.handle key handle' hget
      · obtain ⟨hid, hh, hroot, hfresh⟩ := h.session id session' hget
        refine ⟨hid, hh, ?_, hfresh⟩
        show (staged.handles.set handle handle).get? session'.root = some session'.root
        rw [OrderedMap.get?_set, hroot]
        split
        · rename_i heq
          rw [heq]
        · rfl

theorem Enrols.stage {staged staged' : Staged} (ht : Tracked (tracking c))
    (h : Enrols (tracking c) staged) {enrolment : Enrolment}
    (hs : c.stage staged enrolment = .ok staged') : Enrols (tracking c) staged' := by
  cases enrolment with
  | session descriptor => exact h.stageSession hs
  | handle handle => exact h.stageHandle ht hs

theorem Enrols.stageAll {staged : Staged} (ht : Tracked (tracking c))
    (h : Enrols (tracking c) staged) (enrolments : List Enrolment) :
    Enrols (tracking c) (c.stageAll staged enrolments) := by
  induction enrolments generalizing staged with
  | nil => exact h
  | cons e rest ih =>
    have hnext : Enrols (tracking c) ((c.stage staged e).toOption.getD staged) := by
      cases hs : c.stage staged e with
      | error rejection => exact h
      | ok staged' => exact h.stage ht hs
    exact ih hnext

theorem Moves.track (ht : Tracked (tracking c)) (enrolment : Enrolment) :
    Moves (tracking c) (tracking (c.track enrolment)) := by
  unfold NativeClient.track
  split
  · exact .same _
  · rename_i staged hs
    exact .commit _ staged ((enrols_none _).stage ht hs)

/-! ### What leaves the tracked part alone -/

@[simp] theorem tracking_mark (id : String) (m : Mark ρ) : tracking (c.mark id m) = tracking c := by
  unfold NativeClient.mark
  split <;> rfl

@[simp] theorem tracking_rejectPending (id : String) (r : Rejection) :
    tracking (c.rejectPending id r) = tracking c := by
  unfold NativeClient.rejectPending
  rw [tracking_mark]
  rfl

@[simp] theorem tracking_awaitLate (id : String) (phase : NativeWritePhase) :
    tracking (c.awaitLate id phase) = tracking c := by
  unfold NativeClient.awaitLate
  split <;> rfl

@[simp] theorem tracking_cancelPending (id : String) (reason : CancellationReason)
    (cancelId : String) : tracking (c.cancelPending id reason cancelId) = tracking c := by
  unfold NativeClient.cancelPending
  split
  · rfl
  · simp only
    split
    · rw [tracking_rejectPending, tracking_awaitLate]
    · exact (tracking_rejectPending ..).trans (tracking_awaitLate ..)

@[simp] theorem tracking_writeFailed (id : String) (phase : NativeWritePhase) :
    tracking (c.writeFailed id phase) = tracking c := by
  unfold NativeClient.writeFailed
  split
  · rfl
  · rw [tracking_rejectPending, tracking_awaitLate]

theorem tracking_writeReported {id : String} {report : WriteReport}
    (h : c.writeReported id report = some c') : tracking c' = tracking c := by
  have hmark : ∀ m : Mark ρ,
      tracking ({ c with writes := c.writes.erase id }.mark id m) = tracking c :=
    fun m => tracking_mark id m
  unfold NativeClient.writeReported at h
  split at h
  · cases h
  · simp only at h
    split at h
    · cases h
      rw [tracking_writeFailed, hmark]
    · split at h
      · cases h
        exact hmark _
      · cases h
        exact hmark _

theorem tracking_foldl {ε : Type} {f : NativeClient π ρ → ε → NativeClient π ρ}
    (hf : ∀ c e, tracking (f c e) = tracking c) (entries : List ε) (c : NativeClient π ρ) :
    tracking (entries.foldl f c) = tracking c := by
  induction entries generalizing c with
  | nil => rfl
  | cons e rest ih => rw [List.foldl_cons, ih, hf]

theorem tracking_leave (state : NativeClientState) :
    tracking (c.leave state) = { tracking c with state } := by
  unfold NativeClient.leave rejectOpening
  split <;> rfl

/-- The tracked part of a client that left its connection. -/
def left (state : NativeClientState) (c : NativeClient π ρ) : Tracking :=
  ⟨state, none, .empty, c.seenSessionIds, .empty⟩

theorem tracking_forgetHost {state : NativeClientState}
    (h : tracking c = { tracking c' with state }) : tracking c.forgetHost = left state c' := by
  have hstate : c.state = state := congrArg Tracking.state h
  have hseen : c.seenSessionIds = c'.seenSessionIds := congrArg Tracking.seen h
  unfold left
  rw [← hstate, ← hseen]
  rfl

theorem tracking_protocolFailure : tracking c.protocolFailure = left .disconnected c := by
  unfold NativeClient.protocolFailure
  rw [tracking_foldl fun _ _ => tracking_rejectPending ..]
  exact tracking_forgetHost (tracking_leave _)

theorem Moves.left (state : NativeClientState) (h : tracking c' = left state c) :
    Moves (tracking c) (tracking c') := by
  rw [h]
  exact .leave (tracking c) state

theorem Moves.of_eq (h : tracking c' = tracking c) : Moves (tracking c) (tracking c') := by
  rw [h]
  exact .same _

theorem Moves.disconnect : Moves (tracking c) (tracking c.disconnect) := by
  unfold NativeClient.disconnect
  split
  · exact .same _
  · refine .left .disconnected ?_
    rw [tracking_foldl fun _ _ => (tracking_rejectPending ..).trans (tracking_awaitLate ..)]
    exact tracking_forgetHost (tracking_leave _)

theorem Moves.close (cancelIds : String → String) :
    Moves (tracking c) (tracking (c.close cancelIds)) := by
  unfold NativeClient.close
  split
  · exact .same _
  · refine .left .closed (tracking_forgetHost ?_)
    rw [tracking_foldl fun _ _ => tracking_cancelPending ..]
    exact tracking_leave _

theorem tracking_register [Inhabited π] (invocation : Invocation π) (request : NativeRequest π)
    (reads : DispatchReads) : tracking (c.register invocation request reads) = tracking c := by
  unfold NativeClient.register
  split
  · rw [tracking_rejectPending]
    rfl
  · rfl

theorem tracking_dispatch [Inhabited π] (invocation : Invocation π) (reads : DispatchReads) :
    tracking (c.dispatch invocation reads).1 = tracking c := by
  obtain ⟨ids, -, ⟨rejection, heq⟩ | ⟨request, -, -, -, c', hc', heq⟩⟩ :=
    dispatch_cases c invocation reads
  · rw [heq]
    rfl
  · rw [heq, hc']
    exact tracking_register invocation request reads

@[simp] theorem decoding_rejectPending (id : String) (r : Rejection) :
    (c.rejectPending id r).decoding = c.decoding := by
  unfold NativeClient.rejectPending NativeClient.mark
  split <;> rfl

theorem decoding_protocolFailure : c.protocolFailure.decoding = c.decoding := by
  have hfold : ∀ (entries : List (String × Pending π)) (c : NativeClient π ρ),
      (entries.foldl (fun c e => c.rejectPending e.1 (.client (protocolError e.1 e.2))) c).decoding =
        c.decoding := by
    intro entries
    induction entries with
    | nil => exact fun _ => rfl
    | cons e rest ih =>
      intro c
      rw [List.foldl_cons, ih, decoding_rejectPending]
  unfold NativeClient.protocolFailure
  rw [hfold]
  unfold NativeClient.forgetHost NativeClient.leave rejectOpening
  split <;> rfl

/-- What a frame does to the tracked part: nothing, or the connection failed and
no codec was called. -/
inductive Received (c c' : NativeClient π ρ) : Prop
  | kept : tracking c' = tracking c → Received c c'
  | failed : tracking c' = left .disconnected c → c'.decoding = c.decoding → Received c c'

theorem received_protocolFailure : Received c c.protocolFailure :=
  .failed tracking_protocolFailure decoding_protocolFailure

theorem received_unmatched (response : WireResponse ρ) : Received c (c.receiveUnmatched response) := by
  unfold NativeClient.receiveUnmatched
  split
  · exact received_protocolFailure
  · split
    · simp only
      split
      · exact .failed tracking_protocolFailure decoding_protocolFailure
      · exact .kept (tracking_mark ..)
    · exact .kept rfl

theorem received_matched (pending : Pending π) (response : WireResponse ρ) :
    Received c (c.receiveMatched pending response) := by
  unfold NativeClient.receiveMatched
  split
  · exact received_protocolFailure
  · split
    · exact .kept (tracking_rejectPending ..)
    · exact .kept rfl

theorem received (c : NativeClient π ρ) (frame : Frame ρ) : Received c (c.receive frame) := by
  unfold NativeClient.receive
  split
  · exact .kept rfl
  · split
    · exact received_protocolFailure
    · split
      · exact received_protocolFailure
      · split
        · exact received_unmatched _
        · exact received_matched _ _

theorem Moves.receive (frame : Frame ρ) : Moves (tracking c) (tracking (c.receive frame)) := by
  cases received c frame with
  | kept hsame => exact .of_eq hsame
  | failed hleft _ => exact .left _ hleft

/-- A frame whose response goes to a codec moves nothing yet. -/
theorem tracking_received {frame : Frame ρ} {id : String} (hfresh : c.decoding.get? id = none)
    (h : (c.receive frame).decoding.get? id ≠ none) : tracking (c.receive frame) = tracking c := by
  cases received c frame with
  | kept hsame => exact hsame
  | failed _ hdecoding => exact absurd (by rw [hdecoding, hfresh]) h

/-- A codec that throws enrols nothing. -/
theorem tracking_threw {id : String} {enrolments : List Enrolment}
    (h : c.decoded id enrolments .threw = some c') : tracking c' = tracking c := by
  unfold NativeClient.decoded at h
  split at h
  · cases h
  · cases h
    exact tracking_rejectPending ..

theorem Moves.decoded (ht : Tracked (tracking c)) {id : String} {enrolments : List Enrolment}
    {outcome : Decoded} (h : c.decoded id enrolments outcome = some c') :
    Moves (tracking c) (tracking c') := by
  cases outcome with
  | threw => exact .of_eq (tracking_threw h)
  | value host =>
    unfold NativeClient.decoded at h
    split at h
    · cases h
    · rename_i d hd
      cases h
      rw [tracking_mark]
      have hstaged : Enrols (tracking c)
          ({ c with decoding := c.decoding.erase id }.stageAll .none enrolments) :=
        Enrols.stageAll (c := { c with decoding := c.decoding.erase id }) ht (enrols_none _)
          enrolments
      exact .commit (tracking c) _ hstaged

/-- A client that has no host yet, or no more. -/
theorem no_host (ht : Tracked (tracking c)) (hs : c.state ≠ .ready) : (tracking c).host = none := by
  cases hhost : (tracking c).host with
  | none => rfl
  | some host => exact absurd (ht.ready (by rw [hhost]; rfl)) hs

theorem Moves.resumeConnect [Inhabited π] (ht : Tracked (tracking c)) (hl : Linked c)
    {remaining : Int} {reads : DispatchReads} (h : c.resumeConnect remaining reads = some c') :
    Moves (tracking c) (tracking c') := by
  unfold NativeClient.resumeConnect at h
  split at h
  · split at h
    · have hdispatch := tracking_dispatch (c := c) (handshake default remaining) reads
      split at h
      · rename_i c₁ requestId heq
        rw [heq] at hdispatch
        cases h
        exact .of_eq hdispatch
      · rename_i c₁ heq
        rw [heq] at hdispatch
        cases h
        exact .of_eq hdispatch
    · cases h
      exact .same _
  · split at h
    · rename_i host epoch _ hguard
      cases h
      have hnone := no_host ht (by rw [hguard.1]; exact fun hc => nomatch hc)
      exact .greet (tracking c) host.hostInstanceId hnone
    · cases h
      exact .same _
  · rename_i hfailed
    cases h
    have hnone := no_host ht fun hready => by
      have hdone := hl.ready hready
      rw [hfailed] at hdone
      cases hdone
    exact .unconnected (tracking c) _ hnone
  · cases h

theorem Moves.next [Inhabited π] (ht : Tracked (tracking c)) (hl : Linked c) {e : Event π ρ}
    (h : ClientRuns.next c e = some c') : Moves (tracking c) (tracking c') := by
  cases e with
  | resumeConnect remaining reads => exact .resumeConnect ht hl h
  | writeReported requestId report => exact .of_eq (tracking_writeReported h)
  | decoded requestId enrolments outcome => exact .decoded ht h
  | connect timeoutMs =>
    cases h
    unfold NativeClient.beginConnect
    split
    · exact .same _
    · rename_i hguard
      rw [not_or, not_not] at hguard
      have hnone := no_host ht (by rw [hguard.1]; exact fun hc => nomatch hc)
      exact .unconnected (tracking c) _ hnone
  | openSettled ok =>
    cases h
    unfold NativeClient.openSettled
    split <;> exact .same _
  | openTimedOut =>
    cases h
    unfold NativeClient.openTimedOut
    split
    · rename_i epoch hopening
      have hnone := no_host ht fun hready => by
        have hdone := hl.ready hready
        rw [hopening] at hdone
        cases hdone
      rw [tracking_leave]
      exact .unconnected (tracking c) _ hnone
    · exact .same _
  | invoke invocation reads =>
    cases h
    unfold NativeClient.invoke
    split
    · exact .of_eq (tracking_dispatch invocation reads)
    · exact .same _
  | cancel requestId reason cancelId =>
    cases h
    exact .of_eq (tracking_cancelPending ..)
  | receive frame =>
    cases h
    exact .receive frame
  | disconnect =>
    cases h
    exact .disconnect
  | close cancelIds =>
    cases h
    exact .close cancelIds
  | track enrolment =>
    cases h
    exact .track ht enrolment
  | forgetSession sessionId =>
    cases h
    exact .forget (tracking c) sessionId

theorem tracked_invariant [Inhabited π] :
    (client π ρ).Invariant fun c => Tracked (tracking c) where
  init := by
    rintro c rfl
    exact ⟨(fun hsome => nomatch hsome), (fun _ _ hget => nomatch hget),
      (fun _ _ hget => nomatch hget)⟩
  step := fun _ _ _ hreach h hs => (Moves.next h (linked_invariant.reachable hreach) hs).tracked h

theorem forgotten_stable [Inhabited π] (id : String) :
    (client π ρ).Stable fun c => Forgotten (tracking c) id := fun _ _ _ hreach h hs =>
  (Moves.next (tracked_invariant.reachable hreach) (linked_invariant.reachable hreach) hs).forgotten h

/-- Ids that were seen stay seen. -/
theorem seen_stable [Inhabited π] (id : String) :
    (client π ρ).Stable fun c => id ∈ (tracking c).seen := by
  intro c e c' hreach h hs
  have hmoves := Moves.next (tracked_invariant.reachable hreach) (linked_invariant.reachable hreach) hs
  generalize tracking c = t, tracking c' = t' at h hmoves
  cases hmoves with
  | same => exact h
  | unconnected state _ => exact h
  | greet host _ => exact h
  | leave state => exact h
  | forget sessionId => exact h
  | commit staged _ => exact Finset.mem_union_left _ h

end Client

/-! ## The invariant of the tracked sessions and handles -/

/-- In every reachable state the tracked handles name the current host and a
tracked session, a tracked session's root is tracked, an id that was tracked and
forgotten is never tracked again, and a decode that throws changes nothing. -/
theorem client_tracking_sound [Inhabited π] {c : NativeClient π ρ} (h : (client π ρ).Reachable c) :
    (∀ key handle, c.handles.get? key = some handle → handle = key ∧
      (∃ host, c.host = some host ∧ handle.hostInstanceId = host.hostInstanceId) ∧
      ∃ session, c.sessions.get? handle.sessionId = some session) ∧
    (∀ id session, c.sessions.get? id = some session →
      session.sessionId = id ∧ c.handles.get? session.root = some session.root) ∧
    (∀ id events c₁ events' c₂, c.sessions.has id = true → (client π ρ).Exec c events c₁ →
      c₁.sessions.has id = false → (client π ρ).Exec c₁ events' c₂ → c₂.sessions.has id = false) ∧
    ∀ frame id enrolments c₁ c₂, c.decoding.get? id = none →
      next c (.receive frame) = some c₁ → next c₁ (.decoded id enrolments .threw) = some c₂ →
      c₂.sessions = c.sessions ∧ c₂.handles = c.handles ∧ c₂.seenSessionIds = c.seenSessionIds := by
  have ht := tracked_invariant.reachable h
  refine ⟨fun key handle hget => ?_, fun id session hget => ?_, ?_, ?_⟩
  · obtain ⟨hkey, hhost, hsession⟩ := ht.handle key handle hget
    obtain ⟨host, hh, heq⟩ := Option.map_eq_some_iff.mp hhost
    exact ⟨hkey, ⟨host, hh, heq.symm⟩, hsession⟩
  · obtain ⟨hid, -, hroot, -⟩ := ht.session id session hget
    exact ⟨hid, hroot⟩
  · intro id events c₁ events' c₂ hhas hexec hnot hexec'
    obtain ⟨session, hsession⟩ := OrderedMap.has_eq_true_iff.mp hhas
    have hseen : id ∈ (tracking c).seen := (ht.session id session hsession).2.2.2
    have hseen₁ := (seen_stable id).exec h hseen hexec
    have hnone := OrderedMap.has_eq_false_iff.mp hnot
    exact OrderedMap.has_eq_false_iff.mpr
      ((forgotten_stable id).exec (h.exec hexec) ⟨hseen₁, hnone⟩ hexec').2
  · intro frame id enrolments c₁ c₂ hfresh hreceive hdecoded
    cases hreceive
    have hdecoded : (c.receive frame).decoded id enrolments .threw = some c₂ := hdecoded
    have hsame := (tracking_threw hdecoded).trans (tracking_received hfresh fun hnone => by
      unfold NativeClient.decoded at hdecoded
      rw [hnone] at hdecoded
      cases hdecoded)
    exact ⟨congrArg Tracking.sessions hsame, congrArg Tracking.handles hsame,
      congrArg Tracking.seen hsame⟩

def demoHost : HostDescriptor :=
  ⟨"h1", [⟨"host.handshake", .observe, ["bootstrap"]⟩, ⟨"session.launch", .lifecycle, ["host"]⟩], 4096⟩

def demoSession : NativeSessionDescriptor :=
  ⟨"h1", "s1", ⟨"h1", "s1", "root"⟩, ⟨rfl, rfl⟩⟩

theorem demoFrame_positive : 0 < 100 := by decide

def demoReads (requestId : String) : DispatchReads :=
  ⟨"op-" ++ requestId, requestId, true, 100, 0, 0, true, 100, 0, demoFrame_positive⟩

/-- A session is launched and forgotten, and a later launch names it again. -/
def launchTwice : List (Event Unit Unit) :=
  [.connect 5000, .openSettled true, .resumeConnect 4990 (demoReads "r1"),
    .receive ⟨100, some ⟨"r1", .ok (), none⟩⟩, .decoded "r1" [] (.value (some demoHost)),
    .resumeConnect 0 (demoReads "r2"), .track (.session demoSession),
    .track (.handle ⟨"h1", "s1", "button"⟩)]

theorem launchTwice_tracked :
    let c := (System.replay next (NativeClient.initial : NativeClient Unit Unit) launchTwice).get
      (by decide +kernel)
    c.handles.keys = [⟨"h1", "s1", "root"⟩, ⟨"h1", "s1", "button"⟩] ∧
    (∃ session, c.sessions.get? "s1" = some session) ∧
    ∀ c₁ c₂, next c (.forgetSession "s1") = some c₁ → next c₁ (.track (.session demoSession)) = some c₂ →
      c₂.sessions.has "s1" = false := by
  intro c
  have h : (client Unit Unit).Reachable c := System.reachable_of_replay (Option.some_get _).symm
  obtain ⟨hhandles, -, hforgotten, -⟩ := client_tracking_sound h
  refine ⟨by decide +kernel, ?_, fun c₁ c₂ hforget htrack => ?_⟩
  · exact (hhandles ⟨"h1", "s1", "button"⟩ ⟨"h1", "s1", "button"⟩ (by decide +kernel)).2.2
  · refine hforgotten "s1" [.forgetSession "s1"] c₁ [.track (.session demoSession)] c₂
      (by decide +kernel) (.cons hforget (.nil _)) ?_ (.cons htrack (.nil _))
    cases hforget
    decide +kernel

end SurfaceLoom.Native.ClientTracking
