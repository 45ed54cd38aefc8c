import SurfaceLoom.Native.ClientRuns

/-! # What a caller of the native client may rely on

The outcomes its errors claim, and that responses and promises meet one to
one, over every run. -/
namespace SurfaceLoom.Native.ClientSafety
open SurfaceLoom.Lib SurfaceLoom.Lib.Transition SurfaceLoom.Native.Wire
open SurfaceLoom.Native.Client SurfaceLoom.Native.Client.NativeClient
open SurfaceLoom.Native.RequestLifecycle SurfaceLoom.Native.ClientViews
open SurfaceLoom.Native.ClientRuns

variable {π ρ : Type} {c c' : NativeClient π ρ}

theorem agrees_of_reachable [Inhabited π] (h : (client π ρ).Reachable c) {id : String} {x : Exchange π ρ}
    (hx : c.exchanges.get? id = some x) : ∃ l, Agrees (view c id) id x l := by
  have hright : Right (view c id) id := sound_invariant.reachable h id
  unfold Right at hright
  rw [show (view c id).exchange = some x from hx] at hright
  exact hright

/-! ## Outcomes -/

/-- The errors of registered requests claim no more than the transport's
reports allow, and an invocation refused without registering hands out no
frame. -/
structure OutcomesHonest [Inhabited π] (c : NativeClient π ρ) : Prop where
  notExecuted : ∀ id x before error after, c.exchanges.get? id = some x →
    x.request.call.intent ≠ .observe →
    x.marks = before ++ .settled (.rejected (.client error)) :: after →
    error.operationOutcome = some .notExecuted →
    .handed ∉ x.marks ∨ ∃ report, .reported report ∈ before ∧ NothingWritten report
  unknown : ∀ id x before error after, c.exchanges.get? id = some x →
    x.request.call.intent ≠ .observe →
    x.marks = before ++ .settled (.rejected (.client error)) :: after →
    .handed ∈ before → (∀ report, .reported report ∈ before → ¬ NothingWritten report) →
    error.code ≠ .decodeFailed → error.operationOutcome = some .unknown
  refused : ∀ invocation reads, (c.invoke invocation reads).refusals ≠ c.refusals →
    (c.invoke invocation reads).exchanges = c.exchanges ∧
      (c.invoke invocation reads).writes = c.writes

/-- Only the first mark can hand a frame out. -/
theorem handed_first {request : NativeRequest π} {before after : List (Mark ρ)} {m : Mark ρ}
    (hall : AllJustified request (before ++ m :: after)) (hm : m ≠ .handed)
    (hh : .handed ∈ before ++ m :: after) : .handed ∈ before := by
  rcases List.mem_append.mp hh with h | h
  · exact h
  · rcases List.mem_cons.mp h with h | h
    · exact absurd h.symm hm
    · obtain ⟨l₁, l₂, rfl⟩ := List.append_of_mem h
      have hnil : before ++ m :: l₁ = [] := hall (before ++ m :: l₁) .handed l₂ (by simp)
      simp at hnil

theorem invoke_refused [Inhabited π] {invocation : Invocation π} {reads : DispatchReads}
    (h : (c.invoke invocation reads).refusals ≠ c.refusals) :
    (c.invoke invocation reads).exchanges = c.exchanges ∧
      (c.invoke invocation reads).writes = c.writes := by
  unfold invoke at *
  split at h
  · obtain ⟨ids, -, ⟨rejection, heq⟩ | ⟨request, -, -, -, c₁, hc₁, heq⟩⟩ :=
      dispatch_cases c invocation reads
    · rw [if_pos (by assumption), heq]
      exact ⟨rfl, rfl⟩
    · refine absurd ?_ h
      rw [heq, hc₁]
      unfold register
      split
      · unfold rejectPending NativeClient.mark
        split <;> rfl
      · rfl
  · rename_i hready
    rw [if_neg hready]
    exact ⟨rfl, rfl⟩

theorem no_false_notExecuted [Inhabited π] (h : (client π ρ).Reachable c) : OutcomesHonest c where
  notExecuted := by
    intro id x before error after hx hintent hmarks hout
    obtain ⟨l, hl⟩ := agrees_of_reachable h hx
    have hall : AllJustified x.request x.marks := justified_invariant.run hl.run
    by_contra hnot
    obtain ⟨hhanded, hnone⟩ := not_or.mp hnot
    rw [not_not, hmarks] at hhanded
    rw [hmarks] at hall
    have hbefore := handed_first hall (by simp) hhanded
    have hjust : Justified x.request before (.settled (.rejected (.client error))) :=
      hall before _ after rfl
    rcases hjust hintent hbefore fun r hr hn => hnone ⟨r, hr, hn⟩ with ⟨-, hne⟩ | ⟨-, hu⟩
    · exact hne hout
    · rw [hu] at hout
      cases hout
  unknown := by
    intro id x before error after hx hintent hmarks hbefore hreports hcode
    obtain ⟨l, hl⟩ := agrees_of_reachable h hx
    have hall : AllJustified x.request x.marks := justified_invariant.run hl.run
    have hjust : Justified x.request before (.settled (.rejected (.client error))) :=
      hall before _ after hmarks
    rcases hjust hintent hbefore hreports with ⟨hd, -⟩ | ⟨-, hu⟩
    · exact absurd hd hcode
    · exact hu
  refused := fun _ _ hr => invoke_refused hr

/-! ## Correlation -/

/-- Every response that is decoded or was returned satisfies `R`. -/
structure Returns (R : WireResponse ρ → Prop) (c : NativeClient π ρ) : Prop where
  decoding : ∀ id d, c.decoding.get? id = some d → R d.response
  resolved : ∀ id x r, c.exchanges.get? id = some x → .settled (.resolved r) ∈ x.marks → R r

section Returns

variable {R : WireResponse ρ → Prop} {id : String}

theorem Returns.same (h : Returns R c) (hd : c'.decoding = c.decoding)
    (hx : c'.exchanges = c.exchanges) : Returns R c' :=
  ⟨hd ▸ h.decoding, hx ▸ h.resolved⟩

theorem Returns.mark (h : Returns R c) {m : Mark ρ}
    (hm : ∀ r, m = .settled (.resolved r) → R r) : Returns R (c.mark id m) := by
  unfold NativeClient.mark
  split
  · exact h
  · rename_i x hx
    refine ⟨h.decoding, fun id' x' r hx' hr => ?_⟩
    rw [OrderedMap.get?_set] at hx'
    split at hx'
    · cases hx'
      rcases List.mem_append.mp hr with hr | hr
      · exact h.resolved id x r hx hr
      · exact hm r (List.mem_singleton.mp hr).symm
    · exact h.resolved id' x' r hx' hr

theorem Returns.rejectPending (h : Returns R c) (r : Rejection) :
    Returns R (c.rejectPending id r) := by
  refine Returns.mark ?_ fun _ heq => by cases heq
  exact h.same rfl rfl

theorem Returns.awaitLate (h : Returns R c) (phase : NativeWritePhase) :
    Returns R (c.awaitLate id phase) := by
  unfold NativeClient.awaitLate
  split
  · exact h
  · exact h.same rfl rfl

theorem Returns.cancelPending (h : Returns R c) (reason : CancellationReason)
    (cancelId : String) : Returns R (c.cancelPending id reason cancelId) := by
  unfold NativeClient.cancelPending
  split
  · exact h
  · simp only
    split
    · exact (h.awaitLate _).rejectPending _
    · exact ((h.awaitLate _).rejectPending _).same rfl rfl

theorem Returns.leave (h : Returns R c) (state : NativeClientState) :
    Returns R (c.leave state) := by
  unfold NativeClient.leave rejectOpening
  split
  · exact h.same rfl rfl
  · exact h.same rfl rfl

theorem Returns.foldl {f : NativeClient π ρ → String × Pending π → NativeClient π ρ}
    (hf : ∀ c e, Returns R c → Returns R (f c e)) :
    ∀ (entries : List (String × Pending π)) (c : NativeClient π ρ), Returns R c →
      Returns R (entries.foldl f c)
  | [], _, h => h
  | e :: es, c, h => Returns.foldl hf es (f c e) (hf c e h)

theorem Returns.protocolFailure (h : Returns R c) : Returns R c.protocolFailure :=
  Returns.foldl (fun _ _ h => h.rejectPending _) _ _ ((h.leave _).same rfl rfl)

theorem Returns.exchange (h : Returns R c) {request : NativeRequest π} {marks : List (Mark ρ)}
    (hmarks : ∀ r, Mark.settled (.resolved r) ∉ marks) (id' : String) (x : Exchange π ρ)
    (r : WireResponse ρ) (hx : (c.exchanges.set id ⟨request, marks⟩).get? id' = some x)
    (hr : .settled (.resolved r) ∈ x.marks) : R r := by
  rw [OrderedMap.get?_set] at hx
  split at hx
  · cases hx
    exact absurd hr (hmarks r)
  · exact h.resolved id' x r hx hr

theorem Returns.dispatch [Inhabited π] (h : Returns R c) (invocation : Invocation π)
    (reads : DispatchReads) : Returns R (c.dispatch invocation reads).1 := by
  obtain ⟨ids, -, ⟨rejection, heq⟩ | ⟨request, -, -, -, c₁, rfl, heq⟩⟩ :=
    dispatch_cases c invocation reads
  · rw [heq]
    exact h.same rfl rfl
  · rw [heq]
    unfold register
    split
    · refine Returns.rejectPending ?_ _
      refine ⟨h.decoding, ?_⟩
      exact h.exchange (by simp)
    · refine ⟨h.decoding, ?_⟩
      exact h.exchange (by simp)

theorem Returns.step [Inhabited π] {e : Event π ρ} (h : Returns R c)
    (hR : ∀ frame r, e = .receive frame → frame.content = some r → R r)
    (hs : next c e = some c') : Returns R c' := by
  cases e with
  | connect timeoutMs =>
    cases hs
    unfold beginConnect
    split
    · exact h
    · exact h.same rfl rfl
  | openSettled ok =>
    cases hs
    unfold openSettled
    split
    · exact h.same rfl rfl
    · exact h
  | openTimedOut =>
    cases hs
    unfold openTimedOut
    split
    · exact h.leave _
    · exact h
  | resumeConnect remaining reads =>
    simp only [next, resumeConnect] at hs
    split at hs
    · have hd := h.dispatch (handshake default remaining) reads
      split at hs
      · split at hs
        all_goals
          rename_i heq
          rw [heq] at hd
          cases hs
          exact hd.same rfl rfl
      · cases hs
        exact h.same rfl rfl
    · split at hs
      all_goals
        cases hs
        exact h.same rfl rfl
    · cases hs
      exact h.same rfl rfl
    · cases hs
  | invoke invocation reads =>
    cases hs
    unfold invoke
    split
    · exact h.dispatch invocation reads
    · exact h.same rfl rfl
  | cancel id reason cancelId =>
    cases hs
    exact h.cancelPending reason cancelId
  | writeReported id report =>
    simp only [next, writeReported] at hs
    split at hs
    · cases hs
    · have hmarked : Returns R
          ({ c with writes := c.writes.erase id }.mark id (.reported report)) := by
        refine Returns.mark ?_ fun _ heq => by cases heq
        exact h.same rfl rfl
      split at hs
      · cases hs
        unfold writeFailed
        split
        · exact hmarked
        · exact (hmarked.awaitLate _).rejectPending _
      · split at hs
        all_goals
          cases hs
          exact hmarked.same rfl rfl
  | receive frame =>
    cases hs
    unfold receive
    split
    · exact h
    · split
      · exact h.protocolFailure
      · split
        · exact h.protocolFailure
        · rename_i response hcontent
          have hresponse := hR frame response rfl hcontent
          split
          · unfold receiveUnmatched
            split
            · exact h.protocolFailure
            · split
              · have hforgot : Returns R { c with
                    awaitingLateResponseIds := c.awaitingLateResponseIds.erase response.id } :=
                  h.same rfl rfl
                simp only
                split
                · exact hforgot.protocolFailure
                · exact hforgot.mark fun _ heq => by cases heq
              · exact h
          · unfold receiveMatched
            split
            · exact h.protocolFailure
            · split
              · exact h.rejectPending _
              · refine ⟨fun id d hd => ?_, h.resolved⟩
                rw [OrderedMap.get?_set] at hd
                split at hd
                · cases hd
                  exact hresponse
                · exact h.decoding id d hd
  | decoded id enrolments outcome =>
    simp only [next, decoded] at hs
    split at hs
    · cases hs
    · rename_i d hd
      have hdecoded : Returns R { c with decoding := c.decoding.erase id } := by
        refine ⟨fun id' d' hd' => ?_, h.resolved⟩
        rw [OrderedMap.get?_erase] at hd'
        split at hd'
        · cases hd'
        · exact h.decoding id' d' hd'
      split at hs
      · cases hs
        exact hdecoded.rejectPending _
      · cases hs
        refine Returns.mark ?_ fun r heq => ?_
        · exact hdecoded.same rfl rfl
        · cases heq
          exact h.decoding id d hd
  | disconnect =>
    cases hs
    unfold NativeClient.disconnect
    split
    · exact h
    · exact Returns.foldl (fun _ _ h => (h.awaitLate _).rejectPending _) _ _
        ((h.leave _).same rfl rfl)
  | close cancelIds =>
    cases hs
    unfold NativeClient.close
    split
    · exact h
    · exact (Returns.foldl (fun _ _ h => h.cancelPending _ _) _ _ (h.leave _)).same rfl rfl
  | track enrolment =>
    cases hs
    unfold track
    split
    · exact h
    · exact h.same rfl rfl
  | forgetSession sessionId =>
    cases hs
    exact h.same rfl rfl

end Returns

/-- The response came in one of the frames received so far. -/
def Received (events : List (Event π ρ)) (response : WireResponse ρ) : Prop :=
  ∃ frame, .receive frame ∈ events ∧ frame.content = some response

theorem returns_invariant [Inhabited π] :
    (client π ρ).TraceInvariant fun events c => Returns (Received events) c where
  init := by
    rintro c rfl
    exact ⟨(fun _ _ h => nomatch h), fun _ _ _ h => nomatch h⟩
  step := by
    intro events c e c' _ h hs
    have hgrown : Returns (Received (events ++ [e])) c :=
      ⟨fun id d hd => (h.decoding id d hd).imp fun _ hf => ⟨List.mem_append_left _ hf.1, hf.2⟩,
        fun id x r hx hr => (h.resolved id x r hx hr).imp fun _ hf =>
          ⟨List.mem_append_left _ hf.1, hf.2⟩⟩
    refine hgrown.step ?_ hs
    rintro frame r rfl hcontent
    exact ⟨frame, by simp, hcontent⟩

/-- A connection that was left is never entered again. -/
def Left (c : NativeClient π ρ) : Prop := c.state = .disconnected ∨ c.state = .closed

theorem Left.of_state (h : Left c) (hs : c'.state = c.state) : Left c' := by
  unfold Left
  rw [hs]
  exact h

theorem Left.step [Inhabited π] {e : Event π ρ} (h : Left c) (hs : next c e = some c') :
    Left c' := by
  have hidle : c.state ≠ .idle := by rcases h with h | h <;> simp [h]
  have hconnecting : c.state ≠ .connecting := by rcases h with h | h <;> simp [h]
  have hready : c.state ≠ .ready := by rcases h with h | h <;> simp [h]
  cases e with
  | connect timeoutMs =>
    cases hs
    unfold beginConnect
    rw [if_pos (.inl hidle)]
    exact h
  | openSettled ok =>
    cases hs
    unfold openSettled
    split <;> exact h
  | openTimedOut =>
    cases hs
    unfold openTimedOut
    split
    · exact .inl (leave_state _)
    · exact h
  | resumeConnect remaining reads =>
    simp only [next, resumeConnect] at hs
    split at hs
    · rw [if_neg fun hc => hconnecting hc.1] at hs
      cases hs
      exact h
    · rw [if_neg fun hc => hconnecting hc.1] at hs
      cases hs
      exact h
    · cases hs
      have hst : c.state = .disconnected ∨ c.state = .closed := h
      unfold Left
      simp only [if_pos hst]
      exact hst
    · cases hs
  | invoke invocation reads =>
    cases hs
    unfold invoke
    rw [if_neg hready]
    exact h
  | cancel id reason cancelId =>
    cases hs
    exact h.of_state (cancelPending_state _ _)
  | writeReported id report =>
    simp only [next, writeReported] at hs
    split at hs
    · cases hs
    · split at hs
      · cases hs
        unfold writeFailed
        split
        · exact h.of_state (by simp)
        · exact h.of_state (by simp)
      · split at hs
        all_goals
          cases hs
          exact h.of_state (by simp)
  | receive frame =>
    cases hs
    unfold receive receiveUnmatched receiveMatched
    repeat' split
    all_goals first
      | exact h
      | exact .inl protocolFailure_left.1
      | exact h.of_state (by simp)
  | decoded id enrolments outcome =>
    simp only [next, decoded] at hs
    split at hs
    · cases hs
    · split at hs
      all_goals
        cases hs
        exact h.of_state (by simp [commitTracking])
  | disconnect =>
    cases hs
    unfold NativeClient.disconnect
    rw [if_pos h.symm]
    exact h
  | close cancelIds =>
    cases hs
    by_cases hc : c.state = .closed
    · unfold NativeClient.close
      rw [if_pos hc]
      exact h
    · exact .inr (close_left hc cancelIds).1
  | track enrolment =>
    cases hs
    unfold track
    split
    · exact h
    · exact h
  | forgetSession sessionId =>
    cases hs
    exact h

theorem left_stable [Inhabited π] : (client π ρ).Stable Left := fun _ _ _ _ h hs => h.step hs

theorem Left.noPending [Inhabited π] (h : Left c) (hreach : (client π ρ).Reachable c) :
    NoPending c := by
  intro id
  by_contra hsome
  obtain ⟨p, hp⟩ := Option.ne_none_iff_exists'.mp hsome
  rcases h with h | h <;>
    rcases (linked_invariant.reachable hreach).pending id p hp with hs | ⟨hs, -⟩ <;>
    exact nomatch h.symm.trans hs

/-- No frame of a request with this id was handed to the transport. -/
def NeverHanded (c : NativeClient π ρ) (id : String) : Prop :=
  ∀ x, c.exchanges.get? id = some x → .handed ∉ x.marks

/-- A promise is settled once, by the response of its own request, and nothing
is pending once the connection is left. -/
structure SettlesOnce [Inhabited π] (events : List (Event π ρ)) (c : NativeClient π ρ) : Prop where
  once : ∀ id x, c.exchanges.get? id = some x → x.marks.countP isSettled ≤ 1
  gone : ∀ id x s, c.exchanges.get? id = some x → .settled s ∈ x.marks →
    c.pending.get? id = none
  correlated : ∀ id x r, c.exchanges.get? id = some x → .settled (.resolved r) ∈ x.marks →
    x.request.id = id ∧ r.id = id ∧ validateResponseForRequest x.request r = none ∧
      Received events r
  drained : Left c → NoPending c ∧
    ∀ later c', (client π ρ).Exec c later c' → Left c' ∧ NoPending c'
  late : ∀ id x, c.exchanges.get? id = some x → x.marks.countP isLate ≤ 1 ∧
    ∀ before r after, x.marks = before ++ .late r :: after →
      .handed ∈ before ∧ ∃ m ∈ before, LocalRejection m
  unsolicited : c.state ≠ .closed → ∀ frame response, frame.content = some response →
    NeverHanded c response.id → (c.receive frame).state = .disconnected

theorem id_of_valid {request : NativeRequest π} {response : WireResponse ρ}
    (h : validateResponseForRequest request response = none) : response.id = request.id := by
  by_contra hne
  unfold validateResponseForRequest at h
  simp only [ne_eq, Ne.symm hne, not_false_eq_true, if_true] at h
  cases h

/-- A response to a request that was never handed out finds no owner. -/
theorem unsolicited_disconnects [Inhabited π] (h : (client π ρ).Reachable c)
    (hopen : c.state ≠ .closed) {frame : Frame ρ} {response : WireResponse ρ}
    (hcontent : frame.content = some response) (hnever : NeverHanded c response.id) :
    (c.receive frame).state = .disconnected := by
  have hsound := sound_invariant.reachable h response.id
  have hunhanded : ∀ x l, c.exchanges.get? response.id = some x →
      Agrees (view c response.id) response.id x l → l.handed ≠ true := fun x l hx hl hh =>
    hnever x hx ((counted_invariant.run hl.run).handed.mpr hh)
  have hpending : c.pending.get? response.id = none := by
    by_contra hsome
    obtain ⟨p, hp⟩ := Option.ne_none_iff_exists'.mp hsome
    obtain ⟨x, l, hx, hl⟩ := hsound.of_pending hp
    obtain ⟨-, -, -, hh, -⟩ := hl.pending p hp
    exact hunhanded x l hx hl hh
  have hdispatched : c.dispatchedRequests.get? response.id = none := by
    by_contra hsome
    obtain ⟨r, hr⟩ := Option.ne_none_iff_exists'.mp hsome
    obtain ⟨x, l, hx, hl⟩ := hsound.registered fun ha => nomatch ha.dispatched.symm.trans hr
    exact hunhanded x l hx hl (hl.dispatched r hr).2
  unfold receive receiveUnmatched
  rw [if_neg hopen, hcontent]
  simp only [hpending, hdispatched]
  split <;> exact protocolFailure_left.1

theorem client_settles_once [Inhabited π] {events : List (Event π ρ)}
    (h : (client π ρ).Run events c) : SettlesOnce events c where
  once := by
    intro id x hx
    obtain ⟨l, hl⟩ := agrees_of_reachable ⟨events, h⟩ hx
    rw [(counted_invariant.run hl.run).settled]
    split <;> omega
  gone := by
    intro id x s hx hs
    obtain ⟨l, hl⟩ := agrees_of_reachable ⟨events, h⟩ hx
    by_contra hsome
    obtain ⟨p, hp⟩ := Option.ne_none_iff_exists'.mp hsome
    obtain ⟨-, -, hwait, -⟩ := hl.pending p hp
    have hcount := (counted_invariant.run hl.run).settled
    rw [if_pos hwait, List.countP_eq_zero] at hcount
    exact hcount _ hs rfl
  correlated := by
    intro id x r hx hr
    obtain ⟨l, hl⟩ := agrees_of_reachable ⟨events, h⟩ hx
    obtain ⟨before, after, hmarks⟩ := List.append_of_mem hr
    have hvalid : validateResponseForRequest x.request r = none :=
      justified_invariant.run hl.run before _ after hmarks
    exact ⟨hl.requestId, (id_of_valid hvalid).trans hl.requestId, hvalid,
      (returns_invariant.run h).resolved id x r hx hr⟩
  drained := by
    intro hleft
    refine ⟨hleft.noPending ⟨events, h⟩, fun later c' hexec => ?_⟩
    have hleft' := left_stable.exec ⟨events, h⟩ hleft hexec
    exact ⟨hleft', hleft'.noPending (System.Reachable.exec ⟨events, h⟩ hexec)⟩
  late := by
    intro id x hx
    obtain ⟨l, hl⟩ := agrees_of_reachable ⟨events, h⟩ hx
    refine ⟨?_, fun before r after hmarks => justified_invariant.run hl.run before _ after hmarks⟩
    rw [(counted_invariant.run hl.run).lates]
    split <;> omega
  unsolicited := fun hopen _ _ hcontent hnever =>
    unsolicited_disconnects ⟨events, h⟩ hopen hcontent hnever

/-! ## A cancelled mutation -/

def reads (requestId : String) : DispatchReads :=
  ⟨"operation-1", requestId, true, 100, 1, 2, true, 100, 3, by decide⟩

def demoHost : HostDescriptor where
  hostInstanceId := "host-1"
  methods := [⟨"element.press", .mutate, ["host"]⟩]
  maxMessageBytes := 4096

def press : Invocation Unit := ⟨"element.press", .mutate, .host "host-1", (), 1000, none, false⟩

def handshaken : WireResponse Unit := ⟨"request-1", .ok (), none⟩

def pressed : WireResponse Unit := ⟨"request-2", .ok (), some ⟨"operation-1", .executed⟩⟩

/-- Connect, press, give up after the write, and hear of the press later. -/
def demoEvents : List (Event Unit Unit) :=
  [.connect 1000, .openSettled true, .resumeConnect 900 (reads "request-1"),
    .receive ⟨100, some handshaken⟩, .decoded "request-1" [] (.value (some demoHost)),
    .resumeConnect 800 (reads "request-1"), .invoke press (reads "request-2"),
    .writeReported "request-2" (.receipt 100), .cancel "request-2" .caller "cancel-1",
    .receive ⟨100, some pressed⟩]

def demoClient : NativeClient Unit Unit := (System.replay next .initial demoEvents).get (by decide)

theorem demoClient_run : (client Unit Unit).Run demoEvents demoClient :=
  System.run_of_replay (Option.some_get _).symm

theorem cancelled_press_unknown :
    OutcomesHonest demoClient ∧
      (demoClient.exchanges.get? "request-2").map (·.marks.length) = some 4 :=
  ⟨no_false_notExecuted ⟨demoEvents, demoClient_run⟩, by decide⟩

theorem cancelled_press_settles_once :
    SettlesOnce demoEvents demoClient ∧
      (demoClient.exchanges.get? "request-2").map (·.marks.countP isLate) = some 1 :=
  ⟨client_settles_once demoClient_run, by decide⟩

def closedClient : NativeClient Unit Unit :=
  (System.replay next .initial [.close fun _ => "cancel-1"]).get (by decide)

/-- A closed client drops every frame, so an unsolicited response leaves it
closed. -/
theorem closed_ignores_unsolicited :
    ¬ ∀ (events : List (Event Unit Unit)) (c : NativeClient Unit Unit),
      (client Unit Unit).Run events c → ∀ frame response, frame.content = some response →
        NeverHanded c response.id → (c.receive frame).state = .disconnected := by
  intro hall
  have hrun : (client Unit Unit).Run [.close fun _ => "cancel-1"] closedClient :=
    System.run_of_replay (Option.some_get _).symm
  have := hall _ closedClient hrun ⟨100, some pressed⟩ pressed rfl
    (fun x hx => nomatch hx)
  revert this
  decide

end SurfaceLoom.Native.ClientSafety
