import SurfaceLoom.Judge.InvocationSafety

/-! # A routed judge call

`classify` asks the candidates of a route one after the other, each through `judge`, and
goes on only after a failure a fallback is meant for. -/
namespace SurfaceLoom.Judge.Router
open SurfaceLoom.Lib.Checked SurfaceLoom.Lib.Transition SurfaceLoom.Judge.Data
open SurfaceLoom.Judge.Request SurfaceLoom.Judge.Outcome SurfaceLoom.Judge.Invocation
open SurfaceLoom.Judge.InvocationSafety

inductive JudgeProfileProvider
  | openaiCompatible
  | anthropic
  | registered
  deriving DecidableEq

structure PreparedCandidate where
  profileId : String
  providerKind : JudgeProfileProvider
  model : Option String
  providerId : Option String
  deriving DecidableEq

inductive Disposition
  | selected
  | fallback
  | failed
  deriving DecidableEq

structure JudgeRoutingAttempt where
  candidate : PreparedCandidate
  disposition : Disposition
  failureKind : Option ProviderFailureKind
  deriving DecidableEq

structure RoutedJudgeResult where
  routeId : String
  outcome : JudgeOutcome
  attempts : List JudgeRoutingAttempt

inductive RouteError
  | contract (error : JudgeContractError)
  | unknownRoute (id : String)
  | noCandidates (id : String)
  deriving DecidableEq

abbrev Routes := List (String × List PreparedCandidate)

/-- What a routed call was made with, once its arguments are validated. -/
structure Route where
  id : String
  candidates : List PreparedCandidate
  request : JudgeRequest
  invocation : InvocationSnapshot

/-- One candidate's call, from its start. -/
structure RoutedCall where
  invoked : Invoked
  start : Call
  state : Call

/-- The calls of the candidates before the current one are over. -/
structure Routed where
  finished : List RoutedCall
  current : RoutedCall
  attempts : List JudgeRoutingAttempt
  result : Option (Except JudgeContractError RoutedJudgeResult)

def InvocationSnapshot.toValue (snapshot : InvocationSnapshot) : InvocationValue :=
  .object false true (("deadlineAt", some (.data (.number (some snapshot.deadlineAt)))) ::
    if snapshot.signal then [("signal", some .signal)] else [])

def resolveRoute (routes : Routes) (routeId : JsData) :
    Except RouteError (String × List PreparedCandidate) := do
  let id ← (identifier routeId "routeId").mapError .contract
  match routes.find? fun route => route.1 = id with
  | some (_, candidates) => .ok (id, candidates)
  | none => .error (.unknownRoute id)

def Route.judge (r : Route) (aborted : Bool) (now now' : Int) : Contract RoutedCall :=
  (Invocation.judge r.request.toData (InvocationSnapshot.toValue r.invocation) aborted now now').map
    fun call => ⟨call.1, call.2, call.2⟩

/-- The routed call up to its first `await`. -/
def classify (routes : Routes) (routeId request : JsData) (invocation : InvocationValue)
    (aborted : Bool) (now now' : Int) : Except RouteError (Route × Routed) := do
  let (id, candidates) ← resolveRoute routes routeId
  let fixedRequest ← (normalizeJudgeRequest request).mapError .contract
  let fixedInvocation ← (snapshotInvocation invocation).mapError .contract
  let r : Route := ⟨id, candidates, fixedRequest, fixedInvocation⟩
  if candidates = [] then .error (.noCandidates id)
  else do
    let call ← (r.judge aborted now now').mapError .contract
    .ok (r, ⟨[], call, [], none⟩)

def shouldFallback : JudgeOutcome → Bool
  | .providerFailure reported _ =>
    reported.retryable && (reported.kind = .rateLimited || reported.kind = .server)
  | .classified _ _ _ | .insufficient _ _ => false

def failureKind : JudgeOutcome → Option ProviderFailureKind
  | .providerFailure reported _ => some reported.kind
  | .classified _ _ _ | .insufficient _ _ => none

def attempt (candidate : PreparedCandidate) (fallback : Bool) (outcome : JudgeOutcome) :
    JudgeRoutingAttempt where
  candidate
  disposition := if fallback then .fallback
    else if (failureKind outcome).isSome then .failed else .selected
  failureKind := failureKind outcome

inductive RouteEvent
  | call (event : Event)
  | resume (now now' : Int)

/-- The rest of the loop's body, once the current call is over. -/
def Routed.advance (s : Routed) (r : Route) (outcome : JudgeOutcome) (now now' : Int) :
    Option Routed :=
  let index := s.finished.length
  r.candidates[index]?.map fun candidate =>
    let fallback := decide (index + 1 < r.candidates.length) && shouldFallback outcome
    let attempts := s.attempts ++ [attempt candidate fallback outcome]
    if fallback then
      match r.judge s.current.state.aborted now now' with
      | .ok call => { s with finished := s.finished ++ [s.current], current := call, attempts }
      | .error error => { s with attempts, result := some (.error error) }
    else { s with attempts, result := some (.ok ⟨r.id, outcome, attempts⟩) }

def next (r : Route) (s : Routed) : RouteEvent → Option Routed
  | .call event => (Invocation.next s.current.invoked s.current.state event).map fun state =>
    { s with current := { s.current with state } }
  | .resume now now' =>
    match s.result, s.current.state.stage with
    | none, .resolved outcome => s.advance r outcome now now'
    | _, _ => none

def routing (r : Route) (start : Routed) : System Routed RouteEvent := .ofMachine start (next r)

/-! ## The calls of a route -/

/-- The call is a run of `judge` on the request and the invocation of the route. -/
def Judged (r : Route) (call : RoutedCall) : Prop :=
  ∃ (aborted : Bool) (now now' : Int), ∃ events,
    Invocation.judge r.request.toData (InvocationSnapshot.toValue r.invocation) aborted now now' =
      .ok (call.invoked, call.start) ∧
    (judging call.invoked call.start).Run events call.state

/-- The call ended in a failure a fallback is meant for. -/
def EndsRetryable (call : RoutedCall) : Prop :=
  ∃ reported metadata, call.state.stage = .resolved (.providerFailure reported metadata) ∧
    reported.retryable = true ∧ (reported.kind = .rateLimited ∨ reported.kind = .server)

theorem shouldFallback_iff {outcome : JudgeOutcome} : shouldFallback outcome = true ↔
    ∃ reported metadata, outcome = .providerFailure reported metadata ∧ reported.retryable = true ∧
      (reported.kind = .rateLimited ∨ reported.kind = .server) := by
  cases outcome with
  | providerFailure reported metadata =>
    simp only [shouldFallback, Bool.and_eq_true, Bool.or_eq_true, decide_eq_true_eq]
    exact ⟨fun h => ⟨reported, metadata, rfl, h⟩, fun ⟨_, _, heq, h⟩ => by cases heq; exact h⟩
  | classified label confidence support => exact ⟨nofun, fun ⟨_, _, heq, _⟩ => nomatch heq⟩
  | insufficient reason support => exact ⟨nofun, fun ⟨_, _, heq, _⟩ => nomatch heq⟩

theorem routeJudge_judged {r : Route} {aborted : Bool} {now now' : Int} {call : RoutedCall}
    (h : r.judge aborted now now' = .ok call) : Judged r call := by
  obtain ⟨⟨c, start⟩, hjudge, rfl⟩ := map_ok.mp h
  exact ⟨aborted, now, now', [], hjudge, .init rfl⟩

theorem Judged.next {r : Route} {call : RoutedCall} (h : Judged r call) {event : Event} {state : Call}
    (hstep : Invocation.next call.invoked call.state event = some state) :
    Judged r { call with state } := by
  obtain ⟨aborted, now, now', events, hjudge, hrun⟩ := h
  exact ⟨aborted, now, now', events ++ [event], hjudge, hrun.snoc hstep⟩

/-- The route's request and invocation are in normal form. -/
structure Normal (r : Route) : Prop where
  request : normalizeJudgeRequest r.request.toData = .ok r.request
  invocation : snapshotInvocation (InvocationSnapshot.toValue r.invocation) = .ok r.invocation

theorem Normal.judge_ok {r : Route} (h : Normal r) (aborted : Bool) (now now' : Int) :
    ∃ call, r.judge aborted now now' = .ok call := by
  cases hjudge : Invocation.judge r.request.toData (InvocationSnapshot.toValue r.invocation) aborted
      now now' with
  | error e =>
    rcases judge_error hjudge with herror | herror
    · rw [h.invocation] at herror
      cases herror
    · rw [h.request] at herror
      cases herror
  | ok call => exact ⟨⟨call.1, call.2, call.2⟩, by rw [Route.judge, hjudge]; rfl⟩

/-- The calls so far: each is a run of `judge`, those before the current one ended in a
failure a fallback is meant for, and the result is the outcome of the current one. -/
structure Sound (r : Route) (s : Routed) : Prop where
  finished : ∀ call ∈ s.finished, Judged r call ∧ EndsRetryable call
  current : Judged r s.current
  place : s.finished.length < r.candidates.length
  result : ∀ result, s.result = some result → ∃ outcome attempts,
    result = .ok ⟨r.id, outcome, attempts⟩ ∧ s.current.state.stage = .resolved outcome

theorem sound_next {r : Route} (hr : Normal r) {s s' : Routed} (h : Sound r s)
    {event : RouteEvent} (hstep : next r s event = some s') : Sound r s' := by
  cases event with
  | call event =>
    obtain ⟨state, hnext, rfl⟩ := Option.map_eq_some_iff.mp hstep
    refine ⟨h.finished, h.current.next hnext, h.place, fun result hresult => ?_⟩
    obtain ⟨outcome, attempts, heq, hstage⟩ := h.result result hresult
    exact ⟨outcome, attempts, heq, next_resolved hstage hnext⟩
  | resume now now' =>
    simp only [next] at hstep
    split at hstep
    · rename_i outcome hopen hstage
      obtain ⟨candidate, -, hadvance⟩ := Option.map_eq_some_iff.mp hstep
      by_cases hfallback :
          (decide (s.finished.length + 1 < r.candidates.length) && shouldFallback outcome) = true
      · obtain ⟨call, hcall⟩ := hr.judge_ok s.current.state.aborted now now'
        rw [if_pos hfallback, hcall] at hadvance
        subst hadvance
        obtain ⟨hmore, hfallback⟩ := Bool.and_eq_true_iff.mp hfallback
        obtain ⟨reported, metadata, rfl, hretry⟩ := shouldFallback_iff.mp hfallback
        refine ⟨fun call' hmem => ?_, routeJudge_judged hcall, ?_, fun result hresult => ?_⟩
        · rcases List.mem_append.mp hmem with hold | hnew
          · exact h.finished call' hold
          · rw [List.mem_singleton.mp hnew]
            exact ⟨h.current, reported, metadata, hstage, hretry⟩
        · rw [List.length_append, List.length_singleton]
          exact of_decide_eq_true hmore
        · have hresult : s.result = some result := hresult
          rw [hopen] at hresult
          cases hresult
      · rw [if_neg hfallback] at hadvance
        subst hadvance
        refine ⟨h.finished, h.current, h.place, fun result hresult => ?_⟩
        cases hresult
        exact ⟨outcome, _, rfl, hstage⟩
    · cases hstep

/-! ## The invocation of a route -/

theorem snapshotDeadline_ok {value : MemberValue} {n : Nat} (h : snapshotDeadline value = .ok n) :
    n ≤ maxSafeInteger := by
  unfold snapshotDeadline at h
  split at h
  · rename_i q
    split at h
    · rename_i hq
      obtain ⟨hint, hnonneg, hsafe⟩ := hq
      cases h
      rw [Rat.eq_num_of_isInt hint] at hnonneg hsafe
      have hnonneg : 0 ≤ q.num := by exact_mod_cast hnonneg
      have hsafe : q.num ≤ maxSafeInteger := by exact_mod_cast hsafe
      omega
    · cases h
  · cases h

theorem snapshotDeadline_again {n : Nat} (h : n ≤ maxSafeInteger) :
    snapshotDeadline (.data (.number (some n))) = .ok n := by
  have hint : (n : ℚ).isInt = true := by simp [Rat.isInt]
  have hnonneg : (0 : ℚ) ≤ n := by exact_mod_cast Nat.zero_le n
  have hbound : (n : ℚ) ≤ maxSafeInteger := by exact_mod_cast h
  rw [snapshotDeadline, if_pos ⟨hint, hnonneg, hbound⟩, Rat.num_natCast, Int.toNat_natCast]

theorem snapshotInvocation_ok {value : InvocationValue} {snapshot : InvocationSnapshot}
    (h : snapshotInvocation value = .ok snapshot) : snapshot.deadlineAt ≤ maxSafeInteger := by
  unfold snapshotInvocation at h
  split at h
  · cases h
  split at h
  · cases h
  split at h
  · cases h
  split at h
  · cases h
  obtain ⟨deadlineValue, -, h⟩ := bind_ok.mp h
  obtain ⟨deadlineAt, hdeadline, h⟩ := bind_ok.mp h
  obtain ⟨signalValue, -, h⟩ := bind_ok.mp h
  obtain ⟨signal, -, h⟩ := bind_ok.mp h
  cases h
  exact snapshotDeadline_ok hdeadline

/-- A snapshot is snapshotted again as it is. -/
theorem snapshotInvocation_again {value : InvocationValue} {snapshot : InvocationSnapshot}
    (h : snapshotInvocation value = .ok snapshot) :
    snapshotInvocation (InvocationSnapshot.toValue snapshot) = .ok snapshot := by
  have hdeadline := snapshotDeadline_again (snapshotInvocation_ok h)
  obtain ⟨deadlineAt, signal⟩ := snapshot
  cases signal <;>
    exact bind_ok.mpr ⟨_, rfl, bind_ok.mpr ⟨deadlineAt, hdeadline, rfl⟩⟩

/-! ## What a route promises -/

/-- Every call of a route keeps what a judge promises on the route's own request, each but
the last ended in a failure a fallback is meant for, and the outcome of the last is the
route's. -/
structure RoutePromises (r : Route) (s : Routed) : Prop where
  called : s.finished.length < r.candidates.length
  judged : ∀ call ∈ s.finished ++ [s.current], ∃ events,
    (judging call.invoked call.start).Run events call.state ∧
      JudgePromises call.invoked call.start events call.state
  request : ∀ call ∈ s.finished ++ [s.current],
    call.invoked = ⟨r.request, r.invocation.deadlineAt, r.invocation.signal⟩
  fallback : ∀ (i : Nat) call, (s.finished ++ [s.current])[i]? = some call →
    i + 1 < (s.finished ++ [s.current]).length → EndsRetryable call
  result : ∀ result, s.result = some result → ∃ outcome attempts,
    result = .ok ⟨r.id, outcome, attempts⟩ ∧ s.current.state.stage = .resolved outcome
  resumes : s.result = none → ∀ outcome, s.current.state.stage = .resolved outcome →
    ∀ now now', ∃ t, next r s (.resume now now') = some t

theorem Sound.judged {r : Route} {s : Routed} (h : Sound r s) {call : RoutedCall}
    (hmem : call ∈ s.finished ++ [s.current]) : Judged r call := by
  rcases List.mem_append.mp hmem with hold | hnew
  · exact (h.finished call hold).1
  · rw [List.mem_singleton.mp hnew]
    exact h.current

theorem Judged.invoked {r : Route} (hr : Normal r) {call : RoutedCall} (h : Judged r call) :
    call.invoked = ⟨r.request, r.invocation.deadlineAt, r.invocation.signal⟩ := by
  obtain ⟨aborted, now, now', events, hjudge, -⟩ := h
  obtain ⟨hrequest, hinvocation, -⟩ := InvocationSafety.judge_ok hjudge
  rw [hr.request] at hrequest
  rw [hr.invocation] at hinvocation
  obtain ⟨⟨request, deadlineAt, signalled⟩, start, state⟩ := call
  cases hrequest
  rw [Except.ok.inj hinvocation]

theorem Sound.promises {r : Route} (hr : Normal r) {s : Routed} (h : Sound r s) :
    RoutePromises r s := by
  refine
    { called := h.place
      judged := fun call hmem => ?_
      request := fun call hmem => (h.judged hmem).invoked hr
      fallback := fun i call hcall hbefore => ?_
      result := h.result
      resumes := fun hopen outcome hstage now now' => ?_ }
  · obtain ⟨aborted, now, now', events, hjudge, hrun⟩ := h.judged hmem
    exact ⟨events, hrun, judging_promises hjudge hrun⟩
  · rw [List.length_append, List.length_singleton] at hbefore
    rw [List.getElem?_append_left (by omega)] at hcall
    exact (h.finished call (List.mem_of_getElem? hcall)).2
  · have hcandidate := List.getElem?_eq_getElem h.place
    simp only [next, hopen, hstage, Routed.advance, hcandidate, Option.map_some]
    exact ⟨_, rfl⟩

theorem classify_ok {routes : Routes} {routeId request : JsData} {invocation : InvocationValue}
    {aborted : Bool} {now now' : Int} {r : Route} {start : Routed}
    (h : classify routes routeId request invocation aborted now now' = .ok (r, start)) :
    normalizeJudgeRequest request = .ok r.request ∧
      snapshotInvocation invocation = .ok r.invocation ∧ Sound r start := by
  obtain ⟨⟨id, candidates⟩, -, h⟩ := bind_ok.mp h
  obtain ⟨fixedRequest, hrequest, h⟩ := bind_ok.mp h
  obtain ⟨fixedInvocation, hinvocation, h⟩ := bind_ok.mp h
  dsimp only at h
  split at h
  · cases h
  rename_i hsome
  obtain ⟨call, hcall, h⟩ := bind_ok.mp h
  cases h
  refine ⟨mapError_ok.mp hrequest, mapError_ok.mp hinvocation, ?_⟩
  refine ⟨fun call hmem => ?_, routeJudge_judged (mapError_ok.mp hcall), ?_, fun result hresult => ?_⟩
  · cases hmem
  · exact List.length_pos_iff.mpr hsome
  · cases hresult

theorem routing_promises {routes : Routes} {routeId request : JsData}
    {invocation : InvocationValue} {aborted : Bool} {now now' : Int} {r : Route} {start : Routed}
    (h : classify routes routeId request invocation aborted now now' = .ok (r, start))
    {s : Routed} (hreach : (routing r start).Reachable s) : RoutePromises r s := by
  obtain ⟨hrequest, hinvocation, hsound⟩ := classify_ok h
  have hnormal : Normal r :=
    ⟨normalizeJudgeRequest_again hrequest, snapshotInvocation_again hinvocation⟩
  have hinvariant : (routing r start).Invariant (Sound r) :=
    { init := fun s hs => by
        cases hs
        exact hsound
      step := fun _ _ _ _ hsound hstep => sound_next hnormal hsound hstep }
  exact (hinvariant.reachable hreach).promises hnormal

/-- A judge answers a valid request and never fails it, its classifications are timely and
supported, and a route asks its next candidate only behind a failure meant for that. -/
theorem judge_timely_supported (request : JsData) (invocation : InvocationValue) (aborted : Bool)
    (now now' : Int) :
    (∀ e, judge request invocation aborted now now' = .error e →
      snapshotInvocation invocation = .error e ∨ normalizeJudgeRequest request = .error e) ∧
    (∀ c start, judge request invocation aborted now now' = .ok (c, start) →
      normalizeJudgeRequest request = .ok c.request ∧
        snapshotInvocation invocation = .ok ⟨c.deadlineAt, c.signalled⟩ ∧
        ∀ events s, (judging c start).Run events s → JudgePromises c start events s) ∧
    ∀ routes routeId r start,
      classify routes routeId request invocation aborted now now' = .ok (r, start) →
      normalizeJudgeRequest request = .ok r.request ∧
        snapshotInvocation invocation = .ok r.invocation ∧
        ∀ s, (routing r start).Reachable s → RoutePromises r s := by
  refine ⟨fun e h => judge_error h, fun c start h => ?_, fun routes routeId r start h => ?_⟩
  · obtain ⟨hrequest, hinvocation, -⟩ := InvocationSafety.judge_ok h
    exact ⟨hrequest, hinvocation, fun events s hrun => judging_promises h hrun⟩
  · obtain ⟨hrequest, hinvocation, -⟩ := classify_ok h
    exact ⟨hrequest, hinvocation, fun s hreach => routing_promises h hreach⟩

def demoRequest : JsData :=
  JudgeRequest.toData ⟨"run-1", "v1", "Is the button shown?", ["yes", "no"],
    [⟨"e1", "run-1", "artifact-1", .text "the button is shown"⟩]⟩

def demoInvocation : InvocationValue :=
  .object false true [("deadlineAt", some (.data (.number (some 1000)))), ("signal", some .signal)]

def demoAnswer : JsData :=
  .object [("status", .string "classified"), ("label", .string "yes"),
    ("confidence", .number (some 1)), ("reasons", .array [.string "it says so"]),
    ("evidenceRefs", .array [.string "e1"]),
    ("observedFacts", .array [.object [("kind", .string "observed"), ("scope", .string "ui"),
      ("statement", .string "the button is shown"), ("evidenceRefs", .array [.string "e1"])]]),
    ("hypotheses", .array []),
    ("providerMetadata", .object [("provider", .string "demo"), ("model", .string "small")])]

def demoCandidate (id : String) : PreparedCandidate := ⟨id, .registered, none, some id⟩

/-- The first candidate is over its rate limit, the second one answers. -/
def demoEvents : List RouteEvent :=
  [.call (.dispatch 1), .call .pending,
    .call (.rejected (.providerError (.string "rateLimited") (.boolean true) .undefined) 2),
    .call .settle, .call (.resume 3 3), .resume 4 4,
    .call (.dispatch 5), .call (.returned demoAnswer 6), .call .settle, .call (.resume 7 7),
    .resume 8 8]

def demoRoutes : Routes := [("main", [demoCandidate "a", demoCandidate "b"])]

def demoRouted : Except RouteError (Route × Routed) :=
  classify demoRoutes (.string "main") demoRequest demoInvocation false 0 0

/-- How often the calls were made and the label they ended with. -/
def demoSummary (s : Routed) : Nat × Option String :=
  (s.finished.length + 1, match s.result with
    | some (.ok ⟨_, .classified label _ _, _⟩) => some label
    | _ => none)

theorem demo_classified : ∃ r start s, demoRouted = .ok (r, start) ∧
    (routing r start).Reachable s ∧ demoSummary s = (2, some "yes") ∧ RoutePromises r s := by
  have hreplay : (demoRouted.toOption.bind fun routed =>
      (System.replay (next routed.1) routed.2 demoEvents).map demoSummary) =
        some (2, some "yes") := by decide +kernel
  obtain ⟨⟨r, start⟩, hrouted, hreplay⟩ := Option.bind_eq_some_iff.mp hreplay
  obtain ⟨s, hs, hsummary⟩ := Option.map_eq_some_iff.mp hreplay
  have hstart : demoRouted = .ok (r, start) := by
    cases hcase : demoRouted with
    | error e =>
      rw [hcase] at hrouted
      cases hrouted
    | ok routed =>
      rw [hcase] at hrouted
      rw [Option.some.inj hrouted]
  have hreach : (routing r start).Reachable s := System.reachable_of_replay hs
  obtain ⟨-, -, hroute⟩ := judge_timely_supported demoRequest demoInvocation false 0 0
  obtain ⟨-, -, hpromises⟩ := hroute demoRoutes (.string "main") r start hstart
  exact ⟨r, start, s, hstart, hreach, hsummary, hpromises s hreach⟩

end SurfaceLoom.Judge.Router
