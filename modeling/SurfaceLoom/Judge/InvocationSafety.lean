import SurfaceLoom.Judge.Invocation

/-! # A judge's answer is timely and supported

A classification comes from an answer that arrived, and was validated, before the
deadline and with the signal quiet; it is supported by the request. -/
namespace SurfaceLoom.Judge.InvocationSafety
open SurfaceLoom.Lib.Checked SurfaceLoom.Lib.Transition SurfaceLoom.Judge.Data
open SurfaceLoom.Judge.Request SurfaceLoom.Judge.Outcome SurfaceLoom.Judge.Invocation

variable {c : Invoked} {start s s' : Call}

/-! ## Times -/

/-- The invocation was aborted. -/
def Aborted (c : Invoked) (s : Call) : Prop := c.signalled = true ∧ s.aborted = true

theorem currentStop_none {aborted : Bool} {now : Int} (h : currentStop c aborted now = none) :
    ¬ (c.signalled = true ∧ aborted = true) ∧ now < c.deadlineAt := by
  unfold currentStop at h
  split at h
  · cases h
  · rename_i hquiet
    split at h
    · cases h
    · rename_i hearly
      exact ⟨fun hboth => hquiet (by rw [hboth.1, hboth.2]; rfl), Int.lt_of_not_ge hearly⟩

/-- The step at which a value comes from the provider. -/
def Arrives (value : JsData) (now : Int) : Event → Prop
  | .returned value' now' | .fulfilled value' now' => value' = value ∧ now' = now
  | _ => False

/-- The value came before the deadline, in a state in which the call was not aborted. -/
def Arrived (c : Invoked) (start : Call) (events : List Event) (value : JsData) : Prop :=
  ∃ before arrival after, ∃ now : Int, ∃ t, events = before ++ arrival :: after ∧ Arrives value now arrival ∧
    (judging c start).Run before t ∧ ¬ Aborted c t ∧ now < c.deadlineAt

theorem Arrived.mono {events : List Event} {value : JsData} (h : Arrived c start events value)
    (event : Event) : Arrived c start (events ++ [event]) value := by
  obtain ⟨before, arrival, after, now, t, rfl, harrives, hrun, hquiet, hearly⟩ := h
  refine ⟨before, arrival, after ++ [event], now, t, ?_, harrives, hrun, hquiet, hearly⟩
  rw [List.append_assoc, List.cons_append]

theorem Arrived.last {events : List Event} {event : Event} {value : JsData} {now : Int}
    (hrun : (judging c start).Run events s) (hevent : Arrives value now event)
    (hstop : currentStop c s.aborted now = none) :
    Arrived c start (events ++ [event]) value := by
  obtain ⟨hquiet, hearly⟩ := currentStop_none hstop
  exact ⟨events, event, [], now, s, rfl, hevent, hrun, hquiet, hearly⟩

/-- The outcome is what the validation made of a value that had arrived, before the
deadline and in a state in which the call was not aborted. -/
def Validated (c : Invoked) (start : Call) (events : List Event) (outcome : JudgeOutcome) : Prop :=
  ∃ before after, ∃ now now' : Int, ∃ value t, events = before ++ .resume now now' :: after ∧
    (judging c start).Run before t ∧ ¬ Aborted c t ∧ now < c.deadlineAt ∧ now' < c.deadlineAt ∧
    Arrived c start before value ∧ normalizeProviderOutcome value c.request = .ok outcome

theorem Validated.mono {events : List Event} {outcome : JudgeOutcome}
    (h : Validated c start events outcome) (event : Event) :
    Validated c start (events ++ [event]) outcome := by
  obtain ⟨before, after, now, now', value, t, rfl, hrest⟩ := h
  refine ⟨before, after ++ [event], now, now', value, t, ?_, hrest⟩
  rw [List.append_assoc, List.cons_append]

/-! ## What the continuation concludes -/

/-- The one kind of outcome a caller acts on. -/
def IsClassified : JudgeOutcome → Prop
  | .classified _ _ _ => True
  | .insufficient _ _ | .providerFailure _ _ => False

theorem stopOutcome_not_classified (reason : StopReason) : ¬ IsClassified (stopOutcome reason) := by
  cases reason <;> exact id

theorem validated_classified {aborted : Bool} {now : Int} {value : JsData} {invalid : String}
    (h : IsClassified (validated c aborted now value invalid)) :
    currentStop c aborted now = none ∧
      normalizeProviderOutcome value c.request = .ok (validated c aborted now value invalid) := by
  unfold validated at h ⊢
  split
  · rename_i reason hreason
    rw [hreason] at h
    exact absurd h (stopOutcome_not_classified reason)
  · rename_i outcome hstop houtcome
    exact ⟨hstop, houtcome⟩
  · rename_i hstop herror
    rw [hstop, herror] at h
    exact False.elim h

/-- An error is never reported as a classification. -/
theorem errorCandidate_failure {kind retryable providerMetadata : JsData} {outcome : JudgeOutcome}
    (h : normalizeProviderOutcome (errorCandidate kind retryable providerMetadata) c.request =
      .ok outcome) : ¬ IsClassified outcome := by
  obtain ⟨baseline, -, h⟩ := bind_ok.mp h
  obtain ⟨copy, hcopy, h⟩ := bind_ok.mp h
  rw [sanitizeUntrusted_ok hcopy] at h
  obtain ⟨input, hinput, h⟩ := bind_ok.mp h
  cases hinput
  have h : normalizeFailure _ = .ok outcome := h
  obtain ⟨-, -, h⟩ := bind_ok.mp h
  obtain ⟨failure, -, h⟩ := bind_ok.mp h
  obtain ⟨-, -, h⟩ := bind_ok.mp h
  obtain ⟨kind', -, h⟩ := bind_ok.mp h
  split at h
  · obtain ⟨-, -, h⟩ := bind_ok.mp h
    obtain ⟨metadata, -, h⟩ := bind_ok.mp h
    cases h
    exact id
  · cases h

theorem conclude_classified {aborted : Bool} {now now' : Int} {result : RaceResult}
    (h : IsClassified (conclude c aborted now now' result)) :
    ∃ value, result = .value value ∧ currentStop c aborted now = none ∧
      currentStop c aborted now' = none ∧
      normalizeProviderOutcome value c.request = .ok (conclude c aborted now now' result) := by
  cases result with
  | stop reason => exact absurd h (stopOutcome_not_classified reason)
  | error error =>
    cases error with
    | other => exact False.elim h
    | providerError kind retryable providerMetadata =>
      exact absurd h (errorCandidate_failure (validated_classified h).2)
  | value value =>
    simp only [conclude] at h ⊢
    cases hstop : currentStop c aborted now with
    | some reason =>
      rw [hstop] at h
      exact absurd h (stopOutcome_not_classified reason)
    | none =>
      rw [hstop] at h
      obtain ⟨hstop', houtcome⟩ := validated_classified h
      exact ⟨value, rfl, rfl, hstop', houtcome⟩

/-! ## What a step can do -/

/-- The provider moves or comes with a result, the signal is aborted unheard or the
timer set again, something settles the race, or the call ends. -/
inductive Moves (c : Invoked) (s : Call) : Event → Call → Prop
  | provider {event : Event} (provider : ProviderCall) : provider ≠ .settled →
      (∀ value, provider ≠ .finished (.value value)) → Moves c s event { s with provider }
  | finish {event : Event} (result : RaceResult) (now : Int) :
      (∀ value, result = .value value → Arrives value now event) →
      Moves c s event (s.finish c result now)
  | quiet {event : Event} (aborted : Bool) : Moves c s event { s with aborted }
  | wins {event : Event} (t : Call) (result : RaceResult) : t.race = s.race → t.stage = s.stage →
      (∀ value, t.provider = .finished (.value value) → s.provider = .finished (.value value)) →
      (∀ value, result = .value value → s.provider = .finished (.value value)) →
      Moves c s event (t.win result)
  | resume (now now' : Int) (result : RaceResult) : s.stage = .racing → s.race = some result →
      Moves c s (.resume now now') { s with
        timer := false
        listening := false
        stage := .resolved (conclude c s.aborted now now' result) }

theorem next_moves {event : Event} (h : next c s event = some s') : Moves c s event s' := by
  cases event with
  | dispatch now =>
    simp only [next] at h
    split at h
    · cases h
      exact .provider _ nofun nofun
    · cases h
      exact .provider _ nofun nofun
    · cases h
  | returned value now =>
    simp only [next] at h
    split at h
    · cases h
      refine .finish _ _ fun value' hvalue => ?_
      cases hvalue
      exact ⟨rfl, rfl⟩
    · cases h
  | pending =>
    simp only [next] at h
    split at h
    · cases h
      exact .provider _ nofun nofun
    · cases h
  | threw error now =>
    simp only [next] at h
    split at h
    · cases h
      exact .finish _ _ nofun
    · cases h
  | fulfilled value now =>
    simp only [next] at h
    split at h
    · cases h
      refine .finish _ _ fun value' hvalue => ?_
      cases hvalue
      exact ⟨rfl, rfl⟩
    · cases h
  | rejected error now =>
    simp only [next] at h
    split at h
    · cases h
      exact .finish _ _ nofun
    · cases h
  | settle =>
    simp only [next] at h
    split at h
    · rename_i result hfinished
      cases h
      exact .wins { s with provider := .settled } result rfl rfl nofun fun _ hvalue => hvalue ▸ hfinished
    · cases h
  | abort heard =>
    simp only [next] at h
    split at h
    · cases h
      exact .wins { s with aborted := true, listening := false } _ rfl rfl (fun _ h => h) nofun
    · cases h
      exact .quiet true
  | timer now =>
    simp only [next] at h
    split at h
    · cases h
    split at h
    · cases h
    split at h
    · cases h
      exact .quiet s.aborted
    · cases h
      exact .wins { s with timer := false } _ rfl rfl (fun _ h => h) nofun
  | resume now now' =>
    simp only [next] at h
    split at h
    · cases h
    · rename_i result hstage hrace _
      cases h
      exact .resume now now' result hstage hrace
    · cases h

/-! ## What is known of the answer -/

theorem win_race {result : RaceResult} {value : JsData}
    (h : (s.win result).race = some (.value value)) :
    s.race = some (.value value) ∨ result = .value value := by
  unfold Call.win at h
  cases hrace : s.race with
  | none =>
    rw [hrace] at h
    exact .inr (Option.some.inj h)
  | some first =>
    rw [hrace] at h
    exact .inl h

theorem win_isSome (s : Call) (result : RaceResult) : (s.win result).race.isSome = true := by
  unfold Call.win
  cases s.race <;> rfl

theorem finish_value {result : RaceResult} {now : Int} {value : JsData}
    (h : (s.finish c result now).provider = .finished (.value value)) :
    result = .value value ∧ currentStop c s.aborted now = none := by
  unfold Call.finish at h
  cases hstop : currentStop c s.aborted now with
  | some reason =>
    rw [hstop] at h
    cases h
  | none =>
    rw [hstop] at h
    exact ⟨ProviderCall.finished.inj h, rfl⟩

/-- A value on its way through the race has arrived in time, and a classification comes
from one that has. -/
structure Known (c : Invoked) (start : Call) (events : List Event) (s : Call) : Prop where
  finished : ∀ value, s.provider = .finished (.value value) → Arrived c start events value
  raced : ∀ value, s.race = some (.value value) → Arrived c start events value
  resolved : ∀ outcome, s.stage = .resolved outcome → IsClassified outcome →
    Validated c start events outcome

theorem Known.next {events : List Event} {event : Event} (h : Known c start events s)
    (hrun : (judging c start).Run events s) (hstep : next c s event = some s') :
    Known c start (events ++ [event]) s' := by
  have hfinished : ∀ value, s.provider = .finished (.value value) →
      Arrived c start (events ++ [event]) value := fun value hvalue => (h.finished value hvalue).mono event
  have hraced : ∀ value, s.race = some (.value value) →
      Arrived c start (events ++ [event]) value := fun value hvalue => (h.raced value hvalue).mono event
  have hresolved : ∀ outcome, s.stage = .resolved outcome → IsClassified outcome →
      Validated c start (events ++ [event]) outcome :=
    fun outcome houtcome hclassified => (h.resolved outcome houtcome hclassified).mono event
  cases next_moves hstep with
  | provider provider hopen hvalue =>
    exact ⟨fun value heq => absurd heq (hvalue value), hraced, hresolved⟩
  | finish result now harrives =>
    refine ⟨fun value hvalue => ?_, hraced, hresolved⟩
    obtain ⟨hresult, hstop⟩ := finish_value hvalue
    exact .last hrun (harrives value hresult) hstop
  | quiet aborted => exact ⟨hfinished, hraced, hresolved⟩
  | wins t result hrace hstage hprovider hresult =>
    refine ⟨fun value hvalue => hfinished value (hprovider value hvalue), fun value hvalue => ?_,
      fun outcome houtcome => hresolved outcome (hstage ▸ houtcome)⟩
    rcases win_race hvalue with hold | hnew
    · exact hraced value (hrace ▸ hold)
    · exact hfinished value (hresult value hnew)
  | resume now now' result hstage hrace =>
    refine ⟨hfinished, hraced, fun outcome houtcome hclassified => ?_⟩
    cases houtcome
    obtain ⟨value, rfl, hbefore, hafter, houtcome⟩ := conclude_classified hclassified
    obtain ⟨hquiet, hearly⟩ := currentStop_none hbefore
    obtain ⟨-, hearly'⟩ := currentStop_none hafter
    exact ⟨events, [], now, now', value, s, rfl, hrun, hquiet, hearly, hearly',
      h.raced value hrace, houtcome⟩

/-! ## The race goes on until something settles it -/

/-- As long as nothing has settled the race, the deadline timer is set, the signal is
listened to and the provider's promise is open. -/
structure Waits (c : Invoked) (s : Call) : Prop where
  timer : s.stage = .racing → s.race = none → s.timer = true
  listening : s.stage = .racing → s.race = none → c.signalled = true → s.listening = true
  provider : s.stage = .racing → s.race = none → s.provider ≠ .settled

theorem Waits.next {event : Event} (h : Waits c s) (hstep : next c s event = some s') :
    Waits c s' := by
  cases next_moves hstep with
  | provider provider hopen hvalue => exact ⟨h.timer, h.listening, fun _ _ => hopen⟩
  | finish result now harrives => exact ⟨h.timer, h.listening, fun _ _ => nofun⟩
  | quiet aborted => exact ⟨h.timer, h.listening, h.provider⟩
  | wins t result hrace hstage hprovider hresult =>
    have hnot : (t.win result).race ≠ none := by
      intro hnone
      have hsome := win_isSome t result
      rw [hnone] at hsome
      cases hsome
    exact ⟨fun _ hnone => absurd hnone hnot, fun _ hnone => absurd hnone hnot,
      fun _ hnone => absurd hnone hnot⟩
  | resume now now' result hstage hrace => exact ⟨nofun, nofun, nofun⟩

/-! ## Outcomes -/

theorem stopOutcome_supported {request : JudgeRequest} (reason : StopReason) :
    Supported request (stopOutcome reason) := by
  cases reason <;> trivial

theorem validated_supported (hrequest : normalizeJudgeRequest c.request.toData = .ok c.request)
    {aborted : Bool} {now : Int} {value : JsData} {invalid : String} :
    Supported c.request (validated c aborted now value invalid) := by
  unfold validated
  split
  · exact stopOutcome_supported _
  · rename_i outcome _ houtcome
    exact normalizeProviderOutcome_supported hrequest houtcome
  · trivial

theorem conclude_supported (hrequest : normalizeJudgeRequest c.request.toData = .ok c.request)
    {aborted : Bool} {now now' : Int} {result : RaceResult} :
    Supported c.request (conclude c aborted now now' result) := by
  cases result with
  | stop reason => exact stopOutcome_supported reason
  | error error =>
    cases error with
    | other => trivial
    | providerError kind retryable providerMetadata => exact validated_supported hrequest
  | value value =>
    simp only [conclude]
    split
    · exact stopOutcome_supported _
    · exact validated_supported hrequest

theorem next_supported (hrequest : normalizeJudgeRequest c.request.toData = .ok c.request)
    {event : Event} (h : ∀ outcome, s.stage = .resolved outcome → Supported c.request outcome)
    (hstep : next c s event = some s') :
    ∀ outcome, s'.stage = .resolved outcome → Supported c.request outcome := by
  intro outcome houtcome
  cases next_moves hstep with
  | provider provider hopen hvalue => exact h outcome houtcome
  | finish result now harrives => exact h outcome houtcome
  | quiet aborted => exact h outcome houtcome
  | wins t result hrace hstage hprovider hresult => exact h outcome (hstage ▸ houtcome)
  | resume now now' result hstage hrace =>
    cases houtcome
    exact conclude_supported hrequest

/-- A call that is over keeps its outcome. -/
theorem next_resolved {outcome : JudgeOutcome} (h : s.stage = .resolved outcome) {event : Event}
    (hstep : next c s event = some s') : s'.stage = .resolved outcome := by
  cases next_moves hstep with
  | provider provider hopen hvalue => exact h
  | finish result now harrives => exact h
  | quiet aborted => exact h
  | wins t result hrace hstage hprovider hresult => exact hstage.trans h
  | resume now now' result hstage hrace =>
    rw [hstage] at h
    cases h

/-! ## Before the first `await` -/

/-- The call has an outcome at once, or waits for the provider with everything set. -/
theorem judge_ok {request : JsData} {invocation : InvocationValue} {aborted : Bool} {now now' : Int}
    (h : judge request invocation aborted now now' = .ok (c, start)) :
    normalizeJudgeRequest request = .ok c.request ∧
      snapshotInvocation invocation = .ok ⟨c.deadlineAt, c.signalled⟩ ∧
      start.aborted = aborted ∧ start.race = none ∧
      (∀ value, start.provider ≠ .finished (.value value)) ∧
      ((∃ kind message, start.stage = .resolved (failure kind message)) ∨
        start.stage = .racing ∧ start.provider = .scheduled ∧ start.timer = true ∧
          start.listening = c.signalled) := by
  obtain ⟨snapshot, hsnapshot, h⟩ := bind_ok.mp h
  obtain ⟨normalized, hnormalized, h⟩ := bind_ok.mp h
  obtain ⟨baseline, hbaseline, h⟩ := bind_ok.mp h
  obtain ⟨providerRequest, -, h⟩ := bind_ok.mp h
  rw [normalizeJudgeRequest_again hnormalized] at hbaseline
  cases hbaseline
  dsimp only at h
  split at h
  · rename_i reason _
    cases h
    refine ⟨hnormalized, hsnapshot, rfl, rfl, nofun, .inl ?_⟩
    cases reason <;> exact ⟨_, _, rfl⟩
  · split at h
    · cases h
      exact ⟨hnormalized, hsnapshot, rfl, rfl, nofun, .inl ⟨_, _, rfl⟩⟩
    · cases h
      exact ⟨hnormalized, hsnapshot, rfl, rfl, nofun, .inr ⟨rfl, rfl, rfl, rfl⟩⟩

/-- A call is refused for its invocation or its request and for nothing else. -/
theorem judge_error {request : JsData} {invocation : InvocationValue} {aborted : Bool}
    {now now' : Int} {e : JudgeContractError}
    (h : judge request invocation aborted now now' = .error e) :
    snapshotInvocation invocation = .error e ∨ normalizeJudgeRequest request = .error e := by
  rcases bind_error.mp h with h | ⟨snapshot, -, h⟩
  · exact .inl h
  rcases bind_error.mp h with h | ⟨normalized, hnormalized, h⟩
  · exact .inr h
  have hagain := normalizeJudgeRequest_again hnormalized
  rw [hagain] at h
  rcases bind_error.mp h with h | ⟨baseline, -, h⟩
  · cases h
  rcases bind_error.mp h with h | ⟨providerRequest, -, h⟩
  · cases h
  dsimp only at h
  split at h
  · cases h
  · split at h <;> cases h

/-! ## What a judge promises -/

structure JudgePromises (c : Invoked) (start : Call) (events : List Event) (s : Call) : Prop where
  supported : ∀ outcome, s.stage = .resolved outcome → Supported c.request outcome
  timely : ∀ outcome, s.stage = .resolved outcome → IsClassified outcome →
    Validated c start events outcome
  waits : Waits c s
  expires : ∀ now : Int, now ≥ c.deadlineAt → s.stage = .racing → s.race = none →
    s.provider ≠ .calling → ∃ t, next c s (.timer now) = some t ∧ t.race.isSome = true
  heard : s.stage = .racing → s.race = none → c.signalled = true →
    ∃ t, next c s (.abort true) = some t ∧ t.race.isSome = true
  settles : ∀ result, s.provider = .finished result →
    ∃ t, next c s .settle = some t ∧ t.race.isSome = true
  resumes : s.stage = .racing → s.race.isSome = true → s.provider ≠ .calling → ∀ now now',
    ∃ t outcome, next c s (.resume now now') = some t ∧ t.stage = .resolved outcome
  final : ∀ outcome, s.stage = .resolved outcome → ∀ event t, next c s event = some t →
    t.stage = .resolved outcome

theorem judging_promises {request : JsData} {invocation : InvocationValue} {aborted : Bool}
    {now now' : Int} (h : judge request invocation aborted now now' = .ok (c, start))
    {events : List Event} (hrun : (judging c start).Run events s) : JudgePromises c start events s := by
  obtain ⟨hnormalized, -, -, hrace, hprovider, hstart⟩ := judge_ok h
  have hrequest := normalizeJudgeRequest_again hnormalized
  have hinitial : ∀ outcome, start.stage = .resolved outcome → ∃ kind message,
      outcome = failure kind message := by
    intro outcome houtcome
    rcases hstart with ⟨kind, message, hstage⟩ | ⟨hstage, -⟩
    · rw [hstage] at houtcome
      cases houtcome
      exact ⟨kind, message, rfl⟩
    · rw [hstage] at houtcome
      cases houtcome
  have hknown : (judging c start).TraceInvariant (Known c start) :=
    { init := by
        intro s hs
        cases hs
        refine ⟨fun value hvalue => absurd hvalue (hprovider value), fun value hvalue => ?_,
          fun outcome houtcome hclassified => ?_⟩
        · rw [hrace] at hvalue
          cases hvalue
        · obtain ⟨kind, message, rfl⟩ := hinitial outcome houtcome
          exact False.elim hclassified
      step := fun _ _ _ _ hrun hknown hstep => hknown.next hrun hstep }
  have hwaits : (judging c start).Invariant (Waits c) :=
    { init := by
        intro s hs
        cases hs
        rcases hstart with ⟨kind, message, hstage⟩ | ⟨hstage, hscheduled, htimer, hlistening⟩
        · have hnot : start.stage ≠ .racing := by
            rw [hstage]
            exact nofun
          exact ⟨fun hracing => absurd hracing hnot, fun hracing => absurd hracing hnot,
            fun hracing => absurd hracing hnot⟩
        · refine ⟨fun _ _ => htimer, fun _ _ hsignal => hlistening.trans hsignal, fun _ _ => ?_⟩
          rw [hscheduled]
          exact nofun
      step := fun _ _ _ _ hwaits hstep => hwaits.next hstep }
  have hsupported : (judging c start).Invariant fun s => ∀ outcome, s.stage = .resolved outcome →
      Supported c.request outcome :=
    { init := by
        intro s hs outcome houtcome
        cases hs
        obtain ⟨kind, message, rfl⟩ := hinitial outcome houtcome
        trivial
      step := fun _ _ _ _ hsupported hstep => next_supported hrequest hsupported hstep }
  have hreach : (judging c start).Reachable s := ⟨events, hrun⟩
  have hw := hwaits.reachable hreach
  refine
    { supported := hsupported.reachable hreach
      timely := (hknown.run hrun).resolved
      waits := hw
      expires := fun now hlate hracing hopen hquiet => ?_
      heard := fun hracing hopen hsignal => ?_
      settles := fun result hfinished => ?_
      resumes := fun hracing hsome hquiet now now' => ?_
      final := fun outcome houtcome event t hstep => next_resolved houtcome hstep }
  · have htimer := hw.timer hracing hopen
    have hdue : ¬ (c.deadlineAt - now > 0) := by omega
    refine ⟨({ s with timer := false }).win (.stop .deadlineExceeded), ?_, win_isSome _ _⟩
    cases hprovider : s.provider with
    | calling => exact absurd hprovider hquiet
    | _ => simp only [next, hprovider, htimer, not_true, if_false, hdue]
  · have hlistening := hw.listening hracing hopen hsignal
    refine ⟨({ s with aborted := true, listening := false }).win (.stop .aborted), ?_, win_isSome _ _⟩
    simp only [next, hlistening, Bool.and_true, if_true]
  · refine ⟨({ s with provider := .settled }).win result, ?_, win_isSome _ _⟩
    simp only [next, hfinished]
  · obtain ⟨result, hresult⟩ := Option.isSome_iff_exists.mp hsome
    refine ⟨{ s with
      timer := false
      listening := false
      stage := .resolved (conclude c s.aborted now now' result) }, _, ?_, rfl⟩
    cases hprovider : s.provider with
    | calling => exact absurd hprovider hquiet
    | _ => simp only [next, hprovider, hracing, hresult]

end SurfaceLoom.Judge.InvocationSafety
