import SurfaceLoom.Lib.Checked
import SurfaceLoom.Test.Assertion

/-! # What a passed observation rests on

An observation passes on a fresh envelope that was read and matched within the
deadline, and a wait whose clock stops or goes back ends. -/
namespace SurfaceLoom.Test.AssertionSafety
open SurfaceLoom.Lib.Transition SurfaceLoom.Lib.Checked SurfaceLoom.Test.Assertion

/-! ## Expectations -/

/-- The declaration of an observation that proves an absence. -/
def Proves (observation : Observation) (observedAtMs : ℚ) : Requirement → Prop
  | .barrier id => observation.completeness = some (.barrier id true)
  | .interval requiredFrom requiredTo => ∃ fromMs toMs,
    observation.completeness = some (.interval fromMs toMs true) ∧ fromMs ≤ requiredFrom ∧
      requiredTo ≤ toMs ∧ toMs ≤ observedAtMs

/-- An observation that satisfies an expectation, as the matcher sees its value. -/
def Satisfies (observation : Observation) (observedAtMs : ℚ) (matcher : Match) :
    Expectation → Prop
  | .value _ => (∃ value completeness, observation = .available value completeness) ∧
      matcher = .returned (some true)
  | .negativeValue _ required =>
    (∃ value completeness, observation = .available value completeness) ∧
      matcher = .returned (some true) ∧ Proves observation observedAtMs required
  | .absent required => (∃ completeness, observation = .absent completeness) ∧
      Proves observation observedAtMs required

theorem hasCompleteness_proves {observation : Observation} {required : Requirement} {at_ : ℚ}
    (h : hasCompleteness observation required at_ = true) : Proves observation at_ required := by
  unfold hasCompleteness at h
  split at h
  · rename_i id complete required hcompleteness
    rw [Bool.and_eq_true, beq_iff_eq] at h
    obtain ⟨rfl, rfl⟩ := h
    exact hcompleteness
  · rename_i fromMs toMs complete requiredFrom requiredTo hcompleteness
    simp only [Bool.and_eq_true, decide_eq_true_eq] at h
    obtain ⟨⟨⟨rfl, hfrom⟩, hto⟩, hend⟩ := h
    exact ⟨fromMs, toMs, hcompleteness, hfrom, hto, hend⟩
  · cases h

theorem matchesExpectation_satisfies {expectation : Expectation} {observation : Observation}
    {at_ : ℚ} {matcher : Match}
    (h : matchesExpectation expectation observation at_ matcher = .ok true) :
    observation.valid = true ∧ Satisfies observation at_ matcher expectation := by
  cases observation with
  | unknown reason => cases h
  | readFailed error => cases h
  | available value completeness =>
    refine ⟨rfl, ?_⟩
    simp only [matchesExpectation] at h
    split at h
    · cases h
    · rename_i hproof
      cases expectation with
      | value expected =>
        cases matcher with
        | threw message => cases h
        | returned result =>
          cases result with
          | none => cases h
          | some result =>
            cases h
            exact ⟨⟨value, completeness, rfl⟩, rfl⟩
      | negativeValue expected required =>
        cases matcher with
        | threw message => cases h
        | returned result =>
          cases result with
          | none => cases h
          | some result =>
            cases h
            exact ⟨⟨value, completeness, rfl⟩, rfl,
              hasCompleteness_proves (Bool.of_not_eq_false hproof)⟩
      | absent required => cases h
  | absent completeness =>
    refine ⟨rfl, ?_⟩
    simp only [matchesExpectation] at h
    split at h
    · cases h
    · rename_i hproof
      cases expectation with
      | value expected => cases h
      | negativeValue expected required => cases h
      | absent required =>
        exact ⟨⟨completeness, rfl⟩, hasCompleteness_proves (Bool.of_not_eq_false hproof)⟩

/-! ## Readings -/

/-- A reading that a timer which last read `last` takes. -/
def Ticks (last : ℚ) (sample : Sample) (now : ℚ) : Prop :=
  sample = .number (some now) ∧ last ≤ now

theorem read_ok {t t' : Timer} {sample : Sample} (h : t.read sample = .ok t') :
    ∃ now, Ticks t.last sample now ∧ t' = { t with last := now } := by
  unfold Timer.read at h
  split at h
  · cases h
  · cases h
  · rename_i now
    split at h
    · cases h
    · rename_i hnow
      cases h
      exact ⟨now, ⟨rfl, not_lt.mp hnow⟩, rfl⟩

theorem reread_deadline (t : Timer) (sample : Sample) :
    (t.reread sample).deadlineMs = t.deadlineMs := by
  unfold Timer.reread
  split
  · rfl
  · rename_i hread
    obtain ⟨now, -, rfl⟩ := read_ok hread
    rfl

/-! ## Envelopes -/

/-- The envelope an event brings. -/
def envelope : Event → Option Envelope
  | .readSettled (.returned (.object raw)) .. => some raw
  | _ => none

theorem snapshotted_seen (redact : String → String) (seen : List Nat) (raw : Raw) :
    (snapshotted redact seen raw).seen = seen := by
  unfold snapshotted
  split <;> rfl

theorem observe_seen (redact : String → String) (seen : List Nat) (outcome : ReadOutcome) :
    seen ⊆ (observe redact seen outcome).seen ∧
      ∀ raw, outcome = .returned (.object raw) →
        raw.identity ∈ (observe redact seen outcome).seen := by
  cases outcome with
  | threw message => exact ⟨List.Subset.refl _, fun raw h => nomatch h⟩
  | returned raw =>
    cases raw with
    | primitive =>
      refine ⟨?_, fun raw h => nomatch h⟩
      exact (snapshotted_seen ..).symm ▸ List.Subset.refl _
    | object raw =>
      simp only [observe]
      split
      · rename_i hmem
        refine ⟨List.Subset.refl _, fun raw' h => ?_⟩
        cases h
        exact hmem
      · rw [snapshotted_seen]
        refine ⟨List.subset_append_left _ _, fun raw' h => ?_⟩
        cases h
        exact List.mem_append_right _ (List.mem_singleton_self _)

/-- A read that is neither refused nor failed is of a fresh envelope. -/
theorem observe_valid {redact : String → String} {seen : List Nat} {outcome : ReadOutcome}
    (hinvalid : (observe redact seen outcome).invalid = none)
    (hvalid : (observe redact seen outcome).snapshot.observation.valid = true) :
    ∃ raw, outcome = .returned (.object raw) ∧ raw.identity ∉ seen ∧
      snapshotObservation redact (.object raw) = .ok (observe redact seen outcome).snapshot := by
  cases outcome with
  | threw message => cases hvalid
  | returned raw =>
    cases raw with
    | primitive => cases hinvalid
    | object raw =>
      refine ⟨raw, rfl, ?_⟩
      simp only [observe] at hinvalid ⊢
      by_cases hmem : raw.identity ∈ seen
      · rw [if_pos hmem] at hinvalid
        cases hinvalid
      · rw [if_neg hmem] at hinvalid ⊢
        refine ⟨hmem, ?_⟩
        unfold snapshotted at hinvalid ⊢
        split at hinvalid
        · cases hinvalid
        · rename_i snapshot hsnapshot
          exact hsnapshot

/-! ## What one step does -/

variable {redact : String → String} {s t : Wait} {e : Event}

/-- The envelopes the wait has seen, after an event. -/
def Covers (s : Wait) (e : Event) (t : Wait) : Prop :=
  s.seen ⊆ t.seen ∧ ∀ raw, envelope e = some raw → raw.identity ∈ t.seen

/-- What no step changes. -/
structure Keeps (s : Wait) (e : Event) (t : Wait) : Prop where
  expectation : t.expectation = s.expectation
  deadline : t.timer.deadlineMs = s.timer.deadlineMs
  reads : t.reads = s.reads
  covers : Covers s e t

inductive Does (redact : String → String) (s : Wait) : Event → Wait → Prop
  | ended {e : Event} {t : Wait} (result : Result) : t.stage = .finished result →
      result.status ≠ .passed → Keeps s e t → Does redact s e t
  | polled (now later : Sample) (clock : ℚ) : s.stage = .polling → Ticks s.timer.last now clock →
      clock < s.timer.deadlineMs →
      Does redact s (.poll now later) { s with
        timer := { s.timer with last := clock }
        attempts := s.attempts + 1
        reads := s.reads ++ [clock]
        stage := .reading clock }
  | passed {t : Wait} (startedAt : ℚ) (raw : Envelope) (finishedAt after later : Sample)
      (matcher : Match) (finished matched : ℚ) (snapshot : Snapshot) :
      s.stage = .reading startedAt → Ticks s.timer.last finishedAt finished →
      Ticks finished after matched → finished ≤ s.timer.deadlineMs →
      matched ≤ s.timer.deadlineMs → raw.identity ∉ s.seen →
      snapshotObservation redact (.object raw) = .ok snapshot →
      matchesExpectation s.expectation snapshot.observation finished matcher = .ok true →
      t.stage = .finished (t.result .passed none) →
      t.actual = some ⟨t.attempts, startedAt, some finished, snapshot⟩ →
      Keeps s (.readSettled (.returned (.object raw)) finishedAt matcher after later) t →
      Does redact s (.readSettled (.returned (.object raw)) finishedAt matcher after later) t
  | missed {t : Wait} (startedAt : ℚ) (outcome : ReadOutcome) (finishedAt after later : Sample)
      (matcher : Match) (finished matched : ℚ) : s.stage = .reading startedAt →
      Ticks s.timer.last finishedAt finished → Ticks finished after matched →
      matched < s.timer.deadlineMs → t.timer.last = matched → t.stage = .sleeping matched →
      Keeps s (.readSettled outcome finishedAt matcher after later) t →
      Does redact s (.readSettled outcome finishedAt matcher after later) t
  | woke (before clock : ℚ) (now later : Sample) : s.stage = .sleeping before →
      Ticks s.timer.last now clock → before < clock →
      Does redact s (.slept (.ok ()) now later)
        { s with timer := { s.timer with last := clock }, stage := .polling }

theorem failed_ended (s : Wait) {u : Wait} (phase message : String) (later : Sample)
    (hk : Keeps u e s) : Does redact u e (s.failed phase message later) := by
  refine .ended _ rfl (by simp [Wait.result]) ⟨hk.expectation, ?_, hk.reads, hk.covers⟩
  exact (reread_deadline ..).trans hk.deadline

theorem timedOut_ended (s : Wait) {u : Wait} (hk : Keeps u e s) : Does redact u e s.timedOut :=
  .ended _ rfl (by simp [Wait.result]) ⟨hk.expectation, hk.deadline, hk.reads, hk.covers⟩

theorem covers_of_none (h : envelope e = none) : Covers s e s :=
  ⟨List.Subset.refl _, fun raw hraw => by rw [h] at hraw; cases hraw⟩

theorem Keeps.same (h : envelope e = none) : Keeps s e s := ⟨rfl, rfl, rfl, covers_of_none h⟩

theorem Keeps.clock (h : Keeps s e t) (now : ℚ) :
    Keeps s e { t with timer := { t.timer with last := now } } :=
  ⟨h.expectation, h.deadline, h.reads, h.covers⟩

theorem poll_does (now later : Sample) (hstage : s.stage = .polling) :
    Does redact s (.poll now later) (s.poll now later) := by
  unfold Wait.poll
  split
  · exact failed_ended s _ _ later (.same rfl)
  · rename_i timer hread
    obtain ⟨clock, hticks, rfl⟩ := read_ok hread
    dsimp only
    split
    · exact timedOut_ended _ (Keeps.clock (.same rfl) clock)
    · rename_i hearly
      exact .polled now later clock hstage hticks (not_le.mp hearly)

theorem slept_does {before : ℚ} (outcome : Except String Unit) (now later : Sample)
    (hstage : s.stage = .sleeping before) :
    Does redact s (.slept outcome now later) (s.slept before outcome now later) := by
  unfold Wait.slept
  split
  · exact failed_ended s _ _ later (.same rfl)
  · split
    · exact failed_ended s _ _ later (.same rfl)
    · rename_i timer hread
      obtain ⟨clock, hticks, rfl⟩ := read_ok hread
      split
      · exact failed_ended _ _ _ later (Keeps.clock (.same rfl) clock)
      · rename_i hadvanced
        exact .woke before clock now later hstage hticks (not_le.mp hadvanced)

theorem record_keeps (startedAt : ℚ) (finishedAt : Option ℚ) (outcome : ReadOutcome)
    (finishedSample after later : Sample) (matcher : Match) :
    Keeps s (.readSettled outcome finishedSample matcher after later)
      (s.record startedAt finishedAt (observe redact s.seen outcome)) := by
  obtain ⟨hsub, hmem⟩ := observe_seen redact s.seen outcome
  refine ⟨rfl, rfl, rfl, hsub, fun raw hraw => hmem raw ?_⟩
  cases outcome with
  | threw message => cases hraw
  | returned raw' =>
    cases raw' with
    | primitive => cases hraw
    | object raw' =>
      cases hraw
      rfl

/-- The matcher decides on an attempt that was read in time. -/
theorem afterRead_does {u : Wait} {startedAt finished : ℚ} (outcome : ReadOutcome)
    (finishedAt after later : Sample) (matcher : Match) (hstage : u.stage = .reading startedAt)
    (hticks : Ticks u.timer.last finishedAt finished) (htime : finished ≤ u.timer.deadlineMs)
    (hinvalid : (observe redact u.seen outcome).invalid = none)
    (hk : Keeps u (.readSettled outcome finishedAt matcher after later) s)
    (hlast : s.timer.last = finished)
    (hactual : s.actual = some ⟨s.attempts, startedAt, some finished,
      (observe redact u.seen outcome).snapshot⟩) :
    Does redact u (.readSettled outcome finishedAt matcher after later)
      (s.afterRead (observe redact u.seen outcome).snapshot.observation finished matcher after
        later) := by
  unfold Wait.afterRead
  split
  · exact failed_ended s _ _ later hk
  · rename_i matched hmatched
    split
    · exact failed_ended s _ _ later hk
    · rename_i timer hread
      obtain ⟨clock, hafter, rfl⟩ := read_ok hread
      rw [hlast] at hafter
      dsimp only
      split
      · exact timedOut_ended _ (hk.clock clock)
      · rename_i hlate
        rw [not_lt, hk.deadline] at hlate
        rw [hk.expectation] at hmatched
        split
        · rename_i htrue
          rw [htrue] at hmatched
          obtain ⟨hvalid, -⟩ := matchesExpectation_satisfies hmatched
          obtain ⟨raw, rfl, hfresh, hsnapshot⟩ := observe_valid hinvalid hvalid
          exact .passed startedAt raw finishedAt after later matcher finished clock _ hstage hticks
            hafter htime hlate hfresh hsnapshot hmatched rfl hactual
            ⟨hk.expectation, hk.deadline, hk.reads, hk.covers⟩
        · split
          · exact timedOut_ended _ (hk.clock clock)
          · rename_i hearly
            rw [ge_iff_le, not_le, hk.deadline] at hearly
            exact .missed startedAt outcome finishedAt after later matcher finished clock hstage
              hticks hafter hearly rfl rfl ⟨hk.expectation, hk.deadline, hk.reads, hk.covers⟩

theorem readSettled_does {startedAt : ℚ} (outcome : ReadOutcome) (finishedAt after later : Sample)
    (matcher : Match) (hstage : s.stage = .reading startedAt) :
    Does redact s (.readSettled outcome finishedAt matcher after later)
      (s.readSettled redact startedAt outcome finishedAt matcher after later) := by
  unfold Wait.readSettled
  dsimp only
  split
  · have hk : Keeps s (.readSettled outcome finishedAt matcher after later)
        (s.record startedAt none (observe redact s.seen outcome)) :=
      record_keeps startedAt none outcome finishedAt after later matcher
    exact .ended _ rfl (by simp [Wait.result]) ⟨hk.expectation, hk.deadline, hk.reads, hk.covers⟩
  · rename_i timer hread
    obtain ⟨finished, hticks, rfl⟩ := read_ok hread
    have hk : Keeps s (.readSettled outcome finishedAt matcher after later)
        (Wait.record { s with timer := { s.timer with last := finished } } startedAt
          (some finished) (observe redact s.seen outcome)) :=
      ⟨rfl, rfl, rfl, (record_keeps (s := s) startedAt (some finished) outcome finishedAt after
        later matcher).covers⟩
    split
    · exact .ended _ rfl (by simp [Wait.result])
        ⟨hk.expectation, hk.deadline, hk.reads, hk.covers⟩
    · rename_i hinvalid
      split
      · exact timedOut_ended _ hk
      · rename_i hlate
        exact afterRead_does outcome finishedAt after later matcher hstage hticks
          (not_lt.mp hlate) hinvalid hk rfl rfl

theorem next_does (h : next redact s e = some t) : Does redact s e t := by
  cases e with
  | poll now later =>
    simp only [next] at h
    split at h
    · rename_i hstage
      cases h
      exact poll_does now later hstage
    · cases h
  | readSettled outcome finishedAt matcher after later =>
    simp only [next] at h
    split at h
    · rename_i startedAt hstage
      cases h
      exact readSettled_does outcome finishedAt after later matcher hstage
    · cases h
  | slept outcome now later =>
    simp only [next] at h
    split at h
    · rename_i before hstage
      cases h
      exact slept_does outcome now later hstage
    · cases h

/-! ## Every run -/

/-- What holds of a wait after its events. -/
structure Sound (expectation : Expectation) (as : List Event) (s : Wait) : Prop where
  expectation : s.expectation = expectation
  reads : ∀ r ∈ s.reads, r < s.timer.deadlineMs
  reading : ∀ startedAt, s.stage = .reading startedAt → startedAt < s.timer.deadlineMs
  sleeping : ∀ before, s.stage = .sleeping before → before = s.timer.last
  seen : ∀ e ∈ as, ∀ raw, envelope e = some raw → raw.identity ∈ s.seen

variable {options : Options} {first : Sample} {as : List Event}

theorem finiteNumber_ok {value : Option ℚ} {allowed : ℚ → Bool} {message : String} {q : ℚ}
    (h : finiteNumber value allowed message = .ok q) : value = some q ∧ allowed q = true := by
  unfold finiteNumber at h
  split at h
  · split at h
    · rename_i hallowed
      cases h
      exact ⟨rfl, hallowed⟩
    · cases h
  · cases h

/-- A timer that was built starts at the first reading. -/
theorem newTimer_spec {timeoutMs pollIntervalMs : Option ℚ} {timer : Timer}
    (h : newTimer timeoutMs pollIntervalMs first = .ok timer) : ∃ timeout poll now,
      timeoutMs = some timeout ∧ 0 ≤ timeout ∧ pollIntervalMs = some poll ∧ 0 < poll ∧
        first = .number (some now) ∧ timer = ⟨now, now + timeout, poll, now⟩ := by
  obtain ⟨timeout, htimeout, hrest⟩ := bind_ok.mp h
  obtain ⟨poll, hpoll, hfirst⟩ := bind_ok.mp hrest
  obtain ⟨rfl, hpositive⟩ := finiteNumber_ok htimeout
  obtain ⟨rfl, hinterval⟩ := finiteNumber_ok hpoll
  cases first with
  | threw message => cases hfirst
  | number value =>
    cases value with
    | none => cases hfirst
    | some now =>
      exact ⟨timeout, poll, now, rfl, by simpa using hpositive, rfl, by simpa using hinterval, rfl,
        (Except.ok.inj hfirst).symm⟩

theorem start_spec (h : start redact options first = .ok s) :
    newTimer options.timeoutMs options.pollIntervalMs first = .ok s.timer ∧
      s.expectation = options.expectation ∧ s.reads = [] ∧ s.seen = [] ∧ s.stage = .polling := by
  unfold start at h
  obtain ⟨-, -, h⟩ := bind_ok.mp h
  obtain ⟨-, -, h⟩ := bind_ok.mp h
  obtain ⟨-, -, h⟩ := bind_ok.mp h
  split at h
  · cases h
  · obtain ⟨-, -, h⟩ := bind_ok.mp h
    obtain ⟨timer, htimer, h⟩ := bind_ok.mp h
    cases h
    exact ⟨htimer, rfl, rfl, rfl, rfl⟩

theorem Sound.start (h : start redact options first = .ok s) :
    Sound options.expectation [] s := by
  obtain ⟨-, hexpectation, hreads, -, hstage⟩ := start_spec h
  refine ⟨hexpectation, ?_, fun _ hs => ?_, fun _ hs => ?_, fun e he => ?_⟩
  · simp [hreads]
  · rw [hstage] at hs
    cases hs
  · rw [hstage] at hs
    cases hs
  · cases he

theorem Sound.seen_next {expectation : Expectation} (hs : Sound expectation as s)
    (hc : Covers s e t) : ∀ e' ∈ as ++ [e], ∀ raw, envelope e' = some raw →
      raw.identity ∈ t.seen := by
  intro e' he' raw hraw
  rcases List.mem_append.mp he' with hold | hnew
  · exact hc.1 (hs.seen e' hold raw hraw)
  · rw [List.mem_singleton.mp hnew] at hraw
    exact hc.2 raw hraw

theorem Sound.next {expectation : Expectation} (hs : Sound expectation as s)
    (h : next redact s e = some t) : Sound expectation (as ++ [e]) t := by
  have hreads (hk : Keeps s e t) : ∀ r ∈ t.reads, r < t.timer.deadlineMs := by
    rw [hk.reads, hk.deadline]
    exact hs.reads
  cases next_does h with
  | ended result hstage hstatus hk =>
    refine ⟨hk.expectation.trans hs.expectation, hreads hk, fun _ hr => ?_, fun _ hr => ?_,
      hs.seen_next hk.covers⟩
    · cases hstage.symm.trans hr
    · cases hstage.symm.trans hr
  | polled now later clock hstage hticks hearly =>
    refine ⟨hs.expectation, fun r hr => ?_, fun _ hr => ?_, fun _ hr => (nomatch hr),
      hs.seen_next (t := s) (covers_of_none rfl)⟩
    · rcases List.mem_append.mp hr with hold | hnew
      · exact hs.reads r hold
      · rw [List.mem_singleton.mp hnew]
        exact hearly
    · cases hr
      exact hearly
  | passed startedAt raw finishedAt after later matcher finished matched snapshot _ _ _ _ _ _ _ _
      hstage _ hk =>
    refine ⟨hk.expectation.trans hs.expectation, hreads hk, fun _ hr => ?_, fun _ hr => ?_,
      hs.seen_next hk.covers⟩
    · cases hstage.symm.trans hr
    · cases hstage.symm.trans hr
  | missed startedAt outcome finishedAt after later matcher finished matched _ _ _ _ hlast hstage
      hk =>
    refine ⟨hk.expectation.trans hs.expectation, hreads hk, fun _ hr => ?_, fun _ hr => ?_,
      hs.seen_next hk.covers⟩
    · cases hstage.symm.trans hr
    · cases hstage.symm.trans hr
      exact hlast.symm
  | woke before clock now later hstage hticks hadvanced =>
    exact ⟨hs.expectation, hs.reads, fun _ hr => (nomatch hr), fun _ hr => (nomatch hr),
      hs.seen_next (t := s) (covers_of_none rfl)⟩

theorem run_sound (h : (observation redact options first).Run as s) :
    Sound options.expectation as s := by
  have hinvariant :
      (observation redact options first).TraceInvariant (Sound options.expectation) :=
    { init := fun _ hs => .start hs
      step := fun _ _ _ _ _ hs hnext => hs.next hnext }
  exact hinvariant.run h

theorem next_deadline (h : next redact s e = some t) : t.timer.deadlineMs = s.timer.deadlineMs := by
  cases next_does h with
  | ended result hstage hstatus hk => exact hk.deadline
  | polled now later clock hstage hticks hearly => rfl
  | passed _ _ _ _ _ _ _ _ _ _ _ _ _ _ _ _ _ _ _ hk => exact hk.deadline
  | missed _ _ _ _ _ _ _ _ _ _ _ _ _ _ hk => exact hk.deadline
  | woke before clock now later hstage hticks hadvanced => rfl

/-- The deadline of a wait is the one it was started with. -/
theorem run_deadline {startedAtMs timeoutMs : ℚ} (htimeout : options.timeoutMs = some timeoutMs)
    (h : (observation redact options (.number (some startedAtMs))).Run as s) :
    s.timer.deadlineMs = startedAtMs + timeoutMs := by
  have hinvariant : (observation redact options (.number (some startedAtMs))).Invariant
      fun s => s.timer.deadlineMs = startedAtMs + timeoutMs := by
    refine ⟨fun s hs => ?_, fun s e t _ hs hnext => (next_deadline hnext).trans hs⟩
    obtain ⟨timeout, poll, now, hsome, -, -, -, hnow, htimer⟩ := newTimer_spec (start_spec hs).1
    cases hnow
    rw [htimer, Option.some.inj (htimeout.symm.trans hsome)]
  exact hinvariant.reachable ⟨as, h⟩

/-! ### What a result says -/

/-- A result has the deadline of its wait, and a failure unless it passed. -/
def Told (s : Wait) : Prop := ∀ result, s.stage = .finished result →
  (result.status = .passed ∨ result.failure.isSome) ∧ result.deadlineMs = s.timer.deadlineMs

theorem finish_told (s : Wait) {status : Status} {failure : Option AssertionFailure}
    (h : status = .passed ∨ failure.isSome) : Told (s.finish status failure) := by
  intro result hresult
  cases hresult
  exact ⟨h, rfl⟩

theorem poll_told (s : Wait) (now later : Sample) : Told (s.poll now later) := by
  unfold Wait.poll
  split
  · exact finish_told _ (.inr rfl)
  · dsimp only
    split
    · exact finish_told _ (.inr rfl)
    · intro result hresult
      cases hresult

theorem afterRead_told (s : Wait) (observation : Observation) (finishedAtMs : ℚ) (matcher : Match)
    (after later : Sample) : Told (s.afterRead observation finishedAtMs matcher after later) := by
  unfold Wait.afterRead
  split
  · exact finish_told _ (.inr rfl)
  · split
    · exact finish_told _ (.inr rfl)
    · dsimp only
      split
      · exact finish_told _ (.inr rfl)
      · split
        · exact finish_told _ (.inl rfl)
        · split
          · exact finish_told _ (.inr rfl)
          · intro result hresult
            cases hresult

theorem readSettled_told (s : Wait) (startedAtMs : ℚ) (outcome : ReadOutcome)
    (finishedAt : Sample) (matcher : Match) (after later : Sample) :
    Told (s.readSettled redact startedAtMs outcome finishedAt matcher after later) := by
  unfold Wait.readSettled
  dsimp only
  split
  · exact finish_told _ (.inr rfl)
  · split
    · exact finish_told _ (.inr rfl)
    · split
      · exact finish_told _ (.inr rfl)
      · exact afterRead_told _ _ _ matcher after later

theorem slept_told (s : Wait) (before : ℚ) (outcome : Except String Unit) (now later : Sample) :
    Told (s.slept before outcome now later) := by
  unfold Wait.slept
  split
  · exact finish_told _ (.inr rfl)
  · split
    · exact finish_told _ (.inr rfl)
    · split
      · exact finish_told _ (.inr rfl)
      · intro result hresult
        cases hresult

theorem next_told (h : next redact s e = some t) : Told t := by
  cases e with
  | poll now later =>
    simp only [next] at h
    split at h
    · cases h
      exact poll_told s now later
    · cases h
  | readSettled outcome finishedAt matcher after later =>
    simp only [next] at h
    split at h
    · cases h
      exact readSettled_told s _ outcome finishedAt matcher after later
    · cases h
  | slept outcome now later =>
    simp only [next] at h
    split at h
    · cases h
      exact slept_told s _ outcome now later
    · cases h

theorem run_told (h : (observation redact options first).Run as s) : Told s := by
  obtain ⟨s₀, hinit, hexec⟩ := h
  cases hexec with
  | nil =>
    intro result hresult
    cases (start_spec hinit).2.2.2.2.symm.trans hresult
  | snoc _ hstep => exact next_told hstep

/-! ## Clocks that stop or go back -/

/-- The readings of an event the loop goes on with. -/
def samples : Event → List Sample
  | .poll now _ => [now]
  | .readSettled _ finishedAt _ after _ => [finishedAt, after]
  | .slept _ now _ => [now]

/-- A reading that does not pass `last`. -/
def Stalled (last : ℚ) (sample : Sample) : Prop := ∀ now, sample = .number (some now) → now ≤ last

/-- A reading before `last`, or none. -/
def Backwards (last : ℚ) (sample : Sample) : Prop := ∀ now, sample = .number (some now) → now < last

def Ended (s : Wait) : Prop := ∃ result, s.stage = .finished result

/-- The steps a wait takes at most when its clock no longer advances. -/
def rank (s : Wait) : Nat :=
  match s.stage with
  | .polling => 3
  | .reading _ => 2
  | .sleeping _ => 1
  | .finished _ => 0

theorem ended_of_rank (h : rank s = 0) : Ended s := by
  unfold rank at h
  split at h
  · cases h
  · cases h
  · cases h
  · rename_i result hstage
    exact ⟨result, hstage⟩

theorem rank_le (s : Wait) : rank s ≤ 3 := by
  unfold rank
  split <;> omega

theorem rank_pos (h : next redact s e = some t) : 0 < rank s := by
  unfold rank
  split
  · omega
  · omega
  · omega
  · rename_i result hstage
    exfalso
    cases e <;> simp [next, hstage] at h

/-- With a clock that stands still, each step brings the end nearer. -/
theorem rank_next {expectation : Expectation} {last : ℚ} (hs : Sound expectation as s)
    (h : next redact s e = some t) (hlast : last ≤ s.timer.last)
    (hstalled : ∀ x ∈ samples e, Stalled last x) :
    rank t < rank s ∧ (rank t ≠ 0 → last ≤ t.timer.last) := by
  have hpos := rank_pos h
  cases next_does h with
  | ended result hstage hstatus hk =>
    have hzero : rank t = 0 := by simp [rank, hstage]
    exact ⟨by omega, fun hne => absurd hzero hne⟩
  | polled now later clock hstage hticks hearly =>
    refine ⟨by simp [rank, hstage], fun _ => hlast.trans hticks.2⟩
  | passed startedAt raw finishedAt after later matcher finished matched snapshot _ _ _ _ _ _ _ _
      hstage _ hk =>
    have hzero : rank t = 0 := by simp [rank, hstage]
    exact ⟨by omega, fun hne => absurd hzero hne⟩
  | missed startedAt outcome finishedAt after later matcher finished matched hreading hread hafter
      _ hclock hstage hk =>
    refine ⟨by simp [rank, hstage, hreading], fun _ => ?_⟩
    rw [hclock]
    exact hlast.trans (hread.2.trans hafter.2)
  | woke before clock now later hstage hticks hadvanced =>
    have hstill : clock ≤ last := hstalled now (List.mem_singleton_self _) clock hticks.1
    rw [hs.sleeping before hstage] at hadvanced
    exact absurd (hlast.trans_lt hadvanced) (not_lt.mpr hstill)

theorem exec_stalled {last : ℚ} (hrun : (observation redact options first).Run as s)
    (hlast : last ≤ s.timer.last) {more : List Event}
    (hexec : (observation redact options first).Exec s more t)
    (hstalled : ∀ e ∈ more, ∀ x ∈ samples e, Stalled last x) :
    more.length + rank t ≤ rank s ∧ (rank t ≠ 0 → last ≤ t.timer.last) := by
  induction hexec with
  | nil => exact ⟨by simp, fun _ => hlast⟩
  | @snoc u v more e hmore hstep ih =>
    obtain ⟨hlength, hclock⟩ := ih fun e he => hstalled e (List.mem_append_left _ he)
    have hsound := run_sound (System.Run.exec hrun hmore)
    have hne : rank u ≠ 0 := (rank_pos hstep).ne'
    obtain ⟨hrank, hclock'⟩ := rank_next hsound hstep (hclock hne)
      (hstalled e (List.mem_append_right _ (List.mem_singleton_self _)))
    rw [List.length_append, List.length_singleton]
    exact ⟨by omega, hclock'⟩

/-- A reading that goes back ends the wait. -/
theorem next_backwards (h : next redact s e = some t) {x : Sample} (hx : x ∈ samples e)
    (hback : Backwards s.timer.last x) :
    ∃ result, t.stage = .finished result ∧ result.status ≠ .passed := by
  have hnot {sample : Sample} {clock : ℚ} (hb : Backwards s.timer.last sample)
      (hticks : Ticks s.timer.last sample clock) : False :=
    absurd hticks.2 (not_le.mpr (hb clock hticks.1))
  have hread {finishedAt after : Sample} {finished matched : ℚ} (hx : x ∈ [finishedAt, after])
      (hfirst : Ticks s.timer.last finishedAt finished) (hsecond : Ticks finished after matched) :
      False := by
    rcases List.mem_cons.mp hx with rfl | hx
    · exact hnot hback hfirst
    · rw [List.mem_singleton.mp hx] at hback
      exact hnot hback ⟨hsecond.1, hfirst.2.trans hsecond.2⟩
  cases next_does h with
  | ended result hstage hstatus hk => exact ⟨result, hstage, hstatus⟩
  | polled now later clock hstage hticks hearly =>
    cases List.mem_singleton.mp hx
    exact (hnot hback hticks).elim
  | passed startedAt raw finishedAt after later matcher finished matched snapshot hreading hfirst
      hsecond =>
    exact (hread hx hfirst hsecond).elim
  | missed startedAt outcome finishedAt after later matcher finished matched hreading hfirst
      hsecond =>
    exact (hread hx hfirst hsecond).elim
  | woke before clock now later hstage hticks hadvanced =>
    cases List.mem_singleton.mp hx
    exact (hnot hback hticks).elim

/-! ## What a wait promises -/

/-- The last event of a wait that passed, and the state it came in. -/
structure Backed (redact : String → String) (options : Options) (first : Sample)
    (as : List Event) (result : Result) : Prop where
  backed : ∃ before v startedAt raw finished matched matcher later snapshot,
    as = before ++ [.readSettled (.returned (.object raw)) (.number (some finished)) matcher
        (.number (some matched)) later] ∧
      (observation redact options first).Run before v ∧ v.stage = .reading startedAt ∧
      startedAt < result.deadlineMs ∧ finished ≤ matched ∧ matched ≤ result.deadlineMs ∧
      (∀ e ∈ before, ∀ raw', envelope e = some raw' → raw'.identity ≠ raw.identity) ∧
      snapshotObservation redact (.object raw) = .ok snapshot ∧
      result.actual = some ⟨result.attempts, startedAt, some finished, snapshot⟩ ∧
      Satisfies snapshot.observation finished matcher options.expectation

structure Promises (redact : String → String) (options : Options) (first : Sample)
    (as : List Event) (s : Wait) : Prop where
  passed : ∀ result, s.stage = .finished result → result.status = .passed →
    Backed redact options first as result
  reads : ∀ r ∈ s.reads, r < s.timer.deadlineMs
  /-- A clock that does not advance ends the wait after three steps at most. -/
  stalled : ∀ more t, (observation redact options first).Exec s more t →
    (∀ e ∈ more, ∀ x ∈ samples e, Stalled s.timer.last x) →
      more.length ≤ 3 ∧ (more.length = 3 → Ended t)
  backwards : ∀ e t, next redact s e = some t → (∃ x ∈ samples e, Backwards s.timer.last x) →
    ∃ result, t.stage = .finished result ∧ result.status ≠ .passed
  /-- Only the reader and the sleeper keep a wait waiting. -/
  live : Ended s ∨ (∀ now later, ∃ t, next redact s (.poll now later) = some t) ∨
    (∀ outcome finishedAt matcher after later, ∃ t,
      next redact s (.readSettled outcome finishedAt matcher after later) = some t) ∨
    ∀ outcome now later, ∃ t, next redact s (.slept outcome now later) = some t

theorem next_live (s : Wait) : Ended s ∨ (∀ now later, ∃ t, next redact s (.poll now later) = some t) ∨
    (∀ outcome finishedAt matcher after later, ∃ t,
      next redact s (.readSettled outcome finishedAt matcher after later) = some t) ∨
    ∀ outcome now later, ∃ t, next redact s (.slept outcome now later) = some t := by
  cases hstage : s.stage with
  | polling => exact .inr (.inl fun now later => ⟨s.poll now later, by simp [next, hstage]⟩)
  | reading startedAt => exact .inr (.inr (.inl fun _ _ _ _ _ =>
    ⟨_, by simp only [next, hstage]; rfl⟩))
  | sleeping before => exact .inr (.inr (.inr fun _ _ _ => ⟨_, by simp only [next, hstage]; rfl⟩))
  | finished result => exact .inl ⟨result, hstage⟩

theorem run_backed (h : (observation redact options first).Run as s) {result : Result}
    (hstage : s.stage = .finished result) (hpassed : result.status = .passed) :
    Backed redact options first as result := by
  obtain ⟨s₀, hinit, hexec⟩ := h
  cases hexec with
  | nil =>
    cases (start_spec hinit).2.2.2.2.symm.trans hstage
  | @snoc v _ before e hbefore hstep =>
    have hrun : (observation redact options first).Run before v := ⟨s₀, hinit, hbefore⟩
    have hsound := run_sound hrun
    cases next_does hstep with
    | ended result' hstage' hstatus hk =>
      cases hstage.symm.trans hstage'
      exact absurd hpassed hstatus
    | polled now later clock => cases hstage
    | missed startedAt outcome finishedAt after later matcher finished matched _ _ _ _ _ hstage' =>
      cases hstage.symm.trans hstage'
    | woke before clock now later => cases hstage
    | passed startedAt raw finishedAt after later matcher finished matched snapshot hreading hfirst
        hsecond htime hlate hfresh hsnapshot hmatches hstage' hactual hk =>
      cases hstage.symm.trans hstage'
      cases hfirst.1
      cases hsecond.1
      refine ⟨before, v, startedAt, raw, finished, matched, matcher, later, snapshot, rfl, hrun,
        hreading, ?_, hsecond.2, ?_, fun e he raw' hraw' heq => ?_, hsnapshot, hactual, ?_⟩
      · show startedAt < s.timer.deadlineMs
        rw [hk.deadline]
        exact hsound.reading startedAt hreading
      · show matched ≤ s.timer.deadlineMs
        rw [hk.deadline]
        exact hlate
      · exact hfresh (heq ▸ hsound.seen e he raw' hraw')
      · rw [hsound.expectation] at hmatches
        exact (matchesExpectation_satisfies hmatches).2

theorem observation_promises (redact : String → String) (options : Options) (first : Sample)
    (as : List Event) (s : Wait) (h : (observation redact options first).Run as s) :
    Promises redact options first as s where
  passed _ hstage hpassed := run_backed h hstage hpassed
  reads := (run_sound h).reads
  stalled more t hexec hstalled := by
    obtain ⟨hlength, -⟩ := exec_stalled h le_rfl hexec hstalled
    have hrank := rank_le s
    exact ⟨by omega, fun hthree => ended_of_rank (by omega)⟩
  backwards e t hnext hback := by
    obtain ⟨x, hx, hb⟩ := hback
    exact next_backwards hnext hx hb
  live := next_live s

/-! ## An absence that is observed -/

def absentOptions : Options :=
  ⟨.absent (.interval 0 10), some 100, some 50, some "criterion-1", []⟩

def absentEnvelope : Envelope where
  identity := 1
  evidenceIds := .ok none
  state := .ok (some (.string "absent"))
  value := .ok none
  reason := .ok none
  completeness := .ok (some (.object (.ok (some (.string "interval"))) (.ok (some (.bool true)))
    (.ok none) (.ok (some (.number 0))) (.ok (some (.number 12)))))
  error := .error "The envelope has no error."

def absentEvents : List Event :=
  [.poll (.number (some 5)) (.number none),
    .readSettled (.returned (.object absentEnvelope)) (.number (some 20)) (.returned none)
      (.number (some 21)) (.number none)]

def clockAt (now : ℚ) : Sample := .number (some now)

/-- The state after some events, if the options are valid. -/
def after (as : List Event) : Option Wait :=
  (start id absentOptions (clockAt 0)).toOption.bind fun s => System.replay (next id) s as

def passed (s : Wait) : Bool :=
  match s.stage with
  | .finished result => result.status = .passed
  | _ => false

theorem absentEvents_passed : (after absentEvents).any passed = true := by decide +kernel

theorem absent_promises : ∃ s, passed s = true ∧
    Promises id absentOptions (clockAt 0) absentEvents s := by
  obtain ⟨s, hs, hpassed⟩ := (Option.any_eq_true _ _).mp absentEvents_passed
  obtain ⟨s₀, hstart, hreplay⟩ := Option.bind_eq_some_iff.mp hs
  have hinit : start id absentOptions (clockAt 0) = .ok s₀ := by
    cases hresult : start id absentOptions (clockAt 0) with
    | error message => simp [hresult, Except.toOption] at hstart
    | ok s₁ => simpa [hresult, Except.toOption] using hstart
  exact ⟨s, hpassed, observation_promises id absentOptions (clockAt 0) absentEvents s
    ⟨s₀, hinit, System.exec_of_steps (fun _ _ _ h => h) absentEvents s₀ s hreplay⟩⟩

end SurfaceLoom.Test.AssertionSafety
