import SurfaceLoom.Test.ResourceScope

/-! # The verdict of a resource scope

A failure that a scope once recorded stays the first one, and a scope that shows
`passed` released every resource it owns. Nothing is asked of the user code: it
may close the scope again while its `close` runs. -/
namespace SurfaceLoom.Test.ResourceVerdict
open SurfaceLoom.Lib.Transition SurfaceLoom.Test.ResourceScope

variable {s t : Scope} {e : Event}

/-! ## Failures stay -/

/-- The failures after a step begin with those before it. -/
def Grows (s t : Scope) : Prop := ∃ more, t.failures = s.failures ++ more

theorem Grows.rfl : Grows s s := ⟨[], (List.append_nil _).symm⟩

theorem Grows.of_eq (h : t.failures = s.failures) : Grows s t := ⟨[], by rw [h, List.append_nil]⟩

theorem Grows.trans {u : Scope} (h : Grows s t) (h' : Grows t u) : Grows s u := by
  obtain ⟨more, ht⟩ := h
  obtain ⟨more', hu⟩ := h'
  exact ⟨more ++ more', by rw [hu, ht, List.append_assoc]⟩

theorem Grows.ne_nil (h : Grows s t) (hs : s.failures ≠ []) : t.failures ≠ [] := by
  obtain ⟨more, ht⟩ := h
  rw [ht]
  exact List.append_ne_nil_of_left_ne_nil hs more

/-- What a step that touches no resource and no drain keeps. -/
structure Keeps (s t : Scope) : Prop where
  timeoutMs : t.timeoutMs = s.timeoutMs
  resources : t.resources = s.resources
  drains : t.drains = s.drains
  state : t.state = s.state
  closing : Frame.closing ∈ t.frames → Frame.closing ∈ s.frames
  failures : Grows s t
  tainted : t.tainted = true → s.tainted = true ∨ t.failures ≠ []

theorem rejectMutation_keeps (s : Scope) (phase : String) (code : FailureCode) (message : String)
    (resourceId : Option String) : Keeps s (rejectMutation s phase code message resourceId) :=
  ⟨rfl, rfl, rfl, rfl, id, ⟨_, rfl⟩, fun _ => .inr (by simp [rejectMutation])⟩

theorem rejectClosed_keeps (s : Scope) (phase operation : String) :
    Keeps s (rejectClosed s phase operation) := rejectMutation_keeps ..

theorem Keeps.of_frames {frames : List Frame} {f : Frame} (hframes : s.frames = f :: frames)
    (h : Keeps { s with frames } t) : Keeps s t :=
  ⟨h.timeoutMs, h.resources, h.drains, h.state,
    fun hc => hframes ▸ List.mem_cons_of_mem f (h.closing hc), h.failures, h.tainted⟩

theorem register_keeps (s : Scope) : Keeps s (register s) := by
  unfold register
  split
  · exact rejectClosed_keeps ..
  · exact ⟨rfl, rfl, rfl, rfl, by simp, .rfl, .inl⟩

theorem recordFailure_keeps (s : Scope) (phase : String) : Keeps s (recordFailure s phase) := by
  unfold recordFailure
  split
  · exact rejectClosed_keeps ..
  · exact ⟨rfl, rfl, rfl, rfl, by simp, .rfl, .inl⟩

theorem recordRead_keeps (s : Scope) (phase message : String) :
    Keeps s (recordRead s phase message) := by
  unfold recordRead
  split
  · exact rejectClosed_keeps ..
  · exact ⟨rfl, rfl, rfl, rfl, id, ⟨_, rfl⟩, .inl⟩

/-- A registration is refused, or the scope is open and has a resource more. -/
theorem registerRead_cases (s : Scope) (fields : Except String RegistrationFields) :
    Keeps s (registerRead s fields) ∨ s.state = .open_ ∧ ∃ resource,
      registerRead s fields =
        { s with ids := s.ids ++ [resource.id], resources := s.resources ++ [resource] } := by
  unfold registerRead
  split
  · exact .inl (rejectMutation_keeps ..)
  · rename_i resource _
    split
    · exact .inl (rejectClosed_keeps ..)
    · rename_i hopen
      split
      · exact .inl (rejectMutation_keeps ..)
      · exact .inr ⟨not_ne_iff.mp hopen, resource, rfl⟩

/-- What one step does to the drains. -/
inductive Does (s : Scope) : Event → Scope → Prop
  | keeps {e : Event} {t : Scope} : Keeps s t → Does s e t
  | registered {e : Event} {frames : List Frame} (resource : Resource) :
      s.state = .open_ → s.frames = .registering :: frames →
      Does s e { s with
        frames := frames
        ids := s.ids ++ [resource.id]
        resources := s.resources ++ [resource] }
  | listening (now next : ℚ) :
      Does s (.close now next)
        { s with state := .closing, stopped := true, frames := .closing :: s.frames }
  | closing (now next : ℚ) : Does s (.close now next) (storePromise { s with state := .closing })
  | listened (frames : List Frame) : s.frames = .closing :: frames →
      Does s .listenersDone (storePromise { s with frames })
  | drained {k : Nat} {now : ℚ} {t : Scope} : drainStep s k now = some t → Does s (.drain k now) t
  | answered {k : Nat} {answer : Answer} {now later : ℚ} {t : Scope} :
      (finishWait s k fun resource wait =>
        answered s.timeoutMs resource.id wait.started answer now later) = some t →
      Does s (.answer k answer now later) t
  | timedOut {k : Nat} {t : Scope} :
      (finishWait s k fun resource _ => timedOut resource.id) = some t → Does s (.timeout k) t

theorem close_does (s : Scope) (now next : ℚ) : Does s (.close now next) (close s now next) := by
  unfold close
  split
  · exact .keeps ⟨rfl, rfl, rfl, rfl, id, .rfl, .inl⟩
  · dsimp only
    split
    · exact .listening now next
    · exact .closing now next

theorem next_does (h : next s e = some t) : Does s e t := by
  cases e with
  | register =>
    cases h
    exact .keeps (register_keeps s)
  | recordFailure phase =>
    cases h
    exact .keeps (recordFailure_keeps s phase)
  | close now next =>
    cases h
    exact close_does s now next
  | registerRead fields =>
    simp only [next] at h
    split at h
    · rename_i frames hframes
      cases h
      rcases registerRead_cases { s with frames } fields with hkeeps | ⟨hopen, resource, heq⟩
      · exact .keeps (hkeeps.of_frames hframes)
      · rw [heq]
        exact .registered resource hopen hframes
    · cases h
  | recordRead message =>
    simp only [next] at h
    split at h
    · rename_i phase frames hframes
      cases h
      exact .keeps ((recordRead_keeps _ phase message).of_frames hframes)
    · cases h
  | listenersDone =>
    simp only [next] at h
    split at h
    · rename_i frames hframes
      cases h
      exact .listened frames hframes
    · cases h
  | deadlineTimer now =>
    simp only [next] at h
    split at h
    · cases h
      exact .keeps ⟨rfl, rfl, rfl, rfl, id, .rfl, .inl⟩
    · cases h
  | drain k now =>
    simp only [next] at h
    split at h
    · exact .drained h
    · cases h
  | answer k answer now later =>
    simp only [next] at h
    split at h
    · exact .answered h
    · cases h
  | timeout k =>
    simp only [next] at h
    split at h
    · exact .timedOut h
    · cases h

/-- What a step of a drain does. -/
inductive Drains (s : Scope) (k : Nat) (now : ℚ) : Scope → Prop
  | copies : s.drains[k]? = some .scheduled →
      Drains s k now { s with drains := s.drains.set k (.looping s.resources.reverse) }
  | closes (result : CleanupResult) : s.drains[k]? = some (.looping []) →
      Drains s k now { s with state := .closed, drains := s.drains.set k (.resolved result) }
  | skips (resource : Resource) (todo : List Resource) :
      s.drains[k]? = some (.looping (resource :: todo)) → resource.ownership = .borrowed →
      Drains s k now { record s (.borrowed resource.id) now with
        drains := s.drains.set k (.looping todo) }
  | cleans (resource : Resource) (todo : List Resource) :
      s.drains[k]? = some (.looping (resource :: todo)) →
      Drains s k now { s with
        drains := s.drains.set k (.waiting resource todo ⟨now, none⟩)
        cleaned := s.cleaned ++ [(resource.id, s.outcomes.map Outcome.id)] }
  | records (resource : Resource) (todo : List Resource) (started : ℚ) (outcome : Outcome) :
      s.drains[k]? = some (.waiting resource todo ⟨started, some outcome⟩) →
      Drains s k now { record s outcome now with drains := s.drains.set k (.looping todo) }

theorem drainStep_drains {k : Nat} {now : ℚ} (h : drainStep s k now = some t) :
    Drains s k now t := by
  unfold drainStep at h
  split at h
  · rename_i hstage
    cases h
    exact .copies hstage
  · rename_i hstage
    cases h
    exact .closes _ hstage
  · rename_i resource todo hstage
    split at h
    · rename_i hborrowed
      cases h
      exact .skips resource todo hstage hborrowed
    · cases h
      exact .cleans resource todo hstage
  · rename_i resource todo started outcome hstage
    cases h
    exact .records resource todo started outcome hstage
  · cases h
  · cases h
  · cases h

theorem finishWait_spec {k : Nat} {outcome : Resource → Wait → Outcome}
    (h : finishWait s k outcome = some t) : ∃ resource todo wait,
      s.drains[k]? = some (.waiting resource todo wait) ∧ t = { s with
        drains := s.drains.set k
          (.waiting resource todo (wait.finish (outcome resource wait))) } := by
  unfold finishWait at h
  split at h
  · rename_i resource todo wait hstage
    cases h
    exact ⟨resource, todo, wait, hstage, rfl⟩
  · cases h

theorem record_grows (s : Scope) (outcome : Outcome) (now : ℚ) :
    Grows s (record s outcome now) := ⟨outcome.failure.toList, rfl⟩

theorem next_grows (h : next s e = some t) : Grows s t := by
  cases next_does h with
  | keeps hkeeps => exact hkeeps.failures
  | registered | listening | closing | listened => exact .of_eq rfl
  | drained hdrain =>
    cases drainStep_drains hdrain with
    | copies | closes | cleans => exact .of_eq rfl
    | skips | records => exact ⟨_, rfl⟩
  | answered hwait | timedOut hwait =>
    obtain ⟨resource, todo, wait, -, rfl⟩ := finishWait_spec hwait
    exact .of_eq rfl

theorem exec_grows {timeoutMs deadline : ℚ} {as : List Event}
    (h : (scope timeoutMs deadline).Exec s as t) : Grows s t := by
  induction h with
  | nil => exact .rfl
  | snoc _ hnext ih => exact ih.trans (next_grows hnext)

/-- The event is a registration or a record of a failure that is refused, or
records a failure. -/
def Spoils (s : Scope) : Event → Bool
  | .register | .recordFailure _ => s.state ≠ .open_
  | .registerRead fields =>
    match snapshotResource fields with
    | .error _ => true
    | .ok resource => s.state ≠ .open_ || resource.id ∈ s.ids
  | .recordRead _ => true
  | _ => false

theorem spoils_failures (h : next s e = some t) (hspoils : Spoils s e = true) :
    t.failures ≠ [] := by
  cases e with
  | register =>
    cases h
    simp only [Spoils, decide_eq_true_eq] at hspoils
    simp [register, hspoils, rejectClosed, rejectMutation]
  | recordFailure phase =>
    cases h
    simp only [Spoils, decide_eq_true_eq] at hspoils
    simp [recordFailure, hspoils, rejectClosed, rejectMutation]
  | registerRead fields =>
    simp only [next] at h
    split at h
    · rename_i frames hframes
      cases h
      unfold registerRead
      simp only [Spoils] at hspoils
      split
      · simp [rejectMutation]
      · rename_i resource hresource
        simp only [hresource, Bool.or_eq_true, decide_eq_true_eq] at hspoils
        split
        · simp [rejectClosed, rejectMutation]
        · rename_i hopen
          rw [if_pos (hspoils.resolve_left hopen)]
          simp [rejectMutation]
    · cases h
  | recordRead message =>
    simp only [next] at h
    split at h
    · cases h
      unfold recordRead
      split
      · simp [rejectClosed, rejectMutation]
      · simp
    · cases h
  | close | listenersDone | deadlineTimer | drain | answer | timeout => cases hspoils

/-! ## Released resources -/

/-- The cleanup callback of the resource answered with a released receipt, read
before its timeout. -/
def Released (timeoutMs deadline : ℚ) (as : List Event) (resource : Resource) : Prop :=
  ∃ before k todo started now later after v,
    as = before ++ .answer k (.fulfilled (.ok .released)) now later :: after ∧
      (scope timeoutMs deadline).Run before v ∧
        v.drains[k]? = some (.waiting resource todo ⟨started, none⟩) ∧
          now - started < timeoutMs ∧ later - started < timeoutMs

variable {timeoutMs deadline : ℚ} {as : List Event}

theorem Released.snoc {resource : Resource} (h : Released timeoutMs deadline as resource)
    (e : Event) : Released timeoutMs deadline (as ++ [e]) resource := by
  obtain ⟨before, k, todo, started, now, later, after, v, rfl, hrest⟩ := h
  exact ⟨before, k, todo, started, now, later, after ++ [e], v, by simp, hrest⟩

/-- Each owned resource is still to be cleaned or was released, unless something
failed. -/
def Covered (timeoutMs deadline : ℚ) (as : List Event) (resources : List Resource)
    (failures : List Failure) (todo : List Resource) : Prop :=
  ∀ r ∈ resources, r.ownership = .owned →
    r ∈ todo ∨ Released timeoutMs deadline as r ∨ failures ≠ []

def StageCovered (timeoutMs deadline : ℚ) (as : List Event) (resources : List Resource)
    (failures : List Failure) : DrainStage → Prop
  | .scheduled | .resolved _ => True
  | .looping todo => Covered timeoutMs deadline as resources failures todo
  | .waiting r todo wait =>
    Covered timeoutMs deadline as resources failures (r :: todo) ∧
      ∀ outcome, wait.finished = some outcome →
        outcome.failure ≠ none ∨ Released timeoutMs deadline as r

/-- What holds of a scope after a run. -/
structure Known (timeoutMs deadline : ℚ) (as : List Event) (s : Scope) : Prop where
  timeout : s.timeoutMs = timeoutMs
  begun : s.drains ≠ [] ∨ Frame.closing ∈ s.frames → s.state ≠ .open_
  tainted : s.tainted = true → s.failures ≠ []
  drains : ∀ stage ∈ s.drains, StageCovered timeoutMs deadline as s.resources s.failures stage
  closed : s.state = .closed → Covered timeoutMs deadline as s.resources s.failures []

theorem Covered.next {resources todo : List Resource}
    (h : Covered timeoutMs deadline as resources s.failures todo) (e : Event) (hg : Grows s t) :
    Covered timeoutMs deadline (as ++ [e]) resources t.failures todo := by
  intro r hr howned
  rcases h r hr howned with htodo | hreleased | hfailed
  · exact .inl htodo
  · exact .inr (.inl (hreleased.snoc e))
  · exact .inr (.inr (hg.ne_nil hfailed))

theorem StageCovered.next {resources : List Resource} {stage : DrainStage}
    (h : StageCovered timeoutMs deadline as resources s.failures stage) (e : Event)
    (hg : Grows s t) : StageCovered timeoutMs deadline (as ++ [e]) resources t.failures stage := by
  cases stage with
  | scheduled | resolved => trivial
  | looping todo => exact Covered.next h e hg
  | waiting r todo wait =>
    refine ⟨Covered.next h.1 e hg, fun outcome houtcome => ?_⟩
    exact (h.2 outcome houtcome).imp_right fun hreleased => hreleased.snoc e

theorem Known.create (timeoutMs deadline : ℚ) :
    Known timeoutMs deadline [] (create timeoutMs deadline) where
  timeout := rfl
  begun h := by simp [ResourceScope.create] at h
  tainted h := nomatch h
  drains stage hstage := by simp [ResourceScope.create] at hstage
  closed h := nomatch h

/-- One drain moves to a stage that is covered. -/
theorem Known.drained (h : Known timeoutMs deadline as s) {e : Event} {k : Nat} {stage : DrainStage}
    (hgrows : Grows s t)
    (hstage : StageCovered timeoutMs deadline (as ++ [e]) s.resources t.failures stage) :
    ∀ stage' ∈ s.drains.set k stage,
      StageCovered timeoutMs deadline (as ++ [e]) s.resources t.failures stage' := by
  intro stage' hmem
  rcases List.mem_or_eq_of_mem_set hmem with hold | rfl
  · exact (h.drains stage' hold).next e hgrows
  · exact hstage

theorem Known.keeps (h : Known timeoutMs deadline as s) (e : Event) (hk : Keeps s t) :
    Known timeoutMs deadline (as ++ [e]) t where
  timeout := hk.timeoutMs.trans h.timeout
  begun hbegun := by
    rw [hk.state]
    exact h.begun (hbegun.imp (fun hd => hk.drains ▸ hd) hk.closing)
  tainted ht := by
    rcases hk.tainted ht with hold | hnew
    · exact hk.failures.ne_nil (h.tainted hold)
    · exact hnew
  drains stage hstage := by
    rw [hk.resources]
    exact (h.drains stage (hk.drains ▸ hstage)).next e hk.failures
  closed hclosed := by
    rw [hk.resources]
    exact (h.closed (hk.state ▸ hclosed)).next e hk.failures

theorem Known.stage (h : Known timeoutMs deadline as s) {k : Nat} {stage : DrainStage}
    (hk : s.drains[k]? = some stage) :
    StageCovered timeoutMs deadline as s.resources s.failures stage ∧ s.state ≠ .open_ := by
  have hmem := List.mem_of_getElem? hk
  exact ⟨h.drains stage hmem, h.begun (.inl (List.ne_nil_of_mem hmem))⟩

theorem Known.drainStep (h : Known timeoutMs deadline as s) {k : Nat} {now : ℚ}
    (hstep : drainStep s k now = some t) :
    Known timeoutMs deadline (as ++ [.drain k now]) t := by
  have hcovered {todo : List Resource}
      (hc : Covered timeoutMs deadline as s.resources s.failures todo) :
      Covered timeoutMs deadline (as ++ [.drain k now]) s.resources s.failures todo :=
    hc.next _ .rfl
  cases drainStep_drains hstep with
  | copies hk =>
    refine ⟨h.timeout, fun _ => (h.stage hk).2, h.tainted,
      h.drained .rfl fun r hr _ => .inl (List.mem_reverse.mpr hr), fun hclosed => ?_⟩
    exact hcovered (h.closed hclosed)
  | closes result hk =>
    refine ⟨h.timeout, fun _ hc => (nomatch hc), h.tainted, h.drained .rfl trivial,
      fun _ => ?_⟩
    exact hcovered (h.stage hk).1
  | skips resource todo hk hborrowed =>
    obtain ⟨hlooping, hstate⟩ := h.stage hk
    refine ⟨h.timeout, fun _ => hstate, ?_, h.drained (record_grows s _ now) ?_, ?_⟩
    · simpa [record, Outcome.failure] using h.tainted
    · intro r hr howned
      rcases hlooping r hr howned with hmem | hrest
      · rcases List.mem_cons.mp hmem with rfl | hmem
        · cases hborrowed.symm.trans howned
        · exact .inl hmem
      · exact .inr (hrest.imp (·.snoc _) (record_grows s _ now).ne_nil)
    · exact fun hclosed => (h.closed hclosed).next _ (record_grows s _ now)
  | cleans resource todo hk =>
    obtain ⟨hlooping, hstate⟩ := h.stage hk
    refine ⟨h.timeout, fun _ => hstate, h.tainted, h.drained .rfl ⟨?_, nofun⟩, ?_⟩
    · exact hcovered hlooping
    · exact fun hclosed => hcovered (h.closed hclosed)
  | records resource todo started outcome hk =>
    obtain ⟨⟨hwaiting, hfinished⟩, hstate⟩ := h.stage hk
    have hgrows := record_grows s outcome now
    refine ⟨h.timeout, fun _ => hstate, fun htainted => ?_,
      h.drained (record_grows s _ now) ?_, ?_⟩
    · rcases (Bool.or_eq_true ..).mp htainted with hold | hnew
      · exact hgrows.ne_nil (h.tainted hold)
      · obtain ⟨failure, hfailure⟩ := Option.isSome_iff_exists.mp hnew
        simp [record, hfailure]
    · intro r hr howned
      rcases hwaiting r hr howned with hmem | hrest
      · rcases List.mem_cons.mp hmem with rfl | hmem
        · rcases hfinished outcome rfl with hfailed | hreleased
          · obtain ⟨failure, hfailure⟩ := Option.ne_none_iff_exists'.mp hfailed
            exact .inr (.inr (by simp [record, hfailure]))
          · exact .inr (.inl (hreleased.snoc _))
        · exact .inl hmem
      · exact .inr (hrest.imp (·.snoc _) hgrows.ne_nil)
    · exact fun hclosed => (h.closed hclosed).next _ (record_grows s _ now)

/-- Only a released receipt that is read in time gives an outcome without a
failure. -/
theorem answered_released {id : String} {started now later : ℚ} {answer : Answer}
    (h : (answered timeoutMs id started answer now later).failure = none) :
    answer = .fulfilled (.ok .released) ∧ now - started < timeoutMs ∧
      later - started < timeoutMs := by
  unfold answered at h
  split at h
  · cases h
  · split at h
    · cases h
    · rename_i hnow
      split at h
      · cases h
      · split at h
        · cases h
        · rename_i hlater
          split at h
          · exact ⟨rfl, not_le.mp hnow, not_le.mp hlater⟩
          · cases h

theorem Known.finishWait (h : Known timeoutMs deadline as s) {e : Event} {k : Nat}
    {outcome : Resource → Wait → Outcome} (hstep : finishWait s k outcome = some t)
    (hnew : ∀ resource todo started,
      s.drains[k]? = some (.waiting resource todo ⟨started, none⟩) →
        (outcome resource ⟨started, none⟩).failure ≠ none ∨
          Released timeoutMs deadline (as ++ [e]) resource) :
    Known timeoutMs deadline (as ++ [e]) t := by
  obtain ⟨resource, todo, ⟨started, finished⟩, hk, rfl⟩ := finishWait_spec hstep
  obtain ⟨⟨hwaiting, hfinished⟩, hstate⟩ := h.stage hk
  refine ⟨h.timeout, fun _ => hstate, h.tainted,
    h.drained .rfl ⟨hwaiting.next e .rfl, fun o ho => ?_⟩,
    fun hclosed => (h.closed hclosed).next e .rfl⟩
  cases finished with
  | none =>
    cases ho
    exact hnew resource todo started hk
  | some o' =>
    cases ho
    exact (hfinished o' rfl).imp_right (·.snoc e)

theorem Known.next (h : Known timeoutMs deadline as s)
    (hrun : (scope timeoutMs deadline).Run as s) (hstep : next s e = some t) :
    Known timeoutMs deadline (as ++ [e]) t := by
  cases next_does hstep with
  | keeps hkeeps => exact h.keeps e hkeeps
  | registered resource hopen hframes =>
    have hnone : s.drains = [] := by
      by_contra hdrains
      exact h.begun (.inl hdrains) hopen
    refine ⟨h.timeout, fun hbegun => ?_, h.tainted, ?_, fun hclosed => ?_⟩
    · refine h.begun (hbegun.imp_right fun hmem => ?_)
      rw [hframes]
      exact List.mem_cons_of_mem _ hmem
    · intro stage hstage
      have hmem : stage ∈ s.drains := hstage
      rw [hnone] at hmem
      cases hmem
    · cases hopen.symm.trans hclosed
  | listening now next =>
    exact ⟨h.timeout, fun _ hc => (nomatch hc), h.tainted,
      fun stage hstage => (h.drains stage hstage).next _ .rfl, fun hc => (nomatch hc)⟩
  | closing now next =>
    refine ⟨h.timeout, fun _ hc => (nomatch hc), h.tainted, fun stage hstage => ?_,
      fun hc => (nomatch hc)⟩
    rcases List.mem_append.mp hstage with hold | hnew
    · exact (h.drains stage hold).next _ .rfl
    · rw [List.mem_singleton.mp hnew]
      trivial
  | listened frames hframes =>
    have hbegun := h.begun (.inr (by rw [hframes]; exact List.mem_cons_self))
    refine ⟨h.timeout, fun _ => hbegun, h.tainted, fun stage hstage => ?_,
      fun hclosed => (h.closed hclosed).next _ .rfl⟩
    rcases List.mem_append.mp hstage with hold | hnew
    · exact (h.drains stage hold).next _ .rfl
    · rw [List.mem_singleton.mp hnew]
      trivial
  | drained hdrain => exact h.drainStep hdrain
  | @answered k answer now later _ hwait =>
    refine h.finishWait hwait fun resource todo started hk => ?_
    by_cases hfailure :
        (ResourceScope.answered s.timeoutMs resource.id started answer now later).failure = none
    · obtain ⟨rfl, hnow, hlater⟩ := answered_released hfailure
      rw [h.timeout] at hnow hlater
      exact .inr ⟨as, k, todo, started, now, later, [], s, rfl, hrun, hk, hnow, hlater⟩
    · exact .inl hfailure
  | timedOut hwait => exact h.finishWait hwait fun _ _ _ _ => .inl (nomatch ·)

theorem run_known (h : (scope timeoutMs deadline).Run as s) : Known timeoutMs deadline as s := by
  have hinvariant : (scope timeoutMs deadline).TraceInvariant (Known timeoutMs deadline) :=
    { init := fun s hs => by
        cases hs
        exact .create timeoutMs deadline
      step := fun as s e t hrun hs hstep => hs.next hrun hstep }
  exact hinvariant.run h

/-! ## The verdict -/

theorem snapshot_passed (h : (snapshot s).status = .passed) :
    s.state = .closed ∧ s.failures = [] := by
  unfold snapshot at h
  simp only at h
  split at h
  · cases h
  · rename_i hclean
    split at h
    · rename_i hclosed
      refine ⟨hclosed, ?_⟩
      cases hfailures : s.failures with
      | nil => rfl
      | cons failure rest => simp [hfailures] at hclean
    · cases h

theorem snapshot_failed (h : s.failures ≠ []) : (snapshot s).status = .failed := by
  cases hfailures : s.failures with
  | nil => exact absurd hfailures h
  | cons failure rest => simp [snapshot, hfailures]

/-- What a run of a scope may show. -/
structure Verdict (timeoutMs deadline : ℚ) (as : List Event) (s : Scope) : Prop where
  closed : (snapshot s).status = .passed → (snapshot s).state = .closed
  released : (snapshot s).status = .passed →
    ∀ r ∈ s.resources, r.ownership = .owned → Released timeoutMs deadline as r
  unspoiled : (snapshot s).status = .passed → ∀ before e after v, as = before ++ e :: after →
    (scope timeoutMs deadline).Run before v → Spoils v e = false
  sticky : (snapshot s).status = .failed → ∀ more t, (scope timeoutMs deadline).Exec s more t →
    (snapshot t).status = .failed ∧ (snapshot t).primaryFailure = (snapshot s).primaryFailure ∧
      (snapshot t).primaryFailure.isSome

/-- A scope whose one owned resource is released in time. -/
def releasedEvents : List Event :=
  [.register, .registerRead (.ok ⟨some "app", some "owned", .callable⟩), .register,
    .registerRead (.ok ⟨some "host", some "borrowed", .absent⟩), .close 10 10, .drain 0 10,
    .drain 0 10, .drain 0 10, .answer 0 (.fulfilled (.ok .released)) 500 501, .drain 0 501,
    .drain 0 501]

def releasedScope : Scope :=
  (System.replay next (create 1000 maxSafeInteger) releasedEvents).get (by decide +kernel)

end SurfaceLoom.Test.ResourceVerdict
