import Mathlib.Data.List.Nodup
import SurfaceLoom.Test.ResourceScope

/-! # Cleanup is not replayed

While no abort listener closes the scope again in the middle of the first
`close`, there is one `drain`, and it works through the resources in reverse
order of registration. -/
namespace SurfaceLoom.Test.ResourceSafety
open SurfaceLoom.Lib.Transition SurfaceLoom.Test.ResourceScope

/-- The part of a scope the cleanup order depends on. `listening` counts the
`close` calls whose listeners are running. -/
structure Core where
  resources : List Resource
  ids : List String
  outcomes : List String
  state : ScopeState
  closing : Option Nat
  drains : List DrainStage
  listening : Nat
  cleaned : List (String × List String)
  returned : List Nat

def core (s : Scope) : Core :=
  ⟨s.resources, s.ids, s.outcomes.map Outcome.id, s.state, s.closing, s.drains,
    s.frames.count .closing, s.cleaned, s.returned⟩

/-- The calls of cleanup callbacks when these resources are taken one by one. -/
def cleanups (recorded : List String) : List Resource → List (String × List String)
  | [] => []
  | r :: rest =>
    (if r.ownership = .owned then [(r.id, recorded)] else []) ++
      cleanups (recorded ++ [r.id]) rest

/-- How far the one `drain` is: `done` is recorded, `started` is `done` and the
resource that is being cleaned. -/
inductive Drains : DrainStage → (done started todo : List Resource) → Prop
  | scheduled (todo : List Resource) : Drains .scheduled [] [] todo
  | looping (done todo : List Resource) : Drains (.looping todo) done done todo
  | waiting (done todo : List Resource) (r : Resource) (wait : Wait) : r.ownership = .owned →
      (∀ outcome, wait.finished = some outcome → outcome.id = r.id) →
      Drains (.waiting r todo wait) done (done ++ [r]) (r :: todo)
  | resolved (done : List Resource) (result : CleanupResult) :
      Drains (.resolved result) done done []

structure Draining (c : Core) (stage : DrainStage) (done started todo : List Resource) : Prop where
  drains : Drains stage done started todo
  order : done ++ todo = c.resources.reverse
  outcomes : c.outcomes = done.map Resource.id
  cleaned : c.cleaned = cleanups [] started

inductive Phase (c : Core) : Prop
  | beforeDrain : c.closing = none → c.drains = [] → c.outcomes = [] → c.cleaned = [] →
      c.returned = [] → (c.state = .open_ ∧ c.listening = 0 ∨ c.state = .closing ∧ c.listening = 1) →
      Phase c
  | draining (stage : DrainStage) (done started todo : List Resource) : c.closing = some 0 →
      c.drains = [stage] → c.state ≠ .open_ → c.listening = 0 → (∀ p ∈ c.returned, p = 0) →
      Draining c stage done started todo → Phase c

structure Sound (c : Core) : Prop where
  ids : c.ids = c.resources.map Resource.id
  nodup : c.ids.Nodup
  phase : Phase c

/-! ## Lists of cleanups -/

theorem cleanups_append (recorded : List String) (rs : List Resource) (r : Resource) :
    cleanups recorded (rs ++ [r]) = cleanups recorded rs ++
      (if r.ownership = .owned then [(r.id, recorded ++ rs.map Resource.id)] else []) := by
  induction rs generalizing recorded with
  | nil => simp [cleanups]
  | cons r' rs ih => simp [cleanups, ih, List.append_assoc]

theorem cleanups_fst (recorded : List String) (rs : List Resource) :
    (cleanups recorded rs).map Prod.fst =
      (rs.filter fun r => r.ownership = .owned).map Resource.id := by
  induction rs generalizing recorded with
  | nil => rfl
  | cons r rs ih =>
    rw [cleanups, List.map_append, ih]
    by_cases h : r.ownership = .owned <;> simp [h]

theorem cleanups_order {recorded : List String} {rs : List Resource} {e : String × List String}
    (he : e ∈ cleanups recorded rs) : e.2 ++ [e.1] <+: recorded ++ rs.map Resource.id := by
  induction rs generalizing recorded with
  | nil => cases he
  | cons r rs ih =>
    rw [cleanups, List.mem_append] at he
    rcases he with hhead | htail
    · split at hhead
      · rw [List.mem_singleton] at hhead
        rw [hhead]
        refine ⟨rs.map Resource.id, ?_⟩
        simp
      · cases hhead
    · have := ih htail
      simpa [List.append_assoc] using this

/-! ## Steps -/

/-- A step of another thing than the drain leaves the core. -/
theorem Sound.transfer {s t : Scope} (h : Sound (core s)) (hcore : core t = core s) :
    Sound (core t) := by
  rw [hcore]
  exact h

theorem sound_create (timeoutMs deadline : ℚ) : Sound (core (create timeoutMs deadline)) where
  ids := rfl
  nodup := .nil
  phase := .beforeDrain rfl rfl rfl rfl rfl (.inl ⟨rfl, rfl⟩)

theorem Sound.closed_of_open {c : Core} (h : Sound c) (hopen : c.state = .open_) :
    c.closing = none ∧ c.drains = [] ∧ c.outcomes = [] ∧ c.cleaned = [] ∧ c.returned = [] ∧
      c.listening = 0 := by
  cases h.phase with
  | beforeDrain h₁ h₂ h₃ h₄ h₅ h₆ =>
    rcases h₆ with ⟨-, hlisten⟩ | ⟨hclosing, -⟩
    · exact ⟨h₁, h₂, h₃, h₄, h₅, hlisten⟩
    · rw [hopen] at hclosing
      cases hclosing
  | draining _ _ _ _ _ _ hstate => exact absurd hopen hstate

theorem core_rejectMutation (s : Scope) (phase : String) (code : FailureCode) (message : String)
    (resourceId : Option String) : core (rejectMutation s phase code message resourceId) = core s :=
  rfl

theorem core_rejectClosed (s : Scope) (phase operation : String) :
    core (rejectClosed s phase operation) = core s := rfl

/-- A frame of a call that only reads its argument comes or goes. -/
theorem core_frames {s : Scope} {frames : List Frame}
    (h : frames.count .closing = s.frames.count .closing) : core { s with frames } = core s := by
  unfold core
  rw [h]

theorem core_register (s : Scope) : core (register s) = core s := by
  unfold register
  split
  · exact core_rejectClosed ..
  · exact core_frames (by simp)

theorem core_recordFailure (s : Scope) (phase : String) : core (recordFailure s phase) = core s := by
  unfold recordFailure
  split
  · exact core_rejectClosed ..
  · exact core_frames (by simp)

theorem core_recordRead (s : Scope) (phase message : String) :
    core (recordRead s phase message) = core s := by
  unfold recordRead
  split
  · exact core_rejectClosed ..
  · rfl

theorem Sound.registerRead {s : Scope} (h : Sound (core s))
    (fields : Except String RegistrationFields) : Sound (core (registerRead s fields)) := by
  unfold ResourceScope.registerRead
  split
  · exact h
  · rename_i resource _
    split
    · exact h
    · rename_i hopen
      rw [not_ne_iff] at hopen
      split
      · exact h
      · rename_i hnew
        obtain ⟨h₁, h₂, h₃, h₄, h₅, h₆⟩ := h.closed_of_open hopen
        refine ⟨?_, ?_, .beforeDrain h₁ h₂ h₃ h₄ h₅ (.inl ⟨hopen, h₆⟩)⟩
        · have hids := h.ids
          simp only [core] at hids ⊢
          rw [hids, List.map_append]
          rfl
        · have hnodup := h.nodup
          simp only [core] at hnodup ⊢
          exact List.nodup_append.mpr ⟨hnodup, List.nodup_singleton _, by
            intro a ha b hb heq
            rw [List.mem_singleton.mp hb] at heq
            exact hnew (heq ▸ ha)⟩

/-- The first promise is stored: its drain is the only one. -/
theorem Sound.storePromise {s : Scope} (hids : s.ids = s.resources.map Resource.id)
    (hnodup : s.ids.Nodup) (hdrains : s.drains = []) (houtcomes : s.outcomes.map Outcome.id = [])
    (hcleaned : s.cleaned = []) (hreturned : s.returned = []) (hstate : s.state = .closing)
    (hlisten : s.frames.count .closing = 0) : Sound (core (storePromise s)) := by
  unfold ResourceScope.storePromise
  rw [hdrains, hreturned]
  refine ⟨hids, hnodup, .draining .scheduled [] [] s.resources.reverse rfl rfl ?_ hlisten ?_
    ⟨.scheduled _, rfl, houtcomes, hcleaned⟩⟩
  · show s.state ≠ .open_
    rw [hstate]
    exact fun hc => nomatch hc
  · intro p hp
    exact List.mem_singleton.mp hp

theorem Sound.close {s : Scope} (h : Sound (core s)) (hquiet : Frame.closing ∉ s.frames)
    (now next : ℚ) : Sound (core (close s now next)) := by
  have hcount : s.frames.count .closing = 0 := List.count_eq_zero.mpr hquiet
  unfold ResourceScope.close
  split
  · rename_i promise hclosing
    cases h.phase with
    | beforeDrain hnone =>
      have hnone : s.closing = none := hnone
      rw [hclosing] at hnone
      cases hnone
    | draining stage done started todo hp hdrains hstate hlisten hreturned hdraining =>
      have hp : s.closing = some 0 := hp
      refine ⟨h.ids, h.nodup, .draining stage done started todo hp hdrains hstate hlisten ?_
        ⟨hdraining.drains, hdraining.order, hdraining.outcomes, hdraining.cleaned⟩⟩
      intro p hmem
      rcases List.mem_append.mp hmem with hold | hnew
      · exact hreturned p hold
      · rw [List.mem_singleton.mp hnew]
        rw [hclosing] at hp
        exact Option.some.inj hp
  · rename_i hnone
    cases h.phase with
    | draining _ _ _ _ hp =>
      have hp : s.closing = some 0 := hp
      rw [hnone] at hp
      cases hp
    | beforeDrain h₁ h₂ h₃ h₄ h₅ h₆ =>
      simp only
      split
      · refine ⟨h.ids, h.nodup, .beforeDrain h₁ h₂ h₃ h₄ h₅ (.inr ⟨rfl, ?_⟩)⟩
        show (Frame.closing :: s.frames).count .closing = 1
        rw [List.count_cons_self, hcount]
      · exact Sound.storePromise h.ids h.nodup h₂ h₃ h₄ h₅ rfl hcount

theorem Sound.listenersDone {s : Scope} (h : Sound (core s)) {frames : List Frame}
    (hframes : s.frames = .closing :: frames) :
    Sound (core (ResourceScope.storePromise { s with frames })) := by
  have hcount : (core s).listening = frames.count .closing + 1 := by
    unfold core
    rw [hframes, List.count_cons_self]
  cases h.phase with
  | draining _ _ _ _ _ _ _ hlisten =>
    rw [hlisten] at hcount
    omega
  | beforeDrain h₁ h₂ h₃ h₄ h₅ h₆ =>
    rcases h₆ with ⟨-, hlisten⟩ | ⟨hclosing, hlisten⟩
    · rw [hlisten] at hcount
      omega
    · exact Sound.storePromise h.ids h.nodup h₂ h₃ h₄ h₅ hclosing (by
        rw [hlisten] at hcount
        show frames.count .closing = 0
        omega)

/-- The one drain at a time when it can make a step. -/
theorem Sound.drain_of_get? {s : Scope} (h : Sound (core s)) {k : Nat} {stage : DrainStage}
    (hget : s.drains[k]? = some stage) : k = 0 ∧ s.closing = some 0 ∧ s.drains = [stage] ∧
      s.state ≠ .open_ ∧ (core s).listening = 0 ∧ (∀ p ∈ s.returned, p = 0) ∧
      ∃ done started todo, Draining (core s) stage done started todo := by
  cases h.phase with
  | beforeDrain _ hnone =>
    have hnone : s.drains = [] := hnone
    rw [hnone] at hget
    cases hget
  | draining stage' done started todo hp hdrains hstate hlisten hreturned hdraining =>
    have hdrains : s.drains = [stage'] := hdrains
    rw [hdrains] at hget
    cases k with
    | zero =>
      cases hget
      exact ⟨rfl, hp, hdrains, hstate, hlisten, hreturned, done, started, todo, hdraining⟩
    | succ k => cases hget

/-- The drain goes on to another stage. -/
theorem Sound.advance {s t : Scope} (h : Sound (core s)) {k : Nat} {stage stage' : DrainStage}
    (hget : s.drains[k]? = some stage) (hdrains : t.drains = s.drains.set k stage')
    (hresources : t.resources = s.resources) (hids : t.ids = s.ids)
    (hclosing : t.closing = s.closing) (hstate : t.state = s.state ∨ t.state = .closed)
    (hframes : t.frames = s.frames) (hreturned : t.returned = s.returned)
    {done started todo : List Resource} (hd : Draining (core t) stage' done started todo) :
    Sound (core t) := by
  obtain ⟨rfl, hp, hone, hnotopen, hlisten, hzero, -⟩ := h.drain_of_get? hget
  refine ⟨?_, ?_, .draining stage' done started todo ?_ ?_ ?_ ?_ ?_ hd⟩
  · have := h.ids
    simp only [core] at this ⊢
    rw [hids, hresources, this]
  · have := h.nodup
    simp only [core] at this ⊢
    rw [hids]
    exact this
  · show t.closing = some 0
    rw [hclosing, hp]
  · show t.drains = [stage']
    rw [hdrains, hone]
    rfl
  · show t.state ≠ .open_
    rcases hstate with he | he
    · rw [he]
      exact hnotopen
    · rw [he]
      exact fun hc => nomatch hc
  · show t.frames.count .closing = 0
    rw [hframes]
    exact hlisten
  · intro p hp
    exact hzero p (hreturned ▸ hp)

theorem Sound.drainStep {s t : Scope} (h : Sound (core s)) {k : Nat} {now : ℚ}
    (hstep : drainStep s k now = some t) : Sound (core t) := by
  unfold ResourceScope.drainStep at hstep
  split at hstep
  · rename_i hget
    cases hstep
    obtain ⟨-, -, -, -, -, -, done, started, todo, hdrains, horder, houtcomes, hcleaned⟩ :=
      h.drain_of_get? hget
    cases hdrains
    refine h.advance hget rfl rfl rfl rfl (.inl rfl) rfl rfl ⟨.looping [] _, ?_, houtcomes, hcleaned⟩
    rfl
  · rename_i hget
    cases hstep
    obtain ⟨-, -, -, -, -, -, done, started, todo, hdrains, horder, houtcomes, hcleaned⟩ :=
      h.drain_of_get? hget
    cases hdrains
    exact h.advance hget rfl rfl rfl rfl (.inr rfl) rfl rfl
      ⟨.resolved done _, horder, houtcomes, hcleaned⟩
  · rename_i resource todo' hget
    obtain ⟨-, -, -, -, -, -, done, started, todo, hdrains, horder, houtcomes, hcleaned⟩ :=
      h.drain_of_get? hget
    cases hdrains
    split at hstep
    · rename_i hborrowed
      cases hstep
      refine h.advance hget rfl rfl rfl rfl (.inl rfl) rfl rfl
        ⟨.looping (done ++ [resource]) todo', ?_, ?_, ?_⟩
      · rw [List.append_assoc]
        exact horder
      · show (s.outcomes ++ [_]).map Outcome.id = _
        rw [List.map_append, List.map_append]
        exact congrArg (· ++ [resource.id]) houtcomes
      · rw [cleanups_append, if_neg (by rw [hborrowed]; decide), List.append_nil]
        exact hcleaned
    · rename_i howned
      cases hstep
      refine h.advance hget rfl rfl rfl rfl (.inl rfl) rfl rfl
        ⟨.waiting done todo' resource _ howned (fun _ hc => nomatch hc), horder, houtcomes, ?_⟩
      rw [cleanups_append, if_pos howned, List.nil_append, ← houtcomes, ← hcleaned]
      rfl
  · rename_i resource todo' _ outcome hget
    cases hstep
    obtain ⟨-, -, -, -, -, -, done, started, todo, hdrains, horder, houtcomes, hcleaned⟩ :=
      h.drain_of_get? hget
    cases hdrains with
    | waiting _ _ _ _ howned hwait =>
      refine h.advance hget rfl rfl rfl rfl (.inl rfl) rfl rfl
        ⟨.looping (done ++ [resource]) todo', ?_, ?_, hcleaned⟩
      · rw [List.append_assoc]
        exact horder
      · show (s.outcomes ++ [outcome]).map Outcome.id = _
        rw [List.map_append, List.map_append, List.map_singleton, List.map_singleton,
          hwait outcome rfl]
        exact congrArg (· ++ [resource.id]) houtcomes
  · cases hstep
  · cases hstep
  · cases hstep

theorem timedOut_id (id : String) : (timedOut id).id = id := rfl

theorem answered_id (timeoutMs : ℚ) (id : String) (started : ℚ) (answer : Answer) (now later : ℚ) :
    (answered timeoutMs id started answer now later).id = id := by
  unfold answered
  repeat' split
  all_goals rfl

theorem Sound.finishWait {s t : Scope} (h : Sound (core s)) {k : Nat}
    {outcome : Resource → Wait → Outcome} (hid : ∀ r w, (outcome r w).id = r.id)
    (hstep : finishWait s k outcome = some t) : Sound (core t) := by
  unfold ResourceScope.finishWait at hstep
  split at hstep
  · rename_i resource todo' wait hget
    cases hstep
    obtain ⟨-, -, -, -, -, -, done, started, todo, hdrains, horder, houtcomes, hcleaned⟩ :=
      h.drain_of_get? hget
    cases hdrains with
    | waiting _ _ _ _ howned hwait =>
      refine h.advance hget rfl rfl rfl rfl (.inl rfl) rfl rfl
        ⟨.waiting done todo' resource _ howned ?_, horder, houtcomes, hcleaned⟩
      intro o ho
      unfold Wait.finish at ho
      cases hfinished : wait.finished with
      | none =>
        rw [hfinished] at ho
        cases ho
        exact hid resource wait
      | some o' =>
        rw [hfinished] at ho
        cases ho
        exact hwait o' hfinished
  · cases hstep

/-- No listener of the cleanup signal closes the scope while the `close` that
aborted the signal has not stored its promise. -/
def Undisturbed (s : Scope) : Event → Prop
  | .close _ _ => Frame.closing ∉ s.frames
  | _ => True

theorem Sound.next {s t : Scope} (h : Sound (core s)) {event : Event} (hquiet : Undisturbed s event)
    (hstep : next s event = some t) : Sound (core t) := by
  cases event with
  | register =>
    cases hstep
    exact h.transfer (core_register s)
  | recordFailure phase =>
    cases hstep
    exact h.transfer (core_recordFailure s phase)
  | close now next =>
    cases hstep
    exact h.close hquiet now next
  | registerRead fields =>
    unfold ResourceScope.next at hstep
    simp only at hstep
    split at hstep
    · rename_i frames hframes
      cases hstep
      refine Sound.registerRead (h.transfer (core_frames ?_)) fields
      rw [hframes]
      rfl
    · cases hstep
  | recordRead message =>
    unfold ResourceScope.next at hstep
    simp only at hstep
    split at hstep
    · rename_i phase frames hframes
      cases hstep
      refine h.transfer ((core_recordRead _ phase message).trans (core_frames ?_))
      rw [hframes]
      rfl
    · cases hstep
  | listenersDone =>
    unfold ResourceScope.next at hstep
    simp only at hstep
    split at hstep
    · rename_i frames hframes
      cases hstep
      exact h.listenersDone hframes
    · cases hstep
  | deadlineTimer now =>
    unfold ResourceScope.next at hstep
    simp only at hstep
    split at hstep
    · cases hstep
      exact h.transfer rfl
    · cases hstep
  | drain k now =>
    unfold ResourceScope.next at hstep
    simp only at hstep
    split at hstep
    · exact h.drainStep hstep
    · cases hstep
  | answer k answer now later =>
    unfold ResourceScope.next at hstep
    simp only at hstep
    split at hstep
    · exact h.finishWait (fun r w => answered_id ..) hstep
    · cases hstep
  | timeout k =>
    unfold ResourceScope.next at hstep
    simp only at hstep
    split at hstep
    · exact h.finishWait (fun r w => timedOut_id r.id) hstep
    · cases hstep

theorem sound_invariant (timeoutMs deadline : ℚ) :
    ((scope timeoutMs deadline).restrict Undisturbed).Invariant fun s => Sound (core s) where
  init := by
    intro s hs
    cases hs
    exact sound_create timeoutMs deadline
  step := by
    intro s event t _ h hstep
    exact h.next hstep.2 hstep.1

/-! ## What a scope promises -/

/-- Cleanup callbacks are called at most once each, for owned resources only, in
reverse order of registration and each after the outcomes of all the resources
before it were recorded; all `close` calls return one promise; outcomes and
remaining resources together are the registered ones, newest first. -/
structure CleansOnce (s : Scope) : Prop where
  once : (s.cleaned.map Prod.fst).Nodup
  owned : ∀ e ∈ s.cleaned, ∃ r ∈ s.resources, r.id = e.1 ∧ r.ownership = .owned
  lifo : List.Sublist (s.cleaned.map Prod.fst) (s.resources.reverse.map Resource.id)
  recorded : ∀ e ∈ s.cleaned, e.2 ++ [e.1] <+: s.resources.reverse.map Resource.id
  onePromise : ∀ p ∈ s.returned, ∀ q ∈ s.returned, p = q
  partition : (snapshot s).outcomes.map Outcome.id ++ (snapshot s).remaining.map Resource.id =
    s.resources.reverse.map Resource.id
  distinct : (s.resources.map Resource.id).Nodup

/-- What the drain cleaned is the start of the resources in reverse order. -/
theorem Sound.started {s : Scope} (h : Sound (core s)) : ∃ started,
    started <+: s.resources.reverse ∧ s.cleaned = cleanups [] started ∧
      ∃ done, done <+: s.resources.reverse ∧ s.outcomes.map Outcome.id = done.map Resource.id ∧
        ∀ p ∈ s.returned, p = 0 := by
  cases h.phase with
  | beforeDrain _ _ houtcomes hcleaned hreturned =>
    refine ⟨[], List.nil_prefix, hcleaned, [], List.nil_prefix, houtcomes, ?_⟩
    intro p hp
    have hreturned : s.returned = [] := hreturned
    rw [hreturned] at hp
    cases hp
  | draining stage done started todo _ _ _ _ hreturned hd =>
    obtain ⟨hdrains, horder, houtcomes, hcleaned⟩ := hd
    refine ⟨started, ?_, hcleaned, done, ⟨todo, horder⟩, houtcomes, hreturned⟩
    cases hdrains with
    | scheduled => exact List.nil_prefix
    | looping => exact ⟨todo, horder⟩
    | waiting _ todo' r => exact ⟨todo', by rw [List.append_assoc]; exact horder⟩
    | resolved => exact ⟨[], horder⟩

theorem scope_cleans_once (timeoutMs deadline : ℚ) (s : Scope)
    (hs : ((scope timeoutMs deadline).restrict Undisturbed).Reachable s) : CleansOnce s := by
  have h := (sound_invariant timeoutMs deadline).reachable hs
  have hnodup : (s.resources.map Resource.id).Nodup := by
    have := h.nodup
    rw [h.ids] at this
    exact this
  obtain ⟨started, hstarted, hcleaned, done, hdone, houtcomes, hreturned⟩ := h.started
  have hlifo : List.Sublist (s.cleaned.map Prod.fst) (s.resources.reverse.map Resource.id) := by
    rw [hcleaned, cleanups_fst]
    exact (List.filter_sublist.trans hstarted.sublist).map _
  have hreverse : (s.resources.reverse.map Resource.id).Nodup := by
    rw [List.map_reverse]
    exact List.nodup_reverse.mpr hnodup
  refine ⟨hlifo.nodup hreverse, ?_, hlifo, ?_, ?_, ?_, hnodup⟩
  · intro e he
    have hfst : e.1 ∈ s.cleaned.map Prod.fst := List.mem_map_of_mem he
    rw [hcleaned, cleanups_fst, List.mem_map] at hfst
    obtain ⟨r, hr, hid⟩ := hfst
    obtain ⟨hmem, howned⟩ := List.mem_filter.mp hr
    exact ⟨r, List.mem_reverse.mp (hstarted.subset hmem), hid, of_decide_eq_true howned⟩
  · intro e he
    rw [hcleaned] at he
    exact (cleanups_order he).trans (hstarted.map _)
  · intro p hp q hq
    rw [hreturned p hp, hreturned q hq]
  · obtain ⟨rest, hrest⟩ := hdone
    have hlength : s.outcomes.length = done.length := by
      have := congrArg List.length houtcomes
      rwa [List.length_map, List.length_map] at this
    show s.outcomes.map Outcome.id ++ (s.resources.reverse.drop s.outcomes.length).map Resource.id = _
    rw [houtcomes, hlength, ← hrest, List.drop_left, List.map_append]

instance (s : Scope) (event : Event) : Decidable (Undisturbed s event) := by
  unfold Undisturbed
  split <;> infer_instance

def demoResource (id ownership : String) (cleanup : CleanupField) : Event :=
  .registerRead (.ok ⟨some id, some ownership, cleanup⟩)

/-- The deadline is over when the scope is closed; a listener registers too late. -/
def demoEvents : List Event :=
  [.register, demoResource "app" "owned" .callable, .register,
    demoResource "host" "borrowed" .absent, .close 10 10, .register, .listenersDone, .close 11 11,
    .drain 0 11, .drain 0 11, .drain 0 11, .answer 0 (.fulfilled (.ok .released)) 12 12,
    .drain 0 12, .drain 0 12]

def demoScope : Scope :=
  (System.replay (fun s a => if Undisturbed s a then next s a else none) (create 1000 5)
    demoEvents).get (by decide +kernel)

theorem demo_scope_cleans_once :
    CleansOnce demoScope ∧ demoScope.cleaned = [("app", ["host"])] ∧ demoScope.state = .closed :=
  ⟨scope_cleans_once 1000 5 demoScope (System.reachable_restrict_of_replay demoEvents
      (.init rfl) (Option.some_get _).symm), by decide +kernel, by decide +kernel⟩

/-- A listener that closes the scope again starts a second drain. -/
def reentrantEvents : List Event :=
  [.register, demoResource "app" "owned" .callable, .close 10 10, .close 10 10, .listenersDone,
    .drain 0 10, .drain 0 10, .drain 1 10, .drain 1 10]

theorem reentrant_close_replays_cleanup :
    ∃ s, (scope 1000 5).Reachable s ∧ s.cleaned.map Prod.fst = ["app", "app"] ∧
      ¬ CleansOnce s := by
  let s := (System.replay next (create 1000 5) reentrantEvents).get (by decide +kernel)
  have hcleaned : s.cleaned.map Prod.fst = ["app", "app"] := by decide +kernel
  refine ⟨s, System.reachable_of_replay (Option.some_get _).symm, hcleaned, fun h => ?_⟩
  have honce := h.once
  rw [hcleaned] at honce
  exact absurd honce (by decide)

end SurfaceLoom.Test.ResourceSafety
