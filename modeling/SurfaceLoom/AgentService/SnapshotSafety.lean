import Mathlib.Data.List.Induction
import SurfaceLoom.AgentService.SnapshotLifecycle

/-! # What the snapshot registry keeps

The registry as a machine of arbitrary calls. Its tables always agree with the
life of each snapshot that the log tells, and a life has no way back from
removal or quarantine. -/
namespace SurfaceLoom.Service.SnapshotSafety
open SurfaceLoom.Lib SurfaceLoom.Lib.Transition SurfaceLoom.Service.SafeData
open SurfaceLoom.Service.Validation SurfaceLoom.Service.StoredRun
open SurfaceLoom.Service.SnapshotLifecycle

inductive Event
  | add (snapshot : WorkspaceSnapshot)
  | acquire (snapshot : WorkspaceSnapshot) (runId : String) (now : Option String)
  | complete (lease : WorkspaceLease) (cleanup : JsValue)
  | release (snapshot : WorkspaceSnapshot) (aborted : Bool) (now : Option String)
  | removalSettled (id : String) (ok : Bool) (now later : Option String)

def next (dateParses : String → Bool) (s : Registry) : Event → Option Registry
  | .add snapshot => some (add s snapshot).1
  | .acquire snapshot runId now => some (acquire s snapshot runId now).1
  | .complete lease cleanup => some (complete dateParses s lease cleanup).1
  | .release snapshot aborted now => some (release s snapshot aborted now).1
  | .removalSettled id ok now later =>
    if id ∈ s.removals then some (removalSettled s id ok now later) else none

def registry (dateParses : String → Bool) : System Registry Event :=
  .ofMachine .empty (next dateParses)

/-! ## The tables and the log -/

structure StateFits (id : String) (state : SnapshotState) : Prop where
  keyed : state.snapshot.snapshotId = id
  leased : state.activeLease.isSome = true →
    state.quarantined = false ∧ state.releaseToken.isSome = false
  promised : state.releasePromise.isSome = state.releaseToken.isSome

structure Coherent (s : Registry) : Prop where
  fits : ∀ id state, s.snapshots.get? id = some state → StateFits id state
  released : ∀ id, s.released.has id = true → s.snapshots.get? id = none
  removing : ∀ id ∈ s.removals, s.phase id = .removing
  removals : s.removals.Nodup
  history : ∀ id, System.replay Phase.next .absent (marksOf id s.log) = some (s.phase id)

theorem Coherent.empty : Coherent .empty where
  fits _ _ h := nomatch h
  released _ _ := rfl
  removing _ h := nomatch h
  removals := .nil
  history _ := rfl

theorem marksOf_snoc (id id' : String) (m : Mark) (log : List (String × Mark)) :
    marksOf id (log ++ [(id', m)]) = marksOf id log ++ (if id' = id then [m] else []) := by
  unfold marksOf
  by_cases h : id' = id <;> simp [h]

theorem phase_of_get? {s : Registry} {id : String} {state : SnapshotState}
    (h : s.snapshots.get? id = some state) : s.phase id = state.phase := by
  unfold Registry.phase
  rw [h]

/-- Phases of the other snapshots after one changed. -/
theorem phase_put {s t : Registry} {id id' : String} {state : SnapshotState}
    (hs : t.snapshots = s.snapshots.set id state) (hr : t.released = s.released) :
    t.phase id' = if id' = id then state.phase else s.phase id' := by
  unfold Registry.phase
  rw [hs, hr, OrderedMap.get?_set]
  by_cases h : id' = id <;> simp [h]

theorem phase_erase {s t : Registry} {id id' : String} {receipt : ReleaseReceipt}
    (hs : t.snapshots = s.snapshots.erase id) (hr : t.released = s.released.set id receipt) :
    t.phase id' = if id' = id then .released else s.phase id' := by
  unfold Registry.phase OrderedMap.has
  rw [hs, hr, OrderedMap.get?_erase, OrderedMap.get?_set]
  by_cases h : id' = id <;> simp [h]

/-- One snapshot takes a step of its life. -/
theorem Coherent.step {s t : Registry} (h : Coherent s) (id : String) {state : SnapshotState}
    {m : Mark} (hs : t.snapshots = s.snapshots.set id state) (hr : t.released = s.released)
    (hlog : t.log = s.log ++ [(id, m)]) (hfits : StateFits id state)
    (hreleased : s.released.has id = false)
    (hremovals : ∀ id' ∈ t.removals, id' = id ∧ state.phase = .removing ∨
      id' ≠ id ∧ id' ∈ s.removals)
    (hnodup : t.removals.Nodup) (hnext : (s.phase id).next m = some state.phase) :
    Coherent t where
  fits id' state' hget := by
    rw [hs, OrderedMap.get?_set] at hget
    split at hget
    · rename_i heq
      cases hget
      exact heq ▸ hfits
    · exact h.fits id' state' hget
  released id' hhas := by
    rw [hr] at hhas
    rw [hs, OrderedMap.get?_set]
    split
    · rename_i heq
      rw [heq, hreleased] at hhas
      cases hhas
    · exact h.released id' hhas
  removing id' hmem := by
    rw [phase_put hs hr]
    rcases hremovals id' hmem with ⟨rfl, hphase⟩ | ⟨hne, hold⟩
    · rw [if_pos rfl]
      exact hphase
    · rw [if_neg hne]
      exact h.removing id' hold
  removals := hnodup
  history id' := by
    rw [hlog, marksOf_snoc, phase_put hs hr]
    split
    · rename_i heq
      subst heq
      rw [if_pos rfl]
      exact System.replay_snoc (h.history id) hnext
    · rename_i hne
      rw [List.append_nil, if_neg (Ne.symm hne)]
      exact h.history id'

/-- A change that neither the life nor the removals of any snapshot shows. -/
theorem Coherent.unchanged {s t : Registry} (h : Coherent s) (hs : t.snapshots = s.snapshots)
    (hr : t.released = s.released) (hm : t.removals = s.removals) (hlog : t.log = s.log) :
    Coherent t := by
  have hphase : ∀ id, t.phase id = s.phase id := by
    intro id
    unfold Registry.phase
    rw [hs, hr]
  refine ⟨?_, ?_, ?_, ?_, ?_⟩
  · rw [hs]
    exact h.fits
  · rw [hs, hr]
    exact h.released
  · intro id hid
    rw [hphase]
    exact h.removing id (hm ▸ hid)
  · exact hm ▸ h.removals
  · intro id
    rw [hphase, hlog]
    exact h.history id

theorem require_ok {s : Registry} {snapshot : WorkspaceSnapshot} {state : SnapshotState}
    (h : require s snapshot = .ok state) : s.snapshots.get? snapshot.snapshotId = some state := by
  unfold require at h
  split at h
  · cases h
  · split at h
    · cases h
    · rename_i hget _
      cases h
      exact hget

/-- A snapshot in the table is not in the other one. -/
theorem Coherent.notReleased {s : Registry} (h : Coherent s) {id : String} {state : SnapshotState}
    (hget : s.snapshots.get? id = some state) : s.released.has id = false := by
  cases hhas : s.released.has id with
  | false => rfl
  | true =>
    rw [h.released id hhas] at hget
    cases hget

theorem Coherent.notRemoving {s : Registry} (h : Coherent s) {id : String} {state : SnapshotState}
    (hget : s.snapshots.get? id = some state) (hphase : state.phase ≠ .removing) :
    id ∉ s.removals := by
  intro hmem
  have := h.removing id hmem
  rw [phase_of_get? hget] at this
  exact hphase this

theorem Coherent.add {s : Registry} (h : Coherent s) (snapshot : WorkspaceSnapshot) :
    Coherent (add s snapshot).1 := by
  unfold SnapshotLifecycle.add
  split
  · exact h
  · rename_i hnew
    rw [not_or, Bool.not_eq_true, Bool.not_eq_true] at hnew
    obtain ⟨hsnap, hrel⟩ := hnew
    have hget := OrderedMap.has_eq_false_iff.mp hsnap
    have hphase : s.phase snapshot.snapshotId = .absent := by
      unfold Registry.phase
      rw [hget, hrel]
      rfl
    refine h.step _ rfl rfl rfl ⟨rfl, (fun hl => nomatch hl), rfl⟩ hrel ?_ h.removals ?_
    · intro id hid
      refine .inr ⟨?_, hid⟩
      rintro rfl
      have := h.removing _ hid
      rw [hphase] at this
      cases this
    · rw [hphase]
      rfl

theorem Coherent.acquire {s : Registry} (h : Coherent s) (snapshot : WorkspaceSnapshot)
    (runId : String) (now : Option String) : Coherent (acquire s snapshot runId now).1 := by
  unfold SnapshotLifecycle.acquire
  split
  · exact h
  · rename_i state hrequire
    have hget := require_ok hrequire
    have hfits := h.fits _ _ hget
    split
    · exact h
    · rename_i parsed _
      split
      · exact h
      · rename_i hfree
        rw [not_or, not_or, Bool.not_eq_true, Bool.not_eq_true, Bool.not_eq_true] at hfree
        obtain ⟨hquarantined, hlease, htoken⟩ := hfree
        have hphase : state.phase = .idle := by
          have hnone : state.activeLease = none := by simpa using hlease
          unfold SnapshotState.phase
          rw [hnone]
          simp [hquarantined, htoken]
        split
        · exact h.unchanged rfl rfl rfl rfl
        · refine h.step _ rfl rfl rfl ⟨hfits.keyed, fun _ => ⟨hquarantined, htoken⟩, hfits.promised⟩
            (h.notReleased hget) ?_ h.removals ?_
          · intro id hid
            refine .inr ⟨?_, hid⟩
            rintro rfl
            exact h.notRemoving hget (by rw [hphase]; decide) hid
          · rw [phase_of_get? hget, hphase]
            rfl

theorem Coherent.complete {dateParses : String → Bool} {s : Registry} (h : Coherent s)
    (lease : WorkspaceLease) (cleanup : JsValue) :
    Coherent (complete dateParses s lease cleanup).1 := by
  unfold SnapshotLifecycle.complete
  split
  · exact h
  · rename_i state hget
    have hfits := h.fits _ _ hget
    split
    · exact h
    · rename_i active hactive
      obtain ⟨hquarantined, htoken⟩ := hfits.leased (by rw [hactive]; rfl)
      have hphase : state.phase = .leased active := by
        unfold SnapshotState.phase
        rw [hactive]
      split
      · exact h
      · split
        · exact h
        · rename_i evidence _
          refine h.step _ rfl rfl rfl ⟨hfits.keyed, (fun hl => nomatch hl), hfits.promised⟩
            (h.notReleased hget) ?_ h.removals ?_
          · intro id hid
            refine .inr ⟨?_, hid⟩
            rintro rfl
            exact h.notRemoving hget (by rw [hphase]; exact fun hc => nomatch hc) hid
          · rw [phase_of_get? hget, hphase]
            unfold Phase.next SnapshotState.phase
            cases hsafe : evidence.safe <;> simp [htoken]

theorem Coherent.release {s : Registry} (h : Coherent s) (snapshot : WorkspaceSnapshot)
    (aborted : Bool) (now : Option String) : Coherent (release s snapshot aborted now).1 := by
  unfold SnapshotLifecycle.release
  split
  · exact h
  · split
    · exact h
    · rename_i state hrequire
      have hget := require_ok hrequire
      have hfits := h.fits _ _ hget
      split
      · exact h
      · rename_i hready
        rw [not_or, not_or, Bool.not_eq_true, Bool.not_eq_true, Bool.not_eq_true] at hready
        obtain ⟨hlease, hquarantined, haborted⟩ := hready
        split
        · exact h
        · rename_i hpromise
          have htoken : state.releaseToken.isSome = false := by
            rw [← hfits.promised, hpromise]
            rfl
          have hnone : state.activeLease = none := by simpa using hlease
          have hphase : state.phase = .idle := by
            unfold SnapshotState.phase
            rw [hnone]
            simp [hquarantined, htoken]
          have hremoving : ∀ promise token, SnapshotState.phase
              { state with releaseToken := some token, releasePromise := promise } = .removing := by
            intro promise token
            unfold SnapshotState.phase
            simp [hnone, hquarantined]
          have hnotin : state.snapshot.snapshotId ∉ s.removals := by
            rw [hfits.keyed]
            exact h.notRemoving hget (by rw [hphase]; decide)
          -- Nothing changed since the check, so the removal starts.
          unfold releaseReady
          rw [if_neg (by simp [haborted, hlease, hquarantined])]
          refine h.step state.snapshot.snapshotId rfl rfl rfl
            ⟨rfl, fun hl => ?_, rfl⟩ ?_ ?_ ?_ ?_
          · rw [hlease] at hl
            cases hl
          · rw [hfits.keyed]
            exact h.notReleased hget
          · intro id hid
            rcases List.mem_append.mp hid with hold | hnew
            · refine .inr ⟨?_, hold⟩
              rintro rfl
              exact hnotin hold
            · exact .inl ⟨List.mem_singleton.mp hnew, hremoving _ _⟩
          · refine List.nodup_append.mpr ⟨h.removals, List.nodup_singleton _, ?_⟩
            intro a ha b hb heq
            rw [List.mem_singleton.mp hb] at heq
            exact hnotin (heq ▸ ha)
          · rw [hfits.keyed, phase_of_get? hget, hphase, hremoving]
            rfl

theorem Coherent.removalSettled {s : Registry} (h : Coherent s) {id : String}
    (hid : id ∈ s.removals) (ok : Bool) (now later : Option String) :
    Coherent (removalSettled s id ok now later) := by
  have hphase := h.removing id hid
  have herase : ∀ id', id' ∈ s.removals.erase id → id' ≠ id ∧ id' ∈ s.removals := by
    intro id' hid'
    exact h.removals.mem_erase_iff.mp hid'
  unfold SnapshotLifecycle.removalSettled
  simp only
  split
  · rename_i hget
    unfold Registry.phase at hphase
    rw [hget] at hphase
    simp only at hphase
    split at hphase <;> cases hphase
  · rename_i state hget
    have hfits := h.fits _ _ hget
    rw [phase_of_get? hget] at hphase
    have hnone : state.activeLease = none := by
      unfold SnapshotState.phase at hphase
      split at hphase
      · cases hphase
      · assumption
    have htoken : state.releaseToken.isSome = true := by
      unfold SnapshotState.phase at hphase
      rw [hnone] at hphase
      simp only at hphase
      split at hphase
      · cases hphase
      · split at hphase
        · assumption
        · cases hphase
    split
    · refine ⟨?_, ?_, ?_, h.removals.erase id, ?_⟩
      · intro id' state' hget'
        rw [OrderedMap.get?_erase] at hget'
        split at hget'
        · cases hget'
        · exact h.fits id' state' hget'
      · intro id' hhas
        rw [OrderedMap.get?_erase]
        split
        · rfl
        · rename_i hne
          rw [OrderedMap.has_eq_true_iff, OrderedMap.get?_set, if_neg hne] at hhas
          exact h.released id' (OrderedMap.has_eq_true_iff.mpr hhas)
      · intro id' hid'
        obtain ⟨hne, hold⟩ := herase id' hid'
        rw [phase_erase rfl rfl, if_neg hne]
        exact h.removing id' hold
      · intro id'
        rw [marksOf_snoc, phase_erase rfl rfl]
        split
        · rename_i heq
          rw [if_pos heq.symm]
          refine System.replay_snoc (h.history id') ?_
          rw [← heq, phase_of_get? hget, hphase]
          rfl
        · rename_i hne
          rw [List.append_nil, if_neg (Ne.symm hne)]
          exact h.history id'
    · refine h.step id rfl rfl rfl ⟨hfits.keyed, fun hl => ?_, ?_⟩ (h.notReleased hget) ?_
        (h.removals.erase id) ?_
      · rw [hnone] at hl
        cases hl
      · exact htoken.symm
      · intro id' hid'
        exact .inr (herase id' hid')
      · rw [phase_of_get? hget, hphase]
        unfold SnapshotState.phase
        simp [hnone, Phase.next]

theorem coherent_invariant (dateParses : String → Bool) :
    (registry dateParses).Invariant Coherent where
  init := by
    intro s hs
    cases hs
    exact .empty
  step := by
    intro s event t _ h hstep
    replace hstep : next dateParses s event = some t := hstep
    cases event with
    | add snapshot =>
      cases hstep
      exact h.add snapshot
    | acquire snapshot runId now =>
      cases hstep
      exact h.acquire snapshot runId now
    | complete lease cleanup =>
      cases hstep
      exact h.complete lease cleanup
    | release snapshot aborted now =>
      cases hstep
      exact h.release snapshot aborted now
    | removalSettled id ok now later =>
      replace hstep : (if id ∈ s.removals then some (removalSettled s id ok now later) else none) =
          some t := hstep
      split at hstep
      · rename_i hid
        cases hstep
        exact h.removalSettled hid ok now later
      · cases hstep

/-! ## One life -/

/-- The leases of a life that are granted and not completed. -/
def held : List Mark → List WorkspaceLease :=
  List.foldl (fun leases m => match m with
    | .leased lease => leases ++ [lease]
    | .completed lease _ => leases.erase lease
    | _ => leases) []

def Phase.leases : Phase → List WorkspaceLease
  | .leased lease => [lease]
  | _ => []

/-- A life of a snapshot up to now. -/
def Lives (h : List Mark) (p : Phase) : Prop := System.replay Phase.next .absent h = some p

theorem lives_snoc {h : List Mark} {m : Mark} {q : Phase} (hl : Lives (h ++ [m]) q) :
    ∃ p, Lives h p ∧ p.next m = some q := by
  unfold Lives at hl
  rw [System.replay_append] at hl
  obtain ⟨p, hp, hq⟩ := Option.bind_eq_some_iff.mp hl
  refine ⟨p, hp, ?_⟩
  obtain ⟨q', hq', heq⟩ := Option.bind_eq_some_iff.mp hq
  cases heq
  exact hq'

theorem lives_append {pre post : List Mark} {q : Phase} (hl : Lives (pre ++ post) q) :
    ∃ p, Lives pre p ∧ System.replay Phase.next p post = some q := by
  unfold Lives at hl
  rw [System.replay_append] at hl
  exact Option.bind_eq_some_iff.mp hl

/-- What a snapshot's life so far shows in each phase. -/
structure LifeSound (h : List Mark) (p : Phase) : Prop where
  held : held h = Phase.leases p
  safe : (∃ lease, .completed lease false ∈ h) → p.closed = true
  removing : .removing ∈ h → p.closed = true

/-- The steps of a life, one by one. -/
inductive Steps : Phase → Mark → Phase → Prop
  | added : Steps .absent .added .idle
  | leased (lease : WorkspaceLease) : Steps .idle (.leased lease) (.leased lease)
  | returned (lease : WorkspaceLease) : Steps (.leased lease) (.completed lease true) .idle
  | tainted (lease : WorkspaceLease) : Steps (.leased lease) (.completed lease false) .quarantined
  | removing : Steps .idle .removing .removing
  | removed : Steps .removing (.removed true) .released
  | failed : Steps .removing (.removed false) .quarantined

theorem steps_of_next {p q : Phase} {m : Mark} (h : p.next m = some q) : Steps p m q := by
  unfold Phase.next at h
  split at h
  · cases h
    exact .added
  · cases h
    exact .leased _
  · rename_i safe
    split at h
    · rename_i heq
      subst heq
      cases safe <;> cases h
      · exact .tainted _
      · exact .returned _
    · cases h
  · cases h
    exact .removing
  · rename_i confirmed
    cases confirmed <;> cases h
    · exact .failed
    · exact .removed
  · cases h

theorem Steps.closed {p q : Phase} {m : Mark} (h : Steps p m q) (hp : p.closed = true) :
    q.closed = true ∧ ∃ confirmed, m = .removed confirmed := by
  cases h with
  | removed => exact ⟨rfl, true, rfl⟩
  | failed => exact ⟨rfl, false, rfl⟩
  | added => cases hp
  | leased => cases hp
  | returned => cases hp
  | tainted => cases hp
  | removing => cases hp

theorem held_snoc (h : List Mark) (m : Mark) : held (h ++ [m]) = match m with
    | .leased lease => held h ++ [lease]
    | .completed lease _ => (held h).erase lease
    | _ => held h := by
  unfold held
  rw [List.foldl_append]
  rfl

theorem lifeSound {h : List Mark} {p : Phase} (hl : Lives h p) : LifeSound h p := by
  induction h using List.reverseRecOn generalizing p with
  | nil =>
    cases hl
    exact ⟨rfl, (fun ⟨_, hmem⟩ => nomatch hmem), fun hmem => nomatch hmem⟩
  | append_singleton h m ih =>
    obtain ⟨q, hq, hnext⟩ := lives_snoc hl
    obtain ⟨hheld, hsafe, hremoving⟩ := ih hq
    have hstep := steps_of_next hnext
    refine ⟨?_, ?_, ?_⟩
    · rw [held_snoc, hheld]
      cases hstep with
      | returned lease => exact List.erase_cons_head ..
      | tainted lease => exact List.erase_cons_head ..
      | added => rfl
      | leased => rfl
      | removing => rfl
      | removed => rfl
      | failed => rfl
    · rintro ⟨lease, hmem⟩
      rcases List.mem_append.mp hmem with hold | hnew
      · exact (hstep.closed (hsafe ⟨lease, hold⟩)).1
      · cases List.mem_singleton.mp hnew
        cases hstep
        rfl
    · intro hmem
      rcases List.mem_append.mp hmem with hold | hnew
      · exact (hstep.closed (hremoving hold)).1
      · cases List.mem_singleton.mp hnew
        cases hstep
        rfl

/-- After a closed phase only the end of a removal is left to happen. -/
theorem closed_replay {p q : Phase} {h : List Mark} (hp : p.closed = true)
    (hl : System.replay Phase.next p h = some q) :
    ∀ m ∈ h, ∃ confirmed, m = .removed confirmed := by
  induction h generalizing p with
  | nil => exact fun _ hm => nomatch hm
  | cons m h ih =>
    obtain ⟨p', hp', hrest⟩ := Option.bind_eq_some_iff.mp hl
    obtain ⟨hclosed, hm⟩ := (steps_of_next hp').closed hp
    intro m' hm'
    rcases List.mem_cons.mp hm' with rfl | hin
    · exact hm
    · exact ih hclosed hrest m' hin

theorem quarantined_replay {q : Phase} {h : List Mark}
    (hl : System.replay Phase.next .quarantined h = some q) : h = [] := by
  cases h with
  | nil => rfl
  | cons m h =>
    obtain ⟨p', hp', -⟩ := Option.bind_eq_some_iff.mp hl
    cases steps_of_next hp'

/-- What the life of a snapshot is held to: at most one lease is out at any
time, and the tree is removed at most once, with no lease out, after no unsafe
receipt and before no other lease. -/
structure LifeSafe (h : List Mark) : Prop where
  oneLease : ∀ pre, pre <+: h → (held pre).length ≤ 1
  removal : ∀ pre post, h = pre ++ .removing :: post →
    held pre = [] ∧ (∀ lease, .completed lease false ∉ pre) ∧ .removing ∉ pre ∧
      .removing ∉ post ∧ ∀ lease, .leased lease ∉ post

theorem lifeSafe {h : List Mark} {p : Phase} (hl : Lives h p) : LifeSafe h where
  oneLease := by
    rintro pre ⟨post, rfl⟩
    obtain ⟨q, hq, -⟩ := lives_append hl
    rw [(lifeSound hq).held]
    cases q <;> simp [Phase.leases]
  removal := by
    rintro pre post rfl
    obtain ⟨q, hq, hrest⟩ := lives_append hl
    obtain ⟨q', hq', hpost⟩ := Option.bind_eq_some_iff.mp hrest
    have hafter := closed_replay (p := q') (by cases steps_of_next hq'; rfl) hpost
    have hidle : q = .idle := by
      cases steps_of_next hq'
      rfl
    subst hidle
    obtain ⟨hheld, hsafe, hremoving⟩ := lifeSound hq
    refine ⟨hheld, ?_, ?_, ?_, ?_⟩
    · intro lease hmem
      exact nomatch hsafe ⟨lease, hmem⟩
    · intro hmem
      exact nomatch hremoving hmem
    · intro hmem
      obtain ⟨confirmed, heq⟩ := hafter _ hmem
      cases heq
    · intro lease hmem
      obtain ⟨confirmed, heq⟩ := hafter _ hmem
      cases heq

/-! ## The log only grows -/

theorem next_log {dateParses : String → Bool} {s t : Registry} {event : Event}
    (h : next dateParses s event = some t) : s.log <+: t.log := by
  cases event with
  | add snapshot =>
    cases h
    unfold SnapshotLifecycle.add
    split
    · exact List.prefix_refl _
    · exact List.prefix_append ..
  | acquire snapshot runId now =>
    cases h
    unfold SnapshotLifecycle.acquire
    split
    · exact List.prefix_refl _
    · split
      · exact List.prefix_refl _
      · split
        · exact List.prefix_refl _
        · split
          · exact List.prefix_refl _
          · exact List.prefix_append ..
  | complete lease cleanup =>
    cases h
    unfold SnapshotLifecycle.complete
    split
    · exact List.prefix_refl _
    · split
      · exact List.prefix_refl _
      · split
        · exact List.prefix_refl _
        · split
          · exact List.prefix_refl _
          · exact List.prefix_append ..
  | release snapshot aborted now =>
    cases h
    unfold SnapshotLifecycle.release
    split
    · exact List.prefix_refl _
    · split
      · exact List.prefix_refl _
      · split
        · exact List.prefix_refl _
        · split
          · exact List.prefix_refl _
          · unfold releaseReady
            simp only
            split
            · exact List.prefix_refl _
            · exact List.prefix_append ..
  | removalSettled id ok now later =>
    replace h : (if id ∈ s.removals then some (removalSettled s id ok now later) else none) =
      some t := h
    split at h
    · cases h
      unfold SnapshotLifecycle.removalSettled
      simp only
      split
      · exact List.prefix_refl _
      · split
        · exact List.prefix_append ..
        · exact List.prefix_append ..
    · cases h

theorem exec_log {dateParses : String → Bool} {s t : Registry} {events : List Event}
    (h : (registry dateParses).Exec s events t) : s.log <+: t.log := by
  induction h with
  | nil => exact List.prefix_refl _
  | snoc _ hstep ih => exact ih.trans (next_log hstep)

/-- A quarantined snapshot has no future. -/
theorem Coherent.quarantined {s t : Registry} (h : Coherent s) (h' : Coherent t) {id : String}
    {state : SnapshotState} (hget : s.snapshots.get? id = some state)
    (hquarantined : state.quarantined = true) (hlog : s.log <+: t.log) :
    marksOf id t.log = marksOf id s.log := by
  obtain ⟨rest, hrest⟩ := hlog
  have hphase : s.phase id = .quarantined := by
    rw [phase_of_get? hget]
    unfold SnapshotState.phase
    split
    · rename_i hlease
      have := (h.fits id state hget).leased (by rw [hlease]; rfl)
      rw [hquarantined] at this
      cases this.1
    · rw [if_pos hquarantined]
  have hmarks : marksOf id t.log = marksOf id s.log ++ marksOf id rest := by
    rw [← hrest]
    unfold marksOf
    rw [List.filter_append, List.map_append]
  have hlife := h'.history id
  rw [hmarks, System.replay_append, h.history id, hphase] at hlife
  rw [hmarks, quarantined_replay hlife, List.append_nil]

end SurfaceLoom.Service.SnapshotSafety
