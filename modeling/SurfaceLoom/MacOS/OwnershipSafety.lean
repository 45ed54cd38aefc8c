import SurfaceLoom.MacOS.OwnershipRuns

/-! # Cleanup permission, exclusive sessions and handle accounting

Sessions never share an application and the handle count is exact. Permission
to terminate an application goes to a launch id only while nobody else holds
the application; the registry then keeps second permissions and competing
registrations out until the attempt ends. The unresolved entry that keeps
registrations out is removed before the attempt is finished, which the window
of `noRegistration` says. -/
namespace SurfaceLoom.MacOS.OwnershipSafety
open SurfaceLoom.Lib SurfaceLoom.Lib.Transition SurfaceLoom.Native.Wire
open SurfaceLoom.MacOS.OwnershipRegistry SurfaceLoom.MacOS.OwnershipRegistry.MacOSOwnershipRegistry
open SurfaceLoom.MacOS.OwnershipRuns SurfaceLoom.MacOS.OwnershipRuns.HostOwnership
open SurfaceLoom.MacOS.OwnershipRuns.MacOSLateLaunchTicket

variable {ε : Type}

/-! ## Invariants of every reachable state -/

theorem fresh_session {s : HostOwnership ε} {id : String} (h : s.fresh id) :
    s.registry.sessions.get? id = none := by
  simp only [fresh, Bool.and_eq_true, Bool.not_eq_true'] at h
  exact OrderedMap.has_eq_false_iff.mp h.1.1.1.1.1.1.1.1

theorem fresh_handle {s : HostOwnership ε} {id sessionID : String}
    {session : MacOSSessionRecord ε} (h : s.fresh id)
    (hs : s.registry.sessions.get? sessionID = some session) : session.handles.get? id = none := by
  simp only [fresh, Bool.and_eq_true, List.all_eq_true, Bool.not_eq_true'] at h
  exact OrderedMap.has_eq_false_iff.mp
    (h.1.1.1.1.1.1.1.2 session (OrderedMap.mem_values_iff.mpr ⟨_, hs⟩))

theorem fresh_inactive {s : HostOwnership ε} {id : String} (h : s.fresh id) :
    id ∉ s.registry.activeCleanupResponsibilities := by
  simp only [fresh, Bool.and_eq_true, decide_eq_true_eq] at h
  exact h.1.1.1.2

structure SessionsSound (s : HostOwnership ε) : Prop where
  sessionID : ∀ id record, s.registry.sessions.get? id = some record → record.sessionID = id
  exclusive : ∀ id₁ id₂ record₁ record₂, s.registry.sessions.get? id₁ = some record₁ →
    s.registry.sessions.get? id₂ = some record₂ → record₁.application = record₂.application →
    id₁ = id₂
  handleCount : s.registry.handleCount = s.registry.sessions.sumBy fun r => r.handles.size

theorem SessionsSound.step {s t : HostOwnership ε} {op : Op ε} (hs : SessionsSound s)
    (hc : SessionsChange s t op) : SessionsSound t := by
  obtain ⟨hid, hex, hcount⟩ := hs
  cases hc with
  | same h =>
    obtain ⟨hsess, hh⟩ := h
    exact ⟨hsess ▸ hid, hsess ▸ hex, by rw [hh, hsess, hcount]⟩
  | @registered _ _ _ _ sessionID _ record hfresh hreg =>
    refine ⟨?_, ?_, ?_⟩
    · intro id r hr
      rw [hreg.sessions, OrderedMap.get?_set] at hr
      split at hr
      · cases hr; rw [hreg.recordID, ‹id = sessionID›]
      · exact hid id r hr
    · intro id₁ id₂ r₁ r₂ h₁ h₂ ha
      rw [hreg.sessions, OrderedMap.get?_set] at h₁ h₂
      split at h₁ <;> split at h₂
      · exact ‹id₁ = sessionID›.trans ‹id₂ = sessionID›.symm
      · cases h₁
        exact absurd (ha.symm.trans hreg.recordApplication) (hreg.noSession id₂ r₂ h₂)
      · cases h₂
        exact absurd (ha.trans hreg.recordApplication) (hreg.noSession id₁ r₁ h₁)
      · exact hex id₁ id₂ r₁ r₂ h₁ h₂ ha
    · have := OrderedMap.sumBy_set (fun r => r.handles.size) s.registry.sessions sessionID record
      rw [fresh_session hfresh] at this
      rw [hreg.handleCount, hreg.sessions, hcount]
      simp only [Option.map_none, Option.getD_none, hreg.oneHandle] at this
      omega
  | @remembered sessionID handleID element session hfresh hsession hset hh =>
    refine ⟨?_, ?_, ?_⟩
    · intro id r hr
      rw [hset, OrderedMap.get?_set] at hr
      split at hr
      · cases hr; exact (hid sessionID session hsession).trans ‹id = sessionID›.symm
      · exact hid id r hr
    · intro id₁ id₂ r₁ r₂ h₁ h₂ ha
      rw [hset, OrderedMap.get?_set] at h₁ h₂
      split at h₁ <;> split at h₂
      · exact ‹id₁ = sessionID›.trans ‹id₂ = sessionID›.symm
      · cases h₁
        exact ‹id₁ = sessionID›.trans (hex sessionID id₂ session r₂ hsession h₂ ha)
      · cases h₂
        exact (hex id₁ sessionID r₁ session h₁ hsession ha).trans ‹id₂ = sessionID›.symm
      · exact hex id₁ id₂ r₁ r₂ h₁ h₂ ha
    · have hsum := OrderedMap.sumBy_set (fun r => r.handles.size) s.registry.sessions sessionID
        { session with handles := session.handles.set handleID element }
      have hsize : (session.handles.set handleID element).size = session.handles.size + 1 :=
        OrderedMap.size_set_of_get?_none (fresh_handle hfresh hsession)
      rw [hsession] at hsum
      rw [hh, hset, hcount]
      simp only [Option.map_some, Option.getD_some, hsize] at hsum
      omega
  | @removed sessionID session hsession herase hh =>
    refine ⟨?_, ?_, ?_⟩
    · intro id r hr
      rw [herase, OrderedMap.get?_erase] at hr
      split at hr
      · cases hr
      · exact hid id r hr
    · intro id₁ id₂ r₁ r₂ h₁ h₂ ha
      rw [herase, OrderedMap.get?_erase] at h₁ h₂
      split at h₁
      · cases h₁
      · split at h₂
        · cases h₂
        · exact hex id₁ id₂ r₁ r₂ h₁ h₂ ha
    · have hsum := OrderedMap.sumBy_erase (fun r => r.handles.size) s.registry.sessions sessionID
      rw [hsession] at hsum
      rw [hh, herase, hcount]
      simp only [Option.map_some, Option.getD_some] at hsum
      omega

theorem sessionsSound_invariant : (ownership ε).Invariant SessionsSound where
  init := by
    rintro s rfl
    refine ⟨?_, ?_, rfl⟩
    · intro id record h
      cases h
    · intro id₁ id₂ record₁ record₂ h
      cases h
  step _ _ _ _ hs hstep := hs.step (sessionsChange_of_next hstep)

/-! ## A launch id is claimed through its ticket at most once -/

def TicketsSound (s : HostOwnership ε) : Prop := ∀ l k, s.tickets.get? l = some k → k.Sound

theorem ticketsSound_invariant : (ownership ε).Invariant TicketsSound where
  init := by
    rintro s rfl l k h
    cases h
  step s op t _ hs hstep l k hk := by
    cases ticketsChange_of_next hstep with
    | same h => exact hs l k (h ▸ hk)
    | made _ h =>
      rw [h, OrderedMap.get?_set] at hk
      split at hk
      · cases hk; exact fun hd => absurd rfl hd
      · exact hs l k hk
    | advanced hget hf h =>
      rw [h, OrderedMap.get?_set] at hk
      split at hk
      · cases hk; exact hf.sound _ (hs _ _ hget)
      · exact hs l k hk

/-- While a launch id's cleanup is active no new ticket takes its id, so a
spent ticket stays spent. -/
theorem claimOutstanding_of_next {s t : HostOwnership ε} {op : Op ε} {l : String}
    (h : next s op = some t) (hactive : l ∈ s.registry.activeCleanupResponsibilities)
    (hout : ¬ ClaimOutstanding s l) : ¬ ClaimOutstanding t l := by
  rintro ⟨k, hk, hn⟩
  cases ticketsChange_of_next h with
  | same ht => exact hout ⟨k, ht ▸ hk, hn⟩
  | made hfresh ht =>
    rw [ht, OrderedMap.get?_set] at hk
    split at hk
    · rename_i he
      exact fresh_inactive (he ▸ hfresh) hactive
    · exact hout ⟨k, hk, hn⟩
  | @advanced l' k' f hget hf ht =>
    rw [ht, OrderedMap.get?_set] at hk
    split at hk
    · rename_i he
      cases hk
      have hspent : k'.Spent := by
        by_contra hk'
        exact hout ⟨k', he ▸ hget, hk'⟩
      exact hn (hf.spent k' hspent)
    · exact hout ⟨k, hk, hn⟩

theorem claimOutstanding_of_claim {s t : HostOwnership ε} {l : String} {result : LaunchResult}
    (h : next s (.claim l result) = some t) : ClaimOutstanding s l := by
  obtain ⟨k, hk, hdue, -⟩ := payTicket_eq h
  exact ⟨k, hk, fun hspent => hspent.2 result hdue⟩

/-- A late cleanup is the ticket's one call: no claim can follow it. -/
theorem not_claimOutstanding_of_cleanupLate {s t : HostOwnership ε} {l : String}
    {result : LaunchResult} (hs : TicketsSound s) (h : next s (.cleanupLate l result) = some t) :
    ¬ ClaimOutstanding s l := by
  obtain ⟨k, hk, hdue, -⟩ := payTicket_eq h
  rintro ⟨k', hk', hn⟩
  obtain rfl : k' = k := Option.some.inj (hk'.symm.trans hk)
  refine hn ⟨hs l k' hk (by simp [hdue]), fun other ho => ?_⟩
  rw [hdue] at ho
  cases ho

/-! ## The window between permission and the end of the attempt -/

theorem grants_eq {s : HostOwnership ε} {op : Op ε} {l : String}
    {application : MacOSApplicationIdentity} {exc : Option String}
    (h : grants s op = some (l, application, exc)) :
    (op = .mayCleanup l application exc ∧ (s.registry.mayCleanup l application exc).1 = true) ∨
      (op = .cleanupLate l (.ok application) ∧ exc = none ∧
        (s.registry.cleanupLate l (.ok application)).1 = true) := by
  unfold grants at h
  split at h
  · split at h
    · cases h; exact .inl ⟨rfl, ‹_›⟩
    · cases h
  · split at h
    · cases h; exact .inr ⟨rfl, rfl, ‹_›⟩
    · cases h
  · cases h

theorem mayCleanup_true {r : MacOSOwnershipRegistry ε} {l : String}
    {application : MacOSApplicationIdentity} {exc : Option String}
    (h : (r.mayCleanup l application exc).1 = true) :
    (r.mayCleanup l application exc).2 = r.grantCleanup l application ∧
      (∀ id held, r.sessions.get? id = some held → held.application = application →
        some held.sessionID = exc) ∧
      (∀ l', r.unresolved.get? l' = some application → l' = l) ∧
      (∀ l', r.protectedConflicts.get? l' = some application → l' = l) := by
  unfold mayCleanup at h ⊢
  split at h
  · cases h
  · rename_i hactive
    split at h
    · cases h
    · rename_i hguard
      rw [if_neg hactive, if_neg hguard]
      simp only [Bool.or_eq_true, not_or, Bool.not_eq_true] at hguard
      obtain ⟨⟨hs, hu⟩, hp⟩ := hguard
      refine ⟨rfl, fun id held hr ha => ?_, fun l' hl => ?_, fun l' hl => ?_⟩
      · simpa [ha] using anySession_eq_false.mp hs id held hr
      · exact Option.some.inj (heldByOther_eq_false.mp hu l' hl)
      · exact Option.some.inj (heldByOther_eq_false.mp hp l' hl)

theorem cleanupLate_true {r : MacOSOwnershipRegistry ε} {l : String}
    {application : MacOSApplicationIdentity}
    (h : (r.cleanupLate l (.ok application)).1 = true) :
    (r.cleanupLate l (.ok application)).2 = r.grantCleanup l application ∧
      (∀ id held, r.sessions.get? id = some held → held.application ≠ application) ∧
      (∀ l', r.unresolved.get? l' = some application → l' = l) ∧
      (∀ l', r.protectedConflicts.get? l' = some application → l' = l) := by
  simp only [cleanupLate] at h ⊢
  split at h
  · cases h
  · rename_i hactive
    split at h
    · cases h
    · rename_i hguard
      rw [if_neg hactive, if_neg hguard]
      simp only [Bool.or_eq_true, not_or, Bool.not_eq_true] at hguard
      obtain ⟨⟨hs, hu⟩, hp⟩ := hguard
      refine ⟨rfl, fun id held hr => ?_, fun l' hl => ?_, fun l' hl => ?_⟩
      · simpa using anySession_eq_false.mp hs id held hr
      · exact Option.some.inj (heldByOther_eq_false.mp hu l' hl)
      · exact Option.some.inj (heldByOther_eq_false.mp hp l' hl)

theorem noOtherHolder_of_grants {s : HostOwnership ε} {op : Op ε} {l : String}
    {application : MacOSApplicationIdentity} {exc : Option String} (hs : SessionsSound s)
    (h : grants s op = some (l, application, exc)) :
    NoOtherHolder s.registry l application exc := by
  obtain ⟨-, hm⟩ | ⟨-, -, hm⟩ := grants_eq h
  · obtain ⟨-, hsess, hu, hp⟩ := mayCleanup_true hm
    refine ⟨fun id record hr ha => ?_, hu, hp⟩
    rw [← hs.sessionID id record hr]
    exact hsess id record hr ha
  · obtain ⟨-, hsess, hu, hp⟩ := cleanupLate_true hm
    exact ⟨fun id record hr ha => absurd ha (hsess id record hr), hu, hp⟩

/-- A permission opens the window. -/
theorem cleaning_of_grants {s t : HostOwnership ε} {op : Op ε} {l : String}
    {application : MacOSApplicationIdentity} {exc : Option String}
    (h : grants s op = some (l, application, exc)) (hstep : next s op = some t) :
    Cleaning t.registry l (some application) := by
  have hgrant : t.registry = s.registry.grantCleanup l application := by
    obtain ⟨rfl, hm⟩ | ⟨rfl, -, hm⟩ := grants_eq h
    · cases hstep
      exact (mayCleanup_true hm).1
    · obtain ⟨_, _, _, rfl⟩ := payTicket_eq hstep
      exact (cleanupLate_true hm).1
  rw [hgrant]
  refine ⟨Finset.mem_insert_self _ _, ?_⟩
  rintro _ ⟨⟩
  simp [grantCleanup]

/-- Giving permission uses no claim and leaves none. -/
theorem claimOutstanding_of_grants {s t : HostOwnership ε} {op : Op ε} {l : String}
    {application : MacOSApplicationIdentity} {exc : Option String}
    (h : grants s op = some (l, application, exc)) (hstep : next s op = some t)
    (hout : ¬ ClaimOutstanding s l) : ¬ ClaimOutstanding t l := by
  obtain ⟨rfl, -⟩ | ⟨rfl, -, -⟩ := grants_eq h
  · cases hstep
    exact hout
  · obtain ⟨k, hk, -, rfl⟩ := payTicket_eq hstep
    rintro ⟨k', hk', hn⟩
    have hspent : k.Spent := by
      by_contra hk
      exact hout ⟨k, ‹_›, hk⟩
    simp only [OrderedMap.get?_set, if_true, Option.some.injEq] at hk'
    exact hn (hk' ▸ paid_advances.spent k hspent)

theorem cleaning_of_exec {s t : HostOwnership ε} {mid : List (Op ε)} {l : String}
    {kept : Option MacOSApplicationIdentity} (he : (ownership ε).Exec s mid t)
    (hc : Cleaning s.registry l kept) (hmid : ∀ op ∈ mid, ¬ EndsCleaning l kept op) :
    Cleaning t.registry l kept := by
  induction he with
  | nil => exact hc
  | snoc _ hs ih =>
    have hprev := ih fun op hop => hmid op (List.mem_append_left _ hop)
    exact cleaning_of_next hs hprev (hmid _ (by simp))

/-- Without an outstanding claim none happens in the window. -/
theorem no_claim_of_exec {s t : HostOwnership ε} {mid : List (Op ε)} {l : String}
    (he : (ownership ε).Exec s mid t) (hc : Cleaning s.registry l none)
    (hout : ¬ ClaimOutstanding s l) (hfin : .finishCleanupAttempt l ∉ mid) :
    ¬ ClaimOutstanding t l ∧ ∀ result, .claim l result ∉ mid := by
  induction he with
  | nil => exact ⟨hout, fun _ h => nomatch h⟩
  | @snoc u v as a hexec hs ih =>
    obtain ⟨hprev, hno⟩ := ih fun h => hfin (List.mem_append_left _ h)
    have hcu : Cleaning u.registry l none := by
      refine cleaning_of_exec hexec hc fun op hop hends => ?_
      obtain rfl | ⟨hk, -⟩ := hends
      · exact hfin (List.mem_append_left _ hop)
      · exact hk rfl
    refine ⟨claimOutstanding_of_next hs hcu.active hprev, fun result hmem => ?_⟩
    rcases List.mem_append.mp hmem with h | h
    · exact hno result h
    · rw [List.mem_singleton] at h
      subst h
      exact hprev (claimOutstanding_of_claim hs)

theorem grants_none_of_cleaning {s : HostOwnership ε} {l : String}
    {kept : Option MacOSApplicationIdentity} (hc : Cleaning s.registry l kept) (op : Op ε)
    (application : MacOSApplicationIdentity) (exc : Option String) :
    grants s op ≠ some (l, application, exc) := by
  intro h
  obtain ⟨-, hm⟩ | ⟨-, -, hm⟩ := grants_eq h
  · rw [hc.mayCleanup_same] at hm; cases hm
  · rw [hc.cleanupLate_same] at hm; cases hm

theorem registers_none_of_cleaning {s : HostOwnership ε} {l : String}
    {application : MacOSApplicationIdentity} (hc : Cleaning s.registry l (some application))
    (op : Op ε) {launchID : Option String} (hne : launchID ≠ some l) :
    registers s op ≠ some (launchID, application) := by
  intro h
  unfold registers at h
  split at h
  · split at h
    · rename_i result hr
      cases h
      have hreg : Registered s.registry _ _ _ result.1 result.2 := register_ok hr
      exact hne (hreg.noUnresolved l (hc.unresolved application rfl)).symm
    · cases h
  · cases h

/-! ## Safety of every reachable registry -/

/-- What holds of a host in a given state, and of everything it can do next. -/
structure RegistrySafe (s : HostOwnership ε) : Prop where
  /-- Permission is given only when nobody else holds the application. -/
  permission : ∀ op l application exc, grants s op = some (l, application, exc) →
    NoOtherHolder s.registry l application exc
  /-- Until the attempt is finished the launch id gets no second permission. -/
  noSecondCleanup : ∀ op l application exc t mid u, grants s op = some (l, application, exc) →
    next s op = some t → (ownership ε).Exec t mid u → .finishCleanupAttempt l ∉ mid →
    ∀ op' application' exc', grants u op' ≠ some (l, application', exc')
  /-- Until the attempt is finished or its unresolved entry is removed, no
  other launch id registers the application. Only a claim that was still
  outstanding when permission was given can displace the entry. -/
  noRegistration : ∀ op l application exc t mid u, grants s op = some (l, application, exc) →
    next s op = some t → (ownership ε).Exec t mid u → .finishCleanupAttempt l ∉ mid →
    .resolveUnresolved l ∉ mid →
    (¬ ClaimOutstanding s l ∨ ∀ other, .claim l (.ok other) ∉ mid) →
    ∀ op' launchID, launchID ≠ some l → registers u op' ≠ some (launchID, application)
  /-- A late cleanup is made by a ticket without an outstanding claim. -/
  lateCleanup : ∀ l result t, next s (.cleanupLate l result) = some t → ¬ ClaimOutstanding s l
  exclusive : ∀ id₁ id₂ record₁ record₂, s.registry.sessions.get? id₁ = some record₁ →
    s.registry.sessions.get? id₂ = some record₂ → record₁.application = record₂.application →
    id₁ = id₂
  handleCount : s.registry.handleCount = s.registry.sessions.sumBy fun r => r.handles.size

theorem ownership_registry_safe {s : HostOwnership ε} (h : (ownership ε).Reachable s) :
    RegistrySafe s := by
  have hsess : SessionsSound s := sessionsSound_invariant.reachable h
  have htick : TicketsSound s := ticketsSound_invariant.reachable h
  refine ⟨fun op l application exc hg => noOtherHolder_of_grants hsess hg, ?_, ?_,
    fun l result t ht => not_claimOutstanding_of_cleanupLate htick ht,
    hsess.exclusive, hsess.handleCount⟩
  · intro op l application exc t mid u hg hstep hexec hfin op' application' exc'
    have hopen : Cleaning t.registry l none := (cleaning_of_grants hg hstep).weaken
    have hclosed : Cleaning u.registry l none := by
      refine cleaning_of_exec hexec hopen fun a ha hends => ?_
      obtain rfl | ⟨hk, -⟩ := hends
      · exact hfin ha
      · exact hk rfl
    exact grants_none_of_cleaning hclosed op' application' exc'
  · intro op l application exc t mid u hg hstep hexec hfin hres hclaim op' launchID hne
    have hopen : Cleaning t.registry l (some application) := cleaning_of_grants hg hstep
    have hnoclaim : ∀ other, .claim l (.ok other) ∉ mid := by
      rcases hclaim with hout | hno
      · have hout' : ¬ ClaimOutstanding t l := claimOutstanding_of_grants hg hstep hout
        intro other
        exact (no_claim_of_exec hexec hopen.weaken hout' hfin).2 (.ok other)
      · exact hno
    have hclosed : Cleaning u.registry l (some application) := by
      refine cleaning_of_exec hexec hopen fun a ha hends => ?_
      obtain rfl | ⟨-, rfl | ⟨other, rfl⟩⟩ := hends
      · exact hfin ha
      · exact hres ha
      · exact hnoclaim other ha
    exact registers_none_of_cleaning hclosed op' hne

/-! ## The unresolved entry goes before the attempt ends -/

/-- Registrations stay out from every permission until a section of `ends`. -/
def KeepsRegistrationsOut (ε : Type) (ends : String → Op ε → Prop) : Prop :=
  ∀ s t u op l application exc mid, (ownership ε).Reachable s →
    grants s op = some (l, application, exc) → next s op = some t →
    (ownership ε).Exec t mid u → (∀ a ∈ mid, ¬ ends l a) →
    ∀ op' launchID, launchID ≠ some l → registers u op' ≠ some (launchID, application)

def launchedApplication : MacOSApplicationIdentity := ⟨4242, 1700000000, 250, some "demo.app"⟩

def otherApplication : MacOSApplicationIdentity := ⟨4243, 1700000001, 0, none⟩

/-- A launch received, claimed and waiting for its session. -/
def launched : HostOwnership Unit :=
  (System.replay next .initial
    [.makeLateLaunch "launch-1", .receive "launch-1" (.ok launchedApplication),
     .claimTicket "launch-1", .claim "launch-1" (.ok launchedApplication)]).get (by decide)

theorem launched_reachable : (ownership Unit).Reachable launched :=
  System.reachable_of_replay (Option.some_get _).symm

/-- The cleanup of `launched` has permission. -/
def cleaning : HostOwnership Unit :=
  (next launched (.mayCleanup "launch-1" launchedApplication none)).get (by decide)

/-- The application is proven stopped, the attempt not yet finished. -/
def resolved : HostOwnership Unit :=
  (System.replay next cleaning
    [.recordCleanup "launch-1" launchedApplication true, .resolveUnresolved "launch-1"]).get
    (by decide)

/-- A launch whose ticket is about to claim a second application. -/
def claiming : HostOwnership Unit :=
  (System.replay next .initial
    [.makeLateLaunch "launch-1", .receive "launch-1" (.ok otherApplication),
     .claimTicket "launch-1"]).get (by decide)

theorem claiming_reachable : (ownership Unit).Reachable claiming :=
  System.reachable_of_replay (Option.some_get _).symm

def claimingCleaning : HostOwnership Unit :=
  (next claiming (.mayCleanup "launch-1" launchedApplication none)).get (by decide)

def displaced : HostOwnership Unit :=
  (next claimingCleaning (.claim "launch-1" (.ok otherApplication))).get (by decide)

/-- The end of the attempt is not what ends the window: once the unresolved
entry is removed, or displaced by an outstanding claim, an attach to the same
application registers it while the cleanup is still active. -/
theorem registration_before_attempt_finished :
    ¬ KeepsRegistrationsOut Unit (fun l a => a = .finishCleanupAttempt l) ∧
      ¬ KeepsRegistrationsOut Unit
        (fun l a => a = .finishCleanupAttempt l ∨ a = .resolveUnresolved l) := by
  constructor
  · intro hout
    have hexec : (ownership Unit).Exec cleaning
        [.recordCleanup "launch-1" launchedApplication true, .resolveUnresolved "launch-1"]
        resolved := System.exec_of_replay _ _ _ (Option.some_get _).symm
    exact hout launched cleaning resolved _ "launch-1" launchedApplication none _
      launched_reachable (by decide) (Option.some_get _).symm hexec (by simp)
      (.register launchedApplication .borrowed () none "session-1" "handle-1") none (by simp)
      (by decide)
  · intro hout
    have hexec : (ownership Unit).Exec claimingCleaning
        [.claim "launch-1" (.ok otherApplication)] displaced :=
      System.exec_of_replay _ _ _ (by simp [System.replay, displaced])
    exact hout claiming claimingCleaning displaced _ "launch-1" launchedApplication none _
      claiming_reachable (by decide) (Option.some_get _).symm hexec (by simp)
      (.register launchedApplication .borrowed () none "session-1" "handle-1") none (by simp)
      (by decide)

/-- `launched` is safe, and gives the permission the properties speak of. -/
theorem launched_safe : RegistrySafe launched ∧
    grants launched (.mayCleanup "launch-1" launchedApplication none) =
      some ("launch-1", launchedApplication, none) :=
  ⟨ownership_registry_safe launched_reachable, by decide⟩

end SurfaceLoom.MacOS.OwnershipSafety
