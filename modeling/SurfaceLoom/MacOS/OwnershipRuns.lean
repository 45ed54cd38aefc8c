import SurfaceLoom.Lib.Transition
import SurfaceLoom.MacOS.OwnershipRegistry

/-! # Runs of the ownership registry and its launch tickets

The threads of the host interleave the locked sections of the registry with
those of the launch tickets, so a run is any sequence of sections in which
every registry call a ticket makes follows the section that claimed it. This
file says once what a section can do to the sessions, to the window between a
permission to clean up and the end of the attempt, and to the tickets. -/
namespace SurfaceLoom.MacOS.OwnershipRuns
open SurfaceLoom.Lib SurfaceLoom.Lib.Transition SurfaceLoom.Native.Wire
open SurfaceLoom.MacOS.OwnershipRegistry SurfaceLoom.MacOS.OwnershipRegistry.MacOSOwnershipRegistry

variable {ε : Type}

/-! ## Launch tickets -/

inductive TicketState
  | waiting
  | received (result : LaunchResult)
  | abandoned
  | claimed

/-- The registry call a ticket makes after it released its own lock. -/
inductive TicketCall
  | claim (result : LaunchResult)
  | cleanupLate (result : LaunchResult)
  | cancelUnsubmitted
  deriving DecidableEq

structure MacOSLateLaunchTicket where
  state : TicketState
  due : Option TicketCall

namespace MacOSLateLaunchTicket

def new : MacOSLateLaunchTicket := ⟨.waiting, none⟩

/-- The section of `receive` after `notePendingIdentity`. -/
def receive (t : MacOSLateLaunchTicket) (result : LaunchResult) : MacOSLateLaunchTicket :=
  match t.state with
  | .waiting => { t with state := .received result }
  | .abandoned => ⟨.claimed, some (.cleanupLate result)⟩
  | .received _ | .claimed => t

def claim (t : MacOSLateLaunchTicket) : MacOSLateLaunchTicket :=
  match t.state with
  | .received result => ⟨.claimed, some (.claim result)⟩
  | .waiting | .abandoned | .claimed => t

def abandon (t : MacOSLateLaunchTicket) : MacOSLateLaunchTicket :=
  match t.state with
  | .waiting => { t with state := .abandoned }
  | .received result => ⟨.claimed, some (.cleanupLate result)⟩
  | .abandoned | .claimed => t

def cancelBeforeSubmission (t : MacOSLateLaunchTicket) : MacOSLateLaunchTicket :=
  match t.state with
  | .waiting => ⟨.claimed, some .cancelUnsubmitted⟩
  | .received _ | .abandoned | .claimed => t

def paid (t : MacOSLateLaunchTicket) : MacOSLateLaunchTicket := { t with due := none }

/-- The ticket will not call `claim` on the registry any more. -/
def Spent (t : MacOSLateLaunchTicket) : Prop :=
  t.state = .claimed ∧ ∀ result, t.due ≠ some (.claim result)

/-- A call is due only once the ticket is claimed. -/
def Sound (t : MacOSLateLaunchTicket) : Prop := t.due ≠ none → t.state = .claimed

end MacOSLateLaunchTicket

/-! ## Runs -/

structure HostOwnership (ε : Type) where
  registry : MacOSOwnershipRegistry ε
  tickets : OrderedMap String MacOSLateLaunchTicket

/-- One locked section. Ids drawn inside a section are part of its label. -/
inductive Op (ε : Type)
  | makeLateLaunch (launchID : String)
  | register (application : MacOSApplicationIdentity) (ownership : MacOSSessionOwnership)
      (root : ε) (launchID : Option String) (sessionID rootID : String)
  | remember (sessionID : String) (element : ε) (handleID : String)
  | removeSession (sessionID : String)
  | notePendingIdentity (launchID : String) (application : MacOSApplicationIdentity)
  | receive (launchID : String) (result : LaunchResult)
  | claimTicket (launchID : String)
  | abandon (launchID : String)
  | cancelBeforeSubmission (launchID : String)
  | claim (launchID : String) (result : LaunchResult)
  | cancelUnsubmitted (launchID : String)
  | cleanupLate (launchID : String) (result : LaunchResult)
  | mayCleanup (launchID : String) (application : MacOSApplicationIdentity)
      (excludingSessionID : Option String)
  | recordCleanup (launchID : String) (application : MacOSApplicationIdentity) (stopped : Bool)
  | resolveUnresolved (launchID : String)
  | finishCleanupAttempt (launchID : String)
  | finishLateCleanup (launchID : String)

namespace HostOwnership

def initial : HostOwnership ε := ⟨.initial, .empty⟩

/-- A fresh random id is a key of no table. -/
def fresh (s : HostOwnership ε) (id : String) : Bool :=
  !s.registry.sessions.has id && (s.registry.sessions.values.all fun r => !r.handles.has id)
    && decide (id ∉ s.registry.pending) && !s.registry.pendingIdentities.has id
    && !s.registry.unresolved.has id && decide (id ∉ s.registry.activeCleanupResponsibilities)
    && !s.registry.protectedConflicts.has id && decide (id ∉ s.registry.unconfirmedLaunches)
    && !s.tickets.has id

def onTicket (s : HostOwnership ε) (launchID : String)
    (f : MacOSLateLaunchTicket → MacOSLateLaunchTicket) : Option (HostOwnership ε) :=
  (s.tickets.get? launchID).map fun t => { s with tickets := s.tickets.set launchID (f t) }

/-- Make the registry call that the ticket of `launchID` owes. -/
def payTicket (s : HostOwnership ε) (launchID : String) (call : TicketCall)
    (r : MacOSOwnershipRegistry ε) : Option (HostOwnership ε) :=
  match s.tickets.get? launchID with
  | none => none
  | some t =>
    if t.due = some call then some ⟨r, s.tickets.set launchID t.paid⟩ else none

/-- A failed `register`, `remember` or `makeLateLaunch` changes nothing. No
registration names a launch id whose cleanup is active. -/
def next (s : HostOwnership ε) : Op ε → Option (HostOwnership ε)
  | .makeLateLaunch launchID =>
    if s.fresh launchID then
      match s.registry.makeLateLaunch launchID with
      | .ok r => some ⟨r, s.tickets.set launchID .new⟩
      | .error _ => some s
    else none
  | .register application ownership root launchID sessionID rootID =>
    if s.fresh sessionID ∧ s.fresh rootID ∧
        ∀ l ∈ launchID, l ∉ s.registry.activeCleanupResponsibilities then
      match s.registry.register application ownership root launchID sessionID rootID with
      | .ok (_, r) => some { s with registry := r }
      | .error _ => some s
    else none
  | .remember sessionID element handleID =>
    if s.fresh handleID then
      match s.registry.remember sessionID element handleID with
      | .ok r => some { s with registry := r }
      | .error _ => some s
    else none
  | .removeSession sessionID => some { s with registry := (s.registry.removeSession sessionID).2 }
  | .notePendingIdentity launchID application =>
    some { s with registry := s.registry.notePendingIdentity launchID application }
  | .receive launchID result => s.onTicket launchID fun t => t.receive result
  | .claimTicket launchID => s.onTicket launchID fun t => t.claim
  | .abandon launchID => s.onTicket launchID fun t => t.abandon
  | .cancelBeforeSubmission launchID => s.onTicket launchID fun t => t.cancelBeforeSubmission
  | .claim launchID result =>
    s.payTicket launchID (.claim result) (s.registry.claim launchID result)
  | .cancelUnsubmitted launchID =>
    s.payTicket launchID .cancelUnsubmitted (s.registry.cancelUnsubmitted launchID)
  | .cleanupLate launchID result =>
    s.payTicket launchID (.cleanupLate result) (s.registry.cleanupLate launchID result).2
  | .mayCleanup launchID application excludingSessionID =>
    some { s with
      registry := (s.registry.mayCleanup launchID application excludingSessionID).2 }
  | .recordCleanup launchID application stopped =>
    some { s with registry := s.registry.recordCleanup launchID application stopped }
  | .resolveUnresolved launchID =>
    some { s with registry := s.registry.resolveUnresolved launchID }
  | .finishCleanupAttempt launchID =>
    some { s with registry := s.registry.finishCleanupAttempt launchID }
  | .finishLateCleanup launchID =>
    some { s with registry := s.registry.finishLateCleanup launchID }

end HostOwnership

open HostOwnership

def ownership (ε : Type) : System (HostOwnership ε) (Op ε) := .ofMachine .initial next

/-- The permission a section gives: launch id, application and the session
the caller excludes as its own. -/
def grants (s : HostOwnership ε) : Op ε → Option (String × MacOSApplicationIdentity × Option String)
  | .mayCleanup launchID application excludingSessionID =>
    if (s.registry.mayCleanup launchID application excludingSessionID).1 then
      some (launchID, application, excludingSessionID)
    else none
  | .cleanupLate launchID (.ok application) =>
    if (s.registry.cleanupLate launchID (.ok application)).1 then
      some (launchID, application, none)
    else none
  | _ => none

/-- The launch id and application of a registration that succeeds. -/
def registers (s : HostOwnership ε) : Op ε → Option (Option String × MacOSApplicationIdentity)
  | .register application ownership root launchID sessionID rootID =>
    match s.registry.register application ownership root launchID sessionID rootID with
    | .ok _ => some (launchID, application)
    | .error _ => none
  | _ => none

/-- No session but the excluded one, and no entry of another launch id, holds
the application. -/
structure NoOtherHolder (r : MacOSOwnershipRegistry ε) (launchID : String)
    (application : MacOSApplicationIdentity) (excludingSessionID : Option String) : Prop where
  sessions : ∀ id record, r.sessions.get? id = some record → record.application = application →
    some id = excludingSessionID
  unresolved : ∀ l, r.unresolved.get? l = some application → l = launchID
  protectedConflicts : ∀ l, r.protectedConflicts.get? l = some application → l = launchID

/-- The ticket of `launchID` has not used up its one claim. -/
def ClaimOutstanding (s : HostOwnership ε) (launchID : String) : Prop :=
  ∃ t, s.tickets.get? launchID = some t ∧ ¬ t.Spent

/-! ## What one section changes -/

section Step

variable {s t : HostOwnership ε} {op : Op ε}

theorem onTicket_eq {l : String} {f : MacOSLateLaunchTicket → MacOSLateLaunchTicket}
    (h : s.onTicket l f = some t) :
    ∃ k, s.tickets.get? l = some k ∧ t = { s with tickets := s.tickets.set l (f k) } := by
  obtain ⟨k, hk, rfl⟩ := Option.map_eq_some_iff.mp h
  exact ⟨k, hk, rfl⟩

theorem payTicket_eq {l : String} {call : TicketCall} {r : MacOSOwnershipRegistry ε}
    (h : s.payTicket l call r = some t) :
    ∃ k, s.tickets.get? l = some k ∧ k.due = some call ∧ t = ⟨r, s.tickets.set l k.paid⟩ := by
  unfold payTicket at h
  split at h
  · cases h
  · rename_i k hk
    split at h
    · rename_i hdue
      cases h
      exact ⟨k, hk, hdue, rfl⟩
    · cases h

/-- The four things a section can do to the sessions and the handle count. -/
inductive SessionsChange (s t : HostOwnership ε) : Op ε → Prop
  | same {op : Op ε} : SameSessions s.registry t.registry → SessionsChange s t op
  | registered {application : MacOSApplicationIdentity} {ownership : MacOSSessionOwnership}
      {root : ε} {launchID : Option String} {sessionID rootID : String}
      {record : MacOSSessionRecord ε} :
      s.fresh sessionID → Registered s.registry application launchID sessionID record t.registry →
      SessionsChange s t (.register application ownership root launchID sessionID rootID)
  | remembered {sessionID handleID : String} {element : ε} {session : MacOSSessionRecord ε} :
      s.fresh handleID → s.registry.sessions.get? sessionID = some session →
      t.registry.sessions = s.registry.sessions.set sessionID
        { session with handles := session.handles.set handleID element } →
      t.registry.handleCount = s.registry.handleCount + 1 →
      SessionsChange s t (.remember sessionID element handleID)
  | removed {sessionID : String} {session : MacOSSessionRecord ε} :
      s.registry.sessions.get? sessionID = some session →
      t.registry.sessions = s.registry.sessions.erase sessionID →
      t.registry.handleCount = s.registry.handleCount - session.handles.size →
      SessionsChange s t (.removeSession sessionID)

theorem sessionsChange_of_next (h : next s op = some t) : SessionsChange s t op := by
  cases op with
  | makeLateLaunch l =>
    simp only [next] at h
    split at h
    · split at h
      · rename_i r hr
        unfold makeLateLaunch at hr
        split at hr
        · cases hr; cases h; exact .same ⟨rfl, rfl⟩
        · cases hr
      · cases h; exact .same ⟨rfl, rfl⟩
    · cases h
  | register application ownership root launchID sessionID rootID =>
    simp only [next] at h
    split at h
    · rename_i hfresh
      split at h
      · rename_i record r hr
        cases h
        exact .registered hfresh.1 (register_ok hr)
      · cases h; exact .same ⟨rfl, rfl⟩
    · cases h
  | remember sessionID element handleID =>
    simp only [next] at h
    split at h
    · rename_i hfresh
      split at h
      · rename_i r hr
        cases h
        unfold MacOSOwnershipRegistry.remember at hr
        split at hr
        · cases hr
        · rename_i session hsession
          split at hr
          · cases hr
            exact .remembered hfresh hsession rfl rfl
          · cases hr
      · cases h; exact .same ⟨rfl, rfl⟩
    · cases h
  | removeSession sessionID =>
    cases h
    cases hs : s.registry.sessions.get? sessionID with
    | none => exact .same (by simp [SameSessions, MacOSOwnershipRegistry.removeSession, hs])
    | some session =>
      exact .removed hs (by simp [MacOSOwnershipRegistry.removeSession, hs])
        (by simp [MacOSOwnershipRegistry.removeSession, hs])
  | notePendingIdentity l application =>
    cases h
    simp only [MacOSOwnershipRegistry.notePendingIdentity]
    refine .same ?_
    split
    · exact ⟨rfl, rfl⟩
    · exact ⟨rfl, rfl⟩
  | receive l result => obtain ⟨_, _, rfl⟩ := onTicket_eq h; exact .same ⟨rfl, rfl⟩
  | claimTicket l => obtain ⟨_, _, rfl⟩ := onTicket_eq h; exact .same ⟨rfl, rfl⟩
  | abandon l => obtain ⟨_, _, rfl⟩ := onTicket_eq h; exact .same ⟨rfl, rfl⟩
  | cancelBeforeSubmission l => obtain ⟨_, _, rfl⟩ := onTicket_eq h; exact .same ⟨rfl, rfl⟩
  | claim l result =>
    obtain ⟨_, _, _, rfl⟩ := payTicket_eq h
    exact .same (claim_sameSessions _ l result)
  | cancelUnsubmitted l => obtain ⟨_, _, _, rfl⟩ := payTicket_eq h; exact .same ⟨rfl, rfl⟩
  | cleanupLate l result =>
    obtain ⟨_, _, _, rfl⟩ := payTicket_eq h
    exact .same (cleanupLate_sameSessions _ l result)
  | mayCleanup l application exc => cases h; exact .same (mayCleanup_sameSessions _ l application exc)
  | recordCleanup l application stopped =>
    cases h
    exact .same (by simp [SameSessions, MacOSOwnershipRegistry.recordCleanup])
  | resolveUnresolved l => cases h; exact .same ⟨rfl, rfl⟩
  | finishCleanupAttempt l => cases h; exact .same ⟨rfl, rfl⟩
  | finishLateCleanup l => cases h; exact .same ⟨rfl, rfl⟩

/-- The sections that end the window a permission opens: the end of the
attempt, and where `kept` names an application also what takes it out of the
unresolved entries. -/
def EndsCleaning (l : String) (kept : Option MacOSApplicationIdentity) (op : Op ε) : Prop :=
  op = .finishCleanupAttempt l ∨
    (kept ≠ none ∧ (op = .resolveUnresolved l ∨ ∃ application, op = .claim l (.ok application)))

/-- Every other section keeps the window open. -/
theorem cleaning_of_next {l : String} {kept : Option MacOSApplicationIdentity}
    (h : next s op = some t) (hc : Cleaning s.registry l kept)
    (hop : ¬ EndsCleaning l kept op) : Cleaning t.registry l kept := by
  cases op with
  | makeLateLaunch l' =>
    simp only [next] at h
    split at h
    · split at h
      · rename_i r hr
        unfold makeLateLaunch at hr
        split at hr
        · cases hr; cases h; exact hc.of_eq rfl rfl
        · cases hr
      · cases h; exact hc
    · cases h
  | register application' ownership root launchID sessionID rootID =>
    simp only [next] at h
    split at h
    · rename_i hguard
      split at h
      · rename_i record r hr
        cases h
        have hreg := register_ok hr
        have hne : some l ≠ launchID := fun he => hguard.2.2 l (he ▸ rfl) hc.active
        exact hc.of_eq hreg.active (hreg.unresolved l hne)
      · cases h; exact hc
    · cases h
  | remember sessionID element handleID =>
    simp only [next] at h
    split at h
    · split at h
      · rename_i r hr
        cases h
        unfold MacOSOwnershipRegistry.remember at hr
        split at hr
        · cases hr
        · split at hr
          · cases hr; exact hc.of_eq rfl rfl
          · cases hr
      · cases h; exact hc
    · cases h
  | removeSession sessionID =>
    cases h
    cases hs : s.registry.sessions.get? sessionID with
    | none => simpa [MacOSOwnershipRegistry.removeSession, hs] using hc
    | some session =>
      exact hc.of_eq (by simp [MacOSOwnershipRegistry.removeSession, hs])
        (by simp [MacOSOwnershipRegistry.removeSession, hs])
  | notePendingIdentity l' application' =>
    cases h
    simp only [MacOSOwnershipRegistry.notePendingIdentity]
    split
    · exact hc.of_eq rfl rfl
    · exact hc
  | receive l' result => obtain ⟨_, _, rfl⟩ := onTicket_eq h; exact hc
  | claimTicket l' => obtain ⟨_, _, rfl⟩ := onTicket_eq h; exact hc
  | abandon l' => obtain ⟨_, _, rfl⟩ := onTicket_eq h; exact hc
  | cancelBeforeSubmission l' => obtain ⟨_, _, rfl⟩ := onTicket_eq h; exact hc
  | claim l' result =>
    obtain ⟨_, _, _, rfl⟩ := payTicket_eq h
    cases result with
    | error error => exact hc.claim_error l' error
    | ok other =>
      refine hc.claim_ok (fun he => ?_) other
      by_contra hk
      exact hop (.inr ⟨hk, .inr ⟨other, by rw [he]⟩⟩)
  | cancelUnsubmitted l' => obtain ⟨_, _, _, rfl⟩ := payTicket_eq h; exact hc.of_eq rfl rfl
  | cleanupLate l' result =>
    obtain ⟨_, _, _, rfl⟩ := payTicket_eq h
    exact hc.cleanupLate l' result
  | mayCleanup l' application' exc => cases h; exact hc.mayCleanup l' application' exc
  | recordCleanup l' application' stopped =>
    cases h
    exact hc.of_eq (by simp [MacOSOwnershipRegistry.recordCleanup])
      (by simp [MacOSOwnershipRegistry.recordCleanup])
  | resolveUnresolved l' =>
    cases h
    refine ⟨hc.active, fun application hk => ?_⟩
    have hkept : kept ≠ none := by rintro rfl; cases hk
    have hne : l ≠ l' := fun he => hop (.inr ⟨hkept, .inl (by rw [he])⟩)
    simp [MacOSOwnershipRegistry.resolveUnresolved, hne, hc.unresolved application hk]
  | finishCleanupAttempt l' =>
    cases h
    have hne : l ≠ l' := fun he => hop (.inl (by rw [he]))
    exact ⟨Finset.mem_erase.mpr ⟨hne, hc.active⟩, hc.unresolved⟩
  | finishLateCleanup l' => cases h; exact hc.of_eq rfl rfl

end Step

/-! ## What one section does to the tickets -/

namespace MacOSLateLaunchTicket

/-- What a ticket section may do: keep the ticket sound and spend it for good. -/
structure Advances (f : MacOSLateLaunchTicket → MacOSLateLaunchTicket) : Prop where
  sound : ∀ k, k.Sound → (f k).Sound
  spent : ∀ k, k.Spent → (f k).Spent

theorem receive_advances (result : LaunchResult) : Advances fun k => k.receive result := by
  constructor
  · rintro ⟨state, due⟩ hs
    cases state with
    | waiting => exact fun hd => absurd (hs hd) (by simp)
    | received _ => exact hs
    | abandoned => exact fun _ => rfl
    | claimed => exact hs
  · rintro ⟨state, due⟩ ⟨rfl, hn⟩
    exact ⟨rfl, hn⟩

theorem claim_advances : Advances claim := by
  constructor
  · rintro ⟨state, due⟩ hs
    cases state with
    | received _ => exact fun _ => rfl
    | waiting => exact hs
    | abandoned => exact hs
    | claimed => exact hs
  · rintro ⟨state, due⟩ ⟨rfl, hn⟩
    exact ⟨rfl, hn⟩

theorem abandon_advances : Advances abandon := by
  constructor
  · rintro ⟨state, due⟩ hs
    cases state with
    | waiting => exact fun hd => absurd (hs hd) (by simp)
    | received _ => exact fun _ => rfl
    | abandoned => exact hs
    | claimed => exact hs
  · rintro ⟨state, due⟩ ⟨rfl, hn⟩
    exact ⟨rfl, hn⟩

theorem cancelBeforeSubmission_advances : Advances cancelBeforeSubmission := by
  constructor
  · rintro ⟨state, due⟩ hs
    cases state with
    | waiting => exact fun _ => rfl
    | received _ => exact hs
    | abandoned => exact hs
    | claimed => exact hs
  · rintro ⟨state, due⟩ ⟨rfl, hn⟩
    exact ⟨rfl, hn⟩

theorem paid_advances : Advances paid := by
  constructor
  · intro k _ hd
    exact absurd rfl hd
  · rintro k ⟨hstate, _⟩
    exact ⟨hstate, fun _ h => nomatch h⟩

end MacOSLateLaunchTicket

open MacOSLateLaunchTicket

/-- The two things a section can do to the tickets. -/
inductive TicketsChange (s t : HostOwnership ε) : Prop
  | same : t.tickets = s.tickets → TicketsChange s t
  | made {l : String} : s.fresh l → t.tickets = s.tickets.set l .new → TicketsChange s t
  | advanced {l : String} {k : MacOSLateLaunchTicket}
      {f : MacOSLateLaunchTicket → MacOSLateLaunchTicket} :
      s.tickets.get? l = some k → Advances f → t.tickets = s.tickets.set l (f k) →
      TicketsChange s t

theorem ticketsChange_of_onTicket {s t : HostOwnership ε} {l : String}
    {f : MacOSLateLaunchTicket → MacOSLateLaunchTicket} (hf : Advances f)
    (h : s.onTicket l f = some t) : TicketsChange s t := by
  obtain ⟨k, hk, rfl⟩ := onTicket_eq h
  exact .advanced hk hf rfl

theorem ticketsChange_of_payTicket {s t : HostOwnership ε} {l : String} {call : TicketCall}
    {r : MacOSOwnershipRegistry ε} (h : s.payTicket l call r = some t) : TicketsChange s t := by
  obtain ⟨k, hk, -, rfl⟩ := payTicket_eq h
  exact .advanced hk paid_advances rfl

theorem ticketsChange_of_next {s t : HostOwnership ε} {op : Op ε} (h : next s op = some t) :
    TicketsChange s t := by
  cases op with
  | makeLateLaunch l =>
    simp only [next] at h
    split at h
    · rename_i hfresh
      split at h
      · cases h; exact .made hfresh rfl
      · cases h; exact .same rfl
    · cases h
  | register application ownership root launchID sessionID rootID =>
    simp only [next] at h
    split at h
    · split at h
      · cases h; exact .same rfl
      · cases h; exact .same rfl
    · cases h
  | remember sessionID element handleID =>
    simp only [next] at h
    split at h
    · split at h
      · cases h; exact .same rfl
      · cases h; exact .same rfl
    · cases h
  | receive l result => exact ticketsChange_of_onTicket (receive_advances result) h
  | claimTicket l => exact ticketsChange_of_onTicket claim_advances h
  | abandon l => exact ticketsChange_of_onTicket abandon_advances h
  | cancelBeforeSubmission l => exact ticketsChange_of_onTicket cancelBeforeSubmission_advances h
  | claim l result => exact ticketsChange_of_payTicket h
  | cancelUnsubmitted l => exact ticketsChange_of_payTicket h
  | cleanupLate l result => exact ticketsChange_of_payTicket h
  | removeSession sessionID => cases h; exact .same rfl
  | notePendingIdentity l application => cases h; exact .same rfl
  | mayCleanup l application exc => cases h; exact .same rfl
  | recordCleanup l application stopped => cases h; exact .same rfl
  | resolveUnresolved l => cases h; exact .same rfl
  | finishCleanupAttempt l => cases h; exact .same rfl
  | finishLateCleanup l => cases h; exact .same rfl

end SurfaceLoom.MacOS.OwnershipRuns
