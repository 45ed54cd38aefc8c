import Mathlib.Data.Finset.Basic
import Mathlib.Data.Finset.Card
import SurfaceLoom.Lib.OrderedMap
import SurfaceLoom.Native.Wire

/-! # The macOS ownership registry

`MacOSOwnershipRegistry` records who is responsible for each application the
host touches: live sessions, launches still in flight, launches whose
identity is known but unresolved, and identities another responsibility
protects. Each function here is one section under the registry's lock; an
operation that takes the lock several times is several functions. -/
namespace SurfaceLoom.MacOS.OwnershipRegistry
open SurfaceLoom.Lib SurfaceLoom.Native.Wire

inductive MacOSSessionOwnership
  | owned
  | borrowed
  deriving DecidableEq, Repr

structure MacOSApplicationIdentity where
  processID : Int32
  startSeconds : UInt64
  startMicroseconds : UInt64
  bundleIdentifier : Option String
  deriving DecidableEq

structure MacOSSessionRecord (ε : Type) where
  sessionID : String
  responsibilityID : Option String
  ownership : MacOSSessionOwnership
  application : MacOSApplicationIdentity
  rootHandleID : String
  handles : OrderedMap String ε

structure MacOSLateCleanupEvidence where
  launchID : String
  processID : Option Int32
  attempted : Bool
  stopped : Bool
  incomplete : Bool
  reason : String
  deriving DecidableEq

abbrev LaunchResult := Except NativeHostBackendError MacOSApplicationIdentity

/-- `pending` holds the launch ids only: the ticket of a launch id is looked
up in the table of tickets, which the registry shares with its callers. -/
structure MacOSOwnershipRegistry (ε : Type) where
  sessions : OrderedMap String (MacOSSessionRecord ε)
  pending : Finset String
  pendingIdentities : OrderedMap String MacOSApplicationIdentity
  unresolved : OrderedMap String MacOSApplicationIdentity
  activeCleanupResponsibilities : Finset String
  protectedConflicts : OrderedMap String MacOSApplicationIdentity
  unconfirmedLaunches : Finset String
  handleCount : Nat
  evidence : List MacOSLateCleanupEvidence
  evidenceOverflowed : Bool

def maximumEntries : Nat := 10000

namespace MacOSOwnershipRegistry

variable {ε : Type}

def initial : MacOSOwnershipRegistry ε where
  sessions := .empty
  pending := ∅
  pendingIdentities := .empty
  unresolved := .empty
  activeCleanupResponsibilities := ∅
  protectedConflicts := .empty
  unconfirmedLaunches := ∅
  handleCount := 0
  evidence := []
  evidenceOverflowed := false

/-! ## Helpers used under the lock -/

def responsibilityCountLocked (r : MacOSOwnershipRegistry ε) : Nat :=
  r.sessions.size + r.pending.card + r.unresolved.size
    + r.protectedConflicts.size + r.unconfirmedLaunches.card

def registryFull : NativeHostBackendError :=
  macOSBackendError "ownership_registry_full" .conflict
    "The macOS ownership registry reached its safety limit."

def conflict : NativeHostBackendError :=
  macOSBackendError "application_already_registered" .conflict
    "The application identity already belongs to an active responsibility."

def sessionNotFound : NativeHostBackendError :=
  macOSBackendError "session_not_found" .notFound "The native session is not active."

/-- At the limit the last entry is overwritten once by an overflow marker. -/
def appendEvidenceLocked (r : MacOSOwnershipRegistry ε) (item : MacOSLateCleanupEvidence) :
    MacOSOwnershipRegistry ε :=
  if r.evidence.length < maximumEntries then
    { r with evidence := r.evidence ++ [item] }
  else if r.evidenceOverflowed then r
  else
    { r with
      evidenceOverflowed := true
      evidence := r.evidence.set (maximumEntries - 1)
        { launchID := "evidence-overflow", processID := none, attempted := false,
          stopped := false, incomplete := true, reason := "cleanup_evidence_overflow" } }

def retainUnconfirmedLocked (r : MacOSOwnershipRegistry ε) (launchID reason : String) :
    MacOSOwnershipRegistry ε :=
  { r with unconfirmedLaunches := insert launchID r.unconfirmedLaunches }.appendEvidenceLocked
    { launchID, processID := none, attempted := false, stopped := false,
      incomplete := true, reason }

/-- `sessions.values.contains { p $0 }` -/
def anySession (r : MacOSOwnershipRegistry ε) (p : MacOSSessionRecord ε → Bool) : Bool :=
  r.sessions.values.any p

/-- `entries.contains { $0.key != launchID && $0.value == application }`; no
key equals an absent launch id. -/
def heldByOther (entries : OrderedMap String MacOSApplicationIdentity) (launchID : Option String)
    (application : MacOSApplicationIdentity) : Bool :=
  entries.entries.any fun e => some e.1 != launchID && e.2 == application

/-! ## Locked sections -/

def makeLateLaunch (r : MacOSOwnershipRegistry ε) (launchID : String) :
    Except NativeHostBackendError (MacOSOwnershipRegistry ε) :=
  if r.responsibilityCountLocked < maximumEntries then
    .ok { r with pending := insert launchID r.pending }
  else .error registryFull

/-- The capacity guard of `register`: an entry the launch id already reserves
does not count twice. -/
def hasRoomFor (r : MacOSOwnershipRegistry ε) (launchID : Option String) : Bool :=
  let replacesReservation := (launchID.map fun l =>
    r.unresolved.has l || r.protectedConflicts.has l
      || decide (l ∈ r.unconfirmedLaunches)).getD false
  decide (r.responsibilityCountLocked - (if replacesReservation then 1 else 0) < maximumEntries)
    && decide (r.handleCount < maximumEntries)

/-- `sessionID` and `rootID` are the two fresh ids the section draws. -/
def register (r : MacOSOwnershipRegistry ε) (application : MacOSApplicationIdentity)
    (ownership : MacOSSessionOwnership) (root : ε) (launchID : Option String)
    (sessionID rootID : String) :
    Except NativeHostBackendError (MacOSSessionRecord ε × MacOSOwnershipRegistry ε) :=
  if !r.hasRoomFor launchID then .error registryFull
  else if (r.anySession fun record => record.application == application)
      || heldByOther r.unresolved launchID application
      || heldByOther r.protectedConflicts launchID application
      || heldByOther r.pendingIdentities launchID application then
    .error conflict
  else
    let responsibilityID := match ownership with
      | .owned => some (launchID.getD ("owned-" ++ sessionID))
      | .borrowed => none
    let record : MacOSSessionRecord ε :=
      { sessionID, responsibilityID, ownership, application, rootHandleID := rootID,
        handles := OrderedMap.empty.set rootID root }
    let r' := { r with
      sessions := r.sessions.set sessionID record
      handleCount := r.handleCount + 1 }
    match launchID with
    | none => .ok (record, r')
    | some l => .ok (record, { r' with
        unresolved := r'.unresolved.erase l
        protectedConflicts := r'.protectedConflicts.erase l
        unconfirmedLaunches := r'.unconfirmedLaunches.erase l })

def remember (r : MacOSOwnershipRegistry ε) (sessionID : String) (element : ε)
    (handleID : String) : Except NativeHostBackendError (MacOSOwnershipRegistry ε) :=
  match r.sessions.get? sessionID with
  | none => .error sessionNotFound
  | some session =>
    if r.handleCount < maximumEntries then
      .ok { r with
        sessions := r.sessions.set sessionID
          { session with handles := session.handles.set handleID element }
        handleCount := r.handleCount + 1 }
    else .error registryFull

def removeSession (r : MacOSOwnershipRegistry ε) (sessionID : String) :
    Option (MacOSSessionRecord ε) × MacOSOwnershipRegistry ε :=
  match r.sessions.get? sessionID with
  | none => (none, r)
  | some removed => (some removed, { r with
      sessions := r.sessions.erase sessionID
      handleCount := r.handleCount - removed.handles.size })

def notePendingIdentity (r : MacOSOwnershipRegistry ε) (launchID : String)
    (application : MacOSApplicationIdentity) : MacOSOwnershipRegistry ε :=
  if launchID ∈ r.pending then
    { r with pendingIdentities := r.pendingIdentities.set launchID application }
  else r

/-- The two removals that end a pending launch; `cancelUnsubmitted` and
`finishLateCleanup` are exactly these. -/
def dropPending (r : MacOSOwnershipRegistry ε) (launchID : String) : MacOSOwnershipRegistry ε :=
  { r with
    pending := r.pending.erase launchID
    pendingIdentities := r.pendingIdentities.erase launchID }

def claim (r : MacOSOwnershipRegistry ε) (launchID : String) (result : LaunchResult) :
    MacOSOwnershipRegistry ε :=
  let r := r.dropPending launchID
  match result with
  | .ok application => { r with unresolved := r.unresolved.set launchID application }
  | .error error =>
    if error.code = "launch_identity_unconfirmed" then
      r.retainUnconfirmedLocked launchID error.code
    else
      r.appendEvidenceLocked
        { launchID, processID := none, attempted := false, stopped := false,
          incomplete := false, reason := error.code }

def cancelUnsubmitted (r : MacOSOwnershipRegistry ε) (launchID : String) :
    MacOSOwnershipRegistry ε := r.dropPending launchID

/-- The guards fail: the identity stays with whoever already holds it. -/
def protectConflict (r : MacOSOwnershipRegistry ε) (launchID : String)
    (application : MacOSApplicationIdentity) : MacOSOwnershipRegistry ε :=
  { r with
    unresolved := r.unresolved.erase launchID
    protectedConflicts := r.protectedConflicts.set launchID application }.appendEvidenceLocked
    { launchID, processID := some application.processID, attempted := false,
      stopped := false, incomplete := true,
      reason := "identity_protected_by_existing_responsibility" }

/-- The guards pass: the launch id takes the cleanup upon itself. -/
def grantCleanup (r : MacOSOwnershipRegistry ε) (launchID : String)
    (application : MacOSApplicationIdentity) : MacOSOwnershipRegistry ε :=
  { r with
    unresolved := r.unresolved.set launchID application
    activeCleanupResponsibilities := insert launchID r.activeCleanupResponsibilities }

/-- The first section of `cleanupLate`: `true` means the cleanup closure runs
next. A failed launch goes to `claim` instead. -/
def cleanupLate (r : MacOSOwnershipRegistry ε) (launchID : String) (result : LaunchResult) :
    Bool × MacOSOwnershipRegistry ε :=
  match result with
  | .error error => (false, r.claim launchID (.error error))
  | .ok application =>
    if launchID ∈ r.activeCleanupResponsibilities then (false, r)
    else if (r.anySession fun record => record.application == application)
        || heldByOther r.unresolved (some launchID) application
        || heldByOther r.protectedConflicts (some launchID) application then
      (false, (r.protectConflict launchID application).dropPending launchID)
    else (true, r.grantCleanup launchID application)

def mayCleanup (r : MacOSOwnershipRegistry ε) (launchID : String)
    (application : MacOSApplicationIdentity) (excludingSessionID : Option String) :
    Bool × MacOSOwnershipRegistry ε :=
  if launchID ∈ r.activeCleanupResponsibilities then (false, r)
  else if (r.anySession fun record =>
        record.application == application && some record.sessionID != excludingSessionID)
      || heldByOther r.unresolved (some launchID) application
      || heldByOther r.protectedConflicts (some launchID) application then
    (false, r.protectConflict launchID application)
  else (true, r.grantCleanup launchID application)

def recordCleanup (r : MacOSOwnershipRegistry ε) (launchID : String)
    (application : MacOSApplicationIdentity) (stopped : Bool) : MacOSOwnershipRegistry ε :=
  r.appendEvidenceLocked
    { launchID, processID := some application.processID, attempted := true, stopped,
      incomplete := !stopped,
      reason := if stopped then "proven_stopped" else "cleanup_unconfirmed" }

def finishCleanupAttempt (r : MacOSOwnershipRegistry ε) (launchID : String) :
    MacOSOwnershipRegistry ε :=
  { r with activeCleanupResponsibilities := r.activeCleanupResponsibilities.erase launchID }

def resolveUnresolved (r : MacOSOwnershipRegistry ε) (launchID : String) :
    MacOSOwnershipRegistry ε :=
  { r with unresolved := r.unresolved.erase launchID }

def finishLateCleanup (r : MacOSOwnershipRegistry ε) (launchID : String) :
    MacOSOwnershipRegistry ε := r.dropPending launchID

/-! ## Evidence changes nothing else -/

section Evidence

variable (r : MacOSOwnershipRegistry ε) (item : MacOSLateCleanupEvidence)

/-- Appending evidence is a change of the two evidence fields. -/
theorem appendEvidenceLocked_eq : ∃ evidence overflowed,
    r.appendEvidenceLocked item =
      { r with evidence := evidence, evidenceOverflowed := overflowed } := by
  unfold appendEvidenceLocked
  split
  · exact ⟨_, _, rfl⟩
  · split
    · exact ⟨_, _, rfl⟩
    · exact ⟨_, _, rfl⟩

@[simp] theorem appendEvidenceLocked_sessions :
    (r.appendEvidenceLocked item).sessions = r.sessions := by
  obtain ⟨_, _, h⟩ := appendEvidenceLocked_eq r item
  rw [h]

@[simp] theorem appendEvidenceLocked_unresolved :
    (r.appendEvidenceLocked item).unresolved = r.unresolved := by
  obtain ⟨_, _, h⟩ := appendEvidenceLocked_eq r item
  rw [h]

@[simp] theorem appendEvidenceLocked_active :
    (r.appendEvidenceLocked item).activeCleanupResponsibilities =
      r.activeCleanupResponsibilities := by
  obtain ⟨_, _, h⟩ := appendEvidenceLocked_eq r item
  rw [h]

@[simp] theorem appendEvidenceLocked_handleCount :
    (r.appendEvidenceLocked item).handleCount = r.handleCount := by
  obtain ⟨_, _, h⟩ := appendEvidenceLocked_eq r item
  rw [h]

end Evidence

theorem heldByOther_eq_false {entries : OrderedMap String MacOSApplicationIdentity}
    {launchID : Option String} {application : MacOSApplicationIdentity} :
    heldByOther entries launchID application = false ↔
      ∀ l, entries.get? l = some application → some l = launchID := by
  simp only [heldByOther, List.any_eq_false, Bool.and_eq_true, bne_iff_ne, ne_eq, beq_iff_eq,
    not_and, not_imp_not, OrderedMap.get?_eq_some_iff]
  constructor
  · intro h l hl
    exact h (l, application) hl rfl
  · rintro h ⟨l, a⟩ he rfl
    exact h l he

theorem anySession_eq_false {r : MacOSOwnershipRegistry ε} {p : MacOSSessionRecord ε → Bool} :
    r.anySession p = false ↔ ∀ id record, r.sessions.get? id = some record → p record = false := by
  simp only [anySession, List.any_eq_false, OrderedMap.mem_values_iff, Bool.not_eq_true]
  constructor
  · intro h id record hr
    exact h record ⟨id, hr⟩
  · rintro h record ⟨id, hr⟩
    exact h id record hr

/-! ## What the sections do -/

/-- A successful registration: what was checked and what changed. -/
structure Registered (r : MacOSOwnershipRegistry ε) (application : MacOSApplicationIdentity)
    (launchID : Option String) (sessionID : String) (record : MacOSSessionRecord ε)
    (r' : MacOSOwnershipRegistry ε) : Prop where
  noSession : ∀ id held, r.sessions.get? id = some held → held.application ≠ application
  noUnresolved : ∀ l, r.unresolved.get? l = some application → some l = launchID
  recordID : record.sessionID = sessionID
  recordApplication : record.application = application
  oneHandle : record.handles.size = 1
  sessions : r'.sessions = r.sessions.set sessionID record
  handleCount : r'.handleCount = r.handleCount + 1
  active : r'.activeCleanupResponsibilities = r.activeCleanupResponsibilities
  unresolved : ∀ l, some l ≠ launchID → r'.unresolved.get? l = r.unresolved.get? l

theorem register_ok {r r' : MacOSOwnershipRegistry ε} {application : MacOSApplicationIdentity}
    {ownership : MacOSSessionOwnership} {root : ε} {launchID : Option String}
    {sessionID rootID : String} {record : MacOSSessionRecord ε}
    (h : r.register application ownership root launchID sessionID rootID = .ok (record, r')) :
    Registered r application launchID sessionID record r' := by
  unfold register at h
  split at h
  · cases h
  split at h
  · cases h
  rename_i hguard
  simp only [Bool.or_eq_true, not_or, Bool.not_eq_true] at hguard
  obtain ⟨⟨⟨hs, hu⟩, -⟩, -⟩ := hguard
  have hs' : ∀ id held, r.sessions.get? id = some held → held.application ≠ application := by
    intro id held hr
    simpa using anySession_eq_false.mp hs id held hr
  cases launchID with
  | none =>
    simp only [Except.ok.injEq, Prod.mk.injEq] at h
    obtain ⟨rfl, rfl⟩ := h
    exact ⟨hs', heldByOther_eq_false.mp hu, rfl, rfl, rfl, rfl, rfl, rfl, fun _ _ => rfl⟩
  | some l =>
    simp only [Except.ok.injEq, Prod.mk.injEq] at h
    obtain ⟨rfl, rfl⟩ := h
    refine ⟨hs', heldByOther_eq_false.mp hu, rfl, rfl, rfl, rfl, rfl, rfl, fun l' hl => ?_⟩
    have hne : l' ≠ l := fun he => hl (congrArg some he)
    simp [hne]

@[simp] theorem dropPending_sessions (r : MacOSOwnershipRegistry ε) (l : String) :
    (r.dropPending l).sessions = r.sessions := rfl

@[simp] theorem dropPending_handleCount (r : MacOSOwnershipRegistry ε) (l : String) :
    (r.dropPending l).handleCount = r.handleCount := rfl

@[simp] theorem dropPending_unresolved (r : MacOSOwnershipRegistry ε) (l : String) :
    (r.dropPending l).unresolved = r.unresolved := rfl

@[simp] theorem dropPending_active (r : MacOSOwnershipRegistry ε) (l : String) :
    (r.dropPending l).activeCleanupResponsibilities = r.activeCleanupResponsibilities := rfl

/-- The sections that decide nothing about sessions leave them and their
handles alone. -/
def SameSessions (r r' : MacOSOwnershipRegistry ε) : Prop :=
  r'.sessions = r.sessions ∧ r'.handleCount = r.handleCount

theorem claim_sameSessions (r : MacOSOwnershipRegistry ε) (l : String) (result : LaunchResult) :
    SameSessions r (r.claim l result) := by
  unfold claim
  cases result with
  | ok application => exact ⟨rfl, rfl⟩
  | error error =>
    simp only
    split
    · simp [SameSessions, retainUnconfirmedLocked]
    · simp [SameSessions]

theorem cleanupLate_sameSessions (r : MacOSOwnershipRegistry ε) (l : String)
    (result : LaunchResult) : SameSessions r (r.cleanupLate l result).2 := by
  unfold cleanupLate
  cases result with
  | error error => exact claim_sameSessions r l _
  | ok application =>
    simp only
    split
    · exact ⟨rfl, rfl⟩
    · split
      · simp [SameSessions, protectConflict]
      · exact ⟨rfl, rfl⟩

theorem mayCleanup_sameSessions (r : MacOSOwnershipRegistry ε) (l : String)
    (application : MacOSApplicationIdentity) (excludingSessionID : Option String) :
    SameSessions r (r.mayCleanup l application excludingSessionID).2 := by
  unfold mayCleanup
  split
  · exact ⟨rfl, rfl⟩
  · split
    · simp [SameSessions, protectConflict]
    · exact ⟨rfl, rfl⟩

/-- A cleanup attempt of the launch id is under way; where `kept` names an
application, the launch id still holds it as unresolved. -/
structure Cleaning (r : MacOSOwnershipRegistry ε) (l : String)
    (kept : Option MacOSApplicationIdentity) : Prop where
  active : l ∈ r.activeCleanupResponsibilities
  unresolved : ∀ application ∈ kept, r.unresolved.get? l = some application

section Cleaning

variable {r : MacOSOwnershipRegistry ε} {l : String} {kept : Option MacOSApplicationIdentity}

theorem Cleaning.of_eq {r' : MacOSOwnershipRegistry ε} (h : Cleaning r l kept)
    (ha : r'.activeCleanupResponsibilities = r.activeCleanupResponsibilities)
    (hu : r'.unresolved.get? l = r.unresolved.get? l) : Cleaning r' l kept :=
  ⟨ha ▸ h.active, fun application hk => hu.trans (h.unresolved application hk)⟩

theorem Cleaning.weaken (h : Cleaning r l kept) : Cleaning r l none :=
  ⟨h.active, fun _ hk => nomatch hk⟩

theorem Cleaning.protectConflict (h : Cleaning r l kept) {l' : String} (hne : l ≠ l')
    (other : MacOSApplicationIdentity) : Cleaning (r.protectConflict l' other) l kept := by
  refine h.of_eq ?_ ?_
  · simp [MacOSOwnershipRegistry.protectConflict]
  · simp [MacOSOwnershipRegistry.protectConflict, hne]

theorem Cleaning.grantCleanup (h : Cleaning r l kept) {l' : String} (hne : l ≠ l')
    (other : MacOSApplicationIdentity) : Cleaning (r.grantCleanup l' other) l kept := by
  refine ⟨Finset.mem_insert_of_mem h.active, fun application hk => ?_⟩
  simp [MacOSOwnershipRegistry.grantCleanup, hne, h.unresolved application hk]

/-- A second permission for the same launch id is refused and changes nothing. -/
theorem Cleaning.mayCleanup_same (h : Cleaning r l kept) (other : MacOSApplicationIdentity)
    (exc : Option String) : r.mayCleanup l other exc = (false, r) := by
  simp [MacOSOwnershipRegistry.mayCleanup, h.active]

theorem Cleaning.cleanupLate_same (h : Cleaning r l kept) (other : MacOSApplicationIdentity) :
    r.cleanupLate l (.ok other) = (false, r) := by
  simp [MacOSOwnershipRegistry.cleanupLate, h.active]

theorem Cleaning.mayCleanup (h : Cleaning r l kept) (l' : String)
    (other : MacOSApplicationIdentity) (exc : Option String) :
    Cleaning (r.mayCleanup l' other exc).2 l kept := by
  by_cases hne : l = l'
  · subst hne
    rw [h.mayCleanup_same]
    exact h
  · unfold MacOSOwnershipRegistry.mayCleanup
    split
    · exact h
    · split
      · exact h.protectConflict hne other
      · exact h.grantCleanup hne other

/-- A failed launch leaves the unresolved entries and the active cleanups. -/
theorem Cleaning.claim_error (h : Cleaning r l kept) (l' : String)
    (error : NativeHostBackendError) : Cleaning (r.claim l' (.error error)) l kept := by
  unfold MacOSOwnershipRegistry.claim
  simp only
  split
  · exact h.of_eq (by simp [retainUnconfirmedLocked]) (by simp [retainUnconfirmedLocked])
  · exact h.of_eq (by simp) (by simp)

theorem Cleaning.claim_ok (h : Cleaning r l kept) {l' : String} (hne : l = l' → kept = none)
    (other : MacOSApplicationIdentity) : Cleaning (r.claim l' (.ok other)) l kept := by
  refine ⟨h.active, fun application hk => ?_⟩
  have hl : l ≠ l' := by
    intro he
    rw [hne he] at hk
    cases hk
  simp [MacOSOwnershipRegistry.claim, hl, h.unresolved application hk]

theorem Cleaning.cleanupLate (h : Cleaning r l kept) (l' : String) (result : LaunchResult) :
    Cleaning (r.cleanupLate l' result).2 l kept := by
  unfold MacOSOwnershipRegistry.cleanupLate
  cases result with
  | error error => exact h.claim_error l' error
  | ok other =>
    simp only
    split
    · exact h
    · rename_i hactive
      have hne : l ≠ l' := fun he => hactive (he ▸ h.active)
      split
      · exact (h.protectConflict hne other).of_eq rfl rfl
      · exact h.grantCleanup hne other

end Cleaning

end MacOSOwnershipRegistry

end SurfaceLoom.MacOS.OwnershipRegistry
