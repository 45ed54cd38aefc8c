import SurfaceLoom.Lib.FileSystem
import SurfaceLoom.Lib.Transition

/-! # The interactive-session lease

Any number of processes run `acquireInteractiveSessionLease` and `release` on one
lock path. Every file-system call is a step of its own, may fail, and interleaves
with the steps of all other operations. The owner file of a directory is part of
that directory and has its identity. -/
namespace SurfaceLoom.Test.InteractiveSession
open SurfaceLoom.Lib SurfaceLoom.Lib.Transition

/-- What tells one process from another for good. -/
structure Process where
  pid : Nat
  creationMarker : String
  deriving DecidableEq

/-- Schema and resource are the same for every lease of the path. -/
structure InteractiveSessionLeaseMetadata where
  pid : Nat
  processCreationMarker : String
  ownerNonce : String
  leaseToken : String
  acquiredAt : String
  deriving DecidableEq

def InteractiveSessionLeaseMetadata.owner (metadata : InteractiveSessionLeaseMetadata) : Process :=
  ⟨metadata.pid, metadata.processCreationMarker⟩

/-- The file `owner.json` of a directory. -/
inductive OwnerFile
  | missing
  | incomplete
  | written (metadata : InteractiveSessionLeaseMetadata)
  deriving DecidableEq

inductive LeasePath
  | lock
  | pending (leaseToken : String)
  | retired (leaseToken : String)
  deriving DecidableEq

abbrev LeaseDirectory := FileSystem LeasePath OwnerFile

/-- Only an empty directory may be replaced by a rename. -/
def replaceable (file : OwnerFile) : Bool := file = .missing

/-! ## Reading a lease -/

/-- Where `readLease` stands: before it looks at the directory, at the metadata
file, opens it, and looks at the directory again. -/
inductive Read
  | inspecting
  | listed (ino : Nat)
  | opening (ino file : Nat)
  | confirming (ino : Nat) (metadata : Option InteractiveSessionLeaseMetadata)
  deriving DecidableEq

inductive ReadResult
  | absent
  | lease (metadata : InteractiveSessionLeaseMetadata)
  | corrupt
  deriving DecidableEq

/-- Metadata that cannot be read is an error only in a directory that is still the
one the read began with. -/
def readLease (fs : LeaseDirectory) (path : LeasePath) (ioError : Bool) : Read → Read ⊕ ReadResult
  | .inspecting =>
    if ioError then .inr .corrupt
    else match fs.get? path with
      | none => .inr .absent
      | some directory => .inl (.listed directory.ino)
  | .listed ino =>
    match fs.get? path with
    | none => .inl (.confirming ino none)
    | some directory =>
      if ioError ∨ directory.content = .missing then .inl (.confirming ino none)
      else .inl (.opening ino directory.ino)
  | .opening ino file =>
    match fs.get? path with
    | none => .inl (.confirming ino none)
    | some directory =>
      if ioError ∨ directory.ino ≠ file then .inl (.confirming ino none)
      else match directory.content with
        | .written metadata => .inl (.confirming ino (some metadata))
        | .missing | .incomplete => .inl (.confirming ino none)
  | .confirming ino metadata =>
    if ioError then .inr .corrupt
    else if (fs.get? path).map (·.ino) ≠ some ino then .inr .absent
    else match metadata with
      | some metadata => .inr (.lease metadata)
      | none => .inr .corrupt

/-! ## Operations -/

/-- Why `moveLeaseToProof` was called. -/
inductive Cause
  | stale
  | cancelled
  | released
  deriving DecidableEq

inductive Publish
  | making
  | opening
  | writing
  | moving
  | unlinking (occupied : Bool)
  | removing (occupied : Bool)
  deriving DecidableEq

inductive Retire
  | reading (read : Read)
  | checking
  | moving
  | missed
  | missedAgain
  | proving (read : Read)
  deriving DecidableEq

inductive RetireResult
  | moved
  | refused
  | threw
  deriving DecidableEq

inductive Task
  | looping
  | reading (read : Read)
  | found (existing : InteractiveSessionLeaseMetadata)
  | publishing (metadata : InteractiveSessionLeaseMetadata) (stage : Publish)
  | retiring (cause : Cause) (metadata : InteractiveSessionLeaseMetadata) (stage : Retire)
  | releasing (expected : InteractiveSessionLeaseMetadata) (read : Read)
  | acquired (metadata : InteractiveSessionLeaseMetadata)
  | finished
  deriving DecidableEq

structure Operation where
  process : Process
  task : Task
  deriving DecidableEq

/-- A rename of the lock path: what was published there, and what the retirement of
`metadata` by a process moved away. -/
inductive Rename
  | published (metadata : InteractiveSessionLeaseMetadata)
  | retired (cause : Cause) (process : Process) (metadata : InteractiveSessionLeaseMetadata)
    (moved : OwnerFile)
  deriving DecidableEq

structure Leases where
  fs : LeaseDirectory
  leaseTokens : List String
  dead : List Process
  operations : OrderedMap Nat Operation
  renames : List Rename

def initial : Leases := ⟨.empty, [], [], .empty, []⟩

/-- What the environment decides in one step. -/
structure Choice where
  ioError : Bool
  ino : Nat
  stale : Bool
  giveUp : Bool
  aborted : Bool
  ownerNonce : String
  leaseToken : String
  acquiredAt : String

namespace Leases

/-- `publishLease` with the cleanup of its temporary directory, and the look at
the signal after it succeeded. -/
def publishLease (s : Leases) (metadata : InteractiveSessionLeaseMetadata) (choice : Choice) :
    Publish → Option (Leases × Task)
  | .making =>
    if choice.ioError ∨ (s.fs.get? (.pending metadata.leaseToken)).isSome then some (s, .finished)
    else match s.fs.create (.pending metadata.leaseToken) choice.ino .missing with
      | none => none
      | some fs => some ({ s with fs }, .publishing metadata .opening)
  | .opening =>
    if choice.ioError then some (s, .publishing metadata (.unlinking false))
    else some ({ s with fs := s.fs.write (.pending metadata.leaseToken) .incomplete },
      .publishing metadata .writing)
  | .writing =>
    if choice.ioError then some (s, .publishing metadata (.unlinking false))
    else some ({ s with fs := s.fs.write (.pending metadata.leaseToken) (.written metadata) },
      .publishing metadata .moving)
  | .moving =>
    if choice.ioError then some (s, .publishing metadata (.unlinking false))
    else match s.fs.rename replaceable (.pending metadata.leaseToken) .lock with
      | none => some (s, .publishing metadata (.unlinking (s.fs.get? .lock).isSome))
      | some fs =>
        some ({ s with fs, renames := s.renames ++ [.published metadata] },
          if choice.aborted then .retiring .cancelled metadata (.reading .inspecting)
          else .acquired metadata)
  | .unlinking occupied =>
    if choice.ioError then some (s, .finished)
    else some ({ s with fs := s.fs.write (.pending metadata.leaseToken) .missing },
      .publishing metadata (.removing occupied))
  | .removing occupied =>
    if choice.ioError then some (s, .finished)
    else some ({ s with fs := s.fs.remove (.pending metadata.leaseToken) },
      if occupied then .looping else .finished)

/-- One step of `moveLeaseToProof`. -/
def moveLeaseToProof (s : Leases) (cause : Cause) (process : Process)
    (metadata : InteractiveSessionLeaseMetadata) (ioError : Bool) : Retire → Leases × (Retire ⊕ RetireResult)
  | .reading read =>
    match readLease s.fs .lock ioError read with
    | .inl read => (s, .inl (.reading read))
    | .inr .corrupt => (s, .inr .threw)
    | .inr .absent => (s, .inr .refused)
    | .inr (.lease existing) =>
      (s, if existing = metadata then .inl .checking else .inr .refused)
  | .checking =>
    if ioError then (s, .inr .threw)
    else if (s.fs.get? (.retired metadata.leaseToken)).isSome then (s, .inr .refused)
    else (s, .inl .moving)
  | .moving =>
    match s.fs.get? .lock with
    | none => (s, .inl .missed)
    | some directory =>
      if ioError then (s, .inl .missed)
      else match s.fs.rename replaceable .lock (.retired metadata.leaseToken) with
        | none => (s, .inl .missed)
        | some fs =>
          ({ s with
              fs, renames := s.renames ++ [.retired cause process metadata directory.content] },
            .inl (.proving .inspecting))
  | .missed =>
    if ioError then (s, .inr .threw)
    else if (s.fs.get? (.retired metadata.leaseToken)).isSome then (s, .inr .refused)
    else (s, .inl .missedAgain)
  | .missedAgain =>
    if ioError ∨ (s.fs.get? .lock).isSome then (s, .inr .threw) else (s, .inr .refused)
  | .proving read =>
    match readLease s.fs (.retired metadata.leaseToken) ioError read with
    | .inl read => (s, .inl (.proving read))
    | .inr (.lease proof) => (s, .inr (if proof = metadata then .moved else .threw))
    | .inr .absent | .inr .corrupt => (s, .inr .threw)

/-- The caller of `moveLeaseToProof` goes on: only a reclaim has more to do. -/
def afterRetire (cause : Cause) (result : RetireResult) : Task :=
  if cause = .stale ∧ result ≠ .threw then .looping else .finished

/-- One step of an operation. A token is drawn once, and a process that lives is
not observed as absent or as another one. -/
def advance (s : Leases) (process : Process) (choice : Choice) : Task → Option (Leases × Task)
  | .looping => some (s, if choice.giveUp then .finished else .reading .inspecting)
  | .reading read =>
    match readLease s.fs .lock choice.ioError read with
    | .inl read => some (s, .reading read)
    | .inr .corrupt => some (s, .finished)
    | .inr (.lease existing) => some (s, .found existing)
    | .inr .absent =>
      if choice.leaseToken ∈ s.leaseTokens then none
      else
        some ({ s with leaseTokens := s.leaseTokens ++ [choice.leaseToken] },
          .publishing ⟨process.pid, process.creationMarker, choice.ownerNonce, choice.leaseToken,
            choice.acquiredAt⟩ .making)
  | .found existing =>
    if choice.stale then
      if existing.owner ∈ s.dead then some (s, .retiring .stale existing (.reading .inspecting))
      else none
    else some (s, .looping)
  | .publishing metadata stage => s.publishLease metadata choice stage
  | .retiring cause metadata stage =>
    match s.moveLeaseToProof cause process metadata choice.ioError stage with
    | (s, .inl stage) => some (s, .retiring cause metadata stage)
    | (s, .inr result) => some (s, afterRetire cause result)
  | .releasing expected read =>
    match readLease s.fs .lock choice.ioError read with
    | .inl read => some (s, .releasing expected read)
    | .inr .corrupt | .inr .absent => some (s, .finished)
    | .inr (.lease existing) =>
      some (s, if existing = expected then .retiring .released expected (.reading .inspecting)
        else .finished)
  | .acquired _ | .finished => none

end Leases

inductive Event
  | acquire (operation : Nat) (process : Process)
  | release (operation : Nat) (process : Process) (claim : InteractiveSessionLeaseMetadata)
  | step (operation : Nat) (choice : Choice)
  | crash (process : Process)

/-- A process that crashed takes no more steps. -/
def next (s : Leases) : Event → Option Leases
  | .acquire operation process =>
    if process ∈ s.dead ∨ s.operations.has operation then none
    else some { s with operations := s.operations.set operation ⟨process, .looping⟩ }
  | .release operation process claim =>
    if process ∈ s.dead ∨ s.operations.has operation ∨ claim.owner ≠ process then none
    else some { s with
      operations := s.operations.set operation ⟨process, .releasing claim .inspecting⟩ }
  | .step operation choice =>
    match s.operations.get? operation with
    | none => none
    | some op =>
      if op.process ∈ s.dead then none
      else
        match s.advance op.process choice op.task with
        | none => none
        | some (s, task) =>
          some { s with operations := s.operations.set operation ⟨op.process, task⟩ }
  | .crash process => some { s with dead := s.dead ++ [process] }

def leases : System Leases Event := .ofMachine initial next

end SurfaceLoom.Test.InteractiveSession
