import SurfaceLoom.Test.InteractiveSession

/-! # The Windows GUI gate

Any number of processes acquire, release, quarantine, recover and observe the gate
of one scope. The interactive-session lease comes in as its specification: at most
one lease is held, a dead holder's lease may be reclaimed, and a release may fail
before or after it took effect. Every file-system call is a step of its own. The
state directory is made once and stays. -/
namespace SurfaceLoom.Test.ExecutionGate
open SurfaceLoom.Lib SurfaceLoom.Lib.Transition SurfaceLoom.Test.InteractiveSession

/-! ## Names -/

def isHex (c : Char) : Bool := c.isDigit ∨ ('a' ≤ c ∧ c ≤ 'f')

def uuidShape : List (Char → Bool) :=
  let dash : Char → Bool := fun c => c = '-'
  let version : Char → Bool := fun c => '1' ≤ c ∧ c ≤ '8'
  let kind : Char → Bool := fun c => c ∈ ['8', '9', 'a', 'b']
  List.replicate 8 isHex ++ [dash] ++ List.replicate 4 isHex ++ [dash, version] ++
    List.replicate 3 isHex ++ [dash, kind] ++ List.replicate 3 isHex ++ [dash] ++
    List.replicate 12 isHex

def hasShape : List (Char → Bool) → List Char → Bool
  | [], [] => true
  | p :: ps, c :: cs => p c && hasShape ps cs
  | _, _ => false

def isUuid (s : String) : Bool := hasShape uuidShape s.toList

/-- The pattern proofs are checked against ignores case. -/
def isUuidIgnoringCase (s : String) : Bool := hasShape uuidShape (s.toList.map Char.toLower)

/-! ## States and proofs -/

structure WindowsExecutionGuiGateQuarantineIdentity where
  scopeId : String
  leaseToken : String
  createdAt : Int
  deriving DecidableEq

/-- Schema and status of a gate state are constants; the rest is its identity. Times
are canonical, so a time stands for its text. -/
abbrev WindowsGuiGateState := WindowsExecutionGuiGateQuarantineIdentity

structure WindowsExecutionGuiGateRecoveryProof where
  quarantine : WindowsExecutionGuiGateQuarantineIdentity
  proofId : String
  observedAt : Int
  deriving DecidableEq

inductive GateFile
  | incomplete
  | written (state : WindowsGuiGateState)
  deriving DecidableEq

/-- Why a generation is retired: by the release of the gate an operation returned, or
by a recovery. -/
inductive Cause
  | released (gate : Nat) (proofId : String)
  | recovered (proof : WindowsExecutionGuiGateRecoveryProof)
  deriving DecidableEq

inductive ProofKind
  | released
  | recovered
  deriving DecidableEq

inductive GatePath
  | pending (leaseToken : String)
  | active (leaseToken : String)
  | retired (kind : ProofKind) (proofId leaseToken : String)
  deriving DecidableEq

def Cause.path (leaseToken : String) : Cause → GatePath
  | .released _ proofId => .retired .released proofId leaseToken
  | .recovered proof => .retired .recovered proof.proofId leaseToken

/-- The names `readGateState` accepts in the state directory. -/
def validEntry : GatePath → Bool
  | .pending leaseToken | .active leaseToken => isUuid leaseToken
  | .retired _ proofId leaseToken => isUuid proofId && isUuid leaseToken

def activeToken : GatePath → Option String
  | .active leaseToken => if isUuid leaseToken then some leaseToken else none
  | .pending _ | .retired _ _ _ => none

abbrev StateDirectory := FileSystem GatePath GateFile

/-! ## Reading -/

inductive FileRead
  | inspecting
  | opening (ino : Nat)
  | checking (ino : Nat) (handle : FileSystem.Node GateFile)
  deriving DecidableEq

/-- `missing` is a failure with ENOENT. -/
inductive FileResult
  | missing
  | threw
  | state (state : WindowsGuiGateState)
  deriving DecidableEq

def readStateFile (fs : StateDirectory) (file : GatePath) (ioError : Bool) :
    FileRead → FileRead ⊕ FileResult
  | .inspecting =>
    if ioError then .inr .threw
    else match fs.get? file with
      | none => .inr .missing
      | some node => .inl (.opening node.ino)
  | .opening ino =>
    if ioError then .inr .threw
    else match fs.get? file with
      | none => .inr .missing
      | some node => .inl (.checking ino node)
  | .checking ino handle =>
    if ioError then .inr .threw
    else match fs.get? file with
      | none => .inr .missing
      | some node =>
        if handle.ino ≠ ino ∨ node.ino ≠ handle.ino then .inr .threw
        else match handle.content with
          | .written state => .inr (.state state)
          | .incomplete => .inr .threw

inductive GateRead
  | rooting (attempt : Nat)
  | listing (attempt : Nat)
  | file (attempt : Nat) (leaseToken : String) (read : FileRead)
  deriving DecidableEq

inductive GateResult
  | none
  | threw
  | state (state : WindowsGuiGateState)
  deriving DecidableEq

def readGateState (rootExists : Bool) (fs : StateDirectory) (ioError : Bool) :
    GateRead → GateRead ⊕ GateResult
  | .rooting attempt =>
    if ioError then .inr .threw
    else if rootExists then .inl (.listing attempt)
    else .inr .none
  | .listing attempt =>
    if ioError ∨ fs.nodes.keys.any (fun entry => ¬ validEntry entry) then .inr .threw
    else match fs.nodes.keys.filterMap activeToken with
      | [] => .inr .none
      | [leaseToken] => .inl (.file attempt leaseToken .inspecting)
      | _ => .inr .threw
  | .file attempt leaseToken read =>
    match readStateFile fs (.active leaseToken) ioError read with
    | .inl read => .inl (.file attempt leaseToken read)
    | .inr .missing => if attempt + 1 < 3 then .inl (.rooting (attempt + 1)) else .inr .threw
    | .inr .threw => .inr .threw
    | .inr (.state state) => .inr (if state.leaseToken = leaseToken then .state state else .threw)

/-! ## Operations -/

inductive Terminal
  | active
  | released
  | quarantined
  deriving DecidableEq

inductive Retire
  | rooting
  | reading (read : FileRead)
  | moving
  | proving (read : FileRead)
  deriving DecidableEq

/-- `gate` is the gate an acquire returned; its operation stays as long as it is
used. `receipt` says whether its lease was released. -/
inductive Task
  | acquiring
  | checking (leaseToken : String) (read : GateRead)
  | preparing (leaseToken : String)
  | rechecking (state : WindowsGuiGateState) (read : GateRead)
  | opening (state : WindowsGuiGateState)
  | writing (state : WindowsGuiGateState)
  | moving (state : WindowsGuiGateState)
  | published (state : WindowsGuiGateState)
  | abandoning (leaseToken : String)
  | gate (state : WindowsGuiGateState) (terminal : Terminal) (receipt : Bool)
  | releasing (gate : Nat)
  | quarantining (gate : Nat)
  | recovering (proof : WindowsExecutionGuiGateRecoveryProof)
  | inspecting (proof : WindowsExecutionGuiGateRecoveryProof) (leaseToken : String) (read : GateRead)
  | yielding (proof : WindowsExecutionGuiGateRecoveryProof) (leaseToken : String)
    (state : WindowsGuiGateState)
  | retiring (cause : Cause) (state : WindowsGuiGateState) (stage : Retire)
  | observing (read : GateRead)
  | finished
  deriving DecidableEq

structure Operation where
  process : Process
  task : Task
  deriving DecidableEq

/-- What happens to generations; `moved` is what a retirement moved away. -/
inductive Act
  | published (operation : Nat) (state : WindowsGuiGateState)
  | returned (operation : Nat) (state : WindowsGuiGateState)
  | retired (cause : Cause) (state : WindowsGuiGateState) (moved : GateFile)
  deriving DecidableEq

structure Lease where
  process : Process
  leaseToken : String
  deriving DecidableEq

structure Gates where
  lease : Option Lease
  leaseTokens : List String
  dead : List Process
  rootExists : Bool
  fs : StateDirectory
  operations : OrderedMap Nat Operation
  acts : List Act

def initial : Gates := ⟨none, [], [], false, .empty, .empty, []⟩

/-- How `lease.release()` ends; it may throw after the lease was given up. -/
inductive LeaseOutcome
  | released
  | threw (givenUp : Bool)
  deriving DecidableEq

/-- What the environment decides in one step. -/
structure Choice where
  ioError : Bool
  ino : Nat
  leaseToken : String
  createdAt : Int
  proofId : String
  leaseOutcome : LeaseOutcome

namespace Gates

def leaseFree (s : Gates) : Bool :=
  match s.lease with
  | none => true
  | some lease => lease.process ∈ s.dead

/-- `acquireInteractiveSessionLease`: it waits, fails, or draws a new token. -/
def acquireLease (s : Gates) (process : Process) (choice : Choice) : Option Gates :=
  if s.leaseFree ∧ isUuid choice.leaseToken ∧ choice.leaseToken ∉ s.leaseTokens then
    some { s with
      lease := some ⟨process, choice.leaseToken⟩
      leaseTokens := s.leaseTokens ++ [choice.leaseToken] }
  else none

/-- `lease.release()`, and whether it confirmed the release. -/
def releaseLease (s : Gates) (process : Process) (leaseToken : String) (outcome : LeaseOutcome) :
    Gates × Bool :=
  if s.lease ≠ some ⟨process, leaseToken⟩ then (s, false)
  else match outcome with
    | .released => ({ s with lease := none }, true)
    | .threw givenUp => (if givenUp then { s with lease := none } else s, false)

/-- One step of `retireGateState`; `none` as a stage is its end. -/
def retireGateState (s : Gates) (cause : Cause) (state : WindowsGuiGateState) (ioError : Bool) :
    Retire → Gates × (Retire ⊕ Bool)
  | .rooting => (s, if ioError ∨ ¬ s.rootExists then .inr false else .inl (.reading .inspecting))
  | .reading read =>
    match readStateFile s.fs (.active state.leaseToken) ioError read with
    | .inl read => (s, .inl (.reading read))
    | .inr (.state existing) => (s, if existing = state then .inl .moving else .inr false)
    | .inr .missing | .inr .threw => (s, .inr false)
  | .moving =>
    match s.fs.get? (.active state.leaseToken) with
    | none => (s, .inr false)
    | some node =>
      if ioError then (s, .inr false)
      else match s.fs.rename (fun _ => true) (.active state.leaseToken)
          (cause.path state.leaseToken) with
        | none => (s, .inr false)
        | some fs => ({ s with fs, acts := s.acts ++ [.retired cause state node.content] },
            .inl (.proving .inspecting))
  | .proving read =>
    match readStateFile s.fs (cause.path state.leaseToken) ioError read with
    | .inl read => (s, .inl (.proving read))
    | .inr (.state proof) => (s, .inr (decide (proof = state)))
    | .inr .missing | .inr .threw => (s, .inr false)

def setGate (s : Gates) (gate : Nat) (process : Process) (task : Task) : Gates :=
  { s with operations := s.operations.set gate ⟨process, task⟩ }

/-- A retirement that succeeded ends the gate it was for. -/
def retired (s : Gates) (cause : Cause) : Gates :=
  match cause with
  | .recovered _ => s
  | .released gate _ =>
    match s.operations.get? gate with
    | some ⟨process, .gate state _ receipt⟩ => s.setGate gate process (.gate state .released receipt)
    | _ => s

/-- The lease of a gate is released once; later calls get the receipt. -/
def releaseGateLease (s : Gates) (gate : Nat) (outcome : LeaseOutcome) :
    Option (Gates × Bool × WindowsGuiGateState) :=
  match s.operations.get? gate with
  | some ⟨process, .gate state terminal receipt⟩ =>
    if receipt then some (s, true, state)
    else match s.releaseLease process state.leaseToken outcome with
      | (s, true) => some (s.setGate gate process (.gate state terminal true), true, state)
      | (s, false) => some (s, false, state)
  | _ => none

def quarantined (s : Gates) (gate : Nat) : Gates :=
  match s.operations.get? gate with
  | some ⟨process, .gate state _ receipt⟩ => s.setGate gate process (.gate state .quarantined receipt)
  | _ => s

/-- One step of an operation. -/
def advance (s : Gates) (scopeId : String) (operation : Nat) (process : Process) (choice : Choice) :
    Task → Option (Gates × Task)
  | .acquiring =>
    if choice.ioError then some (s, .finished)
    else (s.acquireLease process choice).map fun s => (s, .checking choice.leaseToken (.rooting 0))
  | .checking leaseToken read =>
    match readGateState s.rootExists s.fs choice.ioError read with
    | .inl read => some (s, .checking leaseToken read)
    | .inr .none => some (s, .preparing leaseToken)
    | .inr (.state _) | .inr .threw => some (s, .abandoning leaseToken)
  | .preparing leaseToken =>
    if choice.ioError then some (s, .abandoning leaseToken)
    else some ({ s with rootExists := true },
      .rechecking ⟨scopeId, leaseToken, choice.createdAt⟩ (.rooting 0))
  | .rechecking state read =>
    match readGateState s.rootExists s.fs choice.ioError read with
    | .inl read => some (s, .rechecking state read)
    | .inr .none => some (s, .opening state)
    | .inr (.state _) | .inr .threw => some (s, .abandoning state.leaseToken)
  | .opening state =>
    if choice.ioError ∨ (s.fs.get? (.pending state.leaseToken)).isSome then
      some (s, .abandoning state.leaseToken)
    else match s.fs.create (.pending state.leaseToken) choice.ino .incomplete with
      | none => none
      | some fs => some ({ s with fs }, .writing state)
  | .writing state =>
    if choice.ioError then some (s, .abandoning state.leaseToken)
    else some ({ s with fs := s.fs.write (.pending state.leaseToken) (.written state) }, .moving state)
  | .moving state =>
    if choice.ioError then some (s, .abandoning state.leaseToken)
    else match s.fs.rename (fun _ => true) (.pending state.leaseToken)
        (.active state.leaseToken) with
      | none => some (s, .abandoning state.leaseToken)
      | some fs => some ({ s with fs, acts := s.acts ++ [.published operation state] },
          .published state)
  | .published state =>
    some ({ s with acts := s.acts ++ [.returned operation state] }, .gate state .active false)
  | .abandoning leaseToken =>
    some ((s.releaseLease process leaseToken choice.leaseOutcome).1, .finished)
  | .releasing gate =>
    match s.releaseGateLease gate choice.leaseOutcome with
    | none => none
    | some (s, true, state) => some (s, .retiring (.released gate choice.proofId) state .rooting)
    | some (s, false, _) => some (s, .finished)
  | .quarantining gate =>
    match s.releaseGateLease gate choice.leaseOutcome with
    | none => none
    | some (s, true, _) => some (s.quarantined gate, .finished)
    | some (s, false, _) => some (s, .finished)
  | .recovering proof =>
    if choice.ioError then some (s, .finished)
    else (s.acquireLease process choice).map fun s =>
      (s, .inspecting proof choice.leaseToken (.rooting 0))
  | .inspecting proof leaseToken read =>
    match readGateState s.rootExists s.fs choice.ioError read with
    | .inl read => some (s, .inspecting proof leaseToken read)
    | .inr (.state observed) =>
      if observed.scopeId ≠ scopeId ∨ observed ≠ proof.quarantine ∨
          proof.observedAt < observed.createdAt then some (s, .abandoning leaseToken)
      else some (s, .yielding proof leaseToken observed)
    | .inr .none | .inr .threw => some (s, .abandoning leaseToken)
  | .yielding proof leaseToken state =>
    match s.releaseLease process leaseToken choice.leaseOutcome with
    | (s, true) => some (s, .retiring (.recovered proof) state .rooting)
    | (s, false) => some (s, .finished)
  | .retiring cause state stage =>
    match s.retireGateState cause state choice.ioError stage with
    | (s, .inl stage) => some (s, .retiring cause state stage)
    | (s, .inr true) => some (s.retired cause, .finished)
    | (s, .inr false) => some (s, .finished)
  | .observing read =>
    match readGateState s.rootExists s.fs choice.ioError read with
    | .inl read => some (s, .observing read)
    | .inr _ => some (s, .finished)
  | .gate _ _ _ | .finished => none

end Gates

inductive Event
  | acquire (operation : Nat) (process : Process)
  | release (operation gate : Nat)
  | quarantine (operation gate : Nat)
  | recover (operation : Nat) (process : Process) (proof : WindowsExecutionGuiGateRecoveryProof)
  | observe (operation : Nat) (process : Process)
  | step (operation : Nat) (choice : Choice)
  | crash (process : Process)

def validateRecoveryProof (proof : WindowsExecutionGuiGateRecoveryProof) (scopeId : String) : Bool :=
  proof.quarantine.scopeId = scopeId ∧ isUuidIgnoringCase proof.quarantine.leaseToken ∧
    isUuidIgnoringCase proof.proofId

/-- A new operation of a process that lives. -/
def begin' (s : Gates) (operation : Nat) (process : Process) (task : Task) : Option Gates :=
  if process ∈ s.dead ∨ s.operations.has operation then none
  else some { s with operations := s.operations.set operation ⟨process, task⟩ }

/-- A call on a gate that is no longer active does nothing. -/
def callGate (s : Gates) (operation gate : Nat) (task : Task) : Option Gates :=
  match s.operations.get? gate with
  | some ⟨process, .gate _ .active _⟩ => begin' s operation process task
  | _ => none

def next (scopeId : String) (s : Gates) : Event → Option Gates
  | .acquire operation process => begin' s operation process .acquiring
  | .release operation gate => callGate s operation gate (.releasing gate)
  | .quarantine operation gate => callGate s operation gate (.quarantining gate)
  | .recover operation process proof =>
    if validateRecoveryProof proof scopeId then begin' s operation process (.recovering proof)
    else none
  | .observe operation process => begin' s operation process (.observing (.rooting 0))
  | .step operation choice =>
    match s.operations.get? operation with
    | none => none
    | some op =>
      if op.process ∈ s.dead then none
      else
        match s.advance scopeId operation op.process choice op.task with
        | none => none
        | some (s, task) => some (s.setGate operation op.process task)
  | .crash process => some { s with dead := s.dead ++ [process] }

def gates (scopeId : String) : System Gates Event := .ofMachine initial (next scopeId)

end SurfaceLoom.Test.ExecutionGate
