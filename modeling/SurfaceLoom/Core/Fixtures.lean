import SurfaceLoom.Core.CaseSpec
import SurfaceLoom.Lib.OrderedMap
import SurfaceLoom.Lib.PromiseTail
import SurfaceLoom.Lib.Transition

/-! # Fixture runtimes

A worker runtime and its test scopes set fixtures up on demand and share one coordinator,
which lets one operation run at a time. A fixture is the object that defines it, so two
fixtures may have the same id. The stack of a `use` holds the fixtures whose dependencies
are being resolved. What user code does is logged. -/
namespace SurfaceLoom.Core.Fixtures
open SurfaceLoom.Lib SurfaceLoom.Lib.PromiseTail SurfaceLoom.Lib.Transition

inductive FixtureScope
  | test
  | worker
  deriving DecidableEq

def FixtureScope.text : FixtureScope → String
  | .test => "test"
  | .worker => "worker"

/-- What is read of the definitions of fixtures. -/
structure Definitions (F : Type) where
  id : F → String
  scope : F → Option FixtureScope
  dependencies : F → List F

/-- Something that user code or a runtime throws. -/
inductive Failure (E : Type)
  | thrown (error : E)
  | error (message : String)
  | aggregate (errors : List (Failure E)) (message : String)

structure FixtureState (F V : Type) where
  definition : F
  value : V
  teardown : Bool

/-- `parent` and `children` are the numbers of runtimes. -/
structure FixtureRuntime (F V : Type) where
  scope : FixtureScope
  parent : Option Nat
  states : OrderedMap String (FixtureState F V)
  setupOrder : List String
  children : List Nat
  closing : Bool
  closed : Bool
  closePromise : Option Nat

variable {F V E : Type}

def FixtureRuntime.create (scope : FixtureScope) (parent : Option Nat) : FixtureRuntime F V :=
  ⟨scope, parent, .empty, [], [], false, false, none⟩

/-! ## Operations of the coordinator -/

inductive Operation (F : Type)
  | use (promise runtime : Nat) (fixture : F)
  | close (promise runtime : Nat)

def Operation.runtime : Operation F → Nat
  | .use _ runtime _ => runtime
  | .close _ runtime => runtime

/-- A call of `use` that runs: `target` is the runtime of its fixture, `checkpoint` what
was set up there before. -/
structure Use (F : Type) where
  promise : Nat
  runtime : Nat
  target : Nat
  fixture : F
  checkpoint : Nat

/-- A fixture whose dependencies are being resolved. -/
structure Frame (F : Type) where
  runtime : Nat
  fixture : F
  ancestry : List String
  pending : List F

/-- Why a runtime tears down. -/
inductive Purpose (F E : Type)
  | use (use : Use F) (error : Failure E)
  | close (promise : Nat)

/-- What the running operation does next, or waits for. -/
inductive Activity (F V E : Type)
  | begun (operation : Operation F)
  | resolve (use : Use F) (runtime : Nat) (fixture : F) (ancestry : List String)
      (stack : List (Frame F))
  | dependencies (use : Use F) (frame : Frame F) (stack : List (Frame F))
  | setup (use : Use F) (frame : Frame F) (stack : List (Frame F))
  | returned (use : Use F) (value : V) (stack : List (Frame F))
  | rollback (purpose : Purpose F E) (runtime checkpoint : Nat) (errors : List (Failure E))
  | teardown (purpose : Purpose F E) (runtime checkpoint : Nat) (errors : List (Failure E))
      (fixture : F) (called : Bool)

/-- What an operation did; `target` is none for a `use` that no runtime can serve. -/
inductive Entry (F V E : Type)
  | useBegan (promise target : Nat) (fixture : F)
  | setupStarted (runtime : Nat) (fixture : F)
  | setupEnded (runtime : Nat) (fixture : F) (result : Except (Failure E) V)
  | teardownStarted (runtime : Nat) (fixture : F)
  | teardownEnded (runtime : Nat) (fixture : F) (error : Option (Failure E))
  | useEnded (promise : Nat) (target : Option Nat) (result : Except (Failure E) V)
  | closeBegan (promise runtime : Nat)
  | closeEnded (promise runtime : Nat) (error : Option (Failure E))

/-- A worker runtime, number 0, and its test scopes. `refused` has the promises that are
rejected when they are made. -/
structure Suite (F V E : Type) where
  count : Nat
  runtime : Nat → FixtureRuntime F V
  coordinator : Tail (Operation F) (Activity F V E)
  promises : Nat
  refused : List (Nat × Failure E)
  log : List (Entry F V E)

namespace Suite

def create : Suite F V E :=
  ⟨1, fun _ => .create .worker none, .idle, 0, [], []⟩

def setRuntime (s : Suite F V E) (i : Nat) (r : FixtureRuntime F V) : Suite F V E :=
  { s with runtime := Function.update s.runtime i r }

def note (s : Suite F V E) (e : Entry F V E) : Suite F V E := { s with log := s.log ++ [e] }

def acceptingWork (r : FixtureRuntime F V) : Bool := !(r.closing || r.closed)

/-- A promise that is rejected at once. -/
def refuse (s : Suite F V E) (error : Failure E) : Suite F V E :=
  { s with promises := s.promises + 1, refused := s.refused ++ [(s.promises, error)] }

def enqueue (s : Suite F V E) (operation : Operation F) : Suite F V E :=
  { s with
    promises := s.promises + 1
    coordinator := s.coordinator.enqueue (fun _ => true) operation }

/-! ## Calls -/

/-- The constructor, called for a test scope of a runtime. -/
def addChild (s : Suite F V E) (i : Nat) : Suite F V E :=
  { (s.setRuntime i { s.runtime i with
      children := (s.runtime i).children ++ [s.count] }).setRuntime s.count
        (.create .test (some i)) with
    count := s.count + 1 }

def createTestScope (s : Suite F V E) (i : Nat) : Suite F V E :=
  if !acceptingWork (s.runtime i) then s
  else if (s.runtime i).scope ≠ .worker then s
  else s.addChild i

def use (s : Suite F V E) (i : Nat) (fixture : F) : Suite F V E :=
  if !acceptingWork (s.runtime i) then
    s.refuse (.error "Fixture runtime is already closing or closed.")
  else s.enqueue (.use s.promises i fixture)

/-- A second call returns the promise of the first. -/
def close (s : Suite F V E) (i : Nat) : Suite F V E :=
  if (s.runtime i).closePromise.isSome then s
  else if (s.runtime i).scope = .worker ∧ (s.runtime i).children ≠ [] then
    s.refuse (.error "Close all test fixture scopes before closing their worker runtime.")
  else
    (s.setRuntime i { s.runtime i with closing := true, closePromise := some s.promises }).enqueue
      (.close s.promises i)

/-! ## Resolution -/

variable (defs : Definitions F)

def runtimeFor (s : Suite F V E) (i : Nat) (fixture : F) : Except (Failure E) Nat :=
  let scope := (defs.scope fixture).getD .test
  if scope = (s.runtime i).scope then .ok i
  else
    match scope, (s.runtime i).parent with
    | .worker, some parent => .ok parent
    | _, _ =>
      .error (.error s!"Fixture {defs.id fixture} has {scope.text} scope and cannot run in {(s.runtime i).scope.text} scope.")

/-- An error thrown below a `use`. -/
def failed (use : Use F) (error : Failure E) : Activity F V E :=
  .rollback (.use use error) use.target use.checkpoint []

/-- A fixture that this runtime has to set up, or has. -/
def resolveHere [DecidableEq F] (s : Suite F V E) (use : Use F) (i : Nat) (fixture : F)
    (ancestry : List String) (stack : List (Frame F)) : Activity F V E :=
  if defs.id fixture ∈ ancestry then
    failed use (.error ("Fixture dependency cycle: " ++
      " -> ".intercalate (ancestry ++ [defs.id fixture])))
  else
    match (s.runtime i).states.get? (defs.id fixture) with
    | none => .dependencies use ⟨i, fixture, ancestry, defs.dependencies fixture⟩ stack
    | some existing =>
      if existing.definition ≠ fixture then
        failed use (.error s!"Fixture id {defs.id fixture} is registered more than once.")
      else .returned use existing.value stack

def resolve [DecidableEq F] (s : Suite F V E) (use : Use F) (i : Nat) (fixture : F)
    (ancestry : List String) (stack : List (Frame F)) : Activity F V E :=
  if isBlank (defs.id fixture) then failed use (.error "A fixture id must not be empty.")
  else
    match s.runtimeFor defs i fixture with
    | .error error => failed use error
    | .ok target =>
      if target ≠ i then .resolve use target fixture ancestry stack
      else s.resolveHere defs use i fixture ancestry stack

/-- The loop over the dependencies of a fixture. -/
def resolveDependency (s : Suite F V E) (use : Use F) (frame : Frame F) (dependency : F)
    (rest : List F) (stack : List (Frame F)) : Activity F V E :=
  match s.runtimeFor defs frame.runtime dependency with
  | .error error => failed use error
  | .ok target =>
    .resolve use target dependency (frame.ancestry ++ [defs.id frame.fixture])
      ({ frame with pending := rest } :: stack)

/-- `context.get`, while the fixture of the frame is set up. -/
def get [DecidableEq F] (s : Suite F V E) (frame : Frame F) (dependency : F) :
    Except (Failure E) V :=
  if dependency ∉ defs.dependencies frame.fixture then
    .error (.error s!"Fixture {defs.id dependency} is not a declared dependency of {defs.id frame.fixture}.")
  else
    match s.runtimeFor defs frame.runtime dependency with
    | .error error => .error error
    | .ok target =>
      match (s.runtime target).states.get? (defs.id dependency) with
      | none =>
        .error (.error s!"Fixture {defs.id dependency} was not resolved before setup read it.")
      | some state =>
        if state.definition ≠ dependency then
          .error (.error s!"Fixture {defs.id dependency} was not resolved before setup read it.")
        else .ok state.value

/-- A setup that gave a resource, with or without a teardown. -/
def addState (s : Suite F V E) (frame : Frame F) (value : V) (teardown : Bool) : Suite F V E :=
  s.setRuntime frame.runtime { s.runtime frame.runtime with
    states := (s.runtime frame.runtime).states.set (defs.id frame.fixture)
      ⟨frame.fixture, value, teardown⟩
    setupOrder := (s.runtime frame.runtime).setupOrder ++ [defs.id frame.fixture] }

/-! ## Rollback -/

def popState (s : Suite F V E) (i : Nat) (id : String) : Suite F V E :=
  s.setRuntime i { s.runtime i with
    states := (s.runtime i).states.erase id
    setupOrder := (s.runtime i).setupOrder.dropLast }

/-- What a failed `use` rejects with. -/
def setupFailure (use : Use F) (error : Failure E) (teardownErrors : List (Failure E)) :
    Failure E :=
  if teardownErrors ≠ [] then
    .aggregate (error :: teardownErrors)
      s!"Fixture {defs.id use.fixture} setup and rollback both failed."
  else error

def closeFailure (errors : List (Failure E)) : Option (Failure E) :=
  if errors ≠ [] then some (.aggregate errors "One or more fixture teardowns failed.") else none

def deleteChild (s : Suite F V E) (i : Nat) : Suite F V E :=
  match (s.runtime i).parent with
  | none => s
  | some parent =>
    s.setRuntime parent
      { s.runtime parent with children := (s.runtime parent).children.filter (· ≠ i) }

/-- The end of an operation that has torn down what it has to. -/
def finish (s : Suite F V E) (purpose : Purpose F E) (i : Nat) (errors : List (Failure E)) :
    Suite F V E :=
  match purpose with
  | .use use error =>
    s.note (.useEnded use.promise (some use.target) (.error (setupFailure defs use error errors)))
  | .close promise => (s.deleteChild i).note (.closeEnded promise i (closeFailure errors))

/-- One round of the loop of `rollback`. -/
def rollback (s : Suite F V E) (purpose : Purpose F E) (i checkpoint : Nat)
    (errors : List (Failure E)) : Suite F V E × Option (Activity F V E) :=
  if checkpoint < (s.runtime i).setupOrder.length then
    match (s.runtime i).setupOrder.getLast? with
    | none => (s.finish defs purpose i errors, none)
    | some id =>
      match (s.runtime i).states.get? id with
      | none => (s.popState i id, some (.rollback purpose i checkpoint errors))
      | some state =>
        ((s.popState i id).note (.teardownStarted i state.definition),
          some (.teardown purpose i checkpoint errors state.definition state.teardown))
  else (s.finish defs purpose i errors, none)

/-! ## Steps -/

def begin (s : Suite F V E) : Operation F → Suite F V E × Option (Activity F V E)
  | .use promise i fixture =>
    match s.runtimeFor defs i fixture with
    | .error error => (s.note (.useEnded promise none (.error error)), none)
    | .ok target =>
      (s.note (.useBegan promise target fixture),
        some (.resolve ⟨promise, i, target, fixture, (s.runtime target).setupOrder.length⟩ target
          fixture [] []))
  | .close promise i =>
    ((s.setRuntime i { s.runtime i with closed := true }).note (.closeBegan promise i),
      some (.rollback (.close promise) i 0 []))

/-- What the running operation does by itself; none when it waits for user code. -/
def advance [DecidableEq F] (s : Suite F V E) :
    Activity F V E → Option (Suite F V E × Option (Activity F V E))
  | .begun operation => some (s.begin defs operation)
  | .resolve use i fixture ancestry stack =>
    some (s, some (s.resolve defs use i fixture ancestry stack))
  | .dependencies use frame stack =>
    match frame.pending with
    | [] => some (s.note (.setupStarted frame.runtime frame.fixture), some (.setup use frame stack))
    | dependency :: rest => some (s, some (s.resolveDependency defs use frame dependency rest stack))
  | .returned use value [] =>
    some (s.note (.useEnded use.promise (some use.target) (.ok value)), none)
  | .returned use _ (frame :: stack) => some (s, some (.dependencies use frame stack))
  | .rollback purpose i checkpoint errors => some (s.rollback defs purpose i checkpoint errors)
  | .setup .. => none
  | .teardown .. => none

def setupEnds (s : Suite F V E) (result : Except (Failure E) (V × Bool)) :
    Activity F V E → Option (Suite F V E × Option (Activity F V E))
  | .setup use frame stack =>
    match result with
    | .error error =>
      some (s.note (.setupEnded frame.runtime frame.fixture (.error error)), some (failed use error))
    | .ok (value, teardown) =>
      some ((s.addState defs frame value teardown).note
        (.setupEnded frame.runtime frame.fixture (.ok value)), some (.returned use value stack))
  | _ => none

/-- Only a teardown that is called can throw. -/
def teardownEnds (s : Suite F V E) (error : Option (Failure E)) :
    Activity F V E → Option (Suite F V E × Option (Activity F V E))
  | .teardown purpose i checkpoint errors fixture called =>
    if error.isSome ∧ !called then none
    else some (s.note (.teardownEnded i fixture error),
      some (.rollback purpose i checkpoint (errors ++ error.toList)))
  | _ => none

/-- Lets the running operation take a step. -/
def run (s : Suite F V E)
    (step : Suite F V E → Activity F V E → Option (Suite F V E × Option (Activity F V E)))
    (k : Nat) : Option (Suite F V E) :=
  match s.coordinator.settle k with
  | none => none
  | some (activity, idle) =>
    match step s activity with
    | none => none
    | some (s, none) => some { s with coordinator := idle }
    | some (s, some next) =>
      some { s with coordinator := { s.coordinator with running := s.coordinator.running.set k next } }

end Suite

inductive Event (F V E : Type)
  | createTestScope (runtime : Nat)
  | use (runtime : Nat) (fixture : F)
  | close (runtime : Nat)
  | start (k : Nat)
  | advance (k : Nat)
  | setupEnds (k : Nat) (result : Except (Failure E) (V × Bool))
  | teardownEnds (k : Nat) (error : Option (Failure E))

/-- Calls come at any time, on any runtime there is; `k` picks a waiting operation or a
running one. -/
def next [DecidableEq F] (defs : Definitions F) (s : Suite F V E) :
    Event F V E → Option (Suite F V E)
  | .createTestScope i => if i < s.count then some (s.createTestScope i) else none
  | .use i fixture => if i < s.count then some (s.use i fixture) else none
  | .close i => if i < s.count then some (s.close i) else none
  | .start k =>
    (s.coordinator.begin (fun _ => true) (fun operation => some (.begun operation)) k).map
      fun started => { s with coordinator := started.2 }
  | .advance k => s.run (fun s activity => s.advance defs activity) k
  | .setupEnds k result => s.run (fun s activity => s.setupEnds defs result activity) k
  | .teardownEnds k error => s.run (fun s activity => s.teardownEnds error activity) k

def fixtures [DecidableEq F] (V E : Type) (defs : Definitions F) :
    System (Suite F V E) (Event F V E) :=
  .ofMachine .create (next defs)

end SurfaceLoom.Core.Fixtures
