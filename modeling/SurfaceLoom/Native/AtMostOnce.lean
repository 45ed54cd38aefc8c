import SurfaceLoom.Lib.SerialExecutor
import SurfaceLoom.Native.WindowsDispatcher
import SurfaceLoom.Native.MacDispatcher

/-! # At most one execution per operation id

Both dispatchers are serial executors whose consumed keys are the operation
ids they have registered. No operation id executes twice in a run, a response
that permits a retry did not execute, and a consumed id is refused as reused
wherever the refusal is reached: the dispatch contract is checked before the
registry, and a full registry is reported before a reused id. -/
namespace SurfaceLoom.Native.AtMostOnce
open SurfaceLoom.Lib SurfaceLoom.Lib.Transition SurfaceLoom.Lib.SerialExecutor
open SurfaceLoom.Native.Wire

variable {π l ρ : Type}

/-! ## The Windows host -/

section Windows

open SurfaceLoom.Native.WindowsDispatcher

/-- The state of `NativeV1Dispatcher` that an execution uses. -/
structure DispatcherState where
  sessions : Sessions
  usedOperationIds : Finset String
  disposed : Bool

def DispatcherState.initial : DispatcherState := ⟨.empty, ∅, false⟩

def DispatcherState.dispose (_ : DispatcherState) : DispatcherState := ⟨.empty, ∅, true⟩

/-- `ExecuteOutbound` on one prepared request. -/
def executeOutbound (host : WindowsHost π l ρ) (d : DispatcherState) (request : NativeRequest π)
    (reads : WindowsDispatcher.Reads ρ) :
    Answer DispatcherState (Option (NativeResponse (WireResult ρ))) :=
  let e := executeCore host d.sessions d.usedOperationIds request reads
  ⟨⟨e.sessions, e.usedOperationIds, d.disposed⟩, e.dispatched,
    outbound host request reads.remainingOnPublication e.response⟩

def windows (host : WindowsHost π l ρ) :
    Executor (NativeRequest π) (WindowsDispatcher.Reads ρ) DispatcherState
      (Option (NativeResponse (WireResult ρ))) String where
  id request := request.id
  key request := request.call.operationID
  answer := executeOutbound host
  isOpen d := !d.disposed
  close := some DispatcherState.dispose

def Consumed (d : DispatcherState) (op : String) : Prop := op ∈ d.usedOperationIds

theorem windows_consumes (host : WindowsHost π l ρ) : (windows host).Consumes Consumed where
  grows d request reads op hop :=
    (executeCore_once host d.sessions d.usedOperationIds request reads).grows hop
  acts d request reads hacted :=
    (executeCore_once host d.sessions d.usedOperationIds request reads).fresh hacted
  closes f hf d := by
    cases hf
    rfl

end Windows

/-! ## The macOS host -/

section MacOS

open SurfaceLoom.Native.MacDispatcher

def answerFrame (host : MacHost π ρ) (operationIDs : Finset String) (request : NativeRequest π)
    (reads : MacDispatcher.Reads ρ) : Answer (Finset String) (Outbound ρ) :=
  let o := makeOutboundFrame host operationIDs request reads
  ⟨o.operationIDs, o.executed, o⟩

def macOS (host : MacHost π ρ) :
    Executor (NativeRequest π) (MacDispatcher.Reads ρ) (Finset String) (Outbound ρ) String where
  id request := request.id
  key request := request.call.operationID
  answer := answerFrame host
  isOpen _ := true
  close := none

theorem macOS_consumes (host : MacHost π ρ) :
    (macOS host).Consumes fun operationIDs op => op ∈ operationIDs where
  grows used request reads _ hop := (makeOutboundFrame_once host used request reads).grows hop
  acts used request reads hacted :=
    (makeOutboundFrame_once host used request reads).fresh hacted
  closes _ hf := nomatch hf

end MacOS

/-! ## The guarantee -/

/-- The refusal of a consumed operation id. -/
structure Refused (response : NativeResponse ρ) : Prop where
  code : response.code = some "operation_id_reused"
  outcome : response.outcome = some .notExecuted
  retry : response.error.map (·.retry) = some .never

/-- The log of a Windows host instance. -/
structure WindowsGuarantee (host : WindowsDispatcher.WindowsHost π l ρ)
    (log : List (Exchange (NativeRequest π) (WindowsDispatcher.Reads ρ) DispatcherState
      (Option (NativeResponse (WindowsDispatcher.WireResult ρ))))) : Prop where
  /-- No operation id is dispatched twice. -/
  once : (log.filterMap (windows host).actedKey).Nodup
  /-- A later request with a consumed id is not dispatched. If it meets the
  dispatch contract while the registry has room, its answer is the refusal,
  provided that fits the wire. -/
  reused : log.Pairwise fun e₁ e₂ => ∀ op ∈ e₁.answer.core.usedOperationIds,
    e₂.request.call.operationID = some op → e₂.answer.acted = false ∧
      (WindowsDispatcher.validateDispatchContract host e₂.before.sessions e₂.request = .ok () →
        e₂.before.usedOperationIds.card < WindowsDispatcher.operationRegistryLimit →
        host.serializes (WindowsDispatcher.reused e₂.request) = true →
        ∃ response, e₂.answer.report = some response ∧ Refused response)
  /-- A response that permits a retry was produced without the delegate. -/
  retrySafe : ∀ e ∈ log, ∀ response, e.answer.report = some response →
    response.RetrySafe → e.answer.acted = false

/-- The log of a macOS host instance. -/
structure MacGuarantee (host : MacDispatcher.MacHost π ρ)
    (log : List (Exchange (NativeRequest π) (MacDispatcher.Reads ρ) (Finset String)
      (MacDispatcher.Outbound ρ))) : Prop where
  once : (log.filterMap (macOS host).actedKey).Nodup
  reused : log.Pairwise fun e₁ e₂ => ∀ op ∈ e₁.answer.core,
    e₂.request.call.operationID = some op → e₂.answer.acted = false ∧
      (MacDispatcher.validateDispatch host e₂.request = .ok () →
        e₂.before.card < MacDispatcher.operationLimit →
        host.encodes (MacDispatcher.reused e₂.request) = true →
        Refused e₂.answer.report.response)
  /-- Where the command ran, its cleanup hook itself reported `notExecuted`. -/
  retrySafe : ∀ e ∈ log, e.answer.report.response.RetrySafe →
    e.answer.acted = false ∨ e.answer.report.hookReported = some .notExecuted

theorem windows_reused_refused {request : NativeRequest π} {op : String}
    (h : request.call.operationID = some op) :
    Refused (WindowsDispatcher.reused request : NativeResponse (WindowsDispatcher.WireResult ρ)) := by
  refine ⟨rfl, ?_, ?_⟩
  · simp [NativeResponse.outcome, WindowsDispatcher.reused, WindowsDispatcher.failure, h]
  · simp [WindowsDispatcher.reused, WindowsDispatcher.failure]

theorem macOS_reused_refused {request : NativeRequest π} {op : String}
    (h : request.call.operationID = some op) :
    Refused (MacDispatcher.reused request : NativeResponse ρ) := by
  refine ⟨rfl, ?_, ?_⟩
  · simp [NativeResponse.outcome, MacDispatcher.reused, MacDispatcher.failure, h]
  · simp [MacDispatcher.reused, MacDispatcher.failure]

theorem windows_guarantee {host : WindowsDispatcher.WindowsHost π l ρ}
    {s : State (NativeRequest π) (WindowsDispatcher.Reads ρ) DispatcherState
      (Option (NativeResponse (WindowsDispatcher.WireResult ρ)))}
    (h : ((windows host).system .initial).Reachable s) : WindowsGuarantee host s.log := by
  have hs := (Executor.logSound_invariant (windows_consumes host)).reachable h
  refine ⟨hs.once.nodup, ?_, ?_⟩
  · refine hs.later.imp_of_mem fun {e₁ e₂} _ h₂ hle op hop hkey => ?_
    have hmem : op ∈ e₂.before.usedOperationIds := hle op hop
    have hanswer : e₂.answer = executeOutbound host e₂.before e₂.request e₂.reads :=
      hs.answers e₂ h₂
    refine ⟨?_, fun hcontract hroom hfits => ⟨WindowsDispatcher.reused e₂.request, ?_,
      windows_reused_refused hkey⟩⟩
    · by_contra hacted
      rw [Bool.not_eq_false, hanswer] at hacted
      exact ((windows_consumes host).acts _ _ _ hacted op hkey).1 hmem
    · rw [hanswer]
      simp only [executeOutbound, WindowsDispatcher.executeCore_reused hcontract hkey hmem hroom,
        WindowsDispatcher.outbound_reused _ hfits]
  · intro e he response hresponse hsafe
    rw [hs.answers e he] at hresponse ⊢
    exact (WindowsDispatcher.executeCore_once host _ _ e.request e.reads).retrySafe
      (WindowsDispatcher.outbound_retrySafe hresponse hsafe)

theorem macOS_guarantee {host : MacDispatcher.MacHost π ρ}
    {s : State (NativeRequest π) (MacDispatcher.Reads ρ) (Finset String)
      (MacDispatcher.Outbound ρ)}
    (h : ((macOS host).system ∅).Reachable s) : MacGuarantee host s.log := by
  have hs := (Executor.logSound_invariant (macOS_consumes host)).reachable h
  refine ⟨hs.once.nodup, ?_, ?_⟩
  · refine hs.later.imp_of_mem fun {e₁ e₂} _ h₂ hle op hop hkey => ?_
    have hmem : op ∈ e₂.before := hle op hop
    have hanswer : e₂.answer = answerFrame host e₂.before e₂.request e₂.reads :=
      hs.answers e₂ h₂
    refine ⟨?_, fun hcontract hroom hfits => ?_⟩
    · by_contra hacted
      rw [Bool.not_eq_false, hanswer] at hacted
      exact ((macOS_consumes host).acts _ _ _ hacted op hkey).1 hmem
    · rw [hanswer]
      simp only [answerFrame,
        MacDispatcher.makeOutboundFrame_reused hcontract hkey hmem hroom hfits]
      exact macOS_reused_refused hkey
  · intro e he hsafe
    rw [hs.answers e he] at hsafe ⊢
    by_cases hacted : (answerFrame host e.before e.request e.reads).acted = true
    · exact .inr ((MacDispatcher.makeOutboundFrame_once host e.before e.request e.reads).retrySafe
        hsafe hacted)
    · exact .inl (Bool.not_eq_true _ ▸ hacted)

def demoHost : WindowsDispatcher.WindowsHost Unit Unit Unit where
  hostInstanceId := "windows-1"
  buildLegacyRequest _ _ := .ok ()
  actionRoot _ := .ok "root-1"
  serializes _ := true

def launchRequest (id : String) : NativeRequest Unit :=
  ⟨id, 1000, ⟨"session.launch", .lifecycle, .host "windows-1", (), some "op-launch", by simp⟩⟩

def closeRequest (id : String) : NativeRequest Unit :=
  ⟨id, 1000, ⟨"session.close", .lifecycle, .session "windows-1" "session-1", (), some "op-close",
    by simp⟩⟩

def inTime (result : WindowsDispatcher.DispatchResult Unit) : WindowsDispatcher.Reads Unit :=
  ⟨false, 900, false, 900, false, false, .ok result, 800, 800⟩

/-- A launch, the close of its session, and the close once more. -/
def closedTwice : State (NativeRequest Unit) (WindowsDispatcher.Reads Unit) DispatcherState
    (Option (NativeResponse (WindowsDispatcher.WireResult Unit))) :=
  (System.replay (windows demoHost).next ⟨.empty, [], .initial, []⟩
    [.prepare (launchRequest "r1"), .execute (inTime (.session "session-1" .owned .window "root-1")),
     .prepare (closeRequest "r2"), .execute (inTime (.other ())), .complete "r2",
     .prepare (closeRequest "r2"), .execute (inTime (.other ()))]).get (by decide)

theorem closedTwice_reachable : ((windows demoHost).system .initial).Reachable closedTwice :=
  System.reachable_of_replay (Option.some_get _).symm

def demoMac : MacDispatcher.MacHost Unit Unit where
  hostInstanceID := "windows-1"
  methods := [⟨"session.launch", .lifecycle, ["host"]⟩]
  hasBackend := true
  descriptorJSON := ()
  encodes _ := true

def keepRunning : MacDispatcher.StopRead := ⟨false, false, false, false⟩

def launches : MacDispatcher.Reads Unit :=
  ⟨false, false, .ok (), keepRunning, .ok (), keepRunning, .ok (), keepRunning, none, keepRunning⟩

/-- The same launch twice, the second after its deadline. -/
def launchedTwice : State (NativeRequest Unit) (MacDispatcher.Reads Unit) (Finset String)
    (MacDispatcher.Outbound Unit) :=
  (System.replay (macOS demoMac).next ⟨.empty, [], ∅, []⟩
    [.prepare (launchRequest "r1"), .execute launches, .complete "r1",
     .prepare (launchRequest "r1"),
     .execute { launches with expiredOnAdmission := true }]).get (by decide)

theorem launchedTwice_reachable : ((macOS demoMac).system ∅).Reachable launchedTwice :=
  System.reachable_of_replay (Option.some_get _).symm

end SurfaceLoom.Native.AtMostOnce
