import SurfaceLoom.Lib.OrderedMap
import SurfaceLoom.Lib.Once
import SurfaceLoom.Lib.Transition

/-! # Serial executors with consumed keys

An executor admits requests at any time and answers them one at a time, in the
order of admission. Answering may act, once, for the key a request carries.
The log records each answer with the state it started from. When acting needs
a key that is not consumed and consumes it, no key is acted for twice, in any
run. -/
namespace SurfaceLoom.Lib.SerialExecutor
open SurfaceLoom.Lib SurfaceLoom.Lib.Transition

variable {Q R κ α K : Type}

structure Answer (κ α : Type) where
  core : κ
  acted : Bool
  report : α

/-- `close`, where the executor has it, ends all answering. -/
structure Executor (Q R κ α K : Type) where
  id : Q → String
  key : Q → Option K
  answer : κ → Q → R → Answer κ α
  isOpen : κ → Bool
  close : Option (κ → κ)

structure Exchange (Q R κ α : Type) where
  request : Q
  reads : R
  before : κ
  answer : Answer κ α

/-- `outstanding` maps the admitted, uncompleted request ids to whether their
cancellation was asked for. -/
structure State (Q R κ α : Type) where
  outstanding : OrderedMap String Bool
  queue : List Q
  core : κ
  log : List (Exchange Q R κ α)

inductive Event (Q R : Type)
  | prepare (request : Q)
  | cancel (requestId : String)
  | execute (reads : R)
  | complete (requestId : String)
  | close

namespace Executor

/-- A request whose id is outstanding is refused. -/
def next (x : Executor Q R κ α K) (s : State Q R κ α) : Event Q R → Option (State Q R κ α)
  | .prepare request =>
    if x.isOpen s.core ∧ ¬ s.outstanding.has (x.id request) then
      some { s with
        outstanding := s.outstanding.set (x.id request) false
        queue := s.queue ++ [request] }
    else some s
  | .cancel requestId =>
    if s.outstanding.has requestId then
      some { s with outstanding := s.outstanding.set requestId true }
    else some s
  | .execute reads =>
    match s.queue with
    | [] => none
    | request :: rest =>
      if x.isOpen s.core then
        let answer := x.answer s.core request reads
        some { s with
          queue := rest
          core := answer.core
          log := s.log ++ [⟨request, reads, s.core, answer⟩] }
      else some { s with queue := rest }
  | .complete requestId => some { s with outstanding := s.outstanding.erase requestId }
  | .close => x.close.map fun f => { s with outstanding := .empty, core := f s.core }

def system (x : Executor Q R κ α K) (start : κ) : System (State Q R κ α) (Event Q R) :=
  .ofMachine ⟨.empty, [], start, []⟩ x.next

/-- The key an exchange acted for. -/
def actedKey (x : Executor Q R κ α K) (e : Exchange Q R κ α) : Option K :=
  if e.answer.acted then x.key e.request else none

/-- Acting consumes the key of its request; keys stay consumed while the
executor answers, and closing is final. -/
structure Consumes (x : Executor Q R κ α K) (consumed : κ → K → Prop) : Prop where
  grows : ∀ c q r k, consumed c k → consumed (x.answer c q r).core k
  acts : ∀ c q r, (x.answer c q r).acted = true → ∀ k ∈ x.key q,
    ¬ consumed c k ∧ consumed (x.answer c q r).core k
  closes : ∀ f ∈ x.close, ∀ c, x.isOpen (f c) = false

variable {x : Executor Q R κ α K} {consumed : κ → K → Prop} {start : κ}

/-- Either the log stays and an open core is the old one, or one answer is
logged. -/
theorem next_cases {s t : State Q R κ α} {event : Event Q R} (hx : x.Consumes consumed)
    (h : x.next s event = some t) :
    (t.log = s.log ∧ (t.core = s.core ∨ x.isOpen t.core = false)) ∨
      (∃ request reads, x.isOpen s.core = true ∧
        t.core = (x.answer s.core request reads).core ∧
        t.log = s.log ++ [⟨request, reads, s.core, x.answer s.core request reads⟩]) := by
  cases event with
  | prepare request =>
    simp only [next] at h
    split at h
    · cases h; exact .inl ⟨rfl, .inl rfl⟩
    · cases h; exact .inl ⟨rfl, .inl rfl⟩
  | cancel requestId =>
    simp only [next] at h
    split at h
    · cases h; exact .inl ⟨rfl, .inl rfl⟩
    · cases h; exact .inl ⟨rfl, .inl rfl⟩
  | execute reads =>
    simp only [next] at h
    split at h
    · cases h
    · rename_i request rest _
      split at h
      · rename_i hopen
        cases h
        exact .inr ⟨request, reads, hopen, rfl, rfl⟩
      · cases h; exact .inl ⟨rfl, .inl rfl⟩
  | complete requestId => cases h; exact .inl ⟨rfl, .inl rfl⟩
  | close =>
    obtain ⟨f, hf, rfl⟩ := Option.map_eq_some_iff.mp h
    exact .inl ⟨rfl, .inr (hx.closes f hf s.core)⟩

/-- The log against the consumed keys: what was consumed by an answer is
consumed before every later one, and at the end while the executor is open. -/
structure LogSound (x : Executor Q R κ α K) (consumed : κ → K → Prop) (s : State Q R κ α) :
    Prop where
  answers : ∀ e ∈ s.log, e.answer = x.answer e.before e.request e.reads
  later : s.log.Pairwise fun e₁ e₂ => ∀ k, consumed e₁.answer.core k → consumed e₂.before k
  kept : x.isOpen s.core = true → ∀ e ∈ s.log, ∀ k, consumed e.answer.core k → consumed s.core k
  once : Once (fun k => x.isOpen s.core = false ∨ consumed s.core k) (s.log.filterMap x.actedKey)

theorem logSound_invariant (hx : x.Consumes consumed) :
    (x.system start).Invariant (LogSound x consumed) where
  init := by
    rintro s rfl
    exact ⟨fun _ h => (by cases h), .nil, fun _ _ h => (by cases h), .nil⟩
  step := by
    intro s event t _ hs hstep
    rcases next_cases hx hstep with ⟨hlog, hcore⟩ | ⟨request, reads, hopen, hcore, hlog⟩
    · refine ⟨hlog ▸ hs.answers, hlog ▸ hs.later, ?_, ?_⟩
      · intro hopen
        rcases hcore with he | hclosed
        · rw [he] at hopen ⊢
          exact hlog ▸ hs.kept hopen
        · rw [hclosed] at hopen; cases hopen
      · rw [hlog]
        refine hs.once.mono fun k hk => ?_
        rcases hcore with he | hclosed
        · exact he ▸ hk
        · exact .inl hclosed
    · refine ⟨?_, ?_, ?_, ?_⟩
      · intro e he
        rw [hlog] at he
        rcases List.mem_append.mp he with h | h
        · exact hs.answers e h
        · rw [List.mem_singleton] at h
          rw [h]
      · rw [hlog, List.pairwise_append]
        refine ⟨hs.later, List.pairwise_singleton _ _, fun e₁ h₁ e₂ h₂ k hk => ?_⟩
        rw [List.mem_singleton] at h₂
        rw [h₂]
        exact hs.kept hopen e₁ h₁ k hk
      · intro _ e he k hk
        rw [hlog] at he
        rw [hcore]
        rcases List.mem_append.mp he with h | h
        · exact hx.grows _ _ _ k (hs.kept hopen e h k hk)
        · rw [List.mem_singleton] at h
          rw [h] at hk
          exact hk
      · have hgrow : ∀ k, (x.isOpen s.core = false ∨ consumed s.core k) →
            (x.isOpen t.core = false ∨ consumed t.core k) := by
          rintro k (hc | hc)
          · rw [hopen] at hc; cases hc
          · exact .inr (hcore ▸ hx.grows _ _ _ k hc)
        rw [hlog, List.filterMap_append]
        cases hkey : x.actedKey ⟨request, reads, s.core, x.answer s.core request reads⟩ with
        | none => simpa [hkey] using hs.once.mono hgrow
        | some k =>
          have hacted : (x.answer s.core request reads).acted = true ∧
              x.key request = some k := by
            simpa [actedKey] using hkey
          obtain ⟨hnot, hin⟩ := hx.acts s.core request reads hacted.1 k hacted.2
          simp only [List.filterMap_cons, hkey, List.filterMap_nil]
          refine hs.once.act hgrow ?_ (.inr (hcore ▸ hin))
          rintro (hc | hc)
          · rw [hopen] at hc; cases hc
          · exact hnot hc

end Executor

end SurfaceLoom.Lib.SerialExecutor
