import Mathlib.Tactic.Common

/-! # Labelled transition systems and their runs

A system is an initial predicate and a labelled step relation. Everything the
development says about "every run" or "every reachable state" goes through the
rules here: an inductive invariant holds in every reachable state, a stable
predicate survives every execution, and a simulation carries runs of one
system to runs of another. -/
namespace SurfaceLoom.Lib.Transition

structure System (σ : Type*) (α : Type*) where
  init : σ → Prop
  step : σ → α → σ → Prop

namespace System

variable {σ α τ β : Type*}

/-- An execution fragment from one state to another, with its labels. -/
inductive Exec (S : System σ α) : σ → List α → σ → Prop
  | nil (s : σ) : Exec S s [] s
  | snoc {s t u : σ} {as : List α} {a : α} :
      Exec S s as t → S.step t a u → Exec S s (as ++ [a]) u

theorem Exec.split {S : System σ α} {s u : σ} {as bs : List α} (h : S.Exec s (as ++ bs) u) :
    ∃ t, S.Exec s as t ∧ S.Exec t bs u := by
  generalize hcs : as ++ bs = cs at h
  induction h generalizing bs with
  | nil =>
    obtain ⟨rfl, rfl⟩ := List.append_eq_nil_iff.mp hcs
    exact ⟨_, .nil _, .nil _⟩
  | @snoc t u cs c he hs ih =>
    rcases List.eq_nil_or_concat bs with rfl | ⟨bs, b, rfl⟩
    · rw [List.append_nil] at hcs
      rw [hcs]
      exact ⟨_, he.snoc hs, .nil _⟩
    · rw [List.concat_eq_append, ← List.append_assoc] at hcs
      obtain ⟨hinit, hlast⟩ := List.append_inj' hcs rfl
      obtain ⟨m, has, hbs⟩ := ih hinit
      cases hlast
      rw [List.concat_eq_append]
      exact ⟨m, has, hbs.snoc hs⟩

theorem Exec.singleton {S : System σ α} {s t : σ} {a : α} (h : S.Exec s [a] t) : S.step s a t := by
  generalize has : [a] = as at h
  cases h with
  | nil => cases has
  | @snoc t u bs b he hs =>
    rw [← List.nil_append [a]] at has
    obtain ⟨hnil, hlast⟩ := List.append_inj' has rfl
    cases hlast
    cases he with
    | nil => exact hs
    | snoc _ _ => simp at hnil

theorem Exec.uncons {S : System σ α} {s u : σ} {a : α} {as : List α} (h : S.Exec s (a :: as) u) :
    ∃ t, S.step s a t ∧ S.Exec t as u := by
  obtain ⟨t, hfirst, hrest⟩ := Exec.split (show S.Exec s ([a] ++ as) u from h)
  exact ⟨t, hfirst.singleton, hrest⟩

/-- A run is an execution fragment from an initial state. -/
def Run (S : System σ α) (as : List α) (s : σ) : Prop := ∃ s₀, S.init s₀ ∧ S.Exec s₀ as s

def Reachable (S : System σ α) (s : σ) : Prop := ∃ as, S.Run as s

variable {S : System σ α}

theorem Run.init {s : σ} (h : S.init s) : S.Run [] s := ⟨s, h, .nil s⟩

theorem Run.snoc {as : List α} {s t : σ} {a : α} (h : S.Run as s) (hs : S.step s a t) :
    S.Run (as ++ [a]) t := by
  obtain ⟨s₀, hi, he⟩ := h
  exact ⟨s₀, hi, he.snoc hs⟩

theorem Run.exec {as bs : List α} {s t : σ} (h : S.Run as s) (he : S.Exec s bs t) :
    S.Run (as ++ bs) t := by
  induction he with
  | nil => simpa using h
  | snoc _ hs ih => simpa using ih.snoc hs

/-- The step a run takes at one of its labels. -/
theorem Run.split {as bs : List α} {a : α} {s : σ} (h : S.Run (as ++ a :: bs) s) :
    ∃ t u, S.Run as t ∧ S.step t a u ∧ S.Exec u bs s := by
  obtain ⟨s₀, hi, he⟩ := h
  obtain ⟨t, hfirst, hrest⟩ := he.split
  obtain ⟨u, hstep, hlast⟩ := hrest.uncons
  exact ⟨t, u, ⟨s₀, hi, hfirst⟩, hstep, hlast⟩

theorem Reachable.init {s : σ} (h : S.init s) : S.Reachable s := ⟨[], .init h⟩

theorem Reachable.step {s t : σ} {a : α} (h : S.Reachable s) (hs : S.step s a t) :
    S.Reachable t := by
  obtain ⟨as, hr⟩ := h
  exact ⟨as ++ [a], hr.snoc hs⟩

theorem Reachable.exec {s t : σ} {as : List α} (h : S.Reachable s) (he : S.Exec s as t) :
    S.Reachable t := by
  induction he with
  | nil => exact h
  | snoc _ hs ih => exact ih.step hs

/-! ## Invariants -/

/-- Holds initially and is kept by every step; `reach` lets one invariant use
those proved before it. -/
structure Invariant (S : System σ α) (I : σ → Prop) : Prop where
  init : ∀ s, S.init s → I s
  step : ∀ s a t, S.Reachable s → I s → S.step s a t → I t

theorem Invariant.reachable {I : σ → Prop} (hI : S.Invariant I) {s : σ}
    (h : S.Reachable s) : I s := by
  obtain ⟨as, s₀, hi, he⟩ := h
  induction he with
  | nil => exact hI.init _ hi
  | @snoc t u as a he hs ih => exact hI.step t a u ⟨as, _, hi, he⟩ ih hs

/-- A predicate kept by every step from a reachable state. -/
def Stable (S : System σ α) (P : σ → Prop) : Prop :=
  ∀ s a t, S.Reachable s → P s → S.step s a t → P t

theorem Stable.exec {P : σ → Prop} (hP : S.Stable P) {s t : σ} {as : List α}
    (h : S.Reachable s) (hs : P s) (he : S.Exec s as t) : P t := by
  induction he with
  | nil => exact hs
  | @snoc t u as a he hst ih => exact hP t a u (h.exec he) ih hst

/-- An invariant that speaks of the labels taken so far. -/
structure TraceInvariant (S : System σ α) (I : List α → σ → Prop) : Prop where
  init : ∀ s, S.init s → I [] s
  step : ∀ as s a t, S.Run as s → I as s → S.step s a t → I (as ++ [a]) t

theorem TraceInvariant.run {I : List α → σ → Prop} (hI : S.TraceInvariant I) {as : List α}
    {s : σ} (h : S.Run as s) : I as s := by
  obtain ⟨s₀, hi, he⟩ := h
  induction he with
  | nil => exact hI.init _ hi
  | @snoc t u as a he hs ih => exact hI.step as t a u ⟨_, hi, he⟩ ih hs

/-! ## Simulations -/

/-- Every concrete step is matched by an execution of the abstract system,
possibly an empty one. -/
structure Simulation (S : System σ α) (T : System τ β) (R : σ → τ → Prop) : Prop where
  init : ∀ s, S.init s → ∃ t, T.init t ∧ R s t
  step : ∀ s a s' t, S.Reachable s → T.Reachable t → R s t → S.step s a s' →
    ∃ bs t', T.Exec t bs t' ∧ R s' t'

/-- Every reachable concrete state is related to a reachable abstract one. -/
theorem Simulation.reachable {T : System τ β} {R : σ → τ → Prop} (hR : Simulation S T R)
    {s : σ} (h : S.Reachable s) : ∃ t, T.Reachable t ∧ R s t := by
  obtain ⟨as, s₀, hi, he⟩ := h
  induction he with
  | nil =>
    obtain ⟨t, ht, hr⟩ := hR.init _ hi
    exact ⟨t, .init ht, hr⟩
  | @snoc u v as a he hs ih =>
    obtain ⟨t, ht, hr⟩ := ih
    obtain ⟨bs, t', hbs, hr'⟩ := hR.step u a v t ⟨as, _, hi, he⟩ ht hr hs
    exact ⟨t', ht.exec hbs, hr'⟩

/-! ## Restricting the steps -/

/-- The runs all of whose steps meet a condition. -/
def restrict (S : System σ α) (C : σ → α → Prop) : System σ α where
  init := S.init
  step s a t := S.step s a t ∧ C s a

theorem Reachable.of_restrict {C : σ → α → Prop} {s : σ} (h : (S.restrict C).Reachable s) :
    S.Reachable s := by
  obtain ⟨as, s₀, hi, he⟩ := h
  induction he with
  | nil => exact .init hi
  | snoc _ hs ih => exact ih.step hs.1

theorem Reachable.restrict {C : σ → α → Prop} {s : σ} (h : S.Reachable s) (hC : ∀ s a, C s a) :
    (S.restrict C).Reachable s := by
  obtain ⟨as, s₀, hi, he⟩ := h
  induction he with
  | nil => exact .init hi
  | @snoc t u as a he hs ih => exact ih.step ⟨hs, hC t a⟩

theorem Reachable.restrict_mono {C D : σ → α → Prop} {s : σ} (h : (S.restrict C).Reachable s)
    (hCD : ∀ s a, C s a → D s a) : (S.restrict D).Reachable s := by
  obtain ⟨as, s₀, hi, he⟩ := h
  induction he with
  | nil => exact .init hi
  | @snoc t u as a he hs ih => exact ih.step ⟨hs.1, hCD t a hs.2⟩

/-! ## Machines: a partial step function -/

/-- The system of a deterministic machine: `next s a` is the state after `a`,
or `none` when `a` cannot happen in `s`. -/
def ofMachine (start : σ) (next : σ → α → Option σ) : System σ α where
  init s := s = start
  step s a t := next s a = some t

/-- A machine is in one state after a run. -/
theorem run_unique {start : σ} {next : σ → α → Option σ} {as : List α} {s t : σ}
    (hs : (ofMachine start next).Run as s) (ht : (ofMachine start next).Run as t) : s = t := by
  obtain ⟨s₀, rfl, hs⟩ := hs
  obtain ⟨t₀, rfl, ht⟩ := ht
  induction hs generalizing t with
  | nil =>
    generalize has : ([] : List α) = as at ht
    cases ht with
    | nil => rfl
    | snoc _ _ => simp at has
  | @snoc u v as a _ hstep ih =>
    generalize hbs : as ++ [a] = bs at ht
    cases ht with
    | nil => simp at hbs
    | @snoc u' v' as' a' ht' hstep' =>
      obtain ⟨rfl, hlast⟩ := List.append_inj' hbs rfl
      cases hlast
      cases ih ht'
      exact Option.some.inj (hstep.symm.trans hstep')

/-- The state a machine reaches by a list of labels. -/
def replay (next : σ → α → Option σ) (s : σ) : List α → Option σ
  | [] => some s
  | a :: as => (next s a).bind fun t => replay next t as

theorem replay_append (next : σ → α → Option σ) :
    ∀ (as bs : List α) (s : σ),
      replay next s (as ++ bs) = (replay next s as).bind fun t => replay next t bs
  | [], _, _ => rfl
  | a :: as, bs, s => by
    show (next s a).bind _ = ((next s a).bind _).bind _
    rw [Option.bind_assoc]
    exact congrArg _ (funext fun t => replay_append next as bs t)

theorem replay_snoc {next : σ → α → Option σ} {as : List α} {a : α} {s t u : σ}
    (h : replay next s as = some t) (hnext : next t a = some u) :
    replay next s (as ++ [a]) = some u := by
  rw [replay_append, h]
  show (next t a).bind some = some u
  rw [hnext]
  rfl

theorem Exec.cons {s t u : σ} {a : α} {as : List α} (hs : S.step s a t) (he : S.Exec t as u) :
    S.Exec s (a :: as) u := by
  induction he with
  | nil => exact Exec.snoc (.nil s) hs
  | snoc _ hu ih => exact ih.snoc hu

/-- A computed replay is an execution of every system with these steps. -/
theorem exec_of_steps {next : σ → α → Option σ}
    (hnext : ∀ s a t, next s a = some t → S.step s a t) :
    ∀ (as : List α) (s t : σ), replay next s as = some t → S.Exec s as t
  | [], s, t, h => by cases h; exact .nil s
  | a :: as, s, t, h => by
    obtain ⟨u, hu, hrest⟩ := Option.bind_eq_some_iff.mp h
    exact (exec_of_steps hnext as u t hrest).cons (hnext s a u hu)

theorem exec_of_replay {start : σ} {next : σ → α → Option σ} (as : List α) (s t : σ)
    (h : replay next s as = some t) : (ofMachine start next).Exec s as t :=
  exec_of_steps (fun _ _ _ hu => hu) as s t h

/-- A computed replay from the start state is a run: this is how a concrete
run is exhibited. -/
theorem run_of_replay {start : σ} {next : σ → α → Option σ} {as : List α} {t : σ}
    (h : replay next start as = some t) : (ofMachine start next).Run as t :=
  ⟨start, rfl, exec_of_replay as start t h⟩

theorem reachable_of_replay {start : σ} {next : σ → α → Option σ} {as : List α} {t : σ}
    (h : replay next start as = some t) : (ofMachine start next).Reachable t :=
  ⟨as, run_of_replay h⟩

/-- A computed replay whose steps are checked is a restricted run. -/
theorem reachable_restrict_of_replay {start : σ} {next : σ → α → Option σ} {C : σ → α → Prop}
    [∀ s a, Decidable (C s a)] : ∀ (as : List α) {s t : σ},
      ((ofMachine start next).restrict C).Reachable s →
      replay (fun s a => if C s a then next s a else none) s as = some t →
      ((ofMachine start next).restrict C).Reachable t
  | [], _, _, hs, h => by
    cases h
    exact hs
  | a :: as, s, t, hs, h => by
    obtain ⟨u, hu, hrest⟩ := Option.bind_eq_some_iff.mp h
    replace hu : (if C s a then next s a else none) = some u := hu
    split at hu
    · rename_i hc
      exact reachable_restrict_of_replay as (hs.step ⟨hu, hc⟩) hrest
    · cases hu

end System

/-! ## Logs -/

/-- Every entry of a log is right after those before it. -/
def Chronicle {ε : Type*} (right : List ε → ε → Prop) (log : List ε) : Prop :=
  ∀ pre e post, log = pre ++ e :: post → right pre e

namespace Chronicle

variable {ε : Type*} {right : List ε → ε → Prop} {log : List ε}

theorem nil : Chronicle right [] := by
  intro pre e post heq
  simp at heq

theorem snoc {e : ε} (h : Chronicle right log) (he : right log e) :
    Chronicle right (log ++ [e]) := by
  intro pre e' post heq
  rcases List.eq_nil_or_concat post with rfl | ⟨post', e'', rfl⟩
  · obtain ⟨rfl, hlast⟩ := List.append_inj' heq rfl
    cases hlast
    exact he
  · have heq' : log ++ [e] = (pre ++ e' :: post') ++ [e''] := by simpa using heq
    obtain ⟨hlog, -⟩ := List.append_inj' heq' rfl
    exact h pre e' post' hlog

/-- What is right of a log is right of its first entries. -/
theorem init {e : ε} (h : Chronicle right (log ++ [e])) : Chronicle right log ∧ right log e :=
  ⟨fun pre e' post heq => h pre e' (post ++ [e]) (by rw [heq, List.append_assoc]; rfl),
    h log e [] rfl⟩

end Chronicle

end SurfaceLoom.Lib.Transition
