import Mathlib.Tactic.Common

/-! # Programs of calls

A piece of asynchronous code as the calls it makes: after each it goes on from the
reply, and it ends with a result or an error. A handler says what a call does to the
shared state; one call is one step. -/
namespace SurfaceLoom.Lib

inductive Program (C : Type) (R : C → Type) (ε α : Type)
  | done (result : Except ε α)
  | call (command : C) (rest : R command → Program C R ε α)

namespace Program

variable {C : Type} {R : C → Type} {ε α β σ : Type}

def bind (p : Program C R ε α) (f : α → Program C R ε β) : Program C R ε β :=
  match p with
  | .done (.ok a) => f a
  | .done (.error e) => .done (.error e)
  | .call command rest => .call command fun r => (rest r).bind f

instance : Monad (Program C R ε) where
  pure a := .done (.ok a)
  bind := bind

def throw (e : ε) : Program C R ε α := .done (.error e)

/-- Goes on from the outcome, whatever it is. -/
def attempt (p : Program C R ε α) (f : Except ε α → Program C R ε β) : Program C R ε β :=
  match p with
  | .done result => f result
  | .call command rest => .call command fun r => (rest r).attempt f

def tryCatch (p : Program C R ε α) (handle : ε → Program C R ε α) : Program C R ε α :=
  p.attempt fun
    | .ok a => .done (.ok a)
    | .error e => handle e

/-- An error of the last part takes the place of the outcome. -/
def tryFinally (p : Program C R ε α) (last : Program C R ε Unit) : Program C R ε α :=
  p.attempt fun result => last.bind fun () => .done result

/-! ## Running alone -/

/-- What a call does to the state and what it replies. -/
abbrev Handler (C : Type) (R : C → Type) (σ : Type) := (command : C) → σ → R command × σ

def run (h : Handler C R σ) (p : Program C R ε α) (s : σ) : Except ε α × σ :=
  match p with
  | .done result => (result, s)
  | .call command rest => (rest (h command s).1).run h (h command s).2

variable {h : Handler C R σ} {p : Program C R ε α} {f : α → Program C R ε β} {s t : σ}

@[simp] theorem run_done (result : Except ε α) (s : σ) :
    (Program.done (C := C) (R := R) result).run h s = (result, s) := rfl

@[simp] theorem run_pure (a : α) (s : σ) :
    (pure a : Program C R ε α).run h s = (.ok a, s) := rfl

@[simp] theorem run_throw (e : ε) (s : σ) :
    (throw e : Program C R ε α).run h s = (.error e, s) := rfl

/-! ## What every step of a program does -/

/-- Every step of the program, run alone from a state, is one of `G`. -/
def Guarded (h : Handler C R σ) (G : σ → σ → Prop) : Program C R ε α → σ → Prop
  | .done _, _ => True
  | .call command rest, s => G s (h command s).2 ∧ (rest (h command s).1).Guarded h G (h command s).2

variable {G : σ → σ → Prop}

/-- Every step of the program is one of `G`, and `Q` holds of its outcome and of the state
it ends in. -/
def Ensures (h : Handler C R σ) (G : σ → σ → Prop) (Q : Except ε α → σ → Prop) :
    Program C R ε α → σ → Prop
  | .done result, s => Q result s
  | .call command rest, s =>
    G s (h command s).2 ∧ (rest (h command s).1).Ensures h G Q (h command s).2

variable {Q Q' : Except ε α → σ → Prop}

theorem Ensures.guarded (hp : p.Ensures h G Q s) : p.Guarded h G s := by
  induction p generalizing s with
  | done result => trivial
  | call command rest ih => exact ⟨hp.1, ih (h command s).1 hp.2⟩

theorem Ensures.run (hp : p.Ensures h G Q s) : Q (p.run h s).1 (p.run h s).2 := by
  induction p generalizing s with
  | done result => exact hp
  | call command rest ih => exact ih (h command s).1 hp.2

theorem Ensures.mono (hp : p.Ensures h G Q s) (hQ : ∀ result t, Q result t → Q' result t) :
    p.Ensures h G Q' s := by
  induction p generalizing s with
  | done result => exact hQ result s hp
  | call command rest ih => exact ⟨hp.1, ih (h command s).1 hp.2⟩

theorem Ensures.weaken {G' : σ → σ → Prop} (hp : p.Ensures h G Q s) (hG : ∀ a b, G a b → G' a b)
    (hQ : ∀ result t, Q result t → Q' result t) : p.Ensures h G' Q' s := by
  induction p generalizing s with
  | done result => exact hQ result s hp
  | call command rest ih => exact ⟨hG _ _ hp.1, ih (h command s).1 hp.2⟩

theorem Ensures.and {G' : σ → σ → Prop} (hp : p.Ensures h G Q s) (hp' : p.Ensures h G' Q' s) :
    p.Ensures h (fun a b => G a b ∧ G' a b) (fun result t => Q result t ∧ Q' result t) s := by
  induction p generalizing s with
  | done result => exact ⟨hp, hp'⟩
  | call command rest ih => exact ⟨⟨hp.1, hp'.1⟩, ih (h command s).1 hp.2 hp'.2⟩

theorem ensures_attempt {g : Except ε α → Program C R ε β} {P : Except ε β → σ → Prop}
    (hp : p.Ensures h G (fun result t => (g result).Ensures h G P t) s) :
    (p.attempt g).Ensures h G P s := by
  induction p generalizing s with
  | done result => exact hp
  | call command rest ih => exact ⟨hp.1, ih (h command s).1 hp.2⟩

/-- After an error nothing more is done. -/
def Then (f : α → Program C R ε β) (h : Handler C R σ) (G : σ → σ → Prop)
    (P : Except ε β → σ → Prop) : Except ε α → σ → Prop
  | .ok a, t => (f a).Ensures h G P t
  | .error e, t => P (.error e) t

theorem ensures_bind {P : Except ε β → σ → Prop} (hp : p.Ensures h G (Then f h G P) s) :
    (p >>= f).Ensures h G P s := by
  induction p generalizing s with
  | done result =>
    cases result with
    | error e => exact hp
    | ok a => exact hp
  | call command rest ih => exact ⟨hp.1, ih (h command s).1 hp.2⟩

/-! ## With others between the calls -/

/-- As long as `J` holds whenever the program makes a call, the call is one of `G`, and the
program ends with `Q`. -/
def Under (h : Handler C R σ) (J : σ → Prop) (G : σ → σ → Prop) (Q : Except ε α → Prop) :
    Program C R ε α → Prop
  | .done result => Q result
  | .call command rest =>
    ∀ s, J s → G s (h command s).2 ∧ (rest (h command s).1).Under h J G Q

section
variable {J : σ → Prop} {Q Q' : Except ε α → Prop}

theorem Under.mono (hp : p.Under h J G Q) (hQ : ∀ result, Q result → Q' result) :
    p.Under h J G Q' := by
  induction p with
  | done result => exact hQ result hp
  | call command rest ih =>
    intro s hs
    obtain ⟨hG, hrest⟩ := hp s hs
    exact ⟨hG, ih _ hrest⟩

/-- What the calls do whatever happens between them adds up when nothing does. -/
theorem Under.related {P : Except ε α → Prop} (htrans : ∀ {a b c}, G a b → G b c → G a c)
    (hp : p.Under h (fun _ => True) G P) {s₀ : σ} (hs : G s₀ s) :
    p.Ensures h (fun _ t => G s₀ t) (fun result t => P result ∧ G s₀ t) s := by
  induction p generalizing s with
  | done result => exact ⟨hp, hs⟩
  | call command rest ih =>
    obtain ⟨hG, hrest⟩ := hp s trivial
    exact ⟨htrans hs hG, ih _ hrest (htrans hs hG)⟩

/-- For a program of one call it is enough to look at that call. -/
theorem under_single {P : Except ε α → Prop} {command : C} {rest : R command → Program C R ε α}
    (hdone : ∀ r, ∃ result, rest r = .done result)
    (hcall : ∀ s, J s → (Program.call command rest).Ensures h G (fun result _ => P result) s) :
    (Program.call command rest).Under h J G P := by
  intro s hs
  obtain ⟨hG, hrest⟩ := hcall s hs
  obtain ⟨result, hresult⟩ := hdone (h command s).1
  rw [hresult] at hrest ⊢
  exact ⟨hG, hrest⟩

theorem under_attempt {g : Except ε α → Program C R ε β} {P : Except ε β → Prop}
    (hp : p.Under h J G fun result => (g result).Under h J G P) :
    (p.attempt g).Under h J G P := by
  induction p with
  | done result => exact hp
  | call command rest ih =>
    intro s hs
    obtain ⟨hG, hrest⟩ := hp s hs
    exact ⟨hG, ih _ hrest⟩

/-- After an error nothing more is done. -/
def ThenUnder (f : α → Program C R ε β) (h : Handler C R σ) (J : σ → Prop) (G : σ → σ → Prop)
    (P : Except ε β → Prop) : Except ε α → Prop
  | .ok a => (f a).Under h J G P
  | .error e => P (.error e)

theorem under_bind {P : Except ε β → Prop} (hp : p.Under h J G (ThenUnder f h J G P)) :
    (p >>= f).Under h J G P := by
  induction p with
  | done result =>
    cases result with
    | error e => exact hp
    | ok a => exact hp
  | call command rest ih =>
    intro s hs
    obtain ⟨hG, hrest⟩ := hp s hs
    exact ⟨hG, ih _ hrest⟩

end

/-! ## Step by step -/

def advance (h : Handler C R σ) (p : Program C R ε α) (s : σ) : Option (Program C R ε α × σ) :=
  match p with
  | .done _ => none
  | .call command rest => some (rest (h command s).1, (h command s).2)

/-- The program and the state some steps later. -/
inductive Steps (h : Handler C R σ) (p : Program C R ε α) (s : σ) :
    Program C R ε α → σ → Prop
  | refl : Steps h p s p s
  | step {q q' : Program C R ε α} {t t' : σ} (hsteps : Steps h p s q t)
      (hstep : q.advance h t = some (q', t')) : Steps h p s q' t'

variable {q q' : Program C R ε α} {t' : σ}

theorem run_advance (hstep : q.advance h t = some (q', t')) : q'.run h t' = q.run h t := by
  cases q with
  | done result => cases hstep
  | call command rest =>
    cases hstep
    rfl

theorem Guarded.advance (hq : q.Guarded h G t) (hstep : q.advance h t = some (q', t')) :
    G t t' ∧ q'.Guarded h G t' := by
  cases q with
  | done result => cases hstep
  | call command rest =>
    cases hstep
    exact hq

theorem Ensures.advance (hq : q.Ensures h G Q t) (hstep : q.advance h t = some (q', t')) :
    G t t' ∧ q'.Ensures h G Q t' := by
  cases q with
  | done result => cases hstep
  | call command rest =>
    cases hstep
    exact hq

theorem Under.advance {J : σ → Prop} {P : Except ε α → Prop} (hq : q.Under h J G P) (ht : J t)
    (hstep : q.advance h t = some (q', t')) : G t t' ∧ q'.Under h J G P := by
  cases q with
  | done result => cases hstep
  | call command rest =>
    cases hstep
    exact hq t ht

/-- The steps taken do not change what the program ends with. -/
theorem Steps.run_eq (hsteps : Steps h p s q t) : q.run h t = p.run h s := by
  induction hsteps with
  | refl => rfl
  | step _ hstep ih => exact (run_advance hstep).trans ih

theorem Steps.guarded (hsteps : Steps h p s q t) (hp : p.Guarded h G s) : q.Guarded h G t := by
  induction hsteps with
  | refl => exact hp
  | step _ hstep ih => exact (ih.advance hstep).2

end Program

end SurfaceLoom.Lib
