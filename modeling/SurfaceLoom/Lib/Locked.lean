import SurfaceLoom.Lib.Program
import SurfaceLoom.Lib.PromiseTail
import SurfaceLoom.Lib.Transition

/-! # Programs under a lock

Calls wait for each other on one promise chain, and the one whose turn it is runs its
program call by call on a shared state. What is reached is what running the programs
one after the other reaches, with a piece of one more. -/
namespace SurfaceLoom.Lib.Locked
open SurfaceLoom.Lib.PromiseTail SurfaceLoom.Lib.Transition

/-- A call that runs, with the state it started from. -/
structure Piece (Q C : Type) (R : C → Type) (ε α σ : Type) where
  work : Q
  program : Program C R ε α
  before : σ

/-- A call that is over. -/
structure Entry (Q ε α σ : Type) where
  work : Q
  result : Except ε α
  before : σ
  after : σ

structure State (Q C : Type) (R : C → Type) (ε α σ : Type) where
  shared : σ
  tail : Tail Q (Piece Q C R ε α σ)
  entries : List (Entry Q ε α σ)

inductive Event (Q : Type)
  | call (work : Q)
  | start (i : Nat)
  | step (i : Nat)
  | settle (i : Nat)

variable {Q C : Type} {R : C → Type} {ε α σ : Type}

def chains (_ : Q) : Bool := true

def next (h : Program.Handler C R σ) (program : Q → Program C R ε α)
    (s : State Q C R ε α σ) : Event Q → Option (State Q C R ε α σ)
  | .call work => some { s with tail := s.tail.enqueue chains work }
  | .start i =>
    (s.tail.begin chains (fun work => some ⟨work, program work, s.shared⟩) i).map fun begun =>
      { s with tail := begun.2 }
  | .step i =>
    s.tail.running[i]?.bind fun piece =>
      (piece.program.advance h s.shared).map fun advanced =>
        { s with
          shared := advanced.2
          tail := s.tail.goOn i { piece with program := advanced.1 } }
  | .settle i =>
    match s.tail.running[i]? with
    | some ⟨work, .done result, before⟩ =>
      (s.tail.settle i).map fun settled =>
        { s with
          tail := settled.2
          entries := s.entries ++ [⟨work, result, before, s.shared⟩] }
    | _ => none

def idle (shared : σ) : State Q C R ε α σ := ⟨shared, .idle, []⟩

def locked (h : Program.Handler C R σ) (program : Q → Program C R ε α) (init : σ) :
    System (State Q C R ε α σ) (Event Q) := .ofMachine (idle init) (next h program)

/-- The calls one after the other, each alone. -/
inductive Serial (h : Program.Handler C R σ) (program : Q → Program C R ε α) (init : σ) :
    List (Entry Q ε α σ) → σ → Prop
  | nil : Serial h program init [] init
  | snoc {entries : List (Entry Q ε α σ)} {s t : σ} {work : Q} {result : Except ε α}
      (hentries : Serial h program init entries s)
      (hrun : (program work).run h s = (result, t)) :
      Serial h program init (entries ++ [⟨work, result, s, t⟩]) t

theorem getElem?_singleton {τ : Type} {l : List τ} {a b : τ} {i : Nat} (hl : l = [a])
    (hb : l[i]? = some b) : i = 0 ∧ a = b := by
  subst hl
  cases i with
  | zero => exact ⟨rfl, Option.some.inj hb⟩
  | succ i => cases hb

variable {h : Program.Handler C R σ} {program : Q → Program C R ε α} {init : σ}
variable {s s' : State Q C R ε α σ}

/-- The state after the calls that are over, and how far the running one is. -/
structure Serialized (h : Program.Handler C R σ) (program : Q → Program C R ε α) (init : σ)
    (s : State Q C R ε α σ) : Prop where
  ordered : s.tail.Ordered chains
  entries : ∃ t, Serial h program init s.entries t ∧
    (s.tail.running = [] ∧ s.shared = t ∨ ∃ piece, s.tail.running = [piece] ∧ piece.before = t ∧
      Program.Steps h (program piece.work) t piece.program s.shared)

theorem Serialized.next (hs : Serialized h program init s) {event : Event Q}
    (hstep : next h program s event = some s') : Serialized h program init s' := by
  obtain ⟨hordered, t, hserial, hrunning⟩ := hs
  cases event with
  | call work =>
    cases hstep
    exact ⟨hordered.enqueue work, t, hserial, hrunning⟩
  | start i =>
    obtain ⟨⟨work, tail⟩, hbegin, rfl⟩ := Option.map_eq_some_iff.mp hstep
    obtain ⟨hbegins, hordered'⟩ := hordered.begin hbegin
    refine ⟨hordered', t, hserial, .inr ⟨⟨work, program work, s.shared⟩, hbegins.running, ?_, ?_⟩⟩
    · rcases hrunning with ⟨-, hshared⟩ | ⟨piece, hpiece, -⟩
      · exact hshared
      · rw [hbegins.quiet] at hpiece
        cases hpiece
    · rcases hrunning with ⟨-, hshared⟩ | ⟨piece, hpiece, -⟩
      · rw [hshared]
        exact .refl
      · rw [hbegins.quiet] at hpiece
        cases hpiece
  | step i =>
    obtain ⟨piece, hpiece, hadvanced⟩ := Option.bind_eq_some_iff.mp hstep
    obtain ⟨⟨p, shared⟩, hadvance, rfl⟩ := Option.map_eq_some_iff.mp hadvanced
    rcases hrunning with ⟨hquiet, -⟩ | ⟨running, hone, hbefore, hsteps⟩
    · rw [hquiet] at hpiece
      cases hpiece
    · obtain ⟨rfl, rfl⟩ := getElem?_singleton hone hpiece
      refine ⟨hordered.goOn 0 _, t, hserial, .inr ⟨{ running with program := p }, ?_, hbefore, ?_⟩⟩
      · show s.tail.running.set 0 _ = _
        rw [hone]
        rfl
      · exact hsteps.step hadvance
  | settle i =>
    simp only [Locked.next] at hstep
    split at hstep
    · rename_i work result before hpiece
      obtain ⟨⟨piece, tail⟩, hsettle, rfl⟩ := Option.map_eq_some_iff.mp hstep
      obtain ⟨-, hquiet, -, hordered'⟩ := hordered.settle hsettle
      rcases hrunning with ⟨hnone, -⟩ | ⟨piece', hpiece', hbefore, hsteps⟩
      · rw [hnone] at hpiece
        cases hpiece
      · obtain ⟨rfl, rfl⟩ := getElem?_singleton hpiece' hpiece
        cases hbefore
        exact ⟨hordered', s.shared, hserial.snoc hsteps.run_eq.symm, .inl ⟨hquiet, rfl⟩⟩
    · cases hstep

theorem serialized_invariant : (locked h program init).Invariant (Serialized h program init) where
  init := by
    intro s hs
    cases hs
    exact ⟨.idle, init, .nil, .inl ⟨rfl, rfl⟩⟩
  step := fun _ _ _ _ hs hstep => hs.next hstep

/-- A step of the lock is a step of the one program that runs, or it leaves the shared
state alone. -/
theorem Serialized.guarded (hs : Serialized h program init s) {G : σ → σ → Prop}
    (hG : ∀ entries t, Serial h program init entries t → ∀ work, (program work).Guarded h G t)
    (hrefl : ∀ t, G t t) {event : Event Q} (hstep : Locked.next h program s event = some s') :
    G s.shared s'.shared := by
  obtain ⟨hordered, t, hserial, hrunning⟩ := hs
  cases event with
  | call work =>
    cases hstep
    exact hrefl _
  | start i =>
    obtain ⟨begun, -, rfl⟩ := Option.map_eq_some_iff.mp hstep
    exact hrefl _
  | step i =>
    obtain ⟨piece, hpiece, hadvanced⟩ := Option.bind_eq_some_iff.mp hstep
    obtain ⟨⟨p, shared⟩, hadvance, rfl⟩ := Option.map_eq_some_iff.mp hadvanced
    rcases hrunning with ⟨hquiet, -⟩ | ⟨running, hone, hbefore, hsteps⟩
    · rw [hquiet] at hpiece
      cases hpiece
    · obtain ⟨rfl, rfl⟩ := getElem?_singleton hone hpiece
      exact ((hsteps.guarded (hG _ t hserial running.work)).advance hadvance).1
  | settle i =>
    simp only [Locked.next] at hstep
    split at hstep
    · obtain ⟨settled, -, rfl⟩ := Option.map_eq_some_iff.mp hstep
      exact hrefl _
    · cases hstep

/-- While a call waits or runs, something other than a new call can happen. -/
theorem Serialized.progress (hs : Serialized h program init s)
    (hopen : s.tail.waiting ≠ [] ∨ s.tail.running ≠ []) : ∃ event s',
      (∀ work, event ≠ .call work) ∧ Locked.next h program s event = some s' := by
  cases hrunning : s.tail.running with
  | nil =>
    cases hwaiting : s.tail.waiting with
    | nil =>
      rw [hwaiting, hrunning] at hopen
      rcases hopen with hopen | hopen <;> exact absurd rfl hopen
    | cons w rest =>
      obtain ⟨t, ht⟩ : ∃ t, s.tail.begin chains
          (fun work => some ⟨work, program work, s.shared⟩) 0 = some (w.work, t) :=
        hs.ordered.ready hrunning hwaiting
      exact ⟨.start 0, { s with tail := t }, nofun, by rw [Locked.next, ht]; rfl⟩
  | cons piece rest =>
    have hpiece : s.tail.running[0]? = some piece := by rw [hrunning]; rfl
    obtain ⟨work, p, before⟩ := piece
    cases p with
    | done result =>
      have hstep : ∃ s', Locked.next h program s (.settle 0) = some s' := by
        simp only [Locked.next, hpiece, Tail.settle, Option.map_some]
        exact ⟨_, rfl⟩
      obtain ⟨s', hstep⟩ := hstep
      exact ⟨.settle 0, s', nofun, hstep⟩
    | call command k =>
      have hstep : ∃ s', Locked.next h program s (.step 0) = some s' := by
        simp only [Locked.next, hpiece, Option.bind_some, Program.advance, Option.map_some]
        exact ⟨_, rfl⟩
      obtain ⟨s', hstep⟩ := hstep
      exact ⟨.step 0, s', nofun, hstep⟩

end SurfaceLoom.Lib.Locked
