import Mathlib.Tactic.Common

/-! # Work chained behind a promise

`tail = tail.then(work)` makes an asynchronous lock out of one promise. A piece
of work waits for the link that was the tail when it was issued; a chaining
piece becomes the next link. A link settles when its work does, and its
waiters then start in the order they were issued.

Nothing here assumes that work starts in order or alone: both follow. -/
namespace SurfaceLoom.Lib.PromiseTail

structure Waiting (Q : Type) where
  after : Nat
  work : Q

/-- `links` counts the chained pieces of work, `settled` those that are over. -/
structure Tail (Q R : Type) where
  links : Nat
  settled : Nat
  waiting : List (Waiting Q)
  running : List R

variable {Q R : Type}

namespace Tail

def idle : Tail Q R := ⟨0, 0, [], []⟩

def enqueue (chains : Q → Bool) (s : Tail Q R) (q : Q) : Tail Q R :=
  { s with
    waiting := s.waiting ++ [⟨s.links, q⟩]
    links := if chains q then s.links + 1 else s.links }

/-- Whether the waiter at `i` may start: its link is settled, and the waiters
registered on that link before it have started. -/
def startable (s : Tail Q R) (i : Nat) (w : Waiting Q) : Bool :=
  w.after ≤ s.settled && (s.waiting.take i).all (·.after != w.after)

/-- Starts the waiter at `i`. Chained work either settles at once or goes on
running. -/
def begin (chains : Q → Bool) (goesOn : Q → Option R) (s : Tail Q R) (i : Nat) :
    Option (Q × Tail Q R) :=
  match s.waiting[i]? with
  | none => none
  | some w =>
    if s.startable i w then
      let s := { s with waiting := s.waiting.eraseIdx i }
      if chains w.work then
        match goesOn w.work with
        | none => some (w.work, { s with settled := s.settled + 1 })
        | some r => some (w.work, { s with running := s.running ++ [r] })
      else some (w.work, s)
    else none

def settle (s : Tail Q R) (i : Nat) : Option (R × Tail Q R) :=
  s.running[i]?.map fun r =>
    (r, { s with running := s.running.eraseIdx i, settled := s.settled + 1 })

/-- The running work at `i` goes on as `r`. -/
def goOn (s : Tail Q R) (i : Nat) (r : R) : Tail Q R := { s with running := s.running.set i r }

/-- Every waiter waits for the chained work issued before it, and at most one
piece of chained work runs. -/
structure Ordered (chains : Q → Bool) (s : Tail Q R) : Prop where
  positions : ∀ i w, s.waiting[i]? = some w →
    w.after = s.settled + s.running.length + (s.waiting.take i).countP (chains ·.work)
  links : s.links = s.settled + s.running.length + s.waiting.countP (chains ·.work)
  single : s.running.length ≤ 1

variable {chains : Q → Bool} {goesOn : Q → Option R} {s t : Tail Q R} {q : Q} {r : R} {i : Nat}

theorem Ordered.idle : Ordered chains (Tail.idle : Tail Q R) where
  positions i w h := by cases h
  links := rfl
  single := Nat.zero_le 1

theorem Ordered.enqueue (h : Ordered chains s) (q : Q) : Ordered chains (s.enqueue chains q) where
  positions := by
    intro i w hw
    unfold Tail.enqueue at hw ⊢
    simp only at hw ⊢
    rcases Nat.lt_trichotomy i s.waiting.length with hlt | heq | hgt
    · rw [List.getElem?_append_left hlt] at hw
      rw [List.take_append_of_le_length (Nat.le_of_lt hlt)]
      exact h.positions i w hw
    · subst heq
      rw [List.getElem?_concat_length] at hw
      cases hw
      rw [List.take_left']
      · exact h.links
      · rfl
    · rw [List.getElem?_eq_none (by simp; omega)] at hw
      cases hw
  links := by
    have hlinks := h.links
    unfold Tail.enqueue
    simp only [List.countP_append, List.countP_cons, List.countP_nil]
    split <;> omega
  single := h.single

/-- Only the first waiter can start, and only while nothing runs. -/
theorem Ordered.startable (h : Ordered chains s) {w : Waiting Q} (hw : s.waiting[i]? = some w)
    (hs : s.startable i w = true) : i = 0 ∧ s.running = [] := by
  unfold Tail.startable at hs
  simp only [Bool.and_eq_true, decide_eq_true_eq, List.all_eq_true, bne_iff_ne, ne_eq] at hs
  obtain ⟨hafter, hearlier⟩ := hs
  have hpos := h.positions i w hw
  have hnone : s.running.length = 0 := by omega
  refine ⟨?_, List.eq_nil_of_length_eq_zero hnone⟩
  cases i with
  | zero => rfl
  | succ j =>
    -- The first waiter waits for the settled link too, so it is the one to start.
    obtain ⟨hlt, -⟩ := List.getElem?_eq_some_iff.mp hw
    have hfirst := h.positions 0 s.waiting[0] (List.getElem?_eq_getElem (by omega))
    rw [List.take_zero, List.countP_nil] at hfirst
    refine absurd ?_ (hearlier s.waiting[0] ?_)
    · omega
    · rw [List.mem_take_iff_getElem]
      exact ⟨0, by omega, rfl⟩

/-- What starting a waiter does. -/
structure Begins (chains : Q → Bool) (goesOn : Q → Option R) (s : Tail Q R) (q : Q)
    (t : Tail Q R) : Prop where
  waiting : ∃ after, s.waiting = ⟨after, q⟩ :: t.waiting
  quiet : s.running = []
  running : t.running = if chains q then (goesOn q).toList else []

theorem Ordered.begin (h : Ordered chains s) (hb : s.begin chains goesOn i = some (q, t)) :
    Begins chains goesOn s q t ∧ Ordered chains t := by
  unfold Tail.begin at hb
  split at hb
  · cases hb
  · rename_i w hw
    split at hb
    · rename_i hs
      obtain ⟨rfl, hquiet⟩ := h.startable hw hs
      obtain ⟨after, work⟩ := w
      obtain ⟨rest, hwaiting⟩ : ∃ rest, s.waiting = ⟨after, work⟩ :: rest := by
        cases hl : s.waiting with
        | nil => rw [hl] at hw; cases hw
        | cons w' rest => rw [hl] at hw; cases hw; exact ⟨rest, rfl⟩
      have hpos : ∀ i w, rest[i]? = some w →
          w.after = s.settled + (if chains work then 1 else 0) +
            (rest.take i).countP (chains ·.work) := by
        intro i w hw
        have := h.positions (i + 1) w (by rw [hwaiting]; exact hw)
        rw [hwaiting, hquiet, List.take_succ_cons, List.countP_cons] at this
        simp only [List.length_nil] at this
        omega
      have hlinks : s.links = s.settled + (if chains work then 1 else 0) +
          rest.countP (chains ·.work) := by
        have := h.links
        rw [hwaiting, hquiet, List.countP_cons] at this
        simp only [List.length_nil] at this
        omega
      have herase : s.waiting.eraseIdx 0 = rest := by rw [hwaiting]; rfl
      simp only [herase, hquiet, List.nil_append] at hb
      split at hb
      · rename_i hchains
        simp only [hchains, if_true] at hpos hlinks
        split at hb
        · rename_i hgo
          cases hb
          exact ⟨⟨⟨after, hwaiting⟩, hquiet, by simp [hchains, hgo]⟩, hpos, hlinks, Nat.zero_le 1⟩
        · rename_i r hgo
          cases hb
          exact ⟨⟨⟨after, hwaiting⟩, hquiet, by simp [hchains, hgo]⟩, hpos, hlinks, Nat.le_refl 1⟩
      · rename_i hchains
        simp only [hchains, Bool.false_eq_true, if_false] at hpos hlinks
        cases hb
        exact ⟨⟨⟨after, hwaiting⟩, hquiet, by simp [hchains]⟩, hpos, hlinks, Nat.zero_le 1⟩
    · cases hb

theorem Ordered.settle (h : Ordered chains s) (hs : s.settle i = some (r, t)) :
    s.running = [r] ∧ t.running = [] ∧ t.waiting = s.waiting ∧ Ordered chains t := by
  unfold Tail.settle at hs
  obtain ⟨r', hr, heq⟩ := Option.map_eq_some_iff.mp hs
  cases heq
  obtain ⟨hlt, hget⟩ := List.getElem?_eq_some_iff.mp hr
  have hsingle := h.single
  obtain rfl : i = 0 := by omega
  obtain ⟨r', hrunning⟩ := List.length_eq_one_iff.mp (show s.running.length = 1 by omega)
  have hrun : s.running = [r] := by
    rw [hrunning] at hr ⊢
    cases hr
    rfl
  have herase : s.running.eraseIdx 0 = [] := by rw [hrun]; rfl
  refine ⟨hrun, herase, rfl, ?_, ?_, ?_⟩
  · intro i w hw
    have := h.positions i w hw
    rw [hrun] at this
    simp only [herase, List.length_nil]
    simpa using this
  · have := h.links
    rw [hrun] at this
    simp only [herase, List.length_nil]
    simpa using this
  · rw [herase]
    exact Nat.zero_le 1

theorem Ordered.goOn (h : Ordered chains s) (i : Nat) (r : R) : Ordered chains (s.goOn i r) where
  positions := by
    intro j w hw
    show w.after = s.settled + (s.running.set i r).length + _
    rw [List.length_set]
    exact h.positions j w hw
  links := by
    show s.links = s.settled + (s.running.set i r).length + _
    rw [List.length_set]
    exact h.links
  single := by
    show (s.running.set i r).length ≤ 1
    rw [List.length_set]
    exact h.single

/-- While nothing runs, the first waiter can start. -/
theorem Ordered.ready (h : Ordered chains s) (hquiet : s.running = []) {w : Waiting Q}
    {rest : List (Waiting Q)} (hw : s.waiting = w :: rest) :
    ∃ t, s.begin chains goesOn 0 = some (w.work, t) := by
  have hget : s.waiting[0]? = some w := by rw [hw]; rfl
  have hpos := h.positions 0 w hget
  have hs : s.startable 0 w = true := by
    unfold Tail.startable
    rw [List.take_zero, List.countP_nil, hquiet, List.length_nil] at hpos
    simp [hpos]
  unfold Tail.begin
  simp only [hget, hs, if_true]
  split
  · split
    · exact ⟨_, rfl⟩
    · exact ⟨_, rfl⟩
  · exact ⟨_, rfl⟩

end Tail

end SurfaceLoom.Lib.PromiseTail
