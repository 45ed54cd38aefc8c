import Mathlib.Data.Rat.Defs
import Mathlib.Tactic.Common

/-! # The buffer of one subscription

A ring of fixed capacity, over any kind of entry. Whatever was pushed, draining it gives the
last entries in order, and `dropped` is the number of those before them. -/
namespace SurfaceLoom.Browser

structure BrowserAutomationError where
  code : String
  message : String
  deriving DecidableEq

def defaultObservationLimit : Nat := 5000

/-- A limit is a number, `none` where it is `undefined`. -/
def observationLimit (limit : Option ℚ) : Except BrowserAutomationError Nat :=
  match limit with
  | none => .ok defaultObservationLimit
  | some limit =>
    if limit.den ≠ 1 ∨ limit.num ≤ 0 then
      .error ⟨"invalidArgument", "An observation limit must be a positive integer."⟩
    else .ok limit.num.toNat

structure ObservationBuffer (α : Type) where
  limit : Nat
  entries : List α
  oldest : Nat
  dropped : Nat

namespace ObservationBuffer

variable {α : Type}

def empty (limit : Nat) : ObservationBuffer α := ⟨limit, [], 0, 0⟩

def push (b : ObservationBuffer α) (observation : α) : ObservationBuffer α :=
  if b.entries.length < b.limit then { b with entries := b.entries ++ [observation] }
  else
    { b with
      entries := b.entries.set b.oldest observation
      oldest := (b.oldest + 1) % b.limit
      dropped := b.dropped + 1 }

def drain (b : ObservationBuffer α) : List α :=
  if b.entries.length < b.limit then b.entries
  else b.entries.drop b.oldest ++ b.entries.take b.oldest

/-- The buffer after entries were pushed into an empty one. -/
structure Holds (b : ObservationBuffer α) (pushed : List α) : Prop where
  positive : 0 < b.limit
  oldest : b.oldest < b.limit
  length : b.entries.length = min pushed.length b.limit
  filling : b.entries.length < b.limit → b.oldest = 0
  drained : b.entries.drop b.oldest ++ b.entries.take b.oldest =
    pushed.drop (pushed.length - b.limit)
  dropped : b.dropped = pushed.length - b.limit

theorem holds_empty {limit : Nat} (h : 0 < limit) : (empty limit : ObservationBuffer α).Holds [] :=
  ⟨h, h, (Nat.zero_min _).symm, fun _ => rfl, by simp [empty], (Nat.zero_sub _).symm⟩

theorem push_limit (b : ObservationBuffer α) (a : α) : (b.push a).limit = b.limit := by
  unfold push
  split <;> rfl

/-- A turn of the ring: the oldest entry makes room for the new one. -/
theorem rotate {l : List α} {n : Nat} (a : α) (h : n < l.length) :
    (l.set n a).drop ((n + 1) % l.length) ++ (l.set n a).take ((n + 1) % l.length) =
      (l.drop n ++ l.take n).tail ++ [a] := by
  have hset : l.set n a = l.take n ++ a :: l.drop (n + 1) := by
    rw [List.set_eq_take_append_cons_drop, if_pos h]
  have htail : (l.drop n ++ l.take n).tail = l.drop (n + 1) ++ l.take n := by
    rw [List.drop_eq_getElem_cons h]
    rfl
  have hlength : (l.take n).length = n := List.length_take_of_le h.le
  rw [htail, hset]
  by_cases hlast : n + 1 = l.length
  · have hnil : l.drop (n + 1) = [] := List.drop_eq_nil_of_le hlast.ge
    rw [hlast, Nat.mod_self, ← hlast, hnil]
    simp
  · rw [Nat.mod_eq_of_lt (by omega)]
    have hone : l.take n ++ a :: l.drop (n + 1) = (l.take n ++ [a]) ++ l.drop (n + 1) := by simp
    have hlen : (l.take n ++ [a]).length = n + 1 := by simp [hlength]
    rw [hone, ← hlen, List.drop_left, List.take_left, hlen]
    simp

theorem Holds.push {b : ObservationBuffer α} {pushed : List α} (h : b.Holds pushed) (a : α) :
    (b.push a).Holds (pushed ++ [a]) := by
  have hlength := h.length
  unfold ObservationBuffer.push
  split
  · rename_i hroom
    have hzero := h.filling hroom
    have hless : pushed.length < b.limit := by omega
    have hdrained := h.drained
    rw [hzero, Nat.sub_eq_zero_of_le hless.le] at hdrained
    simp only [List.drop_zero, List.take_zero, List.append_nil] at hdrained
    refine ⟨h.positive, h.oldest, ?_, fun _ => hzero, ?_, ?_⟩
    · simp only [List.length_append, List.length_singleton]
      omega
    · simp only [hzero, List.length_append, List.length_singleton, hdrained]
      rw [Nat.sub_eq_zero_of_le hless]
      simp
    · have hdropped := h.dropped
      simp only [List.length_append, List.length_singleton]
      omega
  · rename_i hfull
    have hcapacity : b.entries.length = b.limit := by omega
    have hmore : b.limit ≤ pushed.length := by omega
    have hturn := rotate a (h.oldest.trans_eq hcapacity.symm)
    rw [hcapacity, h.drained] at hturn
    refine ⟨h.positive, Nat.mod_lt _ h.positive, ?_, fun hroom => ?_, ?_, ?_⟩
    · simp only [List.length_set, List.length_append, List.length_singleton]
      omega
    · exact absurd (by rw [List.length_set]; exact hcapacity) hroom.ne
    · have hnext : pushed.length + 1 - b.limit = pushed.length - b.limit + 1 := by omega
      simp only [hturn, List.tail_drop, List.length_append, List.length_singleton, hnext]
      rw [List.drop_append_of_le_length (by have := h.positive; omega)]
    · have hdropped := h.dropped
      simp only [List.length_append, List.length_singleton]
      omega

/-- What is drained is the last of what was pushed. -/
theorem Holds.drain {b : ObservationBuffer α} {pushed : List α} (h : b.Holds pushed) :
    b.drain = pushed.drop (pushed.length - b.limit) := by
  rw [ObservationBuffer.drain, ← h.drained]
  split
  · rename_i hroom
    rw [h.filling hroom]
    simp
  · rfl

end ObservationBuffer

end SurfaceLoom.Browser
