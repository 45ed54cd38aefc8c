import Mathlib.Data.Finset.Card
import Mathlib.Data.Finset.Range

/-! # The first free name of a sequence

A search through `name 0`, `name 1`, … for a name that is not in use. Of a
sequence without repetitions, one more candidate than there are used names is
enough, so the search needs no more fuel than that. -/
namespace SurfaceLoom.Lib.FirstFree

variable {α : Type*} [DecidableEq α]

/-- The first free name from `start` on, of at most `fuel` candidates. -/
def seek (name : Nat → α) (used : List α) : Nat → Nat → α
  | 0, start => name start
  | fuel + 1, start => if name start ∈ used then seek name used fuel (start + 1) else name start

def firstFree (name : Nat → α) (used : List α) : α := seek name used used.length 0

variable {name : Nat → α} {used : List α}

theorem seek_notMem : ∀ {fuel start i : Nat}, start ≤ i → i ≤ start + fuel → name i ∉ used →
    seek name used fuel start ∉ used := by
  intro fuel
  induction fuel with
  | zero =>
    intro start i hle hlt hfree
    obtain rfl : i = start := by omega
    exact hfree
  | succ fuel ih =>
    intro start i hle hlt hfree
    unfold seek
    by_cases hused : name start ∈ used
    · rw [if_pos hused]
      have hne : i ≠ start := fun heq => hfree (heq ▸ hused)
      exact ih (by omega) (by omega) hfree
    · rw [if_neg hused]
      exact hused

/-- Among one more candidate than there are used names, one is free. -/
theorem exists_free (hname : Function.Injective name) (used : List α) :
    ∃ i ≤ used.length, name i ∉ used := by
  have hcard : used.toFinset.card < ((Finset.range (used.length + 1)).image name).card := by
    rw [Finset.card_image_of_injective _ hname, Finset.card_range]
    exact Nat.lt_succ_of_le (List.toFinset_card_le used)
  obtain ⟨a, ha, hfree⟩ := Finset.exists_mem_notMem_of_card_lt_card hcard
  obtain ⟨i, hi, rfl⟩ := Finset.mem_image.mp ha
  rw [Finset.mem_range] at hi
  exact ⟨i, by omega, by simpa using hfree⟩

theorem firstFree_notMem (hname : Function.Injective name) (used : List α) :
    firstFree name used ∉ used := by
  obtain ⟨i, hi, hfree⟩ := exists_free hname used
  exact seek_notMem (Nat.zero_le i) (by omega) hfree

end SurfaceLoom.Lib.FirstFree
