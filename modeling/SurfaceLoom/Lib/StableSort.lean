import Mathlib.Data.List.Sort

/-! # Sorting with ties in list order

A sort that compares two elements and, where neither comes first, their places
in the list. The result is the same list in another order, and of two elements
that are alike the one that stood first stays first. -/
namespace SurfaceLoom.Lib.StableSort

variable {α β : Type*}

/-- The comparison of two elements, each with its place. -/
def precedes (lt : α → α → Bool) (a b : α × Nat) : Bool :=
  lt a.1 b.1 || (!lt b.1 a.1 && a.2 ≤ b.2)

def stableSort (lt : α → α → Bool) (l : List α) : List α :=
  (l.zipIdx.insertionSort fun a b => precedes lt a b = true).map Prod.fst

/-- "Not after" is a total preorder. -/
structure WeakOrder (lt : α → α → Bool) : Prop where
  trans : ∀ a b c, lt b a = false → lt c b = false → lt c a = false
  total : ∀ a b, lt b a = false ∨ lt a b = false

variable {lt : α → α → Bool}

theorem precedes_iff {a b : α × Nat} :
    precedes lt a b = true ↔ lt a.1 b.1 = true ∨ lt b.1 a.1 = false ∧ a.2 ≤ b.2 := by
  simp [precedes]

theorem WeakOrder.asymm (h : WeakOrder lt) {a b : α} (hlt : lt a b = true) : lt b a = false := by
  rcases h.total a b with hba | hab
  · exact hba
  · rw [hlt] at hab
    cases hab

theorem precedes_total (a b : α × Nat) :
    precedes lt a b = true ∨ precedes lt b a = true := by
  rw [precedes_iff, precedes_iff]
  cases hab : lt a.1 b.1 with
  | true => exact .inl (.inl rfl)
  | false =>
    cases hba : lt b.1 a.1 with
    | true => exact .inr (.inl rfl)
    | false =>
      rcases Nat.le_total a.2 b.2 with hle | hle
      · exact .inl (.inr ⟨rfl, hle⟩)
      · exact .inr (.inr ⟨rfl, hle⟩)

theorem WeakOrder.precedes_trans (h : WeakOrder lt) {a b c : α × Nat}
    (hab : precedes lt a b = true) (hbc : precedes lt b c = true) : precedes lt a c = true := by
  rw [precedes_iff] at *
  have hle : ∀ {x y : α × Nat}, (lt x.1 y.1 = true ∨ lt y.1 x.1 = false ∧ x.2 ≤ y.2) →
      lt y.1 x.1 = false := by
    intro x y hxy
    rcases hxy with hlt | hle
    · exact h.asymm hlt
    · exact hle.1
  have hca := h.trans _ _ _ (hle hab) (hle hbc)
  rcases hab with hlt | ⟨hba, hab⟩
  · -- `c` is not before `b`, so `a` before `b` is before `c`.
    refine .inl ?_
    cases hac : lt a.1 c.1 with
    | true => rfl
    | false =>
      have hba := h.trans _ _ _ (hle hbc) hac
      rw [hlt] at hba
      cases hba
  · rcases hbc with hlt | ⟨-, hbc⟩
    · refine .inl ?_
      cases hac : lt a.1 c.1 with
      | true => rfl
      | false =>
        have hcb := h.trans _ _ _ hac hba
        rw [hlt] at hcb
        cases hcb
    · exact .inr ⟨hca, Nat.le_trans hab hbc⟩

theorem stableSort_perm (lt : α → α → Bool) (l : List α) : (stableSort lt l).Perm l := by
  have h := (List.perm_insertionSort (fun a b => precedes lt a b = true) l.zipIdx).map Prod.fst
  rwa [List.zipIdx_map_fst] at h

theorem mem_stableSort {l : List α} {a : α} : a ∈ stableSort lt l ↔ a ∈ l :=
  (stableSort_perm lt l).mem_iff

/-- Of two elements of the result the first one is less, or they are alike and
stood in this order. -/
theorem stableSort_pairwise (h : WeakOrder lt) {P : α → α → Prop} {l : List α}
    (hP : l.Pairwise P) : (stableSort lt l).Pairwise fun a b =>
      lt a b = true ∨ lt a b = false ∧ lt b a = false ∧ P a b := by
  have : Std.Total (fun a b : α × Nat => precedes lt a b = true) := ⟨precedes_total⟩
  have : IsTrans (α × Nat) (fun a b => precedes lt a b = true) :=
    ⟨fun _ _ _ => h.precedes_trans⟩
  have hsorted := List.pairwise_insertionSort (fun a b => precedes lt a b = true) l.zipIdx
  have hperm := List.perm_insertionSort (fun a b => precedes lt a b = true) l.zipIdx
  have hplaces : (l.zipIdx.insertionSort fun a b => precedes lt a b = true).Pairwise
      fun a b => a.2 ≠ b.2 := by
    have hnodup : (l.zipIdx.map Prod.snd).Nodup := by
      rw [List.zipIdx_map_snd]
      exact List.nodup_range'
    exact List.pairwise_map.mp ((hperm.map Prod.snd).nodup_iff.mpr hnodup)
  unfold stableSort
  rw [List.pairwise_map]
  refine (hsorted.and hplaces).imp_of_mem ?_
  intro a b ha hb hab
  obtain ⟨hprecedes, hne⟩ := hab
  have hgeta := List.mem_zipIdx_iff_getElem?.mp (hperm.mem_iff.mp ha)
  have hgetb := List.mem_zipIdx_iff_getElem?.mp (hperm.mem_iff.mp hb)
  cases hlt : lt a.1 b.1 with
  | true => exact .inl rfl
  | false =>
    rcases precedes_iff.mp hprecedes with hless | ⟨hba, hle⟩
    · rw [hlt] at hless
      cases hless
    · refine .inr ⟨rfl, hba, ?_⟩
      obtain ⟨hi, hgeta⟩ := List.getElem?_eq_some_iff.mp hgeta
      obtain ⟨hj, hgetb⟩ := List.getElem?_eq_some_iff.mp hgetb
      have := List.pairwise_iff_getElem.mp hP a.2 b.2 hi hj (Nat.lt_of_le_of_ne hle hne)
      rwa [hgeta, hgetb] at this

/-- Sorting what a function makes of a list. -/
theorem stableSort_map {lt : β → β → Bool} (f : α → β) (l : List α) :
    stableSort lt (l.map f) = (stableSort (fun a b => lt (f a) (f b)) l).map f := by
  unfold stableSort
  rw [← List.map_zipIdx, ← List.map_insertionSort
    (fun a b => precedes (fun a b => lt (f a) (f b)) a b = true)
    (fun a b => precedes lt a b = true) (Prod.map f id) l.zipIdx fun _ _ _ _ => Iff.rfl,
    List.map_map, List.map_map]
  rfl

end SurfaceLoom.Lib.StableSort
