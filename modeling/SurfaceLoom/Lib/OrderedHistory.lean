import Mathlib.Data.List.Induction
import Mathlib.Tactic.Common
import SurfaceLoom.Lib.OrderedMap

/-! # Histories of assignments to an ordered map

What a map that was built by a list of assignments holds, said of the list alone: the
value of a key is the one assigned last, and the keys stand in the order in which they
came to be present. -/
namespace SurfaceLoom.Lib.OrderedMap

variable {κ ν : Type*} [DecidableEq κ]

/-! ## Places -/

/-- Setting a key that stands at place `i`. -/
theorem entries_set_of_place {m : OrderedMap κ ν} {k : κ} {v w : ν} {i : Nat}
    (h : m.entries[i]? = some (k, w)) : (m.set k v).entries = m.entries.set i (k, v) := by
  obtain ⟨l, hl⟩ := m
  simp only [set] at h ⊢
  induction l generalizing i with
  | nil => cases h
  | cons e rest ih =>
    obtain ⟨hnot, hrest⟩ := List.nodup_cons.mp hl
    cases i with
    | zero =>
      cases h
      simp [upsert]
    | succ i =>
      have he : e.1 ≠ k := by
        rintro rfl
        exact hnot (List.mem_map.mpr ⟨_, List.mem_of_getElem? h, rfl⟩)
      rw [upsert, if_neg he, List.set_cons_succ, ih hrest h]

/-- Erasing a key that stands at place `i`. -/
theorem entries_erase_of_place {m : OrderedMap κ ν} {k : κ} {w : ν} {i : Nat}
    (h : m.entries[i]? = some (k, w)) : (m.erase k).entries = m.entries.eraseIdx i := by
  obtain ⟨l, hl⟩ := m
  simp only [erase, filter] at h ⊢
  induction l generalizing i with
  | nil => cases h
  | cons e rest ih =>
    obtain ⟨hnot, hrest⟩ := List.nodup_cons.mp hl
    cases i with
    | zero =>
      cases h
      have hkeep : ∀ e ∈ rest, decide (e.1 ≠ k) = true := by
        intro e he
        simpa using fun heq : e.1 = k => hnot (List.mem_map.mpr ⟨e, he, heq⟩)
      rw [List.filter_cons_of_neg (by simp), List.filter_eq_self.mpr hkeep, List.eraseIdx_cons_zero]
    | succ i =>
      have he : e.1 ≠ k := by
        rintro rfl
        exact hnot (List.mem_map.mpr ⟨_, List.mem_of_getElem? h, rfl⟩)
      rw [List.filter_cons_of_pos (by simpa using he), List.eraseIdx_cons_succ, ih hrest h]

theorem erase_of_get?_none {m : OrderedMap κ ν} {k : κ} (h : m.get? k = none) : m.erase k = m := by
  refine OrderedMap.ext (List.filter_eq_self.mpr ?_)
  intro e he
  simpa using fun heq : e.1 = k => get?_eq_none_iff.mp h (List.mem_map.mpr ⟨e, he, heq⟩)

/-! ## Assignments -/

/-- A value is set, nothing removes the key. -/
def assign (m : OrderedMap κ ν) (k : κ) : Option ν → OrderedMap κ ν
  | some v => m.set k v
  | none => m.erase k

def assignAll (m : OrderedMap κ ν) (history : List (κ × Option ν)) : OrderedMap κ ν :=
  history.foldl (fun m a => m.assign a.1 a.2) m

/-- What the last assignment to `k` gave it. -/
def lastAssigned (history : List (κ × Option ν)) (k : κ) : Option ν :=
  (history.reverse.find? fun a => a.1 = k).bind Prod.snd

/-- The assignment at `i` made `k` present, and it has been present since. -/
structure InsertedAt (history : List (κ × Option ν)) (k : κ) (i : Nat) : Prop where
  assigned : ∃ v, history[i]? = some (k, some v)
  absent : lastAssigned (history.take i) k = none
  kept : ∀ j, i < j → history[j]? ≠ some (k, none)

@[simp] theorem get?_assign {m : OrderedMap κ ν} {k k' : κ} {v : Option ν} :
    (m.assign k v).get? k' = if k' = k then v else m.get? k' := by
  cases v with
  | none => exact get?_erase
  | some v => exact get?_set

theorem assignAll_snoc (m : OrderedMap κ ν) (history : List (κ × Option ν)) (a : κ × Option ν) :
    m.assignAll (history ++ [a]) = (m.assignAll history).assign a.1 a.2 := by
  simp [assignAll]

theorem lastAssigned_snoc (history : List (κ × Option ν)) (a : κ × Option ν) (k : κ) :
    lastAssigned (history ++ [a]) k = if k = a.1 then a.2 else lastAssigned history k := by
  simp only [lastAssigned, List.reverse_append, List.reverse_singleton, List.singleton_append]
  by_cases hk : k = a.1
  · simp [hk]
  · simp [hk, Ne.symm hk]

/-- The value of a key is the one assigned last. -/
theorem get?_assignAll (history : List (κ × Option ν)) (k : κ) :
    (empty.assignAll history).get? k = lastAssigned history k := by
  induction history using List.reverseRecOn with
  | nil => rfl
  | append_singleton history a ih =>
    rw [assignAll_snoc, get?_assign, lastAssigned_snoc, ih]

/-! ## Order -/

theorem InsertedAt.lt_length {history : List (κ × Option ν)} {k : κ} {i : Nat}
    (h : InsertedAt history k i) : i < history.length := by
  obtain ⟨v, hv⟩ := h.assigned
  exact (List.getElem?_eq_some_iff.mp hv).1

/-- A later assignment that does not remove the key changes nothing about it. -/
theorem InsertedAt.snoc {history : List (κ × Option ν)} {k : κ} {i : Nat}
    (h : InsertedAt history k i) {a : κ × Option ν} (ha : a ≠ (k, none)) :
    InsertedAt (history ++ [a]) k i := by
  have hlt := h.lt_length
  constructor
  · rw [List.getElem?_append_left hlt]
    exact h.assigned
  · rw [List.take_append_of_le_length (Nat.le_of_lt hlt)]
    exact h.absent
  · intro j hj
    by_cases hin : j < history.length
    · rw [List.getElem?_append_left hin]
      exact h.kept j hj
    · intro hremoved
      obtain ⟨hbound, hget⟩ := List.getElem?_eq_some_iff.mp hremoved
      rw [List.length_append, List.length_singleton] at hbound
      have hlast : j = history.length := by omega
      subst hlast
      exact ha (by simpa using hget)

theorem insertedAt_new {history : List (κ × Option ν)} {k : κ} {v : ν}
    (h : lastAssigned history k = none) :
    InsertedAt (history ++ [(k, some v)]) k history.length := by
  constructor
  · exact ⟨v, by simp⟩
  · rw [List.take_left]
    exact h
  · intro j hj
    rw [List.getElem?_eq_none (by simp; omega)]
    simp

/-- The keys stand in the order in which they came to be present. -/
structure InOrder (history : List (κ × Option ν)) (keys : List κ) : Prop where
  inserted : ∀ k ∈ keys, ∃ i, InsertedAt history k i
  sorted : keys.Pairwise fun a b => ∃ i j, InsertedAt history a i ∧ InsertedAt history b j ∧ i < j

theorem InOrder.snoc {history : List (κ × Option ν)} {keys : List κ} (h : InOrder history keys)
    {a : κ × Option ν} (ha : ∀ k ∈ keys, a ≠ (k, none)) : InOrder (history ++ [a]) keys := by
  constructor
  · intro k hk
    obtain ⟨i, hi⟩ := h.inserted k hk
    exact ⟨i, hi.snoc (ha k hk)⟩
  · refine h.sorted.imp_of_mem ?_
    rintro b c hb hc ⟨i, j, hi, hj, hlt⟩
    exact ⟨i, j, hi.snoc (ha b hb), hj.snoc (ha c hc), hlt⟩

theorem InOrder.sublist {history : List (κ × Option ν)} {keys kept : List κ}
    (h : InOrder history keys) (hkept : kept.Sublist keys) : InOrder history kept :=
  ⟨fun k hk => h.inserted k (hkept.subset hk), h.sorted.sublist hkept⟩

theorem keys_assignAll (history : List (κ × Option ν)) :
    InOrder history (empty.assignAll history).keys := by
  induction history using List.reverseRecOn with
  | nil => exact ⟨nofun, .nil⟩
  | append_singleton history a ih =>
    obtain ⟨k, v⟩ := a
    rw [assignAll_snoc]
    cases v with
    | none =>
      have hsub : ((empty.assignAll history).erase k).keys.Sublist (empty.assignAll history).keys :=
        List.Sublist.map _ List.filter_sublist
      refine (ih.sublist hsub).snoc ?_
      intro k' hk' heq
      obtain ⟨w, hw⟩ := mem_keys_iff.mp hk'
      cases heq
      simp at hw
    | some v =>
      cases hget : (empty.assignAll history).get? k with
      | some w =>
        rw [assign, keys_set_of_get?_some hget]
        exact ih.snoc (by simp)
      | none =>
        have hold : InOrder (history ++ [(k, some v)]) (empty.assignAll history).keys :=
          ih.snoc (by simp)
        have hnew := insertedAt_new (v := v) (get?_assignAll history k ▸ hget)
        rw [assign, keys, entries_set_of_get?_none hget, List.map_append]
        constructor
        · intro k' hk'
          rcases List.mem_append.mp hk' with hk' | hk'
          · exact hold.inserted k' hk'
          · rw [List.mem_singleton.mp hk']
            exact ⟨_, hnew⟩
        · refine List.pairwise_append.mpr ⟨hold.sorted, List.pairwise_singleton _ _, ?_⟩
          intro k' hk' b hb
          obtain ⟨i, hi⟩ := ih.inserted k' hk'
          rw [List.mem_singleton.mp hb]
          exact ⟨i, _, hi.snoc (by simp), hnew, hi.lt_length⟩

end SurfaceLoom.Lib.OrderedMap
