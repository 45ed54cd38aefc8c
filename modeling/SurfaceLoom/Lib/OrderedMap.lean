import Mathlib.Algebra.Order.Ring.Nat
import Mathlib.Data.List.Basic
import Mathlib.Data.List.Nodup
import Mathlib.Algebra.BigOperators.Group.List.Basic

/-! # Finite maps that keep insertion order

The semantics of a JavaScript `Map`: assigning a present key keeps its place,
a new key goes to the end, deleting a key forgets its place. The entries never
name a key twice, which the structure carries as a field. Unordered maps of
other languages are used through the same operations. -/
namespace SurfaceLoom.Lib

namespace OrderedMap

variable {κ ν : Type*} [DecidableEq κ]

/-- Replace the entry of `k` where it stands, or append one. -/
def upsert (k : κ) (v : ν) : List (κ × ν) → List (κ × ν)
  | [] => [(k, v)]
  | e :: rest => if e.1 = k then (k, v) :: rest else e :: upsert k v rest

theorem mem_keys_upsert {k : κ} {v : ν} {k' : κ} : ∀ {l : List (κ × ν)},
    k' ∈ (upsert k v l).map Prod.fst ↔ k' = k ∨ k' ∈ l.map Prod.fst
  | [] => by simp [upsert]
  | e :: rest => by
    by_cases he : e.1 = k
    · simp [upsert, he]
    · simp only [upsert, if_neg he, List.map_cons, List.mem_cons, mem_keys_upsert (l := rest)]
      tauto

theorem upsert_nodup {k : κ} {v : ν} : ∀ {l : List (κ × ν)},
    (l.map Prod.fst).Nodup → ((upsert k v l).map Prod.fst).Nodup
  | [], _ => by simp [upsert]
  | e :: rest, h => by
    obtain ⟨hnot, hrest⟩ := List.nodup_cons.mp h
    by_cases he : e.1 = k
    · simpa [upsert, he] using List.nodup_cons.mpr ⟨he ▸ hnot, hrest⟩
    · simp only [upsert, if_neg he, List.map_cons, List.nodup_cons]
      refine ⟨?_, upsert_nodup hrest⟩
      rw [mem_keys_upsert]
      rintro (hk | hk)
      · exact he hk
      · exact hnot hk

theorem upsert_of_notMem {k : κ} {v : ν} : ∀ {l : List (κ × ν)},
    k ∉ l.map Prod.fst → upsert k v l = l ++ [(k, v)]
  | [], _ => rfl
  | e :: rest, h => by
    have he : e.1 ≠ k := fun hk => h (by simp [hk])
    simp only [upsert, if_neg he, List.cons_append, List.cons.injEq, true_and]
    exact upsert_of_notMem fun hk => h (List.mem_cons_of_mem _ hk)

theorem keys_upsert_of_mem {k : κ} {v : ν} : ∀ {l : List (κ × ν)},
    k ∈ l.map Prod.fst → (upsert k v l).map Prod.fst = l.map Prod.fst
  | [], h => by simp at h
  | e :: rest, h => by
    by_cases he : e.1 = k
    · simp [upsert, he]
    · have hr : k ∈ rest.map Prod.fst := by
        simpa [Ne.symm he] using h
      simp [upsert, he, keys_upsert_of_mem hr]

end OrderedMap

open OrderedMap

/-- An insertion-ordered finite map. -/
structure OrderedMap (κ : Type*) (ν : Type*) where
  entries : List (κ × ν)
  nodup : (entries.map Prod.fst).Nodup

namespace OrderedMap

variable {κ ν : Type*}

@[ext] theorem ext {m n : OrderedMap κ ν} (h : m.entries = n.entries) : m = n := by
  cases m; cases n; cases h; rfl

instance [DecidableEq κ] [DecidableEq ν] : DecidableEq (OrderedMap κ ν) := fun m n =>
  decidable_of_iff (m.entries = n.entries) ⟨ext, congrArg _⟩

def empty : OrderedMap κ ν := ⟨[], List.nodup_nil⟩

instance : Inhabited (OrderedMap κ ν) := ⟨empty⟩

def keys (m : OrderedMap κ ν) : List κ := m.entries.map Prod.fst

def values (m : OrderedMap κ ν) : List ν := m.entries.map Prod.snd

def size (m : OrderedMap κ ν) : Nat := m.entries.length

theorem keys_nodup (m : OrderedMap κ ν) : m.keys.Nodup := m.nodup

variable [DecidableEq κ]

def get? (m : OrderedMap κ ν) (k : κ) : Option ν :=
  (m.entries.find? fun e => e.1 = k).map Prod.snd

def has (m : OrderedMap κ ν) (k : κ) : Bool := (m.get? k).isSome

def set (m : OrderedMap κ ν) (k : κ) (v : ν) : OrderedMap κ ν :=
  ⟨upsert k v m.entries, upsert_nodup m.nodup⟩

/-- Keep the entries `p` accepts. -/
def filter (m : OrderedMap κ ν) (p : κ → ν → Bool) : OrderedMap κ ν :=
  ⟨m.entries.filter fun e => p e.1 e.2,
    (m.nodup.sublist ((List.filter_sublist (l := m.entries)).map _))⟩

def erase (m : OrderedMap κ ν) (k : κ) : OrderedMap κ ν := m.filter fun k' _ => k' ≠ k

/-! ## Lookup -/

theorem get?_eq_some_iff {m : OrderedMap κ ν} {k : κ} {v : ν} :
    m.get? k = some v ↔ (k, v) ∈ m.entries := by
  obtain ⟨l, hl⟩ := m
  simp only [get?]
  induction l with
  | nil => simp
  | cons e rest ih =>
    obtain ⟨hnot, hrest⟩ := List.nodup_cons.mp hl
    by_cases he : e.1 = k
    · subst he
      simp only [decide_true, List.find?_cons_of_pos, Option.map_some, Option.some.injEq,
        List.mem_cons]
      constructor
      · rintro rfl; exact .inl rfl
      · rintro (h | h)
        · exact (congrArg Prod.snd h).symm
        · exact absurd (List.mem_map.mpr ⟨_, h, rfl⟩) hnot
    · rw [List.find?_cons_of_neg (by simpa using he), ih hrest, List.mem_cons]
      constructor
      · exact .inr
      · rintro (h | h)
        · exact absurd (congrArg Prod.fst h).symm he
        · exact h

theorem get?_eq_none_iff {m : OrderedMap κ ν} {k : κ} : m.get? k = none ↔ k ∉ m.keys := by
  simp only [get?, Option.map_eq_none_iff, List.find?_eq_none, decide_eq_true_eq, keys, List.mem_map,
    not_exists, not_and]

theorem mem_keys_iff {m : OrderedMap κ ν} {k : κ} : k ∈ m.keys ↔ ∃ v, m.get? k = some v := by
  simp only [get?_eq_some_iff, keys, List.mem_map]
  constructor
  · rintro ⟨⟨k', v⟩, h, rfl⟩; exact ⟨v, h⟩
  · rintro ⟨v, h⟩; exact ⟨(k, v), h, rfl⟩

theorem mem_values_iff {m : OrderedMap κ ν} {v : ν} : v ∈ m.values ↔ ∃ k, m.get? k = some v := by
  simp only [get?_eq_some_iff, values, List.mem_map]
  constructor
  · rintro ⟨⟨k, v'⟩, h, rfl⟩; exact ⟨k, h⟩
  · rintro ⟨k, h⟩; exact ⟨(k, v), h, rfl⟩

@[simp] theorem get?_empty (k : κ) : (empty : OrderedMap κ ν).get? k = none := rfl

omit [DecidableEq κ] in
@[simp] theorem entries_empty : (empty : OrderedMap κ ν).entries = [] := rfl

theorem has_eq_true_iff {m : OrderedMap κ ν} {k : κ} : m.has k = true ↔ ∃ v, m.get? k = some v := by
  simp [has, Option.isSome_iff_exists]

theorem has_eq_false_iff {m : OrderedMap κ ν} {k : κ} : m.has k = false ↔ m.get? k = none := by
  simp [has]

@[simp] theorem get?_filter {m : OrderedMap κ ν} {p : κ → ν → Bool} {k : κ} :
    (m.filter p).get? k = (m.get? k).filter (p k) := by
  ext v
  simp only [get?_eq_some_iff, filter, List.mem_filter, Option.filter_eq_some_iff]

@[simp] theorem get?_erase {m : OrderedMap κ ν} {k k' : κ} :
    (m.erase k).get? k' = if k' = k then none else m.get? k' := by
  by_cases h : k' = k
  · subst h; cases hv : m.get? k' <;> simp [erase, hv, Option.filter]
  · cases hv : m.get? k' <;> simp [erase, hv, h, Option.filter]

@[simp] theorem get?_set {m : OrderedMap κ ν} {k k' : κ} {v : ν} :
    (m.set k v).get? k' = if k' = k then some v else m.get? k' := by
  obtain ⟨l, hl⟩ := m
  simp only [get?, set]
  clear hl
  induction l with
  | nil =>
    by_cases h : k' = k
    · simp [upsert, h]
    · simp [upsert, h, Ne.symm h]
  | cons e rest ih =>
    by_cases he : e.1 = k
    · by_cases h : k' = k
      · simp [upsert, he, h]
      · simp [upsert, he, h, Ne.symm h]
    · by_cases hk : e.1 = k'
      · subst hk
        simp [upsert, he]
      · simp only [upsert, if_neg he]
        rw [List.find?_cons_of_neg (by simpa using hk), List.find?_cons_of_neg (by simpa using hk)]
        exact ih

/-! ## Order -/

theorem entries_set_of_get?_none {m : OrderedMap κ ν} {k : κ} {v : ν} (h : m.get? k = none) :
    (m.set k v).entries = m.entries ++ [(k, v)] :=
  upsert_of_notMem (get?_eq_none_iff.mp h)

theorem size_set_of_get?_none {m : OrderedMap κ ν} {k : κ} {v : ν} (h : m.get? k = none) :
    (m.set k v).size = m.size + 1 := by
  rw [size, entries_set_of_get?_none h, List.length_append]
  rfl

/-- Erasing the last key. -/
theorem entries_erase_concat {m : OrderedMap κ ν} {l : List (κ × ν)} {k : κ} {v : ν}
    (h : m.entries = l ++ [(k, v)]) : (m.erase k).entries = l := by
  have hnodup := m.nodup
  rw [h, List.map_append] at hnodup
  have hnew : ∀ e ∈ l, e.1 ≠ k := fun e he heq =>
    (List.nodup_append.mp hnodup).2.2 e.1 (List.mem_map_of_mem he) k (List.mem_singleton_self k) heq
  simp only [erase, filter, h, List.filter_append]
  rw [List.filter_eq_self.mpr (fun e he => by simpa using hnew e he)]
  simp

theorem keys_set_of_get?_some {m : OrderedMap κ ν} {k : κ} {v w : ν} (h : m.get? k = some w) :
    (m.set k v).keys = m.keys :=
  keys_upsert_of_mem (mem_keys_iff.mpr ⟨w, h⟩)

/-- Setting a key to a value that `f` cannot tell from the old one. -/
theorem map_entries_set {β : Type*} {m : OrderedMap κ ν} {k : κ} {v w : ν} (f : κ × ν → β)
    (h : m.get? k = some w) (hf : f (k, v) = f (k, w)) :
    (m.set k v).entries.map f = m.entries.map f := by
  have hmem := get?_eq_some_iff.mp h
  obtain ⟨l, hl⟩ := m
  simp only [set] at hmem ⊢
  clear h
  induction l with
  | nil => cases hmem
  | cons e rest ih =>
    obtain ⟨hnot, hrest⟩ := List.nodup_cons.mp hl
    by_cases he : e.1 = k
    · have heq : e = (k, w) := by
        rcases List.mem_cons.mp hmem with h | h
        · exact h.symm
        · exact absurd (List.mem_map.mpr ⟨_, h, he.symm⟩) hnot
      subst heq
      simp [upsert, hf]
    · simp only [upsert, if_neg he, List.map_cons, List.cons.injEq, true_and]
      rcases List.mem_cons.mp hmem with h | h
      · exact absurd (congrArg Prod.fst h).symm he
      · exact ih hrest h

theorem ext_get? {m n : OrderedMap κ ν} (hk : m.keys = n.keys) (h : ∀ k, m.get? k = n.get? k) :
    m = n := by
  apply OrderedMap.ext
  have key : ∀ m : OrderedMap κ ν, m.entries.map (fun e => (e.1, some e.2)) =
      m.keys.map fun k => (k, m.get? k) := by
    intro m
    simp only [keys, List.map_map]
    apply List.map_congr_left
    rintro ⟨k, v⟩ he
    simp [get?_eq_some_iff.mpr he]
  have hinj : Function.Injective (fun e : κ × ν => (e.1, some e.2)) := by
    rintro ⟨k, v⟩ ⟨k', v'⟩ h; simpa using h
  apply hinj.list_map
  rw [key m, key n, hk]
  exact List.map_congr_left fun k _ => by rw [h k]

theorem set_of_get? {m : OrderedMap κ ν} {k : κ} {v : ν} (h : m.get? k = some v) :
    m.set k v = m := by
  refine ext_get? (keys_set_of_get?_some h) fun k' => ?_
  rw [get?_set]
  split
  · rename_i heq
    rw [heq, h]
  · rfl

/-- Setting every entry of a second map: its values win. -/
theorem get?_foldl_set (m n : OrderedMap κ ν) (k : κ) :
    (n.entries.foldl (fun m e => m.set e.1 e.2) m).get? k = (n.get? k).or (m.get? k) := by
  obtain ⟨entries, hnodup⟩ := n
  show _ = ((entries.find? fun e => e.1 = k).map Prod.snd).or (m.get? k)
  induction entries generalizing m with
  | nil => rfl
  | cons e rest ih =>
    rw [List.map_cons, List.nodup_cons] at hnodup
    rw [List.foldl_cons, ih _ hnodup.2, get?_set]
    by_cases he : e.1 = k
    · have hnone : (rest.find? fun e => e.1 = k) = none := by
        rw [List.find?_eq_none]
        intro e' he'
        have hne : e'.1 ≠ e.1 := fun h => hnodup.1 (h ▸ List.mem_map_of_mem he')
        simpa [← he] using hne
      rw [hnone, List.find?_cons_of_pos (by simpa using he), if_pos he.symm]
      rfl
    · rw [List.find?_cons_of_neg (by simpa using he), if_neg (Ne.symm he)]

/-- New keys go to the end one after the other. -/
theorem foldl_upsert : ∀ (es before : List (κ × ν)), ((before ++ es).map Prod.fst).Nodup →
    es.foldl (fun l e => upsert e.1 e.2 l) before = before ++ es
  | [], before, _ => (List.append_nil _).symm
  | e :: rest, before, h => by
    have hnot : e.1 ∉ before.map Prod.fst := by
      rw [List.map_append, List.map_cons] at h
      exact fun hin => (List.nodup_append.mp h).2.2 _ hin _ List.mem_cons_self rfl
    rw [List.foldl_cons, upsert_of_notMem hnot, foldl_upsert rest, List.append_assoc]
    · rfl
    · rwa [List.append_assoc]

theorem entries_foldl_set : ∀ (es : List (κ × ν)) (m : OrderedMap κ ν),
    (es.foldl (fun m e => m.set e.1 e.2) m).entries =
      es.foldl (fun l e => upsert e.1 e.2 l) m.entries
  | [], _ => rfl
  | e :: rest, m => entries_foldl_set rest (m.set e.1 e.2)

/-- Setting a list of values, each under its own key: the last of a key wins. -/
theorem get?_collect (key : ν → κ) (vs : List ν) (m : OrderedMap κ ν) (k : κ) :
    (vs.foldl (fun m v => m.set (key v) v) m).get? k =
      (vs.reverse.find? fun v => key v = k).or (m.get? k) := by
  induction vs generalizing m with
  | nil => rfl
  | cons v vs ih =>
    rw [List.foldl_cons, ih, List.reverse_cons, List.find?_append, get?_set, Option.or_assoc]
    by_cases hk : key v = k
    · simp [hk]
    · simp [hk, Ne.symm hk]

omit [DecidableEq κ] in
theorem values_nodup_of_entries {key : ν → κ} {m : OrderedMap κ ν}
    (h : ∀ e ∈ m.entries, key e.2 = e.1) : (m.values.map key).Nodup := by
  have hkeys : m.values.map key = m.keys := by
    unfold values keys
    rw [List.map_map]
    exact List.map_congr_left h
  rw [hkeys]
  exact m.keys_nodup

/-- Values that each know their key are set under distinct keys. -/
theorem values_nodup {key : ν → κ} {m : OrderedMap κ ν}
    (h : ∀ k v, m.get? k = some v → key v = k) : (m.values.map key).Nodup :=
  values_nodup_of_entries fun e he => h e.1 e.2 (get?_eq_some_iff.mpr he)

/-! ## Sums over the values -/

/-- The sum of a measure over the values. -/
def sumBy (f : ν → Nat) (m : OrderedMap κ ν) : Nat := (m.values.map f).sum

omit [DecidableEq κ] in
@[simp] theorem sumBy_empty (f : ν → Nat) : sumBy f (empty : OrderedMap κ ν) = 0 := rfl

theorem sumBy_set (f : ν → Nat) (m : OrderedMap κ ν) (k : κ) (v : ν) :
    sumBy f (m.set k v) + ((m.get? k).map f).getD 0 = sumBy f m + f v := by
  obtain ⟨l, hl⟩ := m
  simp only [sumBy, values, set, get?]
  clear hl
  induction l with
  | nil => simp [upsert]
  | cons e rest ih =>
    by_cases he : e.1 = k
    · simp [upsert, he]; omega
    · simp only [upsert, if_neg he, List.map_cons, List.sum_cons]
      rw [List.find?_cons_of_neg (by simpa using he)]
      omega

theorem sumBy_erase (f : ν → Nat) (m : OrderedMap κ ν) (k : κ) :
    sumBy f (m.erase k) + ((m.get? k).map f).getD 0 = sumBy f m := by
  obtain ⟨l, hl⟩ := m
  simp only [sumBy, values, erase, filter, get?]
  induction l with
  | nil => simp
  | cons e rest ih =>
    obtain ⟨hnot, hrest⟩ := List.nodup_cons.mp hl
    by_cases he : e.1 = k
    · have hkeep : rest.filter (fun e => decide (e.1 ≠ k)) = rest := by
        apply List.filter_eq_self.mpr
        intro x hx
        simpa using fun hk => hnot (List.mem_map.mpr ⟨x, hx, hk.trans he.symm⟩)
      simp only [ne_eq, decide_not] at hkeep
      simp [he, hkeep]; omega
    · have := ih hrest
      rw [List.filter_cons_of_pos (by simpa using he), List.find?_cons_of_neg (by simpa using he)]
      simp only [List.map_cons, List.sum_cons]
      omega

end OrderedMap

end SurfaceLoom.Lib
