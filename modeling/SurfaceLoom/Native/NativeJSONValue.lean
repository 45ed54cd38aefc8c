import Mathlib.Data.List.InsertIdx
import Mathlib.Data.Option.Basic
import Mathlib.Tactic.Common
import SurfaceLoom.Lib.OrderedHistory
import SurfaceLoom.Lib.Utf8

/-! # JSON objects that keep their members in order

An object holds its members as a list and, beside it, a dictionary from keys to places in
that list. Keys are told apart by their UTF-8 bytes, so two spellings of one text that are
canonically equivalent stay two keys. Every access through a place may trap; none does. -/
namespace SurfaceLoom.Native.NativeJSONValue
open SurfaceLoom.Lib SurfaceLoom.Lib.OrderedMap

structure ExactJSONKey where
  value : String
  bytes : List UInt8
  encoded : bytes = Utf8.encode value.toList

namespace ExactJSONKey

def ofString (value : String) : ExactJSONKey := ⟨value, Utf8.encode value.toList, rfl⟩

theorem eq_of_bytes {a b : ExactJSONKey} (h : a.bytes = b.bytes) : a = b := by
  obtain ⟨v, bytes, hv⟩ := a
  obtain ⟨w, bytes', hw⟩ := b
  simp only at h
  subst h
  have hread := Utf8.read_encode v.toList
  rw [← hv, hw, Utf8.read_encode] at hread
  have hlist : w.toList = v.toList := List.map_injective_iff.mpr (Option.some_injective _) hread
  cases String.toList_inj.mp hlist
  rfl

/-- `==`: the bytes decide. -/
instance : DecidableEq ExactJSONKey := fun a b =>
  decidable_of_iff (a.bytes = b.bytes) ⟨eq_of_bytes, congrArg _⟩

theorem ofString_inj {a b : String} : ofString a = ofString b ↔ a = b :=
  ⟨congrArg value, congrArg _⟩

end ExactJSONKey

variable {V : Type}

structure Entry (V : Type) where
  key : ExactJSONKey
  value : V

structure NativeJSONObject (V : Type) where
  entries : List (Entry V)
  indexByKey : OrderedMap ExactJSONKey Nat

namespace NativeJSONObject

def empty : NativeJSONObject V := ⟨[], .empty⟩

/-- `entries[index].value = value`, which traps outside the list. -/
def setValue (entries : List (Entry V)) (index : Nat) (value : V) : Option (List (Entry V)) :=
  entries[index]?.map fun entry => entries.set index { entry with value }

/-- `entries.remove(at: index)`, which traps outside the list. -/
def removeAt (entries : List (Entry V)) (index : Nat) : Option (List (Entry V)) :=
  if index < entries.length then some (entries.eraseIdx index) else none

def append (o : NativeJSONObject V) (key : ExactJSONKey) (value : V) : NativeJSONObject V :=
  { entries := o.entries ++ [⟨key, value⟩]
    indexByKey := o.indexByKey.set key o.entries.length }

/-- One round of the loop of `init`. -/
def add (o : NativeJSONObject V) (key : String) (value : V) : Option (NativeJSONObject V) :=
  let exactKey := ExactJSONKey.ofString key
  match o.indexByKey.get? exactKey with
  | some index => (setValue o.entries index value).map fun entries => { o with entries }
  | none => some (o.append exactKey value)

/-- `init` -/
def ofElements (elements : List (String × V)) : Option (NativeJSONObject V) :=
  elements.foldlM (fun o element => o.add element.1 element.2) empty

def count (o : NativeJSONObject V) : Nat := o.entries.length

def isEmpty (o : NativeJSONObject V) : Bool := o.entries.isEmpty

def keys (o : NativeJSONObject V) : List String := o.entries.map (·.key.value)

def values (o : NativeJSONObject V) : List V := o.entries.map Entry.value

/-- The getter of the subscript; the outer `none` is a trap. -/
def get (o : NativeJSONObject V) (key : String) : Option (Option V) :=
  match o.indexByKey.get? (ExactJSONKey.ofString key) with
  | some index => o.entries[index]?.map fun entry => some entry.value
  | none => some none

/-- The keys from `index` on are told their places again. -/
def reindex (entries : List (Entry V)) (index : Nat) (indexByKey : OrderedMap ExactJSONKey Nat) :
    Option (OrderedMap ExactJSONKey Nat) :=
  if index ≤ entries.length then
    (List.range' index (entries.length - index)).foldlM (fun places movedIndex =>
      entries[movedIndex]?.map fun entry => places.set entry.key movedIndex) indexByKey
  else
    none

/-- The setter of the subscript; `none` is a trap. -/
def set (o : NativeJSONObject V) (key : String) (newValue : Option V) :
    Option (NativeJSONObject V) :=
  let exactKey := ExactJSONKey.ofString key
  match o.indexByKey.get? exactKey with
  | some index =>
    match newValue with
    | some value => (setValue o.entries index value).map fun entries => { o with entries }
    | none => do
      let entries ← removeAt o.entries index
      let indexByKey ← reindex entries index (o.indexByKey.erase exactKey)
      some { entries, indexByKey }
  | none =>
    match newValue with
    | some value => some (o.append exactKey value)
    | none => some o

/-- Subscript assignments, one after the other. -/
def assignAll (o : NativeJSONObject V) (assignments : List (String × Option V)) :
    Option (NativeJSONObject V) :=
  assignments.foldlM (fun o assignment => o.set assignment.1 assignment.2) o

/-! ## The map an object stands for -/

/-- The index names the places of the keys, and no key stands at two of them. -/
structure Coherent (o : NativeJSONObject V) : Prop where
  nodup : (o.entries.map Entry.key).Nodup
  index : ∀ key i, o.indexByKey.get? key = some i ↔ (o.entries.map Entry.key)[i]? = some key

/-- The object stands for `m`: the same members in the same order. -/
structure Represents (o : NativeJSONObject V) (m : OrderedMap ExactJSONKey V) : Prop where
  coherent : o.Coherent
  entries : o.entries.map (fun entry => (entry.key, entry.value)) = m.entries

theorem Represents.keys {o : NativeJSONObject V} {m : OrderedMap ExactJSONKey V}
    (h : o.Represents m) : o.entries.map Entry.key = m.keys := by
  rw [OrderedMap.keys, ← h.entries, List.map_map]
  rfl

theorem represents_empty : (empty : NativeJSONObject V).Represents .empty :=
  ⟨⟨.nil, fun key i => by simp [empty]⟩, rfl⟩

/-- Where the index has no place for a key, the map has no value. -/
theorem Represents.get?_none {o : NativeJSONObject V} {m : OrderedMap ExactJSONKey V}
    (h : o.Represents m) {key : ExactJSONKey} (hnone : o.indexByKey.get? key = none) :
    m.get? key = none := by
  rw [get?_eq_none_iff, ← h.keys]
  intro hin
  obtain ⟨i, hi⟩ := List.getElem?_of_mem hin
  rw [(h.coherent.index key i).mpr hi] at hnone
  cases hnone

/-- A place of the index holds the key, and the map the value that stands there. -/
theorem Represents.get?_some {o : NativeJSONObject V} {m : OrderedMap ExactJSONKey V}
    (h : o.Represents m) {key : ExactJSONKey} {i : Nat} (hi : o.indexByKey.get? key = some i) :
    ∃ value, o.entries[i]? = some ⟨key, value⟩ ∧ m.get? key = some value := by
  have hkey := (h.coherent.index key i).mp hi
  rw [List.getElem?_map, Option.map_eq_some_iff] at hkey
  obtain ⟨⟨_, value⟩, hentry, rfl⟩ := hkey
  refine ⟨value, hentry, get?_eq_some_iff.mpr ?_⟩
  rw [← h.entries]
  exact List.mem_map.mpr ⟨_, List.mem_of_getElem? hentry, rfl⟩

theorem Represents.get {o : NativeJSONObject V} {m : OrderedMap ExactJSONKey V}
    (h : o.Represents m) (key : String) : o.get key = some (m.get? (ExactJSONKey.ofString key)) := by
  unfold NativeJSONObject.get
  cases hi : o.indexByKey.get? (ExactJSONKey.ofString key) with
  | none => simp only [h.get?_none hi]
  | some i =>
    obtain ⟨value, hentry, hvalue⟩ := h.get?_some hi
    simp only [hentry, hvalue, Option.map_some]

/-! ## Insertion and overwriting -/

theorem Represents.append {o : NativeJSONObject V} {m : OrderedMap ExactJSONKey V}
    (h : o.Represents m) {key : ExactJSONKey} (hnone : o.indexByKey.get? key = none) (value : V) :
    (o.append key value).Represents (m.set key value) := by
  have habsent := h.get?_none hnone
  have hnew : key ∉ o.entries.map Entry.key := by
    rw [h.keys]
    exact get?_eq_none_iff.mp habsent
  refine ⟨⟨?_, ?_⟩, ?_⟩
  · rw [NativeJSONObject.append, List.map_append]
    exact List.Nodup.append h.coherent.nodup (List.nodup_singleton key) (by simpa using hnew)
  · intro key' i
    simp only [NativeJSONObject.append, get?_set, List.map_append, List.map_cons, List.map_nil]
    by_cases hkey : key' = key
    · subst hkey
      simp only [if_true]
      constructor
      · intro hi
        cases hi
        simp
      · intro hi
        rcases List.getElem?_append ▸ hi with hi
        split at hi
        · exact absurd (List.mem_of_getElem? hi) hnew
        · rename_i hge
          obtain ⟨hlt, -⟩ := List.getElem?_eq_some_iff.mp hi
          simp only [List.length_map, List.length_singleton] at hge hlt
          exact congrArg some (by omega)
    · rw [if_neg hkey, h.coherent.index]
      constructor
      · intro hi
        rw [List.getElem?_append_left (List.getElem?_eq_some_iff.mp hi).1]
        exact hi
      · intro hi
        rw [List.getElem?_append] at hi
        split at hi
        · exact hi
        · have hlast := List.mem_of_getElem? hi
          exact absurd (List.mem_singleton.mp hlast) hkey
  · rw [entries_set_of_get?_none habsent, ← h.entries]
    simp [NativeJSONObject.append]

/-- Overwriting a member where it stands. -/
theorem Represents.setValue {o : NativeJSONObject V} {m : OrderedMap ExactJSONKey V}
    (h : o.Represents m) {key : ExactJSONKey} {i : Nat} (hi : o.indexByKey.get? key = some i)
    (value : V) : ∃ o' : NativeJSONObject V,
      (setValue o.entries i value).map (fun entries => { o with entries }) = some o' ∧
        o'.Represents (m.set key value) := by
  obtain ⟨old, hentry, hold⟩ := h.get?_some hi
  have hkeys : (o.entries.set i ⟨key, value⟩).map Entry.key = o.entries.map Entry.key := by
    have hkey : (o.entries.map Entry.key)[i]? = some key := by
      rw [List.getElem?_map, hentry]
      rfl
    obtain ⟨hlt, hget⟩ := List.getElem?_eq_some_iff.mp hkey
    rw [List.map_set, ← hget]
    exact List.set_getElem_self hlt
  refine ⟨{ o with entries := o.entries.set i ⟨key, value⟩ }, ?_, ⟨?_, ?_⟩, ?_⟩
  · rw [NativeJSONObject.setValue, hentry]
    rfl
  · rw [hkeys]
    exact h.coherent.nodup
  · intro key' j
    rw [hkeys]
    exact h.coherent.index key' j
  · have hplace : m.entries[i]? = some (key, old) := by
      rw [← h.entries, List.getElem?_map, hentry]
      rfl
    rw [entries_set_of_place hplace, ← h.entries, List.map_set]

/-- An insertion or an overwriting, as the loop of `init` and the setter make it. -/
theorem Represents.add {o : NativeJSONObject V} {m : OrderedMap ExactJSONKey V}
    (h : o.Represents m) (key : String) (value : V) : ∃ o' : NativeJSONObject V,
      o.add key value = some o' ∧ o'.Represents (m.set (ExactJSONKey.ofString key) value) := by
  simp only [NativeJSONObject.add]
  cases hi : o.indexByKey.get? (ExactJSONKey.ofString key) with
  | some i => exact h.setValue hi value
  | none => exact ⟨_, rfl, h.append hi value⟩

/-! ## Removal -/

/-- After the loop the keys from `index` on have their places, the others what they had. -/
theorem reindex_places {entries : List (Entry V)} (hnodup : (entries.map Entry.key).Nodup) :
    ∀ (n index : Nat) (places : OrderedMap ExactJSONKey Nat), index + n ≤ entries.length →
      ∃ places', (List.range' index n).foldlM (fun places movedIndex =>
          entries[movedIndex]?.map fun entry => places.set entry.key movedIndex) places =
            some places' ∧
        ∀ key i, places'.get? key = some i ↔
          (index ≤ i ∧ i < index + n ∧ (entries.map Entry.key)[i]? = some key) ∨
          (places.get? key = some i ∧
            ∀ j, index ≤ j → j < index + n → (entries.map Entry.key)[j]? ≠ some key)
  | 0, index, places, _ => by
    refine ⟨places, rfl, fun key i => ?_⟩
    constructor
    · intro hi
      exact .inr ⟨hi, fun j hle hlt => absurd hlt (by omega)⟩
    · rintro (⟨hle, hlt, -⟩ | ⟨hi, -⟩)
      · omega
      · exact hi
  | n + 1, index, places, hbound => by
    have hlt : index < entries.length := by omega
    obtain ⟨places', hloop, hplaces⟩ := reindex_places hnodup n (index + 1)
      (places.set entries[index].key index) (by omega)
    have hat : (entries.map Entry.key)[index]? = some entries[index].key := by
      rw [List.getElem?_map, List.getElem?_eq_getElem hlt]
      rfl
    refine ⟨places', ?_, fun key i => ?_⟩
    · rw [List.range'_succ, List.foldlM_cons, List.getElem?_eq_getElem hlt]
      exact hloop
    · have hunique : ∀ j, (entries.map Entry.key)[j]? = some entries[index].key → j = index := by
        intro j hj
        exact (List.getElem?_inj (List.getElem?_eq_some_iff.mp hj).1 hnodup).mp (hj.trans hat.symm)
      rw [hplaces, get?_set]
      by_cases hkey : key = entries[index].key
      · subst hkey
        simp only [if_true, Option.some.injEq]
        constructor
        · rintro (⟨hle, -, hi⟩ | ⟨rfl, -⟩)
          · exact absurd (hunique i hi) (by omega)
          · exact .inl ⟨Nat.le_refl _, by omega, hat⟩
        · rintro (⟨-, -, hi⟩ | ⟨-, hnone⟩)
          · refine .inr ⟨(hunique i hi).symm, fun j hle _ hj => ?_⟩
            exact absurd (hunique j hj) (by omega)
          · exact absurd hat (hnone index (Nat.le_refl _) (by omega))
      · rw [if_neg hkey]
        have hne : (entries.map Entry.key)[index]? ≠ some key := by
          rw [hat]
          intro heq
          exact hkey (Option.some.inj heq).symm
        constructor
        · rintro (⟨hle, hlt', hi⟩ | ⟨hi, hnone⟩)
          · exact .inl ⟨by omega, by omega, hi⟩
          · refine .inr ⟨hi, fun j hle hlt' => ?_⟩
            rcases Nat.eq_or_lt_of_le hle with rfl | hgt
            · exact hne
            · exact hnone j hgt (by omega)
        · rintro (⟨hle, hlt', hi⟩ | ⟨hi, hnone⟩)
          · rcases Nat.eq_or_lt_of_le hle with rfl | hgt
            · exact absurd hi hne
            · exact .inl ⟨hgt, by omega, hi⟩
          · exact .inr ⟨hi, fun j hle hlt' => hnone j (by omega) (by omega)⟩

/-- Removing a member: the others keep their order and are found where they now stand. -/
theorem Represents.remove {o : NativeJSONObject V} {m : OrderedMap ExactJSONKey V}
    (h : o.Represents m) {key : ExactJSONKey} {i : Nat} (hi : o.indexByKey.get? key = some i) :
    ∃ entries indexByKey, removeAt o.entries i = some entries ∧
      reindex entries i (o.indexByKey.erase key) = some indexByKey ∧
      (⟨entries, indexByKey⟩ : NativeJSONObject V).Represents (m.erase key) := by
  obtain ⟨old, hentry, hold⟩ := h.get?_some hi
  have hlt := (List.getElem?_eq_some_iff.mp hentry).1
  have hkeys : (o.entries.eraseIdx i).map Entry.key = (o.entries.map Entry.key).eraseIdx i :=
    (List.eraseIdx_map _ _ _).symm
  have hat : (o.entries.map Entry.key)[i]? = some key := by
    rw [List.getElem?_map, hentry]
    rfl
  have hnodup : ((o.entries.eraseIdx i).map Entry.key).Nodup := by
    rw [hkeys]
    exact h.coherent.nodup.sublist (List.eraseIdx_sublist _ _)
  have hlength : (o.entries.eraseIdx i).length = o.entries.length - 1 :=
    List.length_eraseIdx_of_lt hlt
  obtain ⟨places, hloop, hplaces⟩ := reindex_places hnodup ((o.entries.eraseIdx i).length - i) i
    (o.indexByKey.erase key) (by omega)
  refine ⟨o.entries.eraseIdx i, places, ?_, ?_, ⟨hnodup, ?_⟩, ?_⟩
  · rw [removeAt, if_pos hlt]
  · rw [reindex, if_pos (by omega)]
    exact hloop
  · intro key' j
    rw [hplaces, get?_erase, hkeys]
    constructor
    · rintro (⟨-, -, hj⟩ | ⟨hj, hnone⟩)
      · exact hj
      · by_cases hkey : key' = key
        · rw [if_pos hkey] at hj
          cases hj
        · rw [if_neg hkey, h.coherent.index] at hj
          rcases Nat.lt_trichotomy j i with hji | rfl | hij
          · rw [List.getElem?_eraseIdx_of_lt hji]
            exact hj
          · exact absurd (Option.some.inj (hj.symm.trans hat)) hkey
          · refine absurd ?_ (hnone (j - 1) (by omega) ?_)
            · rw [List.getElem?_eraseIdx_of_ge (by omega)]
              rw [show j - 1 + 1 = j by omega]
              exact hj
            · have hjlt := (List.getElem?_eq_some_iff.mp hj).1
              rw [List.length_map] at hjlt
              omega
    · intro hj
      have hjlt := (List.getElem?_eq_some_iff.mp hj).1
      rw [← hkeys, List.length_map] at hjlt
      by_cases hle : i ≤ j
      · exact .inl ⟨hle, by omega, hkeys ▸ hj⟩
      · have hold' := hj
        rw [List.getElem?_eraseIdx_of_lt (by omega)] at hold'
        have hkey : key' ≠ key := by
          rintro rfl
          have := List.getElem?_inj (List.getElem?_eq_some_iff.mp hold').1 h.coherent.nodup
            |>.mp (hold'.trans hat.symm)
          omega
        rw [if_neg hkey, h.coherent.index]
        refine .inr ⟨hold', fun j' hle' _ hj' => ?_⟩
        have := List.getElem?_inj (List.getElem?_eq_some_iff.mp hj').1
          (hkeys ▸ hnodup) |>.mp (hj'.trans hj.symm)
        omega
  · have hplace : m.entries[i]? = some (key, old) := by
      rw [← h.entries, List.getElem?_map, hentry]
      rfl
    rw [entries_erase_of_place hplace, ← h.entries, List.eraseIdx_map]

/-! ## Every sequence of assignments -/

/-- A subscript assignment never traps, and does to the map what it says. -/
theorem Represents.set {o : NativeJSONObject V} {m : OrderedMap ExactJSONKey V}
    (h : o.Represents m) (key : String) (newValue : Option V) : ∃ o' : NativeJSONObject V,
      o.set key newValue = some o' ∧
        o'.Represents (m.assign (ExactJSONKey.ofString key) newValue) := by
  simp only [NativeJSONObject.set]
  cases hi : o.indexByKey.get? (ExactJSONKey.ofString key) with
  | some i =>
    cases newValue with
    | some value => exact h.setValue hi value
    | none =>
      obtain ⟨entries, places, hentries, hplaces, hrepresents⟩ := h.remove hi
      refine ⟨⟨entries, places⟩, ?_, hrepresents⟩
      simp only [hentries, hplaces, Option.bind_eq_bind, Option.bind_some]
  | none =>
    cases newValue with
    | some value => exact ⟨_, rfl, h.append hi value⟩
    | none =>
      refine ⟨o, rfl, ?_⟩
      have hsame : m.erase (ExactJSONKey.ofString key) = m := erase_of_get?_none (h.get?_none hi)
      rw [assign, hsame]
      exact h

theorem Represents.assignAll (assignments : List (String × Option V)) :
    ∀ {o : NativeJSONObject V} {m : OrderedMap ExactJSONKey V}, o.Represents m →
      ∃ o' : NativeJSONObject V, o.assignAll assignments = some o' ∧ o'.Represents
        (m.assignAll (assignments.map fun a => (ExactJSONKey.ofString a.1, a.2))) := by
  induction assignments with
  | nil => exact fun h => ⟨_, rfl, h⟩
  | cons assignment assignments ih =>
    intro o m h
    obtain ⟨o', ho', h'⟩ := h.set assignment.1 assignment.2
    obtain ⟨o'', ho'', h''⟩ := ih h'
    refine ⟨o'', ?_, h''⟩
    rw [NativeJSONObject.assignAll, List.foldlM_cons, ho']
    exact ho''

theorem Represents.ofElements (elements : List (String × V)) : ∃ o : NativeJSONObject V,
    ofElements elements = some o ∧ o.Represents (OrderedMap.assignAll .empty
      (elements.map fun e => (ExactJSONKey.ofString e.1, some e.2))) := by
  have hloop : ∀ {o : NativeJSONObject V} {m : OrderedMap ExactJSONKey V}, o.Represents m →
      ∃ o' : NativeJSONObject V, elements.foldlM (fun o e => o.add e.1 e.2) o = some o' ∧
        o'.Represents
          (m.assignAll (elements.map fun e => (ExactJSONKey.ofString e.1, some e.2))) := by
    induction elements with
    | nil => exact fun h => ⟨_, rfl, h⟩
    | cons element elements ih =>
      intro o m h
      obtain ⟨o', ho', h'⟩ := h.add element.1 element.2
      obtain ⟨o'', ho'', h''⟩ := ih h'
      refine ⟨o'', ?_, h''⟩
      rw [List.foldlM_cons, ho']
      exact ho''
  exact hloop represents_empty

/-- What was assigned, the elements of the construction first, under the bytes of the keys. -/
def history (elements : List (String × V)) (assignments : List (String × Option V)) :
    List (ExactJSONKey × Option V) :=
  elements.map (fun e => (ExactJSONKey.ofString e.1, some e.2)) ++
    assignments.map fun a => (ExactJSONKey.ofString a.1, a.2)

/-- The object that a construction and assignments after it leave, if nothing traps. -/
def build (elements : List (String × V)) (assignments : List (String × Option V)) :
    Option (NativeJSONObject V) :=
  (ofElements elements).bind fun o => o.assignAll assignments

theorem build_represents (elements : List (String × V)) (assignments : List (String × Option V)) :
    ∃ o : NativeJSONObject V, build elements assignments = some o ∧
      o.Represents (OrderedMap.assignAll .empty (history elements assignments)) := by
  obtain ⟨o, ho, h⟩ := Represents.ofElements elements
  obtain ⟨o', ho', h'⟩ := Represents.assignAll assignments h
  refine ⟨o', ?_, ?_⟩
  · rw [build, ho]
    exact ho'
  · rwa [OrderedMap.assignAll, OrderedMap.assignAll, ← List.foldl_append] at h'

/-- An object that was built from `history`: it is coherent, a lookup gives what was assigned
last, and the members stand once each, in the order in which they came to be present. -/
structure Records (o : NativeJSONObject V) (history : List (ExactJSONKey × Option V)) : Prop where
  coherent : o.Coherent
  get : ∀ key, o.get key = some (lastAssigned history (ExactJSONKey.ofString key))
  present : ∀ key, key ∈ o.keys ↔ (lastAssigned history (ExactJSONKey.ofString key)).isSome
  values : o.entries.map (fun entry => some entry.value) =
    o.entries.map fun entry => lastAssigned history entry.key
  once : o.keys.Nodup
  inOrder : InOrder history (o.entries.map Entry.key)

theorem ofString_value (key : ExactJSONKey) : ExactJSONKey.ofString key.value = key :=
  ExactJSONKey.eq_of_bytes key.encoded.symm

theorem keys_eq (o : NativeJSONObject V) :
    o.keys = (o.entries.map Entry.key).map ExactJSONKey.value := by
  rw [List.map_map]
  rfl

theorem Represents.records {o : NativeJSONObject V} {history : List (ExactJSONKey × Option V)}
    (h : o.Represents (OrderedMap.assignAll .empty history)) : o.Records history := by
  have hvalue : ∀ key, (OrderedMap.assignAll .empty history).get? key =
      lastAssigned history key := get?_assignAll history
  have hinj : Function.Injective ExactJSONKey.value := by
    intro a b hab
    rw [← ofString_value a, ← ofString_value b, hab]
  refine ⟨h.coherent, ?_, ?_, ?_, ?_, ?_⟩
  · intro key
    rw [h.get, hvalue]
  · intro key
    rw [← hvalue, Option.isSome_iff_exists, ← mem_keys_iff, ← h.keys, keys_eq]
    constructor
    · intro hin
      obtain ⟨exact, hexact, hkey⟩ := List.mem_map.mp hin
      rw [← hkey, ofString_value]
      exact hexact
    · intro hin
      exact List.mem_map.mpr ⟨_, hin, rfl⟩
  · refine List.map_congr_left fun entry hentry => ?_
    rw [← hvalue, eq_comm, get?_eq_some_iff, ← h.entries]
    exact List.mem_map.mpr ⟨entry, hentry, rfl⟩
  · rw [keys_eq]
    exact h.coherent.nodup.map hinj
  · rw [h.keys]
    exact keys_assignAll history

/-- Construction and assignments never trap, and the object records all of them. -/
theorem build_records (elements : List (String × V)) (assignments : List (String × Option V)) :
    ∃ o : NativeJSONObject V, build elements assignments = some o ∧
      o.Records (history elements assignments) := by
  obtain ⟨o, ho, h⟩ := build_represents elements assignments
  exact ⟨o, ho, h.records⟩

/-- Removing a key and setting it again moves it to the end; the places of the rest follow. -/
example : ((build [("a", 1), ("b", 2), ("c", 3)] [("a", none), ("b", some 4), ("a", some 5)]).map
    fun o => (o.keys, o.values)) = some (["b", "c", "a"], [4, 3, 5]) := by
  decide

end NativeJSONObject

end SurfaceLoom.Native.NativeJSONValue
