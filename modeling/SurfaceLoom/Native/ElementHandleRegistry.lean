import Mathlib.Data.List.Induction
import Mathlib.Data.List.Perm.Lattice
import SurfaceLoom.Lib.OrderedMap
import SurfaceLoom.Lib.Transition

/-! # Handles for the elements of an automation session

An element is remembered under a handle of its own, which its runtime id keeps. Three maps
say which handle is whose; a batch of elements is remembered as a whole or not at all. -/
namespace SurfaceLoom.Native.ElementHandleRegistry
open SurfaceLoom.Lib SurfaceLoom.Lib.Transition

/-- Two runtime ids are the same if their parts are, whatever the arrays. -/
abbrev RuntimeId := List Int32

inductive Failure
  | argumentNull (parameter : String)
  | argument (message : String)
  deriving DecidableEq

/-- `guids` is the number of fresh ids drawn so far. -/
structure Registry (E : Type) where
  capacity : Nat
  elementsByHandle : OrderedMap String E
  handlesByRuntimeId : OrderedMap RuntimeId String
  runtimeIdsByHandle : OrderedMap String RuntimeId
  guids : Nat

abbrev Entry (E : Type) := Option RuntimeId × Option E

variable {E : Type}

namespace Registry

def create (capacity : Int) : Except Failure (Registry E) :=
  if capacity ≤ 0 then .error (.argument "capacity")
  else .ok ⟨capacity.toNat, .empty, .empty, .empty, 0⟩

def count (r : Registry E) : Nat := r.elementsByHandle.size

/-- `ThrowIfNull` -/
def notNull {α : Type} (value : Option α) (parameter : String) : Except Failure α :=
  match value with
  | some value => .ok value
  | none => .error (.argumentNull parameter)

/-- `Dictionary.Add` -/
def add {κ ν : Type} [DecidableEq κ] (m : OrderedMap κ ν) (key : κ) (value : ν) :
    Except Failure (OrderedMap κ ν) :=
  if m.has key then .error (.argument "An item with the same key has already been added.")
  else .ok (m.set key value)

/-- `Guid.NewGuid().ToString("N")`, one after the other. -/
abbrev Guids := Nat → String

variable (newGuid : Guids)

/-- A runtime id that has no handle yet gets a new one. -/
def insert (r : Registry E) (runtimeId : RuntimeId) (element : E) :
    Except Failure String × Registry E :=
  let elementId := newGuid r.guids
  let r := { r with guids := r.guids + 1 }
  match add r.handlesByRuntimeId runtimeId elementId with
  | .error e => (.error e, r)
  | .ok handles =>
    let r := { r with handlesByRuntimeId := handles }
    match add r.elementsByHandle elementId element with
    | .error e => (.error e, r)
    | .ok elements =>
      let r := { r with elementsByHandle := elements }
      match add r.runtimeIdsByHandle elementId runtimeId with
      | .error e => (.error e, r)
      | .ok runtimeIds => (.ok elementId, { r with runtimeIdsByHandle := runtimeIds })

/-- The checks of one runtime id and element. -/
def checkEntry (runtimeId : Option RuntimeId) (element : Option E) (names : String × String) :
    Except Failure (RuntimeId × E) := do
  let runtimeId ← notNull runtimeId names.1
  let element ← notNull element names.2
  if runtimeId.length = 0 then .error (.argument "RuntimeId must not be empty.")
  else .ok (runtimeId, element)

/-- `TryRemember` of a runtime id and an element that are there. -/
def remember (r : Registry E) (entry : RuntimeId × E) :
    Except Failure (Bool × String) × Registry E :=
  match r.handlesByRuntimeId.get? entry.1 with
  | some elementId =>
    (.ok (true, elementId), { r with elementsByHandle := r.elementsByHandle.set elementId entry.2 })
  | none =>
    if r.count ≥ r.capacity then (.ok (false, ""), r)
    else
      match r.insert newGuid entry.1 entry.2 with
      | (.ok elementId, r) => (.ok (true, elementId), r)
      | (.error e, r) => (.error e, r)

def tryRemember (r : Registry E) (runtimeId : Option RuntimeId) (element : Option E) :
    Except Failure (Bool × String) × Registry E :=
  match checkEntry runtimeId element ("runtimeId", "element") with
  | .error e => (.error e, r)
  | .ok entry => r.remember newGuid entry

/-- The runtime ids without a handle, each once. -/
def newRuntimeIds (r : Registry E) (ids : List RuntimeId) : List RuntimeId :=
  ids.foldl (fun set id => if r.handlesByRuntimeId.has id ∨ id ∈ set then set else set ++ [id]) []

/-- The loop of a batch. -/
def rememberAll : List (RuntimeId × E) → Registry E → Except Failure (List String) × Registry E
  | [], r => (.ok [], r)
  | entry :: rest, r =>
    match r.handlesByRuntimeId.get? entry.1 with
    | some existing =>
      match rememberAll rest
        { r with elementsByHandle := r.elementsByHandle.set existing entry.2 } with
      | (.ok remembered, r) => (.ok (existing :: remembered), r)
      | (.error e, r) => (.error e, r)
    | none =>
      match r.insert newGuid entry.1 entry.2 with
      | (.error e, r) => (.error e, r)
      | (.ok elementId, r) =>
        match rememberAll rest r with
        | (.ok remembered, r) => (.ok (elementId :: remembered), r)
        | (.error e, r) => (.error e, r)

def normalize (entries : List (Entry E)) : Except Failure (List (RuntimeId × E)) :=
  entries.mapM fun entry => checkEntry entry.1 entry.2 ("entry.RuntimeId", "entry.Element")

def tryRememberBatch (r : Registry E) (entries : Option (List (Entry E))) :
    Except Failure (Bool × List String) × Registry E :=
  match notNull entries "entries" with
  | .error e => (.error e, r)
  | .ok entries =>
    match normalize entries with
    | .error e => (.error e, r)
    | .ok normalized =>
      if r.count + (r.newRuntimeIds (normalized.map Prod.fst)).length > r.capacity then
        (.ok (false, []), r)
      else
        match rememberAll newGuid normalized r with
        | (.ok remembered, r) => (.ok (true, remembered), r)
        | (.error e, r) => (.error e, r)

def tryResolve (r : Registry E) (elementId : String) : Option (E × RuntimeId) :=
  match r.elementsByHandle.get? elementId, r.runtimeIdsByHandle.get? elementId with
  | some element, some runtimeId => some (element, runtimeId)
  | _, _ => none

def clear (r : Registry E) : Registry E :=
  { r with handlesByRuntimeId := .empty, elementsByHandle := .empty, runtimeIdsByHandle := .empty }

end Registry

open Registry

/-- The entries one by one, up to an exception. -/
def rememberEach (newGuid : Guids) :
    List (Entry E) → Registry E → Except Failure (List (Bool × String)) × Registry E
  | [], r => (.ok [], r)
  | entry :: rest, r =>
    match r.tryRemember newGuid entry.1 entry.2 with
    | (.error e, r) => (.error e, r)
    | (.ok reply, r) =>
      match rememberEach newGuid rest r with
      | (.error e, r) => (.error e, r)
      | (.ok replies, r) => (.ok (reply :: replies), r)

inductive Call (E : Type)
  | tryRemember (runtimeId : Option RuntimeId) (element : Option E)
  | tryRememberBatch (entries : Option (List (Entry E)))
  | clear

def next (newGuid : Guids) (r : Registry E) : Call E → Option (Registry E)
  | .tryRemember runtimeId element => some (r.tryRemember newGuid runtimeId element).2
  | .tryRememberBatch entries => some (r.tryRememberBatch newGuid entries).2
  | .clear => some r.clear

def registry (newGuid : Guids) (r : Registry E) : System (Registry E) (Call E) :=
  .ofMachine r (next newGuid)

/-! ## The invariant -/

variable {newGuid : Guids} {r r' : Registry E}

/-- The maps list the same handles, one behind the other, each a fresh id drawn so far. -/
structure Sound (newGuid : Guids) (r : Registry E) : Prop where
  runtimeIds : r.runtimeIdsByHandle.entries = r.handlesByRuntimeId.entries.map Prod.swap
  elements : r.elementsByHandle.keys = r.runtimeIdsByHandle.keys
  issued : ∀ h ∈ r.elementsByHandle.keys, ∃ i, i < r.guids ∧ h = newGuid i
  bounded : r.count ≤ r.capacity

theorem Sound.handle (h : Sound newGuid r) (id : RuntimeId) (handle : String) :
    r.handlesByRuntimeId.get? id = some handle ↔ r.runtimeIdsByHandle.get? handle = some id := by
  rw [OrderedMap.get?_eq_some_iff, OrderedMap.get?_eq_some_iff, h.runtimeIds, List.mem_map]
  constructor
  · intro hmem
    exact ⟨(id, handle), hmem, rfl⟩
  · intro hmem
    obtain ⟨⟨id', handle'⟩, hmem, heq⟩ := hmem
    obtain ⟨rfl, rfl⟩ := Prod.mk.inj heq
    exact hmem

theorem Sound.known (h : Sound newGuid r) {id : RuntimeId} {handle : String}
    (hid : r.handlesByRuntimeId.get? id = some handle) :
    ∃ element, r.elementsByHandle.get? handle = some element := by
  rw [← OrderedMap.mem_keys_iff, h.elements, OrderedMap.mem_keys_iff]
  exact ⟨id, (h.handle id handle).mp hid⟩

/-- The next id is none of the handles. -/
theorem Sound.fresh (h : Sound newGuid r) (hinj : Function.Injective newGuid) :
    r.elementsByHandle.get? (newGuid r.guids) = none ∧
      r.runtimeIdsByHandle.get? (newGuid r.guids) = none := by
  have hnew : newGuid r.guids ∉ r.elementsByHandle.keys := by
    intro hmem
    obtain ⟨i, hi, heq⟩ := h.issued _ hmem
    have hsame := hinj heq
    omega
  exact ⟨OrderedMap.get?_eq_none_iff.mpr hnew, OrderedMap.get?_eq_none_iff.mpr (h.elements ▸ hnew)⟩

theorem add_of_none {κ ν : Type} [DecidableEq κ] {m : OrderedMap κ ν} {key : κ}
    (h : m.get? key = none) (value : ν) : add m key value = .ok (m.set key value) := by
  rw [add, if_neg]
  rw [OrderedMap.has_eq_false_iff.mpr h]
  exact Bool.false_ne_true

/-- The registry with one more element. -/
def inserted (newGuid : Guids) (r : Registry E) (id : RuntimeId) (element : E) : Registry E :=
  { r with
    guids := r.guids + 1
    handlesByRuntimeId := r.handlesByRuntimeId.set id (newGuid r.guids)
    elementsByHandle := r.elementsByHandle.set (newGuid r.guids) element
    runtimeIdsByHandle := r.runtimeIdsByHandle.set (newGuid r.guids) id }

theorem Sound.insert (h : Sound newGuid r) (hinj : Function.Injective newGuid) {id : RuntimeId}
    (hid : r.handlesByRuntimeId.get? id = none) (element : E) :
    r.insert newGuid id element = (.ok (newGuid r.guids), inserted newGuid r id element) := by
  obtain ⟨helements, hruntimeIds⟩ := h.fresh hinj
  simp only [Registry.insert, add_of_none hid, add_of_none helements, add_of_none hruntimeIds]
  rfl

theorem Sound.inserted_count (h : Sound newGuid r) (hinj : Function.Injective newGuid)
    (id : RuntimeId) (element : E) : (ElementHandleRegistry.inserted newGuid r id element).count = r.count + 1 :=
  OrderedMap.size_set_of_get?_none (h.fresh hinj).1

theorem Sound.inserted (h : Sound newGuid r) (hinj : Function.Injective newGuid) {id : RuntimeId}
    (hid : r.handlesByRuntimeId.get? id = none) (hroom : r.count < r.capacity) (element : E) :
    Sound newGuid (inserted newGuid r id element) := by
  obtain ⟨helements, hruntimeIds⟩ := h.fresh hinj
  have hkeys : (r.elementsByHandle.set (newGuid r.guids) element).keys =
      r.elementsByHandle.keys ++ [newGuid r.guids] := by
    simp only [OrderedMap.keys, OrderedMap.entries_set_of_get?_none helements, List.map_append]
    rfl
  refine ⟨?_, ?_, fun handle hhandle => ?_, ?_⟩
  · simp only [ElementHandleRegistry.inserted, OrderedMap.entries_set_of_get?_none hruntimeIds,
      OrderedMap.entries_set_of_get?_none hid, List.map_append, h.runtimeIds]
    rfl
  · rw [ElementHandleRegistry.inserted, hkeys, h.elements]
    simp only [OrderedMap.keys, OrderedMap.entries_set_of_get?_none hruntimeIds, List.map_append]
    rfl
  · rw [ElementHandleRegistry.inserted, hkeys] at hhandle
    rcases List.mem_append.mp hhandle with hhandle | hhandle
    · obtain ⟨i, hi, heq⟩ := h.issued handle hhandle
      exact ⟨i, Nat.lt_succ_of_lt hi, heq⟩
    · exact ⟨r.guids, Nat.lt_succ_self _, List.mem_singleton.mp hhandle⟩
  · rw [h.inserted_count hinj]
    exact hroom

theorem Sound.replaced_count (h : Sound newGuid r) {id : RuntimeId} {handle : String}
    (hid : r.handlesByRuntimeId.get? id = some handle) (element : E) :
    count { r with elementsByHandle := r.elementsByHandle.set handle element } = r.count := by
  obtain ⟨old, hold⟩ := h.known hid
  have hsize := congrArg List.length (OrderedMap.keys_set_of_get?_some (v := element) hold)
  simp only [OrderedMap.keys, List.length_map] at hsize
  exact hsize

/-- The element of a handle is replaced. -/
theorem Sound.replaced (h : Sound newGuid r) {id : RuntimeId} {handle : String}
    (hid : r.handlesByRuntimeId.get? id = some handle) (element : E) :
    Sound newGuid { r with elementsByHandle := r.elementsByHandle.set handle element } := by
  obtain ⟨old, hold⟩ := h.known hid
  have hkeys := OrderedMap.keys_set_of_get?_some (v := element) hold
  refine ⟨h.runtimeIds, hkeys.trans h.elements, fun handle' hhandle => ?_, ?_⟩
  · rw [hkeys] at hhandle
    exact h.issued handle' hhandle
  · have hsize := congrArg List.length hkeys
    simp only [OrderedMap.keys, List.length_map] at hsize
    rw [count, OrderedMap.size, hsize]
    exact h.bounded

theorem sound_clear (r : Registry E) : Sound newGuid r.clear :=
  ⟨rfl, rfl, nofun, Nat.zero_le _⟩

/-- No runtime id loses its handle. -/
def Keeps (r r' : Registry E) : Prop :=
  ∀ id handle, r.handlesByRuntimeId.get? id = some handle →
    r'.handlesByRuntimeId.get? id = some handle

theorem keeps_inserted {id : RuntimeId} (hid : r.handlesByRuntimeId.get? id = none)
    (element : E) : Keeps r (inserted newGuid r id element) := by
  intro id' handle hhandle
  have hne : id ≠ id' := by
    intro heq
    rw [heq, hhandle] at hid
    cases hid
  simp [inserted, Ne.symm hne, hhandle]

/-! ## One entry -/

theorem Sound.remember (h : Sound newGuid r) (hinj : Function.Injective newGuid)
    (entry : RuntimeId × E) :
    Sound newGuid (r.remember newGuid entry).2 ∧ Keeps r (r.remember newGuid entry).2 ∧
      (r.remember newGuid entry).2.capacity = r.capacity := by
  cases hid : r.handlesByRuntimeId.get? entry.1 with
  | some handle =>
    simp only [Registry.remember, hid]
    exact ⟨h.replaced hid entry.2, fun _ _ hhandle => hhandle, trivial⟩
  | none =>
    by_cases hroom : r.count < r.capacity
    · simp only [Registry.remember, hid, ge_iff_le, Nat.not_le.mpr hroom, if_false,
        h.insert hinj hid]
      exact ⟨h.inserted hinj hid hroom entry.2, keeps_inserted hid entry.2, rfl⟩
    · simp only [Registry.remember, hid, ge_iff_le, Nat.not_lt.mp hroom, if_true]
      exact ⟨h, fun _ _ hhandle => hhandle, trivial⟩

theorem Sound.tryRemember (h : Sound newGuid r) (hinj : Function.Injective newGuid)
    (runtimeId : Option RuntimeId) (element : Option E) :
    Sound newGuid (r.tryRemember newGuid runtimeId element).2 ∧
      Keeps r (r.tryRemember newGuid runtimeId element).2 ∧
      (r.tryRemember newGuid runtimeId element).2.capacity = r.capacity := by
  rw [Registry.tryRemember]
  split
  · exact ⟨h, fun _ _ hhandle => hhandle, rfl⟩
  · exact h.remember hinj _

theorem Sound.rememberEach (hinj : Function.Injective newGuid) :
    ∀ (entries : List (Entry E)) {r : Registry E}, Sound newGuid r →
      Sound newGuid (rememberEach newGuid entries r).2 ∧
        Keeps r (rememberEach newGuid entries r).2 ∧
        (rememberEach newGuid entries r).2.capacity = r.capacity
  | [], r, h => ⟨h, fun _ _ hhandle => hhandle, rfl⟩
  | entry :: rest, r, h => by
    obtain ⟨hsound, hkeeps, hcapacity⟩ := h.tryRemember hinj entry.1 entry.2
    rw [ElementHandleRegistry.rememberEach]
    split
    · rename_i heq
      rw [heq] at hsound hkeeps hcapacity
      exact ⟨hsound, hkeeps, hcapacity⟩
    · rename_i r' heq
      rw [heq] at hsound hkeeps hcapacity
      obtain ⟨hsound', hkeeps', hcapacity'⟩ :=
        Sound.rememberEach hinj rest hsound
      split <;> rename_i heq' <;> rw [heq'] at hsound' hkeeps' hcapacity' <;>
        exact ⟨hsound', fun id handle hh => hkeeps' id handle (hkeeps id handle hh),
          hcapacity'.trans hcapacity⟩

/-! ## A batch -/

/-- The new runtime ids are counted once each, whatever the batch repeats. -/
theorem newRuntimeIds_spec (r : Registry E) (ids : List RuntimeId) :
    (r.newRuntimeIds ids).Nodup ∧
      ∀ id, id ∈ r.newRuntimeIds ids ↔ id ∈ ids ∧ r.handlesByRuntimeId.get? id = none := by
  induction ids using List.reverseRecOn with
  | nil => exact ⟨List.nodup_nil, fun id => by simp [newRuntimeIds]⟩
  | append_singleton ids last ih =>
    obtain ⟨hnodup, hmem⟩ := ih
    rw [newRuntimeIds, List.foldl_append, List.foldl_cons, List.foldl_nil, ← newRuntimeIds]
    by_cases hknown : r.handlesByRuntimeId.has last = true ∨ last ∈ r.newRuntimeIds ids
    · rw [if_pos hknown]
      refine ⟨hnodup, fun id => ?_⟩
      rw [hmem id, List.mem_append, List.mem_singleton]
      constructor
      · intro hid
        exact ⟨.inl hid.1, hid.2⟩
      · intro hid
        rcases hid.1 with hin | heq
        · exact ⟨hin, hid.2⟩
        · rcases hknown with hhas | hin
          · rw [← heq, OrderedMap.has_eq_true_iff, hid.2] at hhas
            obtain ⟨_, hnone⟩ := hhas
            cases hnone
          · exact heq ▸ (hmem last).mp hin
    · rw [if_neg hknown]
      rw [not_or, Bool.not_eq_true, OrderedMap.has_eq_false_iff] at hknown
      refine ⟨List.nodup_append.mpr ⟨hnodup, List.nodup_singleton last, ?_⟩, fun id => ?_⟩
      · intro a ha b hb heq
        rw [List.mem_singleton.mp hb] at heq
        exact hknown.2 (heq ▸ ha)
      · rw [List.mem_append, hmem id, List.mem_singleton, List.mem_append, List.mem_singleton]
        constructor
        · intro hid
          rcases hid with hid | heq
          · exact ⟨.inl hid.1, hid.2⟩
          · exact ⟨.inr heq, heq ▸ hknown.1⟩
        · intro hid
          rcases hid.1 with hin | heq
          · exact .inl ⟨hin, hid.2⟩
          · exact .inr heq

theorem newRuntimeIds_cons_known {id : RuntimeId} {handle : String}
    (hid : r.handlesByRuntimeId.get? id = some handle) (ids : List RuntimeId) :
    r.newRuntimeIds (id :: ids) = r.newRuntimeIds ids := by
  have hhas : r.handlesByRuntimeId.has id = true := OrderedMap.has_eq_true_iff.mpr ⟨handle, hid⟩
  simp [newRuntimeIds, hhas]

/-- Once it has its handle, a new runtime id is no longer counted. -/
theorem newRuntimeIds_cons_new (newGuid : Guids) {id : RuntimeId} (hid : r.handlesByRuntimeId.get? id = none)
    (element : E) (ids : List RuntimeId) :
    (r.newRuntimeIds (id :: ids)).length =
      ((inserted newGuid r id element).newRuntimeIds ids).length + 1 := by
  obtain ⟨hnodup, hmem⟩ := newRuntimeIds_spec r (id :: ids)
  obtain ⟨hnodup', hmem'⟩ := newRuntimeIds_spec (inserted newGuid r id element) ids
  have hnot : id ∉ (inserted newGuid r id element).newRuntimeIds ids := by
    intro hin
    have hnone := ((hmem' id).mp hin).2
    simp [inserted] at hnone
  have hperm : (r.newRuntimeIds (id :: ids)).Perm
      (id :: (inserted newGuid r id element).newRuntimeIds ids) := by
    rw [List.perm_ext_iff_of_nodup hnodup (List.nodup_cons.mpr ⟨hnot, hnodup'⟩)]
    intro id'
    rw [hmem id', List.mem_cons, List.mem_cons, hmem' id']
    by_cases heq : id' = id
    · simp [heq, hid]
    · simp [heq, inserted]
  simpa using hperm.length_eq

/-- An entry that passed its checks, as it was given. -/
def given (entry : RuntimeId × E) : Entry E := (some entry.1, some entry.2)

theorem tryRemember_given {entry : RuntimeId × E} (hne : entry.1 ≠ []) :
    r.tryRemember newGuid (given entry).1 (given entry).2 = r.remember newGuid entry := by
  have hlen : entry.1.length ≠ 0 := fun h => hne (List.length_eq_zero_iff.mp h)
  simp [Registry.tryRemember, given, checkEntry, notNull, hlen, bind, Except.bind]

theorem checkEntry_ok {entry : Entry E} {names : String × String} {checked : RuntimeId × E}
    (h : checkEntry entry.1 entry.2 names = .ok checked) :
    entry = given checked ∧ checked.1 ≠ [] := by
  obtain ⟨runtimeId, element⟩ := entry
  cases runtimeId with
  | none => simp [checkEntry, notNull, bind, Except.bind] at h
  | some runtimeId =>
    cases element with
    | none => simp [checkEntry, notNull, bind, Except.bind] at h
    | some element =>
      by_cases hlen : runtimeId = []
      · simp [checkEntry, notNull, bind, Except.bind, hlen] at h
      · simp [checkEntry, notNull, bind, Except.bind, hlen] at h
        rw [← h]
        exact ⟨rfl, hlen⟩

theorem normalize_ok : ∀ {entries : List (Entry E)} {normalized : List (RuntimeId × E)},
    normalize entries = .ok normalized →
      entries = normalized.map given ∧ ∀ entry ∈ normalized, entry.1 ≠ []
  | [], normalized, h => by
    cases h
    exact ⟨rfl, nofun⟩
  | entry :: rest, normalized, h => by
    rw [Registry.normalize, List.mapM_cons] at h
    cases hentry : checkEntry entry.1 entry.2 ("entry.RuntimeId", "entry.Element") with
    | error e => simp [hentry, bind, Except.bind] at h
    | ok checked =>
      cases hrest : normalize rest with
      | error e =>
        rw [Registry.normalize] at hrest
        simp [hentry, hrest, bind, Except.bind] at h
      | ok others =>
        obtain ⟨hothers, hne⟩ := normalize_ok hrest
        rw [Registry.normalize] at hrest
        simp [hentry, hrest, bind, Except.bind, pure, Except.pure] at h
        obtain ⟨hgiven, hchecked⟩ := checkEntry_ok hentry
        rw [← h, hgiven, hothers]
        refine ⟨rfl, fun other hother => ?_⟩
        rcases List.mem_cons.mp hother with heq | hin
        · exact heq ▸ hchecked
        · exact hne other hin

/-- With room for its new runtime ids, the loop of a batch does what its entries do in order. -/
theorem rememberAll_eq (hinj : Function.Injective newGuid) :
    ∀ {entries : List (RuntimeId × E)} {r : Registry E}, Sound newGuid r →
      (∀ entry ∈ entries, entry.1 ≠ []) →
      r.count + (r.newRuntimeIds (entries.map Prod.fst)).length ≤ r.capacity →
      ∃ handles r', rememberAll newGuid entries r = (.ok handles, r') ∧
        rememberEach newGuid (entries.map given) r = (.ok (handles.map (true, ·)), r')
  | [], r, _, _, _ => ⟨[], r, rfl, rfl⟩
  | entry :: rest, r, h, hne, hroom => by
    have hrest : ∀ other ∈ rest, other.1 ≠ [] :=
      fun other hother => hne other (List.mem_cons_of_mem _ hother)
    rw [rememberAll, List.map_cons, ElementHandleRegistry.rememberEach,
      tryRemember_given (hne entry List.mem_cons_self), Registry.remember]
    cases hid : r.handlesByRuntimeId.get? entry.1 with
    | some handle =>
      rw [List.map_cons, newRuntimeIds_cons_known hid] at hroom
      have hsound := h.replaced hid entry.2
      obtain ⟨handles, r', hall, heach⟩ := rememberAll_eq hinj hsound hrest (by
        rw [h.replaced_count hid]
        exact hroom)
      simp only [hall, heach]
      exact ⟨handle :: handles, r', rfl, rfl⟩
    | none =>
      rw [List.map_cons, newRuntimeIds_cons_new newGuid hid entry.2] at hroom
      have hspace : r.count < r.capacity := by omega
      have hsound := h.inserted hinj hid hspace entry.2
      obtain ⟨handles, r', hall, heach⟩ := rememberAll_eq hinj hsound hrest (by
        rw [h.inserted_count hinj]
        show _ ≤ r.capacity
        omega)
      simp only [h.insert hinj hid, hall, ge_iff_le, Nat.not_le.mpr hspace, if_false, heach]
      exact ⟨newGuid r.guids :: handles, r', rfl, rfl⟩

/-- A batch is refused as a whole or remembered as a whole. -/
theorem tryRememberBatch_cases (h : Sound newGuid r) (hinj : Function.Injective newGuid)
    (entries : Option (List (Entry E))) :
    ((r.tryRememberBatch newGuid entries).2 = r ∧
      ∀ handles, (r.tryRememberBatch newGuid entries).1 ≠ .ok (true, handles)) ∨
    ∃ es handles r', entries = some es ∧
      r.tryRememberBatch newGuid entries = (.ok (true, handles), r') ∧
      rememberEach newGuid es r = (.ok (handles.map (true, ·)), r') := by
  cases entries with
  | none => exact .inl ⟨rfl, nofun⟩
  | some entries =>
    cases hnormalized : normalize entries with
    | error e =>
      refine .inl ?_
      simp only [Registry.tryRememberBatch, notNull, hnormalized]
      exact ⟨trivial, nofun⟩
    | ok normalized =>
      obtain ⟨hgiven, hne⟩ := normalize_ok hnormalized
      by_cases hroom : r.count + (r.newRuntimeIds (normalized.map Prod.fst)).length ≤ r.capacity
      · obtain ⟨handles, r', hall, heach⟩ := rememberAll_eq hinj h hne hroom
        refine .inr ⟨entries, handles, r', rfl, ?_, hgiven ▸ heach⟩
        simp only [Registry.tryRememberBatch, notNull, hnormalized, gt_iff_lt,
          Nat.not_lt.mpr hroom, if_false, hall]
      · refine .inl ?_
        simp only [Registry.tryRememberBatch, notNull, hnormalized, gt_iff_lt,
          Nat.not_le.mp hroom, if_true]
        exact ⟨trivial, fun handles heq => by simp at heq⟩

/-! ## Every sequence of calls -/

/-- What one call does: an entry or a batch loses no handle, and clearing empties the maps. -/
theorem next_sound (h : Sound newGuid r) (hinj : Function.Injective newGuid) (call : Call E)
    (hnext : next newGuid r call = some r') :
    Sound newGuid r' ∧ r'.capacity = r.capacity ∧ (call ≠ .clear → Keeps r r') := by
  cases call with
  | tryRemember runtimeId element =>
    obtain ⟨hsound, hkeeps, hcapacity⟩ := h.tryRemember hinj runtimeId element
    cases hnext
    exact ⟨hsound, hcapacity, fun _ => hkeeps⟩
  | tryRememberBatch entries =>
    cases hnext
    rcases tryRememberBatch_cases h hinj entries with ⟨heq, _⟩ | ⟨es, _, r', _, heq, heach⟩
    · rw [heq]
      exact ⟨h, rfl, fun _ _ _ hhandle => hhandle⟩
    · obtain ⟨hsound, hkeeps, hcapacity⟩ := Sound.rememberEach hinj es h
      rw [heach] at hsound hkeeps hcapacity
      rw [heq]
      exact ⟨hsound, hcapacity, fun _ => hkeeps⟩
  | clear =>
    cases hnext
    exact ⟨sound_clear r, rfl, fun hne => absurd rfl hne⟩

theorem sound_invariant (hinj : Function.Injective newGuid) {capacity : Int} {r₀ : Registry E}
    (hcreate : create capacity = .ok r₀) :
    (registry newGuid r₀).Invariant fun r => Sound newGuid r ∧ r.capacity = capacity where
  init r hr := by
    rw [show r = r₀ from hr]
    rw [create] at hcreate
    split at hcreate
    · cases hcreate
    · rename_i hpos
      rw [← Except.ok.inj hcreate]
      exact ⟨⟨rfl, rfl, nofun, Nat.zero_le _⟩, Int.toNat_of_nonneg (by omega)⟩
  step r call r' _ h hnext := by
    obtain ⟨hsound, hcapacity, _⟩ := next_sound h.1 hinj call hnext
    exact ⟨hsound, hcapacity ▸ h.2⟩

/-- Without a `Clear`, no runtime id loses its handle. -/
theorem keeps_of_exec (hinj : Function.Injective newGuid) {capacity : Int} {r₀ : Registry E}
    (hcreate : create capacity = .ok r₀) (hr : (registry newGuid r₀).Reachable r)
    {calls : List (Call E)} (he : (registry newGuid r₀).Exec r calls r')
    (hcalls : .clear ∉ calls) : Keeps r r' := by
  induction he with
  | nil => exact fun _ _ hhandle => hhandle
  | @snoc t u calls call he hs ih =>
    rw [List.mem_append, not_or, List.mem_singleton] at hcalls
    have hsound := ((sound_invariant hinj hcreate).reachable (hr.exec he)).1
    obtain ⟨_, _, hkeeps⟩ := next_sound hsound hinj call hs
    exact fun id handle hhandle => hkeeps (Ne.symm hcalls.2) id handle
      (ih hcalls.1 id handle hhandle)

/-- What a registry promises its callers. -/
structure Promises (newGuid : Guids) (capacity : Int) (r₀ r : Registry E) : Prop where
  bijection : ∀ id handle, r.handlesByRuntimeId.get? id = some handle ↔
    r.runtimeIdsByHandle.get? handle = some id
  elements : ∀ handle, r.elementsByHandle.has handle = r.runtimeIdsByHandle.has handle
  sizes : r.handlesByRuntimeId.size = r.count ∧ r.runtimeIdsByHandle.size = r.count
  bounded : r.count ≤ capacity
  kept : ∀ calls r', (registry newGuid r₀).Exec r calls r' → .clear ∉ calls →
    ∀ id handle, r.handlesByRuntimeId.get? id = some handle →
      r'.handlesByRuntimeId.get? id = some handle
  /-- A batch that throws or returns false leaves the registry as it was. -/
  refused : ∀ entries, (∀ handles, (r.tryRememberBatch newGuid entries).1 ≠ .ok (true, handles)) →
    (r.tryRememberBatch newGuid entries).2 = r
  /-- A batch that returns true did what its entries do one by one. -/
  accepted : ∀ entries handles r',
    r.tryRememberBatch newGuid entries = (.ok (true, handles), r') →
    ∃ es, entries = some es ∧ rememberEach newGuid es r = (.ok (handles.map (true, ·)), r')

/-- The handles are a bounded bijection, and a batch is atomic. -/
theorem registry_bijection (newGuid : Guids) (hinj : Function.Injective newGuid)
    (capacity : Int) (r₀ : Registry E) (hcreate : create capacity = .ok r₀) (r : Registry E)
    (hr : (registry newGuid r₀).Reachable r) : Promises newGuid capacity r₀ r := by
  obtain ⟨h, hcapacity⟩ := (sound_invariant hinj hcreate).reachable hr
  have hcount : r.runtimeIdsByHandle.size = r.count := by
    have hlen := congrArg List.length h.elements
    simp only [OrderedMap.keys, List.length_map] at hlen
    exact hlen.symm
  refine ⟨h.handle, fun handle => ?_, ⟨?_, hcount⟩, ?_, fun calls r' he hcalls =>
    keeps_of_exec hinj hcreate hr he hcalls, fun entries hno => ?_, fun entries handles r' heq => ?_⟩
  · rw [Bool.eq_iff_iff, OrderedMap.has_eq_true_iff, OrderedMap.has_eq_true_iff,
      ← OrderedMap.mem_keys_iff, ← OrderedMap.mem_keys_iff, h.elements]
  · rw [← hcount, OrderedMap.size, OrderedMap.size, h.runtimeIds, List.length_map]
  · rw [← hcapacity]
    exact Int.ofNat_le.mpr h.bounded
  · rcases tryRememberBatch_cases h hinj entries with ⟨heq, _⟩ | ⟨_, handles, _, _, heq, _⟩
    · exact heq
    · exact absurd (congrArg Prod.fst heq) (hno handles)
  · rcases tryRememberBatch_cases h hinj entries with ⟨_, hno⟩ | ⟨es, _, _, hes, heq', heach⟩
    · exact absurd (congrArg Prod.fst heq) (hno handles)
    · rw [heq] at heq'
      obtain ⟨hreply, rfl⟩ := Prod.mk.inj heq'
      obtain ⟨_, rfl⟩ := Prod.mk.inj (Except.ok.inj hreply)
      exact ⟨es, hes, heach⟩

/-- Distinct ids for a demonstration. -/
def demoGuids (n : Nat) : String := .ofList (List.replicate (n + 1) 'f')

theorem demoGuids_injective : Function.Injective demoGuids := by
  intro m n h
  have hlists := congrArg String.length h
  simpa [demoGuids] using hlists

def demoStart : Registry Nat := ⟨3, .empty, .empty, .empty, 0⟩

/-- A known runtime id, one repeated within a batch, and a batch that finds no room. -/
def demoCalls : List (Call Nat) :=
  [.tryRemember (some [42, 1]) (some 10),
   .tryRememberBatch (some [(some [42, 2], some 20), (some [42, 1], some 11),
     (some [42, 2], some 21)]),
   .tryRememberBatch (some [(some [42, 3], some 30), (some [42, 4], some 40)])]

theorem demo_bijection :
    let r := (System.replay (next demoGuids) demoStart demoCalls).get (by decide)
    r.handlesByRuntimeId.entries = [([42, 1], "f"), ([42, 2], "ff")] ∧
      r.elementsByHandle.entries = [("f", 11), ("ff", 21)] ∧
      Promises demoGuids 3 demoStart r :=
  ⟨by decide, by decide, registry_bijection demoGuids demoGuids_injective 3 demoStart rfl _
    (System.reachable_of_replay (Option.some_get _).symm)⟩

end SurfaceLoom.Native.ElementHandleRegistry
