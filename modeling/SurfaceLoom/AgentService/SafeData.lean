import Mathlib.Algebra.Order.BigOperators.Group.List
import Mathlib.Data.List.Perm.Subperm
import Mathlib.Data.Rat.Defs

/-! # Safe data

The bounded copy that every value from outside passes through. A JavaScript
value is a tree here; a leaf `refused` stands for whatever the copy throws on
at sight (an accessor, a proxy, a shared reference, a number that is not
finite, a function). Numbers identify `-0` with `0`. -/
namespace SurfaceLoom.Service.SafeData

inductive SafeDataErrorCode
  | accessor
  | budget
  | cycleOrSharedReference
  | invalidNumber
  | proxy
  | unsupportedData
  deriving DecidableEq, Repr

inductive JsValue
  | null
  | boolean (value : Bool)
  | number (value : ℚ)
  | string (value : String)
  | array (items : List JsValue)
  | object (fields : List (String × JsValue))
  | refused (code : SafeDataErrorCode)

abbrev Fields := List (String × JsValue)

structure SafeDataError where
  code : SafeDataErrorCode
  path : String
  deriving DecidableEq

def maxDepth : Nat := 64
def maxNodes : Nat := 10000
def maxStringBytes : Nat := 1048576
def maxCollectionEntries : Nat := 1024

/-! ## The copy -/

structure CloneState where
  nodes : Nat
  stringBytes : Nat
  deriving DecidableEq

def spendNode (state : CloneState) (path : String) : Except SafeDataError CloneState :=
  if state.nodes + 1 > maxNodes then .error ⟨.budget, path⟩
  else .ok { state with nodes := state.nodes + 1 }

def spendString (state : CloneState) (value path : String) : Except SafeDataError CloneState :=
  if state.stringBytes + value.utf8ByteSize > maxStringBytes then .error ⟨.budget, path⟩
  else .ok { state with stringBytes := state.stringBytes + value.utf8ByteSize }

mutual

def clone (value : JsValue) (state : CloneState) (path : String) (depth : Nat) :
    Except SafeDataError (JsValue × CloneState) := do
  let state ← spendNode state path
  if depth > maxDepth then .error ⟨.budget, path⟩
  else match value with
    | .null => return (.null, state)
    | .boolean b => return (.boolean b, state)
    | .number q => return (.number q, state)
    | .string s => return (.string s, ← spendString state s path)
    | .refused code => .error ⟨code, path⟩
    | .array items =>
      if items.length > maxCollectionEntries then .error ⟨.budget, path⟩
      else do
        let (items, state) ← cloneItems items 0 state path depth
        return (.array items, state)
    | .object fields =>
      if fields.length > maxCollectionEntries then .error ⟨.budget, path⟩
      else do
        let (fields, state) ← cloneFields fields state path depth
        return (.object fields, state)

def cloneItems (items : List JsValue) (index : Nat) (state : CloneState) (path : String)
    (depth : Nat) : Except SafeDataError (List JsValue × CloneState) :=
  match items with
  | [] => return ([], state)
  | item :: rest => do
    let (item, state) ← clone item state (path ++ "[" ++ toString index ++ "]") (depth + 1)
    let (rest, state) ← cloneItems rest (index + 1) state path depth
    return (item :: rest, state)

def cloneFields (fields : Fields) (state : CloneState) (path : String) (depth : Nat) :
    Except SafeDataError (Fields × CloneState) :=
  match fields with
  | [] => return ([], state)
  | (key, item) :: rest => do
    let state ← spendString state key (path ++ " key")
    let (item, state) ← clone item state (path ++ "." ++ key) (depth + 1)
    let (rest, state) ← cloneFields rest state path depth
    return ((key, item) :: rest, state)

end

def cloneSafeData (value : JsValue) : Except SafeDataError JsValue :=
  (clone value ⟨0, 0⟩ "value" 0).map Prod.fst

/-! ## What the copy accepts -/

mutual

def nodeCount : JsValue → Nat
  | .array items => 1 + itemsNodeCount items
  | .object fields => 1 + fieldsNodeCount fields
  | _ => 1

def itemsNodeCount : List JsValue → Nat
  | [] => 0
  | item :: rest => nodeCount item + itemsNodeCount rest

def fieldsNodeCount : Fields → Nat
  | [] => 0
  | (_, item) :: rest => nodeCount item + fieldsNodeCount rest

end

mutual

def stringCost : JsValue → Nat
  | .string s => s.utf8ByteSize
  | .array items => itemsStringCost items
  | .object fields => fieldsStringCost fields
  | _ => 0

def itemsStringCost : List JsValue → Nat
  | [] => 0
  | item :: rest => stringCost item + itemsStringCost rest

def fieldsStringCost : Fields → Nat
  | [] => 0
  | (key, item) :: rest => key.utf8ByteSize + stringCost item + fieldsStringCost rest

end

mutual

/-- No refused leaf, and depth and widths within their budgets. -/
def Plain (value : JsValue) (depth : Nat) : Prop :=
  depth ≤ maxDepth ∧ match value with
    | .refused _ => False
    | .array items => items.length ≤ maxCollectionEntries ∧ ItemsPlain items depth
    | .object fields => fields.length ≤ maxCollectionEntries ∧ FieldsPlain fields depth
    | _ => True

def ItemsPlain (items : List JsValue) (depth : Nat) : Prop :=
  match items with
  | [] => True
  | item :: rest => Plain item (depth + 1) ∧ ItemsPlain rest depth

def FieldsPlain (fields : Fields) (depth : Nat) : Prop :=
  match fields with
  | [] => True
  | (_, item) :: rest => Plain item (depth + 1) ∧ FieldsPlain rest depth

end

/-- Within every budget of the copy. -/
structure Safe (value : JsValue) : Prop where
  plain : Plain value 0
  nodes : nodeCount value ≤ maxNodes
  strings : stringCost value ≤ maxStringBytes

/-! ## The copy is exactly that -/

def CloneState.charge (state : CloneState) (nodes stringBytes : Nat) : CloneState :=
  ⟨state.nodes + nodes, state.stringBytes + stringBytes⟩

def CloneState.Within (state : CloneState) : Prop :=
  state.nodes ≤ maxNodes ∧ state.stringBytes ≤ maxStringBytes

theorem CloneState.Within.of_charge {state : CloneState} {n b : Nat}
    (h : (state.charge n b).Within) : state.Within :=
  ⟨le_trans (Nat.le_add_right _ _) h.1, le_trans (Nat.le_add_right _ _) h.2⟩

theorem CloneState.charge_charge (state : CloneState) (n b n' b' : Nat) :
    (state.charge n b).charge n' b' = state.charge (n + n') (b + b') := by
  simp [charge, Nat.add_assoc]

@[simp] theorem bind_eq_ok {ε α β : Type} {x : Except ε α} {f : α → Except ε β} {b : β} :
    (x >>= f) = .ok b ↔ ∃ a, x = .ok a ∧ f a = .ok b := by
  cases x with
  | error e => simp [bind, Except.bind]
  | ok a => simp [bind, Except.bind]

@[simp] theorem pure_eq_ok {ε α : Type} {a b : α} : (pure a : Except ε α) = .ok b ↔ a = b := by
  simp [pure, Except.pure]

theorem spendNode_ok {state state' : CloneState} {path : String} :
    spendNode state path = .ok state' ↔
      state' = state.charge 1 0 ∧ state.nodes + 1 ≤ maxNodes := by
  unfold spendNode CloneState.charge
  split
  · rename_i h
    simp [Nat.not_le.mpr h]
  · rename_i h
    simp [Nat.not_lt.mp h, eq_comm]

theorem spendString_ok {state state' : CloneState} {value path : String} :
    spendString state value path = .ok state' ↔
      state' = state.charge 0 value.utf8ByteSize ∧
        state.stringBytes + value.utf8ByteSize ≤ maxStringBytes := by
  unfold spendString CloneState.charge
  split
  · rename_i h
    simp [Nat.not_le.mpr h]
  · rename_i h
    simp [Nat.not_lt.mp h, eq_comm]

mutual

/-- A copy that succeeds returns the value itself, charged to the budgets. -/
theorem clone_ok (value : JsValue) {state : CloneState} {path : String} {depth : Nat}
    (hs : state.Within) {r : JsValue × CloneState} :
    clone value state path depth = .ok r ↔
      r = (value, state.charge (nodeCount value) (stringCost value)) ∧ Plain value depth ∧
        r.2.Within := by
  unfold clone Plain nodeCount stringCost
  simp only [bind_eq_ok, spendNode_ok]
  constructor
  · intro h
    obtain ⟨state₁, ⟨rfl, hnode⟩, h⟩ := h
    split at h
    · cases h
    · rename_i hdepth
      have hd : depth ≤ maxDepth := Nat.not_lt.mp hdepth
      have hw : (state.charge 1 0).Within := ⟨hnode, hs.2⟩
      cases value with
      | null | boolean | number =>
        simp only [pure_eq_ok] at h
        subst h
        exact ⟨rfl, ⟨hd, trivial⟩, hw⟩
      | string text =>
        simp only [bind_eq_ok, spendString_ok, pure_eq_ok] at h
        obtain ⟨state₂, ⟨rfl, htext⟩, rfl⟩ := h
        refine ⟨?_, ⟨hd, trivial⟩, hw.1, htext⟩
        rw [CloneState.charge_charge, Nat.zero_add]
      | refused code => cases h
      | array items =>
        simp only at h
        split at h
        · cases h
        · rename_i hwidth
          simp only [bind_eq_ok, pure_eq_ok] at h
          obtain ⟨⟨items', state₂⟩, hitems, rfl⟩ := h
          obtain ⟨heq, hplain, hin⟩ := (cloneItems_ok items hw).mp hitems
          cases heq
          refine ⟨?_, ⟨hd, Nat.not_lt.mp hwidth, hplain⟩, hin⟩
          rw [CloneState.charge_charge, Nat.zero_add]
      | object fields =>
        simp only at h
        split at h
        · cases h
        · rename_i hwidth
          simp only [bind_eq_ok, pure_eq_ok] at h
          obtain ⟨⟨fields', state₂⟩, hfields, rfl⟩ := h
          obtain ⟨heq, hplain, hin⟩ := (cloneFields_ok fields hw).mp hfields
          cases heq
          refine ⟨?_, ⟨hd, Nat.not_lt.mp hwidth, hplain⟩, hin⟩
          rw [CloneState.charge_charge, Nat.zero_add]
  · intro h
    obtain ⟨rfl, ⟨hd, hplain⟩, hin⟩ := h
    have hnode : state.nodes + 1 ≤ maxNodes := by
      refine le_trans (Nat.add_le_add_left ?_ _) hin.1
      cases value <;> simp
    have hw : (state.charge 1 0).Within := ⟨hnode, hs.2⟩
    refine ⟨_, ⟨rfl, hnode⟩, ?_⟩
    rw [if_neg (Nat.not_lt.mpr hd)]
    cases value with
    | null | boolean | number => rfl
    | string text =>
      simp only [bind_eq_ok, spendString_ok, pure_eq_ok]
      refine ⟨_, ⟨rfl, hin.2⟩, ?_⟩
      rw [CloneState.charge_charge, Nat.zero_add]
    | refused code => exact hplain.elim
    | array items =>
      obtain ⟨hwidth, hitems⟩ := hplain
      simp only [if_neg (Nat.not_lt.mpr hwidth), bind_eq_ok, pure_eq_ok]
      have hin' : ((state.charge 1 0).charge (itemsNodeCount items)
          (itemsStringCost items)).Within := by
        rw [CloneState.charge_charge, Nat.zero_add]
        exact hin
      refine ⟨_, (cloneItems_ok items hw).mpr ⟨rfl, hitems, hin'⟩, ?_⟩
      rw [CloneState.charge_charge, Nat.zero_add]
    | object fields =>
      obtain ⟨hwidth, hfields⟩ := hplain
      simp only [if_neg (Nat.not_lt.mpr hwidth), bind_eq_ok, pure_eq_ok]
      have hin' : ((state.charge 1 0).charge (fieldsNodeCount fields)
          (fieldsStringCost fields)).Within := by
        rw [CloneState.charge_charge, Nat.zero_add]
        exact hin
      refine ⟨_, (cloneFields_ok fields hw).mpr ⟨rfl, hfields, hin'⟩, ?_⟩
      rw [CloneState.charge_charge, Nat.zero_add]

theorem cloneItems_ok (items : List JsValue) {index : Nat} {state : CloneState} {path : String}
    {depth : Nat} (hs : state.Within) {r : List JsValue × CloneState} :
    cloneItems items index state path depth = .ok r ↔
      r = (items, state.charge (itemsNodeCount items) (itemsStringCost items)) ∧
        ItemsPlain items depth ∧ r.2.Within := by
  cases items with
  | nil =>
    unfold cloneItems ItemsPlain itemsNodeCount itemsStringCost
    simp only [pure_eq_ok]
    constructor
    · intro h
      subst h
      exact ⟨rfl, trivial, hs⟩
    · intro h
      exact h.1.symm
  | cons item rest =>
    unfold cloneItems ItemsPlain itemsNodeCount itemsStringCost
    simp only [bind_eq_ok, pure_eq_ok]
    constructor
    · intro h
      obtain ⟨⟨item', state₁⟩, hitem, ⟨rest', state₂⟩, hrest, rfl⟩ := h
      obtain ⟨heq, hplain, hin⟩ := (clone_ok item hs).mp hitem
      cases heq
      obtain ⟨heq, hrestPlain, hin'⟩ := (cloneItems_ok rest hin).mp hrest
      cases heq
      refine ⟨?_, ⟨hplain, hrestPlain⟩, hin'⟩
      rw [CloneState.charge_charge]
    · intro h
      obtain ⟨rfl, ⟨hplain, hrestPlain⟩, hin⟩ := h
      rw [← CloneState.charge_charge] at hin
      refine ⟨_, (clone_ok item hs).mpr ⟨rfl, hplain, hin.of_charge⟩, _,
        (cloneItems_ok rest hin.of_charge).mpr ⟨rfl, hrestPlain, hin⟩, ?_⟩
      rw [CloneState.charge_charge]

theorem cloneFields_ok (fields : Fields) {state : CloneState} {path : String} {depth : Nat}
    (hs : state.Within) {r : Fields × CloneState} :
    cloneFields fields state path depth = .ok r ↔
      r = (fields, state.charge (fieldsNodeCount fields) (fieldsStringCost fields)) ∧
        FieldsPlain fields depth ∧ r.2.Within := by
  match fields with
  | [] =>
    unfold cloneFields FieldsPlain fieldsNodeCount fieldsStringCost
    simp only [pure_eq_ok]
    constructor
    · intro h
      subst h
      exact ⟨rfl, trivial, hs⟩
    · intro h
      exact h.1.symm
  | (key, item) :: rest =>
    unfold cloneFields FieldsPlain fieldsNodeCount fieldsStringCost
    simp only [bind_eq_ok, pure_eq_ok, spendString_ok]
    have hcost : ∀ n b, (state.charge 0 key.utf8ByteSize).charge n b =
        state.charge n (key.utf8ByteSize + b) := by
      intro n b
      rw [CloneState.charge_charge, Nat.zero_add]
    constructor
    · intro h
      obtain ⟨state₀, ⟨rfl, hkey⟩, ⟨item', state₁⟩, hitem, ⟨rest', state₂⟩, hrest, rfl⟩ := h
      have hcharged : (state.charge 0 key.utf8ByteSize).Within := ⟨hs.1, hkey⟩
      obtain ⟨heq, hplain, hin⟩ := (clone_ok item hcharged).mp hitem
      cases heq
      obtain ⟨heq, hrestPlain, hin'⟩ := (cloneFields_ok rest hin).mp hrest
      cases heq
      refine ⟨?_, ⟨hplain, hrestPlain⟩, hin'⟩
      rw [hcost, CloneState.charge_charge]
    · intro h
      obtain ⟨rfl, ⟨hplain, hrestPlain⟩, hin⟩ := h
      rw [← CloneState.charge_charge, ← hcost] at hin
      have hkey : (state.charge 0 key.utf8ByteSize).Within := hin.of_charge.of_charge
      refine ⟨_, ⟨rfl, hkey.2⟩, _, (clone_ok item hkey).mpr ⟨rfl, hplain, hin.of_charge⟩, _,
        (cloneFields_ok rest hin.of_charge).mpr ⟨rfl, hrestPlain, hin⟩, ?_⟩
      rw [hcost, CloneState.charge_charge]

end

/-- The copy of a safe value is the value; nothing else has a copy. -/
theorem cloneSafeData_ok {value copy : JsValue} :
    cloneSafeData value = .ok copy ↔ copy = value ∧ Safe value := by
  have hs : CloneState.Within ⟨0, 0⟩ := ⟨Nat.zero_le _, Nat.zero_le _⟩
  unfold cloneSafeData
  constructor
  · intro h
    cases hc : clone value ⟨0, 0⟩ "value" 0 with
    | error e =>
      rw [hc] at h
      cases h
    | ok r =>
      rw [hc] at h
      obtain ⟨rfl, hplain, hin⟩ := (clone_ok value hs).mp hc
      cases h
      refine ⟨rfl, hplain, ?_, ?_⟩
      · simpa [CloneState.charge] using hin.1
      · simpa [CloneState.charge] using hin.2
  · intro h
    obtain ⟨rfl, hplain, hnodes, hstrings⟩ := h
    rw [(clone_ok copy hs).mpr ⟨rfl, hplain, ?_⟩]
    · rfl
    · exact ⟨by simpa [CloneState.charge] using hnodes, by simpa [CloneState.charge] using hstrings⟩

/-! ## Smaller values -/

/-- `w` costs the copy no more than `v` does. -/
structure Smaller (w v : JsValue) : Prop where
  nodes : nodeCount w ≤ nodeCount v
  strings : stringCost w ≤ stringCost v
  plain : ∀ depth, Plain v depth → Plain w depth

theorem Smaller.refl (v : JsValue) : Smaller v v := ⟨le_refl _, le_refl _, fun _ h => h⟩

theorem Safe.smaller {v w : JsValue} (h : Safe v) (hs : Smaller w v) : Safe w :=
  ⟨hs.plain 0 h.plain, le_trans hs.nodes h.nodes, le_trans hs.strings h.strings⟩

theorem fieldsNodeCount_append (fields rest : Fields) :
    fieldsNodeCount (fields ++ rest) = fieldsNodeCount fields + fieldsNodeCount rest := by
  induction fields with
  | nil => simp [fieldsNodeCount]
  | cons e fields ih => simp [fieldsNodeCount, ih, Nat.add_assoc]

theorem fieldsStringCost_append (fields rest : Fields) :
    fieldsStringCost (fields ++ rest) = fieldsStringCost fields + fieldsStringCost rest := by
  induction fields with
  | nil => simp [fieldsStringCost]
  | cons e fields ih => simp [fieldsStringCost, ih, Nat.add_assoc]

theorem fieldsPlain_iff {fields : Fields} {depth : Nat} :
    FieldsPlain fields depth ↔ ∀ e ∈ fields, Plain e.2 (depth + 1) := by
  induction fields with
  | nil => simp [FieldsPlain]
  | cons e fields ih => simp [FieldsPlain, ih]

/-- What makes a list of fields cheaper, as `Smaller` for objects. -/
structure FewerFields (kept fields : Fields) : Prop where
  nodes : fieldsNodeCount kept ≤ fieldsNodeCount fields
  strings : fieldsStringCost kept ≤ fieldsStringCost fields
  width : kept.length ≤ fields.length
  plain : ∀ depth, FieldsPlain fields depth → FieldsPlain kept depth

/-- Dropping fields and shrinking others is cheaper. -/
theorem FewerFields.of_kept : ∀ {kept fields : Fields}, (kept.map Prod.fst).Nodup →
    (∀ key w, (key, w) ∈ kept → ∃ v, (key, v) ∈ fields ∧ Smaller w v) → FewerFields kept fields
  | [], fields, _, _ => ⟨Nat.zero_le _, Nat.zero_le _, Nat.zero_le _, fun _ _ => trivial⟩
  | (key, w) :: kept, fields, hnd, h => by
    rw [List.map_cons, List.nodup_cons] at hnd
    obtain ⟨v, hv, hsmall⟩ := h key w (List.mem_cons_self ..)
    obtain ⟨before, after, rfl⟩ := List.append_of_mem hv
    have hrest : ∀ key' w', (key', w') ∈ kept →
        ∃ v', (key', v') ∈ before ++ after ∧ Smaller w' v' := by
      intro key' w' hw'
      obtain ⟨v', hv', hs'⟩ := h key' w' (List.mem_cons_of_mem _ hw')
      have hne : key' ≠ key := fun heq => hnd.1 (List.mem_map.mpr ⟨_, hw', heq⟩)
      refine ⟨v', ?_, hs'⟩
      rcases List.mem_append.mp hv' with hv' | hv'
      · exact List.mem_append_left _ hv'
      · rcases List.mem_cons.mp hv' with heq | hv'
        · cases heq
          exact absurd rfl hne
        · exact List.mem_append_right _ hv'
    have ih := FewerFields.of_kept hnd.2 hrest
    have hnodes := ih.nodes
    have hstrings := ih.strings
    have hwidth := ih.width
    have hn := hsmall.nodes
    have hb := hsmall.strings
    rw [fieldsNodeCount_append] at hnodes
    rw [fieldsStringCost_append] at hstrings
    rw [List.length_append] at hwidth
    refine ⟨?_, ?_, ?_, fun depth hp => ?_⟩
    · rw [fieldsNodeCount_append]
      simp only [fieldsNodeCount]
      omega
    · rw [fieldsStringCost_append]
      simp only [fieldsStringCost]
      omega
    · simp only [List.length_append, List.length_cons]
      omega
    · rw [fieldsPlain_iff] at hp
      refine ⟨hsmall.plain _ (hp _ hv), ih.plain _ (fieldsPlain_iff.mpr fun e he => hp e ?_)⟩
      rcases List.mem_append.mp he with he | he
      · exact List.mem_append_left _ he
      · exact List.mem_append_right _ (List.mem_cons_of_mem _ he)

theorem Smaller.object {kept fields : Fields} (h : FewerFields kept fields) :
    Smaller (.object kept) (.object fields) := by
  have hnodes := h.nodes
  refine ⟨?_, h.strings, fun depth hp => ?_⟩
  · simp only [nodeCount]
    omega
  · simp only [Plain] at hp ⊢
    exact ⟨hp.1, le_trans h.width hp.2.1, h.plain _ hp.2.2⟩

/-- Items one by one. -/
theorem Smaller.array {kept items : List JsValue} (h : List.Forall₂ Smaller kept items) :
    Smaller (.array kept) (.array items) := by
  have hall : itemsNodeCount kept ≤ itemsNodeCount items ∧
      itemsStringCost kept ≤ itemsStringCost items ∧ kept.length = items.length ∧
      ∀ depth, ItemsPlain items depth → ItemsPlain kept depth := by
    induction h with
    | nil => exact ⟨le_refl _, le_refl _, rfl, fun _ h => h⟩
    | @cons w v kept items hwv hrest ih =>
      obtain ⟨hn, hb, hl, hp⟩ := ih
      have hn' := hwv.nodes
      have hb' := hwv.strings
      simp only [itemsNodeCount, itemsStringCost, List.length_cons]
      exact ⟨by omega, by omega, by omega, fun depth h => ⟨hwv.plain _ h.1, hp _ h.2⟩⟩
  obtain ⟨hn, hb, hl, hp⟩ := hall
  refine ⟨?_, hb, fun depth h => ?_⟩
  · simp only [nodeCount]
    omega
  · simp only [Plain] at h ⊢
    exact ⟨h.1, hl ▸ h.2.1, hp _ h.2.2⟩

/-! ## Reading one level -/

/-- The value of a property, `none` when it is undefined. -/
def get? (fields : Fields) (key : String) : Option JsValue := fields.lookup key

theorem mem_of_get? : ∀ {fields : Fields} {key : String} {v : JsValue},
    get? fields key = some v → (key, v) ∈ fields
  | [], _, _, h => nomatch h
  | (key', v') :: fields, key, v, h => by
    unfold get? at h
    rw [List.lookup_cons] at h
    split at h
    · rename_i heq
      cases h
      rw [beq_iff_eq.mp heq]
      exact List.mem_cons_self ..
    · have h : get? fields key = some v := h
      exact List.mem_cons_of_mem _ (mem_of_get? h)

@[simp] theorem get?_nil (key : String) : get? [] key = none := rfl

@[simp] theorem get?_cons (key' : String) (v : JsValue) (fields : Fields) (key : String) :
    get? ((key', v) :: fields) key = if key = key' then some v else get? fields key := by
  unfold get?
  rw [List.lookup_cons]
  by_cases h : key = key'
  · rw [if_pos h, beq_iff_eq.mpr h]
  · rw [if_neg h, beq_eq_false_iff_ne.mpr h]

@[simp] theorem get?_append (fields rest : Fields) (key : String) :
    get? (fields ++ rest) key = (get? fields key).or (get? rest key) := by
  induction fields with
  | nil => simp
  | cons e fields ih =>
    obtain ⟨key', v⟩ := e
    rw [List.cons_append, get?_cons, get?_cons, ih]
    split <;> rfl

/-- An object written with some of its properties undefined. -/
def defined (entries : List (String × Option JsValue)) : Fields :=
  entries.filterMap fun e => e.2.map (e.1, ·)

theorem defined_length_le (entries : List (String × Option JsValue)) :
    (defined entries).length ≤ entries.length :=
  List.length_filterMap_le _ _

theorem keys_defined_sublist (entries : List (String × Option JsValue)) :
    ((defined entries).map Prod.fst).Sublist (entries.map Prod.fst) := by
  induction entries with
  | nil => exact List.Sublist.slnil
  | cons e entries ih =>
    obtain ⟨key, value⟩ := e
    cases value with
    | none => exact ih.cons key
    | some v => exact ih.cons_cons key

theorem get?_defined {entries : List (String × Option JsValue)} {key : String}
    (hnd : (entries.map Prod.fst).Nodup) :
    get? (defined entries) key = (entries.lookup key).join := by
  induction entries with
  | nil => rfl
  | cons e entries ih =>
    obtain ⟨key', value⟩ := e
    rw [List.map_cons, List.nodup_cons] at hnd
    rw [List.lookup_cons]
    have hdefined : defined ((key', value) :: entries) =
        (value.map (key', ·)).toList ++ defined entries := by
      cases value <;> rfl
    rw [hdefined]
    by_cases heq : key = key'
    · subst heq
      rw [beq_self_eq_true]
      cases value with
      | some v => simp
      | none =>
        have hnone : get? (defined entries) key = none := by
          by_contra hsome
          obtain ⟨v, hv⟩ := Option.ne_none_iff_exists'.mp hsome
          refine hnd.1 ((keys_defined_sublist entries).mem ?_)
          exact List.mem_map.mpr ⟨_, mem_of_get? hv, rfl⟩
        simpa using hnone
    · rw [beq_eq_false_iff_ne.mpr heq, ← ih hnd.2]
      cases value with
      | some v => simp [heq]
      | none => simp

/-- Reading back what was written. -/
theorem get?_defined_of_mem {entries : List (String × Option JsValue)}
    (hnd : (entries.map Prod.fst).Nodup) {e : String × Option JsValue} (he : e ∈ entries) :
    get? (defined entries) e.1 = e.2 := by
  rw [get?_defined hnd]
  induction entries with
  | nil => cases he
  | cons e' entries ih =>
    rw [List.map_cons, List.nodup_cons] at hnd
    rw [List.lookup_cons]
    rcases List.mem_cons.mp he with rfl | he
    · simp
    · have hne : e.1 ≠ e'.1 := fun heq => hnd.1 (heq ▸ List.mem_map_of_mem he)
      rw [beq_eq_false_iff_ne.mpr hne]
      exact ih hnd.2 he

/-- An object whose properties come from those of another is smaller. -/
theorem FewerFields.defined {entries : List (String × Option JsValue)} {fields : Fields}
    (hnd : (entries.map Prod.fst).Nodup)
    (h : ∀ e ∈ entries, ∀ w, e.2 = some w → ∃ v, get? fields e.1 = some v ∧ Smaller w v) :
    FewerFields (SafeData.defined entries) fields := by
  refine FewerFields.of_kept ?_ fun key w hw => ?_
  · exact hnd.sublist (keys_defined_sublist entries)
  · obtain ⟨e, he, hew⟩ := List.mem_filterMap.mp hw
    obtain ⟨w', hw', heq⟩ := Option.map_eq_some_iff.mp hew
    cases heq
    obtain ⟨v, hv, hs⟩ := h e he w hw'
    exact ⟨v, mem_of_get? hv, hs⟩

def readSafeRecordEnvelope (input : Option JsValue) (path : String) :
    Except SafeDataError Fields :=
  match input with
  | some (.object fields) =>
    if fields.length > maxCollectionEntries then .error ⟨.budget, path⟩ else .ok fields
  | some (.refused code) => .error ⟨code, path⟩
  | _ => .error ⟨.unsupportedData, path⟩

def readSafeArrayEnvelope (input : Option JsValue) (path : String) :
    Except SafeDataError (List JsValue) :=
  match input with
  | some (.array items) =>
    if items.length > maxCollectionEntries then .error ⟨.budget, path⟩ else .ok items
  | some (.refused code) => .error ⟨code, path⟩
  | _ => .error ⟨.unsupportedData, path⟩

theorem readSafeRecordEnvelope_ok {input : Option JsValue} {path : String} {fields : Fields} :
    readSafeRecordEnvelope input path = .ok fields ↔
      input = some (.object fields) ∧ fields.length ≤ maxCollectionEntries := by
  unfold readSafeRecordEnvelope
  split
  · split
    · rename_i h
      simp only [reduceCtorEq, Option.some.injEq, JsValue.object.injEq, false_iff, not_and]
      intro heq
      subst heq
      exact Nat.not_le.mpr h
    · rename_i h
      simp only [Except.ok.injEq, Option.some.injEq, JsValue.object.injEq]
      constructor
      · intro heq
        subst heq
        exact ⟨rfl, Nat.not_lt.mp h⟩
      · exact fun h => h.1
  · simp
  · rename_i h _
    simp only [reduceCtorEq, false_iff, not_and]
    intro heq
    exact absurd heq (h _)

theorem readSafeArrayEnvelope_ok {input : Option JsValue} {path : String}
    {items : List JsValue} :
    readSafeArrayEnvelope input path = .ok items ↔
      input = some (.array items) ∧ items.length ≤ maxCollectionEntries := by
  unfold readSafeArrayEnvelope
  split
  · split
    · rename_i h
      simp only [reduceCtorEq, Option.some.injEq, JsValue.array.injEq, false_iff, not_and]
      intro heq
      subst heq
      exact Nat.not_le.mpr h
    · rename_i h
      simp only [Except.ok.injEq, Option.some.injEq, JsValue.array.injEq]
      constructor
      · intro heq
        subst heq
        exact ⟨rfl, Nat.not_lt.mp h⟩
      · exact fun h => h.1
  · simp
  · rename_i h _
    simp only [reduceCtorEq, false_iff, not_and]
    intro heq
    exact absurd heq (h _)

end SurfaceLoom.Service.SafeData
