import Mathlib.Data.List.DropRight
import Mathlib.Data.Rat.Defs
import SurfaceLoom.Core.CaseSpec
import SurfaceLoom.Lib.Checked

/-! # Untrusted data of a judge

The bounded copy every request and every provider answer passes through, and the checks
on it. A value is a tree here; a leaf `refused` stands for whatever the copy throws on at
sight (a function, a proxy, an accessor, an odd prototype, an object met before), `early`
when it does so before it charges the budget. The copy of a tree is that tree. -/
namespace SurfaceLoom.Judge.Data
open SurfaceLoom.Core (isSpace utf16Length)

structure JudgeContractError where
  path : String
  message : String
  deriving DecidableEq

/-- A number that is not finite has no value. -/
inductive JsData
  | undefined
  | null
  | boolean (value : Bool)
  | number (value : Option ℚ)
  | string (value : String)
  | array (items : List JsData)
  | object (fields : List (String × JsData))
  | refused (early : Bool) (suffix message : String)

abbrev Fields := List (String × JsData)

abbrev Contract (α : Type) := Except JudgeContractError α

def contractError {α : Type} (path message : String) : Contract α := .error ⟨path, message⟩

/-! ## The copy -/

structure DataBudget where
  maxDepth : Nat
  maxNodes : Nat
  maxBytes : Nat

structure WalkState where
  nodes : Nat
  bytes : Nat

def requestDataBudget : DataBudget := ⟨16, 20000, 20971520⟩
def outcomeDataBudget : DataBudget := ⟨16, 10000, 2097152⟩

def spend (state : WalkState) (budget : DataBudget) (path : String) (bytes : Nat) :
    Contract WalkState :=
  if state.nodes + 1 > budget.maxNodes then contractError path "exceeds data node budget"
  else if state.bytes + bytes > budget.maxBytes then contractError path "exceeds data byte budget"
  else .ok ⟨state.nodes + 1, state.bytes + bytes⟩

/-- `${path}[${index}]` -/
def itemPath (path : String) (index : Nat) : String := path ++ "[" ++ toString index ++ "]"

mutual

def copyData (value : JsData) (path : String) (budget : DataBudget) (state : WalkState)
    (depth : Nat) : Contract WalkState :=
  if depth > budget.maxDepth then contractError path "exceeds data depth budget"
  else match value with
    | .null | .undefined | .boolean _ => spend state budget path 0
    | .string s => spend state budget path s.utf8ByteSize
    | .number _ => spend state budget path 8
    | .refused true suffix message => contractError (path ++ suffix) message
    | .refused false suffix message => do
      let _ ← spend state budget path 0
      contractError (path ++ suffix) message
    | .array items => do
      let state ← spend state budget path 0
      if items.length > budget.maxNodes then
        contractError (path ++ ".length") "is outside the data node budget"
      else copyItems items 0 path budget state depth
    | .object fields => do
      let state ← spend state budget path 0
      copyFields fields path budget state depth

def copyItems (items : List JsData) (index : Nat) (path : String) (budget : DataBudget)
    (state : WalkState) (depth : Nat) : Contract WalkState :=
  match items with
  | [] => .ok state
  | item :: rest => do
    let state ← copyData item (itemPath path index) budget state (depth + 1)
    copyItems rest (index + 1) path budget state depth

def copyFields (fields : Fields) (path : String) (budget : DataBudget) (state : WalkState)
    (depth : Nat) : Contract WalkState :=
  match fields with
  | [] => .ok state
  | (key, item) :: rest => do
    let state ← spend state budget (path ++ "." ++ key) key.utf8ByteSize
    let state ← copyData item (path ++ "." ++ key) budget state (depth + 1)
    copyFields rest path budget state depth

end

def sanitizeUntrusted (value : JsData) (path : String) (budget : DataBudget) : Contract JsData :=
  (copyData value path budget ⟨0, 0⟩ 0).map fun _ => value

/-! ## Checks -/

def record (value : JsData) (path : String) : Contract Fields :=
  match value with
  | .object fields => .ok fields
  | _ => contractError path "must be an object"

def get (fields : Fields) (key : String) : JsData :=
  ((fields.find? fun field => field.1 = key).map Prod.snd).getD .undefined

def exactKeys (fields : Fields) (keys : List String) (path : String) : Contract Unit :=
  match (fields.map Prod.fst).find? fun key => key ∉ keys with
  | some unexpected => contractError (path ++ "." ++ unexpected) "is not allowed"
  | none => .ok ()

def trim (s : String) : String :=
  String.ofList ((s.toList.dropWhile isSpace).rdropWhile isSpace)

def text (value : JsData) (path : String) (max : Nat) : Contract String :=
  match value with
  | .string s =>
    if trim s = "" then contractError path "must not be empty"
    else if utf16Length (trim s) > max then
      contractError path ("exceeds " ++ toString max ++ " characters")
    else .ok (trim s)
  | _ => contractError path "must be a string"

def identifierTail (c : Char) : Bool := c.isAlphanum || c ∈ ['.', '_', ':', '-']

/-- `^[A-Za-z0-9][A-Za-z0-9._:-]*$` -/
def identifierChars : List Char → Bool
  | [] => false
  | c :: rest => c.isAlphanum && rest.all identifierTail

def identifier (value : JsData) (path : String) : Contract String := do
  let normalized ← text value path 128
  if identifierChars normalized.toList then .ok normalized
  else contractError path "must be a stable identifier"

def array (value : JsData) (path : String) (max : Nat) : Contract (List JsData) :=
  match value with
  | .array items =>
    if items.length > max then contractError path ("exceeds " ++ toString max ++ " items")
    else .ok items
  | _ => contractError path "must be an array"

def maxSafeInteger : Nat := 9007199254740991

def finiteInteger (value : JsData) (path : String) (max : Nat := maxSafeInteger) : Contract Nat :=
  match value with
  | .number (some q) =>
    if q.isInt ∧ 0 ≤ q ∧ q ≤ max ∧ q ≤ maxSafeInteger then .ok q.num.toNat
    else contractError path ("must be an integer from 0 through " ++ toString max)
  | _ => contractError path ("must be an integer from 0 through " ++ toString max)

def unique (values : List String) (path : String) : Contract Unit :=
  if values.Nodup then .ok () else contractError path "must not contain duplicates"

/-- `map` over the items, each with the path of its place. -/
def mapItems {α : Type} (f : JsData → String → Contract α) (path : String) (items : List JsData)
    (index : Nat := 0) : Contract (List α) :=
  match items with
  | [] => .ok []
  | item :: rest => do
    let value ← f item (itemPath path index)
    let values ← mapItems f path rest (index + 1)
    .ok (value :: values)

/-! ## Reading a checked value again -/

open SurfaceLoom.Lib.Checked

theorem sanitizeUntrusted_ok {value copy : JsData} {path : String} {budget : DataBudget}
    (h : sanitizeUntrusted value path budget = .ok copy) : copy = value := by
  obtain ⟨state, -, hcopy⟩ := map_ok.mp h
  exact hcopy.symm

theorem trim_trim (s : String) : trim (trim s) = trim s := by
  have hhead : ∀ l : List Char, ((l.dropWhile isSpace).rdropWhile isSpace).dropWhile isSpace =
      (l.dropWhile isSpace).rdropWhile isSpace := by
    intro l
    rw [List.dropWhile_eq_self_iff]
    intro hpos
    have hkept := List.rdropWhile_prefix isSpace (l.dropWhile isSpace)
    have hlong : 0 < (l.dropWhile isSpace).length := Nat.lt_of_lt_of_le hpos hkept.length_le
    rw [hkept.getElem hpos]
    exact List.dropWhile_get_zero_not isSpace l hlong
  rw [trim, trim, String.toList_ofList, hhead, List.rdropWhile_idempotent]

theorem text_ok {value : JsData} {path t : String} {max : Nat} (h : text value path max = .ok t) :
    t ≠ "" ∧ utf16Length t ≤ max ∧ trim t = t := by
  unfold text at h
  split at h
  · split at h
    · cases h
    · split at h
      · cases h
      · rename_i hempty hlength
        cases h
        exact ⟨hempty, Nat.le_of_not_lt hlength, trim_trim _⟩
  · cases h

/-- What a check made of a value passes the check again, whatever its path. -/
theorem text_again {value : JsData} {path t : String} {max : Nat} (h : text value path max = .ok t)
    (path' : String) : text (.string t) path' max = .ok t := by
  obtain ⟨hempty, hlength, htrim⟩ := text_ok h
  rw [text, htrim, if_neg hempty, if_neg (Nat.not_lt.mpr hlength)]

theorem identifier_again {value : JsData} {path t : String} (h : identifier value path = .ok t)
    (path' : String) : identifier (.string t) path' = .ok t := by
  obtain ⟨normalized, htext, hchars⟩ := bind_ok.mp h
  split at hchars
  · rename_i hidentifier
    cases hchars
    refine bind_ok.mpr ⟨_, text_again htext path', ?_⟩
    exact if_pos hidentifier
  · cases hchars

theorem finiteInteger_ok {value : JsData} {path : String} {max n : Nat}
    (h : finiteInteger value path max = .ok n) : n ≤ max ∧ n ≤ maxSafeInteger := by
  unfold finiteInteger at h
  split at h
  · rename_i q
    split at h
    · rename_i hq
      obtain ⟨hint, hnonneg, hmax, hsafe⟩ := hq
      cases h
      rw [Rat.eq_num_of_isInt hint] at hnonneg hmax hsafe
      have hnonneg : 0 ≤ q.num := by exact_mod_cast hnonneg
      have hmax : q.num ≤ max := by exact_mod_cast hmax
      have hsafe : q.num ≤ maxSafeInteger := by exact_mod_cast hsafe
      omega
    · cases h
  · cases h

theorem finiteInteger_again {n max : Nat} (path : String) (hmax : n ≤ max)
    (hsafe : n ≤ maxSafeInteger) : finiteInteger (.number (some n)) path max = .ok n := by
  have hint : (n : ℚ).isInt = true := by simp [Rat.isInt]
  have hnonneg : (0 : ℚ) ≤ n := by exact_mod_cast Nat.zero_le n
  have hbound : (n : ℚ) ≤ max := by exact_mod_cast hmax
  have hlimit : (n : ℚ) ≤ maxSafeInteger := by exact_mod_cast hsafe
  rw [finiteInteger, if_pos ⟨hint, hnonneg, hbound, hlimit⟩, Rat.num_natCast, Int.toNat_natCast]

theorem mapItems_again {α : Type} {f : JsData → String → Contract α} {encode : α → JsData}
    (hf : ∀ item path value, f item path = .ok value → ∀ path', f (encode value) path' = .ok value)
    {path : String} {items : List JsData} {index : Nat} {values : List α}
    (h : mapItems f path items index = .ok values) (path' : String) (index' : Nat) :
    mapItems f path' (values.map encode) index' = .ok values := by
  induction items generalizing index values index' with
  | nil =>
    cases h
    rfl
  | cons item rest ih =>
    obtain ⟨value, hvalue, h⟩ := bind_ok.mp h
    obtain ⟨others, hothers, h⟩ := bind_ok.mp h
    cases h
    refine bind_ok.mpr ⟨value, hf item _ value hvalue _, ?_⟩
    exact bind_ok.mpr ⟨others, ih hothers (index' + 1), rfl⟩

theorem mapItems_length {α : Type} {f : JsData → String → Contract α} {path : String}
    {items : List JsData} {index : Nat} {values : List α}
    (h : mapItems f path items index = .ok values) : values.length = items.length := by
  induction items generalizing index values with
  | nil =>
    cases h
    rfl
  | cons item rest ih =>
    obtain ⟨value, -, h⟩ := bind_ok.mp h
    obtain ⟨others, hothers, h⟩ := bind_ok.mp h
    cases h
    rw [List.length_cons, List.length_cons, ih hothers]

/-- Every mapped value came from some item. -/
theorem mapItems_mem {α : Type} {f : JsData → String → Contract α} {path : String}
    {items : List JsData} {index : Nat} {values : List α}
    (h : mapItems f path items index = .ok values) {value : α} (hmem : value ∈ values) :
    ∃ item path', f item path' = .ok value := by
  induction items generalizing index values with
  | nil =>
    cases h
    cases hmem
  | cons item rest ih =>
    obtain ⟨first, hfirst, h⟩ := bind_ok.mp h
    obtain ⟨others, hothers, h⟩ := bind_ok.mp h
    cases h
    rcases List.mem_cons.mp hmem with rfl | hmem
    · exact ⟨item, _, hfirst⟩
    · exact ih hothers hmem

end SurfaceLoom.Judge.Data
