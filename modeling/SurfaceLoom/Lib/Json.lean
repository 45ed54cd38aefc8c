import Mathlib.Data.Rat.Cast.Defs
import Mathlib.Algebra.Order.Field.Rat
import Mathlib.Tactic.NormNum

/-! # JSON values

A JSON value over a type of numbers: the exact token for a parser that keeps it,
the number it denotes for one that does not. An object is the list of its members
in the order they stand in. -/
namespace SurfaceLoom.Lib

inductive Json (ν : Type)
  | null
  | bool (value : Bool)
  | number (value : ν)
  | string (value : String)
  | array (items : List (Json ν))
  | object (fields : List (String × Json ν))

namespace Json

variable {ν : Type}

/-- Induction over a value, its items and the values of its members. -/
theorem induct {P : Json ν → Prop} (null : P .null) (bool : ∀ b, P (.bool b))
    (number : ∀ n, P (.number n)) (string : ∀ s, P (.string s))
    (array : ∀ items, (∀ item ∈ items, P item) → P (.array items))
    (object : ∀ fields, (∀ field ∈ fields, P field.2) → P (.object fields)) :
    ∀ value, P value
  | .null => null
  | .bool b => bool b
  | .number n => number n
  | .string s => string s
  | .array items => array items fun item hitem =>
    have := List.sizeOf_lt_of_mem hitem
    induct null bool number string array object item
  | .object fields => object fields fun field hfield =>
    have := List.sizeOf_lt_of_mem hfield
    induct null bool number string array object field.2
termination_by value => sizeOf value
decreasing_by
  · simp only [Json.array.sizeOf_spec]
    omega
  · cases field
    simp only [Json.object.sizeOf_spec, Prod.mk.sizeOf_spec] at *
    omega

/-! ## Members -/

/-- The value of the last member of that name. -/
def get? (fields : List (String × Json ν)) (key : String) : Option (Json ν) :=
  (fields.reverse.find? fun field => field.1 = key).map Prod.snd

theorem mem_of_get? {fields : List (String × Json ν)} {key : String} {value : Json ν}
    (h : get? fields key = some value) : (key, value) ∈ fields := by
  obtain ⟨field, hfind, hvalue⟩ := Option.map_eq_some_iff.mp h
  have hkey : field.1 = key := by simpa using List.find?_some hfind
  have hmem := List.mem_reverse.mp (List.mem_of_find?_eq_some hfind)
  rw [← hkey, ← hvalue]
  exact hmem

theorem get?_isSome_iff {fields : List (String × Json ν)} {key : String} :
    (get? fields key).isSome ↔ key ∈ fields.map Prod.fst := by
  simp only [get?, Option.isSome_map, List.find?_isSome, List.mem_reverse, decide_eq_true_eq,
    List.mem_map]

/-- The member of an object; anything else has none. -/
def member? : Json ν → String → Option (Json ν)
  | .object fields, key => get? fields key
  | _, _ => none

/-! ## Distinct keys -/

mutual

/-- No object has two members of one name. -/
def distinct : Json ν → Bool
  | .array items => distinctItems items
  | .object fields => (fields.map Prod.fst).Nodup && distinctFields fields
  | .null | .bool _ | .number _ | .string _ => true

def distinctItems : List (Json ν) → Bool
  | [] => true
  | item :: rest => distinct item && distinctItems rest

def distinctFields : List (String × Json ν) → Bool
  | [] => true
  | (_, item) :: rest => distinct item && distinctFields rest

end

theorem distinctFields_mem : ∀ {fields : List (String × Json ν)}, distinctFields fields = true →
    ∀ field ∈ fields, field.2.distinct = true
  | [], _, _, hfield => nomatch hfield
  | (key, item) :: rest, h, field, hfield => by
    simp only [distinctFields, Bool.and_eq_true] at h
    rcases List.mem_cons.mp hfield with rfl | hfield
    · exact h.1
    · exact distinctFields_mem h.2 field hfield

theorem distinct_keys {fields : List (String × Json ν)} (h : (Json.object fields).distinct = true) :
    (fields.map Prod.fst).Nodup := by
  simp only [distinct, Bool.and_eq_true, decide_eq_true_eq] at h
  exact h.1

theorem distinct_member {value item : Json ν} {key : String} (h : value.distinct = true)
    (hitem : value.member? key = some item) : item.distinct = true := by
  cases value with
  | object fields =>
    simp only [distinct, Bool.and_eq_true] at h
    exact distinctFields_mem h.2 (key, item) (mem_of_get? hitem)
  | _ => cases hitem

/-! ## Nesting -/

mutual

/-- The number of containers around the innermost value. -/
def height : Json ν → Nat
  | .array items => itemsHeight items
  | .object fields => fieldsHeight fields
  | .null | .bool _ | .number _ | .string _ => 0

def itemsHeight : List (Json ν) → Nat
  | [] => 0
  | item :: rest => max (height item + 1) (itemsHeight rest)

def fieldsHeight : List (String × Json ν) → Nat
  | [] => 0
  | (_, item) :: rest => max (height item + 1) (fieldsHeight rest)

end

theorem itemsHeight_le {n : Nat} : ∀ {items : List (Json ν)},
    itemsHeight items ≤ n ↔ ∀ item ∈ items, height item + 1 ≤ n
  | [] => by simp [itemsHeight]
  | item :: rest => by
    simp only [itemsHeight, Nat.max_le, itemsHeight_le, List.forall_mem_cons]

theorem fieldsHeight_le {n : Nat} : ∀ {fields : List (String × Json ν)},
    fieldsHeight fields ≤ n ↔ ∀ field ∈ fields, height field.2 + 1 ≤ n
  | [] => by simp [fieldsHeight]
  | (key, item) :: rest => by
    simp only [fieldsHeight, Nat.max_le, fieldsHeight_le, List.forall_mem_cons]

end Json

/-- What the numbers of a JSON value must tell a schema. -/
class JsonNumber (ν : Type) where
  isFinite : ν → Bool
  /-- The integer the number is, if it is one. -/
  integer? : ν → Option Int

/-! ## Number tokens -/

/-- A number as it is written: no digits after a point is `[]`. -/
structure NumberToken where
  negative : Bool
  whole : Nat
  fraction : List (Fin 10)
  exponent : Option Int
  deriving DecidableEq

namespace NumberToken

/-- Neither a fraction nor an exponent. -/
def plain (token : NumberToken) : Bool := token.fraction.isEmpty && token.exponent.isNone

def int (token : NumberToken) : Int := if token.negative then -token.whole else token.whole

/-- The digits before and after the point, read as one number. -/
def digits (token : NumberToken) : Nat :=
  token.fraction.foldl (fun total digit => total * 10 + digit.val) token.whole

def value (token : NumberToken) : ℚ :=
  (if token.negative then -1 else 1) * token.digits * 10 ^ (-(token.fraction.length : ℤ)) *
    10 ^ (token.exponent.getD 0)

instance : JsonNumber NumberToken where
  isFinite _ := true
  integer? token := if token.value.den = 1 then some token.value.num else none

/-- A plain token is read as the integer it spells. -/
theorem integer?_of_plain {token : NumberToken} (h : token.plain = true) :
    JsonNumber.integer? token = some token.int := by
  unfold plain at h
  simp only [Bool.and_eq_true, List.isEmpty_iff, Option.isNone_iff_eq_none] at h
  have hvalue : token.value = (token.int : ℚ) := by
    unfold value int digits
    rw [h.1, h.2]
    cases token.negative <;> simp
  show (if token.value.den = 1 then some token.value.num else none) = _
  rw [hvalue]
  rfl

end NumberToken

end SurfaceLoom.Lib
