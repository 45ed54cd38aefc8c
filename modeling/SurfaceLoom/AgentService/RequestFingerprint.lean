import Mathlib.Data.List.Forall2
import Mathlib.Data.List.Perm.Basic
import SurfaceLoom.Lib.Checked
import SurfaceLoom.Lib.CodeUnits
import SurfaceLoom.AgentService.SafeData

/-! # Fingerprints of execute requests

A request without its run id is copied, written with the keys of every object in order, and
the text is hashed. The text is a list of code units; how the language writes a number is a
parameter, of which only is asked that it writes different numbers differently. -/
namespace SurfaceLoom.Service.RequestFingerprint
open SurfaceLoom.Lib SurfaceLoom.Service.SafeData
open SurfaceLoom.Lib.JsonText (NumberText Str Tree code codes quoted)

abbrev Text := List Nat

/-! ## The text -/

/-- `join(",")` -/
def joined : List Text → Text
  | [] => []
  | [text] => text
  | text :: rest => text ++ code ',' :: joined rest

/-- Entries in the order of `Object.keys(record).sort()`. -/
def sortEntries {α : Type} (entries : List (String × α)) : List (String × α) :=
  StableSort.stableSort (fun a b => CodeUnits.precedes a.1 b.1) entries

/-- `JSON.stringify(text)` -/
def stringText (s : String) : Text := quoted (Str.ofString s) []

section Stringify

variable (numberText : ℚ → NumberText)

mutual

/-- What the copy throws on is never written. -/
def stableStringify : JsValue → Text
  | .null | .refused _ => codes "null"
  | .boolean true => codes "true"
  | .boolean false => codes "false"
  | .number q => (numberText q).text
  | .string s => stringText s
  | .array items => code '[' :: (joined (stringifyItems items) ++ [code ']'])
  | .object fields =>
    code '{' :: (joined ((sortEntries (stringifyFields fields)).map Prod.snd) ++ [code '}'])

def stringifyItems : List JsValue → List Text
  | [] => []
  | item :: rest => stableStringify item :: stringifyItems rest

/-- Every field with its text. -/
def stringifyFields : Fields → List (String × Text)
  | [] => []
  | (key, value) :: rest =>
    (key, stringText key ++ code ':' :: stableStringify value) :: stringifyFields rest

end

/-- The request without its `runId`. -/
def stable (request : Fields) : JsValue := .object (request.filter fun field => field.1 ≠ "runId")

/-- The text that `fingerprintExecuteRequest` hashes. -/
def hashedText (request : Fields) : Except SafeDataError Text :=
  (cloneSafeData (stable request)).map (stableStringify numberText)

/-- `sha256` is the digest of a text in UTF-8, in hexadecimal. -/
def fingerprintExecuteRequest (sha256 : Text → String) (request : Fields) :
    Except SafeDataError String :=
  (hashedText numberText request).map sha256

end Stringify

/-! ## The same value up to the order of keys -/

mutual

inductive SameJson : JsValue → JsValue → Prop
  | null : SameJson .null .null
  | boolean (value : Bool) : SameJson (.boolean value) (.boolean value)
  | number (value : ℚ) : SameJson (.number value) (.number value)
  | string (value : String) : SameJson (.string value) (.string value)
  | array {items items' : List JsValue} : SameItems items items' →
      SameJson (.array items) (.array items')
  | object {fields fields' : Fields} : SameFields fields fields' →
      SameJson (.object fields) (.object fields')

inductive SameItems : List JsValue → List JsValue → Prop
  | nil : SameItems [] []
  | cons {item item' : JsValue} {rest rest' : List JsValue} : SameJson item item' →
      SameItems rest rest' → SameItems (item :: rest) (item' :: rest')

/-- Every field has its counterpart, wherever that stands. -/
inductive SameFields : Fields → Fields → Prop
  | nil : SameFields [] []
  | cons {key : String} {value value' : JsValue} {rest before after : Fields} :
      SameJson value value' → SameFields rest (before ++ after) →
      SameFields ((key, value) :: rest) (before ++ (key, value') :: after)

end

mutual

/-- No object has two fields of one name, as in the language. -/
def Distinct : JsValue → Prop
  | .array items => DistinctItems items
  | .object fields => (fields.map Prod.fst).Nodup ∧ DistinctFields fields
  | _ => True

def DistinctItems : List JsValue → Prop
  | [] => True
  | item :: rest => Distinct item ∧ DistinctItems rest

def DistinctFields : Fields → Prop
  | [] => True
  | (_, value) :: rest => Distinct value ∧ DistinctFields rest

end

mutual

/-- Distinct, and nothing that the copy throws on. -/
def Proper : JsValue → Prop
  | .refused _ => False
  | .array items => ProperItems items
  | .object fields => (fields.map Prod.fst).Nodup ∧ ProperFields fields
  | _ => True

def ProperItems : List JsValue → Prop
  | [] => True
  | item :: rest => Proper item ∧ ProperItems rest

def ProperFields : Fields → Prop
  | [] => True
  | (_, value) :: rest => Proper value ∧ ProperFields rest

end

mutual

theorem Distinct.proper : ∀ {value : JsValue} {depth : Nat}, Distinct value → Plain value depth →
    Proper value
  | .null, _, _, _ | .boolean _, _, _, _ | .number _, _, _, _ | .string _, _, _, _ => trivial
  | .refused _, _, _, hplain => hplain.2.elim
  | .array _, _, h, hplain => DistinctItems.proper h hplain.2.2
  | .object _, _, h, hplain => ⟨h.1, DistinctFields.proper h.2 hplain.2.2⟩

theorem DistinctItems.proper : ∀ {items : List JsValue} {depth : Nat}, DistinctItems items →
    ItemsPlain items depth → ProperItems items
  | [], _, _, _ => trivial
  | _ :: _, _, h, hplain => ⟨Distinct.proper h.1 hplain.1, DistinctItems.proper h.2 hplain.2⟩

theorem DistinctFields.proper : ∀ {fields : Fields} {depth : Nat}, DistinctFields fields →
    FieldsPlain fields depth → ProperFields fields
  | [], _, _, _ => trivial
  | (_, _) :: _, _, h, hplain => ⟨Distinct.proper h.1 hplain.1, DistinctFields.proper h.2 hplain.2⟩

end

theorem properFields_iff {fields : Fields} :
    ProperFields fields ↔ ∀ field ∈ fields, Proper field.2 := by
  induction fields with
  | nil => simp [ProperFields]
  | cons field rest ih => rw [ProperFields, ih, List.forall_mem_cons]

/-! ## The canonical value -/

mutual

/-- The value with the fields of every object in order. -/
def canonical : JsValue → JsValue
  | .array items => .array (canonicalItems items)
  | .object fields => .object (sortEntries (canonicalFields fields))
  | value => value

def canonicalItems : List JsValue → List JsValue
  | [] => []
  | item :: rest => canonical item :: canonicalItems rest

def canonicalFields : Fields → Fields
  | [] => []
  | (key, value) :: rest => (key, canonical value) :: canonicalFields rest

end

theorem canonicalFields_eq (fields : Fields) :
    canonicalFields fields = fields.map fun field => (field.1, canonical field.2) := by
  induction fields with
  | nil => rfl
  | cons field rest ih => exact congrArg (List.cons _) ih

theorem keys_canonicalFields (fields : Fields) :
    (canonicalFields fields).map Prod.fst = fields.map Prod.fst := by
  rw [canonicalFields_eq, List.map_map]
  rfl

section Sorting

variable {α : Type}

theorem sortEntries_perm (entries : List (String × α)) : (sortEntries entries).Perm entries :=
  StableSort.stableSort_perm _ _

/-- Entries of distinct keys have one order. -/
theorem sortEntries_eq_of_perm {entries entries' : List (String × α)} (h : entries.Perm entries')
    (hnodup : (entries.map Prod.fst).Nodup) : sortEntries entries = sortEntries entries' := by
  have hweak : StableSort.WeakOrder fun a b : String × α => CodeUnits.precedes a.1 b.1 :=
    ⟨fun a b c => CodeUnits.precedes_weakOrder.trans a.1 b.1 c.1,
      fun a b => CodeUnits.precedes_weakOrder.total a.1 b.1⟩
  -- two entries that are alike for the order have one key, and so are one entry
  have hsorted : ∀ {l : List (String × α)}, (l.map Prod.fst).Nodup →
      (sortEntries l).Pairwise fun a b => CodeUnits.precedes a.1 b.1 = true := by
    intro l hl
    have hne := List.pairwise_map.mp (hl : (l.map Prod.fst).Pairwise (· ≠ ·))
    refine (StableSort.stableSort_pairwise hweak hne).imp ?_
    rintro a b (hlt | ⟨hab, hba, hkey⟩)
    · exact hlt
    · exact absurd (CodeUnits.precedes_total hab hba) hkey
  have hperm := (sortEntries_perm entries).trans (h.trans (sortEntries_perm entries').symm)
  refine List.Perm.eq_of_pairwise ?_ (hsorted hnodup)
    (hsorted ((h.map Prod.fst).nodup_iff.mp hnodup)) hperm
  intro a b _ _ hab hba
  rw [hweak.asymm hab] at hba
  cases hba

end Sorting

mutual

/-- Values with one canonical form are the same. -/
theorem same_of_canonical : ∀ {value value' : JsValue}, Proper value →
    canonical value = canonical value' → SameJson value value'
  | .null, value', _, h | .boolean _, value', _, h | .number _, value', _, h
  | .string _, value', _, h => by
    cases value' with
    | array | object => cases h
    | null | boolean | number | string | refused => cases h <;> constructor
  | .array items, value', hproper, h => by
    cases value' with
    | array items' => exact .array (sameItems_of_canonical hproper (JsValue.array.inj h))
    | null | boolean | number | string | refused | object => cases h
  | .object fields, value', hproper, h => by
    cases value' with
    | object fields' =>
      have hperm := (sortEntries_perm (canonicalFields fields)).symm.trans
        (JsValue.object.inj h ▸ sortEntries_perm (canonicalFields fields'))
      exact .object (sameFields_of_canonical hproper.2 hperm)
    | null | boolean | number | string | refused | array => cases h

theorem sameItems_of_canonical : ∀ {items items' : List JsValue}, ProperItems items →
    canonicalItems items = canonicalItems items' → SameItems items items'
  | [], [], _, _ => .nil
  | [], _ :: _, _, h => nomatch h
  | _ :: _, [], _, h => nomatch h
  | _ :: _, _ :: _, hproper, h =>
    .cons (same_of_canonical hproper.1 (List.cons.inj h).1)
      (sameItems_of_canonical hproper.2 (List.cons.inj h).2)

theorem sameFields_of_canonical : ∀ {fields fields' : Fields}, ProperFields fields →
    (canonicalFields fields).Perm (canonicalFields fields') → SameFields fields fields'
  | [], fields', _, h => by
    have hnil := h.symm.eq_nil
    rw [canonicalFields_eq, List.map_eq_nil_iff] at hnil
    rw [hnil]
    exact .nil
  | (key, value) :: rest, fields', hproper, h => by
    have hin : (key, canonical value) ∈ canonicalFields fields' :=
      h.mem_iff.mp List.mem_cons_self
    rw [canonicalFields_eq fields'] at hin h
    obtain ⟨⟨key', value'⟩, hmem, heq⟩ := List.mem_map.mp hin
    obtain ⟨rfl, hvalue⟩ := Prod.mk.inj heq
    obtain ⟨before, after, rfl⟩ := List.append_of_mem hmem
    refine .cons (same_of_canonical hproper.1 hvalue.symm) (sameFields_of_canonical hproper.2 ?_)
    rw [List.map_append, List.map_cons] at h
    rw [canonicalFields_eq (before ++ after), List.map_append]
    have hrest := h.trans List.perm_middle
    simp only at hvalue
    rw [hvalue] at hrest
    exact hrest.cons_inv

end

mutual

theorem canonical_of_same : ∀ {value value' : JsValue}, SameJson value value' → Proper value →
    canonical value = canonical value'
  | _, _, .null, _ | _, _, .boolean _, _ | _, _, .number _, _ | _, _, .string _, _ => rfl
  | _, _, .array h, hproper => congrArg JsValue.array (canonicalItems_of_same h hproper)
  | _, _, .object h, hproper => by
    refine congrArg JsValue.object (sortEntries_eq_of_perm (canonicalFields_of_same h hproper.2) ?_)
    rw [keys_canonicalFields]
    exact hproper.1

theorem canonicalItems_of_same : ∀ {items items' : List JsValue}, SameItems items items' →
    ProperItems items → canonicalItems items = canonicalItems items'
  | _, _, .nil, _ => rfl
  | _, _, .cons h hrest, hproper =>
    congrArg₂ List.cons (canonical_of_same h hproper.1) (canonicalItems_of_same hrest hproper.2)

theorem canonicalFields_of_same : ∀ {fields fields' : Fields}, SameFields fields fields' →
    ProperFields fields → (canonicalFields fields).Perm (canonicalFields fields')
  | _, _, .nil, _ => .refl _
  | _, _, @SameFields.cons key value value' rest before after h hrest, hproper => by
    have hperm := canonicalFields_of_same hrest hproper.2
    rw [canonicalFields_eq (before ++ after), List.map_append] at hperm
    rw [canonicalFields, canonicalFields_eq (before ++ (key, value') :: after), List.map_append,
      List.map_cons, canonical_of_same h hproper.1]
    exact (hperm.cons _).trans List.perm_middle.symm

end

/-! ## The text is the canonical value, written -/

section Writing

variable (numberText : ℚ → NumberText)

mutual

def treeOf : JsValue → Tree
  | .null | .refused _ => .literal .null
  | .boolean b => .literal (.bool b)
  | .number q => .literal (.number (numberText q))
  | .string s => .string (Str.ofString s)
  | .array items => .array (treeItems items)
  | .object fields => .object (treeFields fields)

def treeItems : List JsValue → List Tree
  | [] => []
  | item :: rest => treeOf item :: treeItems rest

def treeFields : Fields → List (Str × Tree)
  | [] => []
  | (key, value) :: rest => (Str.ofString key, treeOf value) :: treeFields rest

end

theorem treeFields_eq (fields : Fields) : treeFields numberText fields =
    fields.map fun field => (Str.ofString field.1, treeOf numberText field.2) := by
  induction fields with
  | nil => rfl
  | cons field rest ih => exact congrArg (List.cons _) ih

theorem writeItems_eq (items : List Tree) :
    Tree.writeItems items = joined (items.map Tree.write) := by
  induction items with
  | nil => rfl
  | cons t rest ih =>
    cases rest with
    | nil => rfl
    | cons t' rest =>
      rw [Tree.writeItems, ih]
      · rfl
      · exact List.cons_ne_nil t' rest

theorem writeMembers_eq (members : List (Str × Tree)) : Tree.writeMembers members =
    joined (members.map fun m => quoted m.1 [] ++ code ':' :: m.2.write) := by
  induction members with
  | nil => rfl
  | cons m rest ih =>
    cases rest with
    | nil => rfl
    | cons m' rest =>
      rw [Tree.writeMembers, ih]
      · simp only [List.map_cons, joined, List.append_assoc, List.cons_append]
      · exact List.cons_ne_nil m' rest

theorem sortEntries_map {α β : Type} (f : String × α → β) (entries : List (String × α)) :
    sortEntries (entries.map fun e => (e.1, f e)) = (sortEntries entries).map fun e => (e.1, f e) :=
  StableSort.stableSort_map (fun e : String × α => (e.1, f e)) entries

mutual

theorem stableStringify_eq : ∀ value : JsValue,
    stableStringify numberText value = (treeOf numberText (canonical value)).write
  | .null | .refused _ | .boolean true | .boolean false | .number _ | .string _ => rfl
  | .array items => by
    rw [stableStringify, canonical, treeOf, Tree.write, writeItems_eq, stringifyItems_eq items]
  | .object fields => by
    rw [stableStringify, canonical, treeOf, Tree.write, writeMembers_eq, stringifyFields_eq fields,
      canonicalFields_eq, sortEntries_map, sortEntries_map, treeFields_eq, List.map_map, List.map_map,
      List.map_map]
    rfl

theorem stringifyItems_eq : ∀ items : List JsValue, stringifyItems numberText items =
    (treeItems numberText (canonicalItems items)).map Tree.write
  | [] => rfl
  | item :: rest =>
    congrArg₂ List.cons (stableStringify_eq item) (stringifyItems_eq rest)

theorem stringifyFields_eq : ∀ fields : Fields, stringifyFields numberText fields =
    fields.map fun field => (field.1,
      stringText field.1 ++ code ':' :: (treeOf numberText (canonical field.2)).write)
  | [] => rfl
  | (key, value) :: rest => by
    rw [stringifyFields, stableStringify_eq value, stringifyFields_eq rest]
    rfl

end

/-! ## The text determines the canonical value -/

variable {numberText}

theorem names_treeFields (fields : Fields) :
    JsonText.names (treeFields numberText fields) = (fields.map Prod.fst).map CodeUnits.codeUnits := by
  rw [treeFields_eq, JsonText.names, List.map_map, List.map_map]
  exact List.map_congr_left fun field _ => Str.ofString_units field.1

mutual

theorem distinct_treeOf : ∀ {value : JsValue}, Proper value → (treeOf numberText value).Distinct
  | .null, _ | .refused _, _ | .boolean _, _ | .number _, _ | .string _, _ => trivial
  | .array _, h => distinct_treeItems h
  | .object fields, h => by
    refine ⟨?_, distinct_treeFields h.2⟩
    rw [names_treeFields]
    exact h.1.map fun _ _ => CodeUnits.codeUnits_inj

theorem distinct_treeItems : ∀ {items : List JsValue}, ProperItems items →
    Tree.DistinctItems (treeItems numberText items)
  | [], _ => trivial
  | _ :: _, h => ⟨distinct_treeOf h.1, distinct_treeItems h.2⟩

theorem distinct_treeFields : ∀ {fields : Fields}, ProperFields fields →
    Tree.DistinctMembers (treeFields numberText fields)
  | [], _ => trivial
  | (_, _) :: _, h => ⟨distinct_treeOf h.1, distinct_treeFields h.2⟩

end

mutual

/-- Different values are read differently. -/
theorem read_inj (hnumber : Function.Injective numberText) : ∀ {value value' : JsValue},
    Proper value → Proper value' →
    (treeOf numberText value).plain id = (treeOf numberText value').plain id → value = value'
  | .null, value', _, hproper', h => by
    cases value' with
    | null => rfl
    | refused => exact hproper'.elim
    | boolean | number | string | array | object => cases h
  | .boolean b, value', _, _, h => by
    cases value' with
    | boolean b' =>
      cases h
      rfl
    | null | refused | number | string | array | object => cases h
  | .number q, value', _, _, h => by
    cases value' with
    | number q' => rw [hnumber (JsonText.JsValue.number.inj h)]
    | null | refused | boolean | string | array | object => cases h
  | .string s, value', _, _, h => by
    cases value' with
    | string s' =>
      have hunits := JsonText.JsValue.string.inj h
      rw [Str.ofString_units, Str.ofString_units] at hunits
      rw [CodeUnits.codeUnits_inj hunits]
    | null | refused | boolean | number | array | object => cases h
  | .array items, value', hproper, hproper', h => by
    cases value' with
    | array items' =>
      rw [readItems_inj hnumber hproper hproper' (JsonText.JsValue.array.inj h)]
    | null | refused | boolean | number | string | object => cases h
  | .object fields, value', hproper, hproper', h => by
    cases value' with
    | object fields' =>
      rw [readFields_inj hnumber hproper.2 hproper'.2 (JsonText.JsValue.object.inj h)]
    | null | refused | boolean | number | string | array => cases h
  | .refused _, _, hproper, _, _ => hproper.elim

theorem readItems_inj (hnumber : Function.Injective numberText) : ∀ {items items' : List JsValue},
    ProperItems items → ProperItems items' →
    Tree.plainItems id (treeItems numberText items) =
      Tree.plainItems id (treeItems numberText items') → items = items'
  | [], [], _, _, _ => rfl
  | [], _ :: _, _, _, h => nomatch h
  | _ :: _, [], _, _, h => nomatch h
  | _ :: _, _ :: _, hproper, hproper', h =>
    congrArg₂ List.cons (read_inj hnumber hproper.1 hproper'.1 (List.cons.inj h).1)
      (readItems_inj hnumber hproper.2 hproper'.2 (List.cons.inj h).2)

theorem readFields_inj (hnumber : Function.Injective numberText) : ∀ {fields fields' : Fields},
    ProperFields fields → ProperFields fields' →
    Tree.plainMembers id (treeFields numberText fields) =
      Tree.plainMembers id (treeFields numberText fields') → fields = fields'
  | [], [], _, _, _ => rfl
  | [], (_, _) :: _, _, _, h => nomatch h
  | (_, _) :: _, [], _, _, h => nomatch h
  | (key, value) :: rest, (key', value') :: rest', hproper, hproper', h => by
    obtain ⟨hfirst, hrest⟩ := List.cons.inj h
    obtain ⟨hkey, hvalue⟩ := Prod.mk.inj hfirst
    rw [Str.ofString_units, Str.ofString_units] at hkey
    rw [CodeUnits.codeUnits_inj hkey, read_inj hnumber hproper.1 hproper'.1 hvalue,
      readFields_inj hnumber hproper.2 hproper'.2 hrest]

end

mutual

theorem Proper.canonical : ∀ {value : JsValue}, Proper value → Proper (canonical value)
  | .null, _ | .boolean _, _ | .number _, _ | .string _, _ => trivial
  | .refused _, h => h
  | .array _, h => ProperItems.canonical h
  | .object fields, h => by
    have hperm := sortEntries_perm (canonicalFields fields)
    refine ⟨?_, ?_⟩
    · rw [(hperm.map Prod.fst).nodup_iff, keys_canonicalFields]
      exact h.1
    · have hall := ProperFields.canonical h.2
      rw [properFields_iff] at hall ⊢
      exact fun field hfield => hall field (hperm.mem_iff.mp hfield)

theorem ProperItems.canonical : ∀ {items : List JsValue}, ProperItems items →
    ProperItems (canonicalItems items)
  | [], _ => trivial
  | _ :: _, h => ⟨Proper.canonical h.1, ProperItems.canonical h.2⟩

theorem ProperFields.canonical : ∀ {fields : Fields}, ProperFields fields →
    ProperFields (canonicalFields fields)
  | [], _ => trivial
  | (_, _) :: _, h => ⟨Proper.canonical h.1, ProperFields.canonical h.2⟩

end

/-- Texts are equal exactly for values that are the same up to the order of keys. -/
theorem stableStringify_eq_iff (hnumber : Function.Injective numberText) {value value' : JsValue}
    (h : Proper value) (h' : Proper value') :
    stableStringify numberText value = stableStringify numberText value' ↔ SameJson value value' := by
  have hparse : ∀ t : Tree, JsonText.parse id t.write = some (t.value id) := by
    intro t
    have hspace : ∀ c ∈ ([] : List Nat), JsonText.isWhite c = true := by simp
    have hread := JsonText.parse_write id t hspace
    rwa [List.append_nil] at hread
  constructor
  · intro htext
    rw [stableStringify_eq, stableStringify_eq] at htext
    have hread := hparse (treeOf numberText (canonical value))
    rw [htext, hparse] at hread
    have hvalue := Option.some.inj hread
    rw [JsonText.value_of_distinct id (distinct_treeOf h.canonical),
      JsonText.value_of_distinct id (distinct_treeOf h'.canonical)] at hvalue
    exact same_of_canonical h (read_inj hnumber h.canonical h'.canonical hvalue.symm)
  · intro hsame
    rw [stableStringify_eq, stableStringify_eq, canonical_of_same hsame h]

/-! ## Requests -/

theorem distinctFields_iff : ∀ {fields : Fields},
    DistinctFields fields ↔ ∀ field ∈ fields, Distinct field.2
  | [] => by simp [DistinctFields]
  | (key, value) :: rest => by
    rw [DistinctFields, distinctFields_iff, List.forall_mem_cons]

theorem Distinct.stable {request : Fields} (h : Distinct (.object request)) :
    Distinct (stable request) := by
  obtain ⟨hnodup, hfields⟩ := h
  refine ⟨hnodup.sublist (List.filter_sublist.map _), ?_⟩
  rw [distinctFields_iff] at hfields ⊢
  exact fun field hfield => hfields field (List.mem_filter.mp hfield).1

/-- The texts that are hashed for two requests are equal exactly if the requests are the same
but for their run ids and the order of keys; `0` and `-0` are one number. -/
theorem hashedText_eq_iff (hnumber : Function.Injective numberText) {request request' : Fields}
    (h : Distinct (.object request)) (h' : Distinct (.object request')) {text text' : Text}
    (htext : hashedText numberText request = .ok text)
    (htext' : hashedText numberText request' = .ok text') :
    text = text' ↔ SameJson (stable request) (stable request') := by
  obtain ⟨copy, hcopy, rfl⟩ := Checked.map_ok.mp htext
  obtain ⟨copy', hcopy', rfl⟩ := Checked.map_ok.mp htext'
  obtain ⟨rfl, hsafe⟩ := cloneSafeData_ok.mp hcopy
  obtain ⟨rfl, hsafe'⟩ := cloneSafeData_ok.mp hcopy'
  exact stableStringify_eq_iff hnumber (h.stable.proper hsafe.plain) (h'.stable.proper hsafe'.plain)

end Writing

/-- Integers are written as they are; other numbers by what tells them apart. -/
local instance neZero_digits : NeZero 10 := ⟨by decide⟩

def plainNumber (q : ℚ) : NumberText :=
  { NumberText.ofNat q.num.natAbs with
    minus := q.num < 0
    fraction := if q.den = 1 then none else some (0, List.replicate q.den 0) }

theorem plainNumber_injective : Function.Injective plainNumber := by
  intro p q h
  have hwhole : (NumberText.ofNat p.num.natAbs).whole = (NumberText.ofNat q.num.natAbs).whole := by
    have := congrArg NumberText.whole h
    exact this
  have htext : (NumberText.ofNat p.num.natAbs).text = (NumberText.ofNat q.num.natAbs).text := by
    show (_ ++ (JsonText.Whole.text _ ++ _) : List Nat) = _ ++ (JsonText.Whole.text _ ++ _)
    rw [hwhole]
    rfl
  have habs : p.num.natAbs = q.num.natAbs := by
    rw [NumberText.ofNat_text, NumberText.ofNat_text] at htext
    have hchars := List.map_injective_iff.mpr (fun a b hab => Char.toNat_inj.mp hab) htext
    exact Decimal.toString_injective (String.toList_inj.mp hchars)
  have hsign : decide (p.num < 0) = decide (q.num < 0) := congrArg (fun n : NumberText => n.minus) h
  have hfraction :
      (if p.den = 1 then none else some ((0 : JsonText.Digit), List.replicate p.den (0 : JsonText.Digit))) =
        if q.den = 1 then none else some (0, List.replicate q.den 0) := by
    have := congrArg NumberText.fraction h
    exact this
  have hden : p.den = q.den := by
    split at hfraction
    · split at hfraction
      · rename_i hp hq
        rw [hp, hq]
      · cases hfraction
    · split at hfraction
      · cases hfraction
      · have hlength := congrArg List.length (Prod.mk.inj (Option.some.inj hfraction)).2
        simpa using hlength
  refine Rat.ext ?_ hden
  rw [decide_eq_decide] at hsign
  omega

/-- A request for a run, with its parameters in the order given. -/
def sampleRequest (runId : String) (parameters : Fields) : Fields :=
  [("runId", .string runId), ("testId", .string "service-test:a/b"),
    ("parameters", .object parameters)]

theorem hashedText_reordered :
    ∃ text text',
      hashedText plainNumber (sampleRequest "run:1" [("n", .number 1), ("m", .null)]) = .ok text ∧
      hashedText plainNumber (sampleRequest "run:2" [("m", .null), ("n", .number 1)]) = .ok text' ∧
      (text = text' ↔
        SameJson (stable (sampleRequest "run:1" [("n", .number 1), ("m", .null)]))
          (stable (sampleRequest "run:2" [("m", .null), ("n", .number 1)]))) := by
  have hdistinct : ∀ runId, Distinct (.object (sampleRequest runId [("n", .number 1), ("m", .null)])) ∧
      Distinct (.object (sampleRequest runId [("m", .null), ("n", .number 1)])) := by
    intro runId
    simp [sampleRequest, Distinct, DistinctFields]
  have hcopy : ∀ request : Fields, Safe (stable request) →
      hashedText plainNumber request = .ok (stableStringify plainNumber (stable request)) :=
    fun request hsafe => Checked.map_ok.mpr ⟨_, cloneSafeData_ok.mpr ⟨rfl, hsafe⟩, rfl⟩
  have hfirst := hcopy (sampleRequest "run:1" [("n", .number 1), ("m", .null)])
    ⟨by simp [stable, sampleRequest, Plain, FieldsPlain, maxDepth, maxCollectionEntries],
      by decide, by decide⟩
  have hsecond := hcopy (sampleRequest "run:2" [("m", .null), ("n", .number 1)])
    ⟨by simp [stable, sampleRequest, Plain, FieldsPlain, maxDepth, maxCollectionEntries],
      by decide, by decide⟩
  exact ⟨_, _, hfirst, hsecond, hashedText_eq_iff plainNumber_injective (hdistinct _).1
    (hdistinct _).2 hfirst hsecond⟩

end SurfaceLoom.Service.RequestFingerprint
