import SurfaceLoom.Lib.Decimal
import SurfaceLoom.Lib.FirstFree
import SurfaceLoom.Lib.Json
import SurfaceLoom.Lib.OrderedMap

/-! # Redacting trace values

`redactTraceValue` masks what stands under a sensitive key, redacts every text
and every key, and gives a key that would repeat a name of its own. The text
redaction and the lower case of the language are parameters. -/
namespace SurfaceLoom.Reporter.TraceRedaction
open SurfaceLoom.Lib SurfaceLoom.Lib.FirstFree

section
variable (toLowerCase : String → String) (redactReportText : String → String)

/-! ## Keys -/

def credentialKeySuffixes : List String :=
  ["token", "password", "passwd", "secret", "authorization", "cookie", "credential",
    "credentials", "apikey", "privatekey", "secretkey", "secretaccesskey", "accesskeyid"]

def endsWith (text : List Char) (suffix : String) : Bool := suffix.toList.isSuffixOf text

def isCredentialKey (key : String) : Bool :=
  let normalized := (toLowerCase key).toList.filter (· ∉ ['_', '.', '/', '-'])
  credentialKeySuffixes.any fun suffix =>
    endsWith normalized suffix || endsWith normalized (suffix ++ "value") ||
      endsWith normalized (suffix ++ "hash")

/-- Whether a text contains a word of ASCII letters in any case, as `/word/i`
tests it. -/
def containsWord (text word : String) : Bool :=
  text.toList.tails.any fun tail => word.toList.isPrefixOf (tail.map Char.toLower)

/-- What stands under such a key is not shown. -/
def masked (key : String) : Bool :=
  isCredentialKey toLowerCase key ||
    ["prompt", "transcript", "conversation"].any (containsWord key)

/-- The names `field-3`, `field-3-1`, `field-3-2`, … for the key at an index. -/
def fieldName (index : Nat) : Nat → String
  | 0 => "field-" ++ toString index
  | suffix + 1 => "field-" ++ toString index ++ "-" ++ toString (suffix + 1)

/-- The key an entry gets; `usedKeys` has the keys of those before it. -/
def safeKey (usedKeys : List String) (index : Nat) (candidate : String) : String :=
  if candidate ∈ usedKeys then firstFree (fieldName index) usedKeys else candidate

/-! ## Values -/

variable {ν : Type}

/-- `Object.fromEntries`. -/
def fromEntries (entries : List (String × Json ν)) : List (String × Json ν) :=
  (entries.foldl (fun properties e => properties.set e.1 e.2) OrderedMap.empty).entries

mutual

def redactTraceValue : Json ν → Nat → Json ν
  | .string s, _ => .string (redactReportText s)
  | .null, _ => .null
  | .bool b, _ => .bool b
  | .number n, _ => .number n
  | .array _, 0 | .object _, 0 => .string "[TRUNCATED]"
  | .array items, depth + 1 => .array (redactItems items depth)
  | .object fields, depth + 1 => .object (fromEntries (redactEntries fields depth [] 0))

def redactItems : List (Json ν) → Nat → List (Json ν)
  | [], _ => []
  | item :: rest, depth => redactTraceValue item depth :: redactItems rest depth

def redactEntries : List (String × Json ν) → Nat → List String → Nat → List (String × Json ν)
  | [], _, _, _ => []
  | (key, item) :: rest, depth, usedKeys, index =>
    let safe := safeKey usedKeys index (redactReportText key)
    (safe, if masked toLowerCase key then .string "[REDACTED]" else redactTraceValue item depth) ::
      redactEntries rest depth (safe :: usedKeys) (index + 1)

end

/-! ## Nothing under a masked key shows -/

mutual

/-- Two values that differ at most in what stands under masked keys. -/
inductive Agree : Json ν → Json ν → Prop
  | refl (value : Json ν) : Agree value value
  | array {items items' : List (Json ν)} : AgreeItems items items' →
      Agree (.array items) (.array items')
  | object {fields fields' : List (String × Json ν)} : AgreeFields fields fields' →
      Agree (.object fields) (.object fields')

inductive AgreeItems : List (Json ν) → List (Json ν) → Prop
  | nil : AgreeItems [] []
  | cons {item item' : Json ν} {rest rest' : List (Json ν)} : Agree item item' →
      AgreeItems rest rest' → AgreeItems (item :: rest) (item' :: rest')

inductive AgreeFields : List (String × Json ν) → List (String × Json ν) → Prop
  | nil : AgreeFields [] []
  | masked {key : String} (item item' : Json ν) {rest rest' : List (String × Json ν)} :
      TraceRedaction.masked toLowerCase key = true → AgreeFields rest rest' →
      AgreeFields ((key, item) :: rest) ((key, item') :: rest')
  | shown {key : String} {item item' : Json ν} {rest rest' : List (String × Json ν)} :
      Agree item item' → AgreeFields rest rest' →
      AgreeFields ((key, item) :: rest) ((key, item') :: rest')

end

variable {toLowerCase}

mutual

theorem Agree.redacted : ∀ {v v' : Json ν}, Agree toLowerCase v v' → ∀ depth,
    redactTraceValue toLowerCase redactReportText v depth =
      redactTraceValue toLowerCase redactReportText v' depth
  | _, _, .refl _, _ => rfl
  | _, _, .array _, 0 => rfl
  | _, _, .object _, 0 => rfl
  | _, _, .array h, depth + 1 => congrArg Json.array (h.redacted depth)
  | _, _, .object h, depth + 1 =>
    congrArg (fun entries => Json.object (fromEntries entries)) (h.redacted depth [] 0)

theorem AgreeItems.redacted : ∀ {items items' : List (Json ν)}, AgreeItems toLowerCase items items' →
    ∀ depth, redactItems toLowerCase redactReportText items depth =
      redactItems toLowerCase redactReportText items' depth
  | _, _, .nil, _ => rfl
  | _, _, .cons hitem hrest, depth => by
    rw [redactItems, redactItems, hitem.redacted depth, hrest.redacted depth]

theorem AgreeFields.redacted : ∀ {fields fields' : List (String × Json ν)},
    AgreeFields toLowerCase fields fields' → ∀ depth usedKeys index,
      redactEntries toLowerCase redactReportText fields depth usedKeys index =
        redactEntries toLowerCase redactReportText fields' depth usedKeys index
  | _, _, .nil, _, _, _ => rfl
  | _, _, .masked item item' hmasked hrest, depth, usedKeys, index => by
    rw [redactEntries, redactEntries, hrest.redacted depth]
    simp only [hmasked, if_true]
  | _, _, .shown hitem hrest, depth, usedKeys, index => by
    rw [redactEntries, redactEntries, hrest.redacted depth, hitem.redacted depth]

end

/-! ## No field is lost -/

theorem fieldName_injective (index : Nat) : Function.Injective (fieldName index) := by
  intro m n h
  have hlist := congrArg String.toList h
  cases m with
  | zero =>
    cases n with
    | zero => rfl
    | succ n =>
      have hlen := congrArg List.length hlist
      simp [fieldName] at hlen
  | succ m =>
    cases n with
    | zero =>
      have hlen := congrArg List.length hlist
      simp [fieldName] at hlen
    | succ n =>
      simp only [fieldName, String.toList_append] at hlist
      exact Decimal.toString_injective (String.toList_injective (List.append_cancel_left hlist))

theorem safeKey_notMem (usedKeys : List String) (index : Nat) (candidate : String) :
    safeKey usedKeys index candidate ∉ usedKeys := by
  unfold safeKey
  by_cases hused : candidate ∈ usedKeys
  · rw [if_pos hused]
    exact firstFree_notMem (fieldName_injective index) usedKeys
  · rw [if_neg hused]
    exact hused

theorem redactItems_eq : ∀ (items : List (Json ν)) (depth : Nat),
    redactItems toLowerCase redactReportText items depth =
      items.map fun item => redactTraceValue toLowerCase redactReportText item depth
  | [], _ => rfl
  | _ :: rest, depth => congrArg (_ :: ·) (redactItems_eq rest depth)

/-- The new keys are distinct, and none of them is in use. -/
theorem redactEntries_keys : ∀ (fields : List (String × Json ν)) (depth : Nat)
    (usedKeys : List String) (index : Nat),
    ((redactEntries toLowerCase redactReportText fields depth usedKeys index).map
      Prod.fst).Nodup ∧
      ∀ key ∈ (redactEntries toLowerCase redactReportText fields depth usedKeys index).map Prod.fst,
        key ∉ usedKeys := by
  intro fields depth
  induction fields with
  | nil =>
    intro usedKeys index
    exact ⟨List.nodup_nil, fun _ h => nomatch h⟩
  | cons field rest ih =>
    intro usedKeys index
    have hfresh := safeKey_notMem usedKeys index (redactReportText field.1)
    obtain ⟨hnodup, hfree⟩ :=
      ih (safeKey usedKeys index (redactReportText field.1) :: usedKeys) (index + 1)
    constructor
    · refine List.nodup_cons.mpr ⟨fun hmem => ?_, hnodup⟩
      exact hfree _ hmem List.mem_cons_self
    · intro key hkey
      rcases List.mem_cons.mp hkey with rfl | hkey
      · exact hfresh
      · exact fun hused => hfree key hkey (List.mem_cons_of_mem _ hused)

theorem fromEntries_redacted (fields : List (String × Json ν)) (depth : Nat) :
    fromEntries (redactEntries toLowerCase redactReportText fields depth [] 0) =
      redactEntries toLowerCase redactReportText fields depth [] 0 := by
  unfold fromEntries
  rw [OrderedMap.entries_foldl_set]
  exact OrderedMap.foldl_upsert _ [] (redactEntries_keys redactReportText fields depth [] 0).1

theorem redactEntries_length : ∀ (fields : List (String × Json ν)) (depth : Nat)
    (usedKeys : List String) (index : Nat),
    (redactEntries toLowerCase redactReportText fields depth usedKeys index).length = fields.length
  | [], _, _, _ => rfl
  | _ :: rest, depth, _, _ => congrArg (· + 1) (redactEntries_length rest depth _ _)

/-- The entry at a position is the redacted one of that position. -/
theorem redactEntries_getElem? : ∀ {fields : List (String × Json ν)} {i : Nat} {key : String}
    {item : Json ν} (depth : Nat) (usedKeys : List String) (index : Nat),
    fields[i]? = some (key, item) → masked toLowerCase key = false →
    ∃ safe, (redactEntries toLowerCase redactReportText fields depth usedKeys index)[i]? =
      some (safe, redactTraceValue toLowerCase redactReportText item depth)
  | [], i, _, _, _, _, _, hget, _ => by simp at hget
  | field :: rest, 0, key, item, depth, usedKeys, index, hget, hshown => by
    obtain rfl : field = (key, item) := by simpa using hget
    refine ⟨safeKey usedKeys index (redactReportText key), ?_⟩
    simp [redactEntries, hshown]
  | field :: rest, i + 1, _, _, depth, usedKeys, index, hget, hshown =>
    redactEntries_getElem? depth _ (index + 1) (by simpa using hget) hshown

variable (toLowerCase) in
/-- The value at a path of positions that no masked key is on. -/
def shownAt : Json ν → List Nat → Option (Json ν)
  | value, [] => some value
  | .array items, i :: path => items[i]?.bind fun item => shownAt item path
  | .object fields, i :: path => fields[i]?.bind fun field =>
    if masked toLowerCase field.1 then none else shownAt field.2 path
  | _, _ :: _ => none

/-- The value at a path of positions. -/
def valueAt : Json ν → List Nat → Option (Json ν)
  | value, [] => some value
  | .array items, i :: path => items[i]?.bind fun item => valueAt item path
  | .object fields, i :: path => fields[i]?.bind fun field => valueAt field.2 path
  | _, _ :: _ => none

/-- An object within the depth limit has one field for each of its source. -/
theorem fields_kept : ∀ {path : List Nat} {value : Json ν} {depth : Nat}
    {fields : List (String × Json ν)}, shownAt toLowerCase value path = some (.object fields) →
    path.length < depth → ∃ fields',
      valueAt (redactTraceValue toLowerCase redactReportText value depth) path =
        some (.object fields') ∧ fields'.length = fields.length := by
  intro path
  induction path with
  | nil =>
    intro value depth fields hvalue hdepth
    obtain rfl : value = .object fields := by simpa [shownAt] using hvalue
    obtain ⟨depth, rfl⟩ := Nat.exists_eq_succ_of_ne_zero (Nat.pos_iff_ne_zero.mp hdepth)
    refine ⟨redactEntries toLowerCase redactReportText fields depth [] 0, ?_,
      redactEntries_length redactReportText fields depth [] 0⟩
    rw [redactTraceValue, fromEntries_redacted, valueAt]
  | cons i path ih =>
    intro value depth fields hvalue hdepth
    obtain ⟨depth, rfl⟩ := Nat.exists_eq_succ_of_ne_zero (Nat.ne_zero_of_lt hdepth)
    have hrest : path.length < depth := Nat.lt_of_succ_lt_succ hdepth
    cases value with
    | array items =>
      obtain ⟨item, hitem, hfound⟩ := Option.bind_eq_some_iff.mp hvalue
      obtain ⟨fields', hfields', hlength⟩ := ih hfound hrest
      refine ⟨fields', ?_, hlength⟩
      rw [redactTraceValue, redactItems_eq, valueAt, List.getElem?_map, hitem]
      exact hfields'
    | object fields₀ =>
      obtain ⟨field, hfield, hfound⟩ := Option.bind_eq_some_iff.mp hvalue
      split at hfound
      · cases hfound
      · rename_i hshown
        obtain ⟨fields', hfields', hlength⟩ := ih hfound hrest
        obtain ⟨safe, hsafe⟩ := redactEntries_getElem? redactReportText depth [] 0 hfield
          (Bool.eq_false_iff.mpr hshown)
        refine ⟨fields', ?_, hlength⟩
        rw [redactTraceValue, fromEntries_redacted, valueAt, hsafe]
        exact hfields'
    | _ => cases hvalue

/-- Nothing under a masked key shows, and no field gets lost. -/
structure Redacts (toLowerCase redactReportText : String → String) (ν : Type) : Prop where
  hides : ∀ (value value' : Json ν) (depth : Nat), Agree toLowerCase value value' →
    redactTraceValue toLowerCase redactReportText value depth =
      redactTraceValue toLowerCase redactReportText value' depth
  keeps : ∀ (value : Json ν) (depth : Nat) (path : List Nat) (fields : List (String × Json ν)),
    path.length < depth → shownAt toLowerCase value path = some (.object fields) →
    ∃ fields', valueAt (redactTraceValue toLowerCase redactReportText value depth) path =
      some (.object fields') ∧ fields'.length = fields.length

theorem trace_redaction (toLowerCase redactReportText : String → String) (ν : Type) :
    Redacts toLowerCase redactReportText ν where
  hides _ _ depth h := h.redacted redactReportText depth
  keeps _ _ _ _ hdepth hshown := fields_kept redactReportText hshown hdepth

/-- A second key that redacts to the first one's text is renamed. -/
example : (redactTraceValue (ν := Unit) (fun s => s) (fun _ => "$USER_HOME")
    (.object [("/Users/alice", .null), ("/Users/bob", .null), ("token", .string "private")]) 8) =
      .object [("$USER_HOME", .null), ("field-1", .null), ("field-2", .string "[REDACTED]")] := by
  rfl

end

end SurfaceLoom.Reporter.TraceRedaction
