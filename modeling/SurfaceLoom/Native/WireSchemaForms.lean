import SurfaceLoom.Native.WireSchema

/-! # The client's schema accepts the forms

Each validator succeeds with a value exactly when the input has the form of that value. -/
namespace SurfaceLoom.Native.WireSchemaForms
open SurfaceLoom.Lib SurfaceLoom.Lib.Checked SurfaceLoom.Native.Wire SurfaceLoom.Native.WireSchema

variable {ν : Type}

/-! ## Primitives -/

@[simp] theorem record_ok {value : Json ν} {label : String} {keys : List String} {fields : Record ν} :
    record value label keys = .ok fields ↔
      value = .object fields ∧ ∀ key ∈ fields.map Prod.fst, key ∈ keys := by
  cases value with
  | object found =>
    simp only [record]
    split
    · rename_i field hfind
      have hmem := List.mem_of_find?_eq_some hfind
      have hunknown : field.1 ∉ keys := by simpa using List.find?_some hfind
      refine ⟨nofun, fun ⟨heq, hkeys⟩ => ?_⟩
      cases heq
      exact absurd (hkeys field.1 (List.mem_map_of_mem hmem)) hunknown
    · rename_i hfind
      have hknown : ∀ key ∈ found.map Prod.fst, key ∈ keys := by
        intro key hkey
        obtain ⟨field, hfield, rfl⟩ := List.mem_map.mp hkey
        by_contra hunknown
        exact List.find?_eq_none.mp hfind field hfield (decide_eq_true hunknown)
      refine ⟨fun h => ?_, fun ⟨heq, _⟩ => ?_⟩
      · cases h
        exact ⟨rfl, hknown⟩
      · cases heq
        rfl
  | _ => exact ⟨nofun, fun h => nomatch h.1⟩

@[simp] theorem required_ok {input : Record ν} {key label : String} {value : Json ν} :
    required input key label = .ok value ↔ Json.get? input key = some value := by
  unfold required
  cases Json.get? input key with
  | none => exact ⟨nofun, nofun⟩
  | some found => exact ⟨fun h => congrArg some (Except.ok.inj h), fun h => by cases h; rfl⟩

@[simp] theorem text_ok {value : Json ν} {label found : String} {maximum : Nat} :
    text value label maximum = .ok found ↔ value = .string found ∧ isText maximum found = true := by
  cases value with
  | string text' =>
    simp only [text]
    split
    · rename_i hbounded
      refine ⟨fun h => ?_, fun ⟨heq, _⟩ => ?_⟩
      · cases h
        exact ⟨rfl, hbounded⟩
      · cases heq
        rfl
    · rename_i hunbounded
      refine ⟨nofun, fun ⟨heq, hbounded⟩ => ?_⟩
      cases heq
      exact absurd hbounded hunbounded
  | _ => exact ⟨nofun, fun h => nomatch h.1⟩

@[simp] theorem identifier_ok {value : Json ν} {label id : String} :
    identifier value label = .ok id ↔
      value = .string id ∧ isText 128 id = true ∧ isIdentifier id = true := by
  unfold identifier
  rw [bind_ok]
  constructor
  · rintro ⟨found, htext, h⟩
    obtain ⟨hvalue, hbounded⟩ := text_ok.mp htext
    split at h
    · rename_i hid
      cases h
      exact ⟨hvalue, hbounded, hid⟩
    · cases h
  · rintro ⟨hvalue, hbounded, hid⟩
    exact ⟨id, text_ok.mpr ⟨hvalue, hbounded⟩, if_pos hid⟩

theorem methodName_ok {value : Json ν} {label name : String} :
    methodName value label = .ok name ↔
      value = .string name ∧ isText 128 name = true ∧ methodNameChars name.toList = true := by
  unfold methodName
  rw [bind_ok]
  constructor
  · rintro ⟨found, htext, h⟩
    obtain ⟨hvalue, hbounded⟩ := text_ok.mp htext
    split at h
    · rename_i hname
      cases h
      exact ⟨hvalue, hbounded, hname⟩
    · cases h
  · rintro ⟨hvalue, hbounded, hname⟩
    exact ⟨name, text_ok.mpr ⟨hvalue, hbounded⟩, if_pos hname⟩

@[simp] theorem choice_ok {α : Type} {value : Json ν} {choices : List (String × α)} {label : String} {a : α} :
    choice value choices label = .ok a ↔
      ∃ word, value = .string word ∧ ofWord choices word = some a := by
  cases value with
  | string word =>
    simp only [choice]
    cases hword : ofWord choices word with
    | none =>
      refine ⟨nofun, fun ⟨word', heq, hsome⟩ => ?_⟩
      cases heq
      rw [hword] at hsome
      cases hsome
    | some found =>
      refine ⟨fun h => ⟨word, rfl, by rw [hword, Except.ok.inj h]⟩, fun ⟨word', heq, hsome⟩ => ?_⟩
      cases heq
      rw [hword] at hsome
      cases hsome
      rfl
  | _ => exact ⟨nofun, fun ⟨_, heq, _⟩ => nomatch heq⟩

@[simp] theorem isString_iff {value : Json ν} {text : String} :
    isString value text = true ↔ value = .string text := by
  cases value with
  | string found => simp [isString]
  | _ => simp [isString]

@[simp] theorem isObject_iff {value : Json ν} : isObject value = true ↔ IsObject value := by
  cases value with
  | object fields => simp [isObject, IsObject]
  | _ => simp [isObject, IsObject]

/-! ## Scopes -/

theorem hasIdentifier_iff {fields : Record ν} {key id : String} (label label' : String) :
    (∃ value, required fields key label = .ok value ∧ identifier value label' = .ok id) ↔
      HasIdentifier (.object fields) key id := by
  constructor
  · rintro ⟨value, hvalue, hid⟩
    obtain ⟨heq, hid⟩ := identifier_ok.mp hid
    rw [heq] at hvalue
    exact ⟨required_ok.mp hvalue, hid⟩
  · rintro ⟨hvalue, hid⟩
    exact ⟨.string id, required_ok.mpr hvalue, identifier_ok.mpr ⟨rfl, hid⟩⟩

theorem hasWord_iff {α : Type} {fields : Record ν} {key : String} {words : List (String × α)}
    {a : α} (label label' : String) :
    (∃ value, required fields key label = .ok value ∧ choice value words label' = .ok a) ↔
      HasWord (.object fields) key words a := by
  constructor
  · rintro ⟨value, hvalue, hchoice⟩
    obtain ⟨word, rfl, hword⟩ := choice_ok.mp hchoice
    exact ⟨word, required_ok.mp hvalue, hword⟩
  · rintro ⟨word, hvalue, hword⟩
    exact ⟨.string word, required_ok.mpr hvalue, choice_ok.mpr ⟨word, rfl, hword⟩⟩

theorem isRecord_iff {value : Json ν} {keys : List String} (label : String) :
    (∃ fields, record value label keys = .ok fields) ↔ IsRecord value keys := by
  simp only [record_ok, IsRecord]

theorem scope_form {value : Json ν} {result : NativeScope} (h : scope value = .ok result) :
    ScopeForm value result := by
  obtain ⟨fields, hrecord, h⟩ := bind_ok.mp h
  obtain ⟨rfl, -⟩ := record_ok.mp hrecord
  obtain ⟨kind, hkind, h⟩ := bind_ok.mp h
  replace hkind := required_ok.mp hkind
  split at h
  · rename_i hbootstrap
    rw [isString_iff.mp hbootstrap] at hkind
    obtain ⟨found, hfields, h⟩ := bind_ok.mp h
    cases h
    exact .bootstrap ((isRecord_iff _).mp ⟨found, hfields⟩) hkind
  obtain ⟨hostInput, hhost, h⟩ := bind_ok.mp h
  obtain ⟨hostInstanceId, hhostId, h⟩ := bind_ok.mp h
  replace hhost := (hasIdentifier_iff _ _).mp ⟨hostInput, hhost, hhostId⟩
  split at h
  · rename_i hkindHost
    rw [isString_iff.mp hkindHost] at hkind
    obtain ⟨found, hfields, h⟩ := bind_ok.mp h
    cases h
    exact .host ((isRecord_iff _).mp ⟨found, hfields⟩) hkind hhost
  obtain ⟨sessionInput, hsession, h⟩ := bind_ok.mp h
  obtain ⟨sessionId, hsessionId, h⟩ := bind_ok.mp h
  replace hsession := (hasIdentifier_iff _ _).mp ⟨sessionInput, hsession, hsessionId⟩
  split at h
  · rename_i hkindSession
    rw [isString_iff.mp hkindSession] at hkind
    obtain ⟨found, hfields, h⟩ := bind_ok.mp h
    cases h
    exact .session ((isRecord_iff _).mp ⟨found, hfields⟩) hkind hhost hsession
  split at h
  · rename_i hkindHandle
    rw [isString_iff.mp hkindHandle] at hkind
    obtain ⟨found, hfields, h⟩ := bind_ok.mp h
    obtain ⟨handleInput, hhandle, h⟩ := bind_ok.mp h
    obtain ⟨handleId, hhandleId, h⟩ := bind_ok.mp h
    cases h
    exact .handle ((isRecord_iff _).mp ⟨found, hfields⟩) hkind hhost hsession
      ((hasIdentifier_iff _ _).mp ⟨handleInput, hhandle, hhandleId⟩)
  · cases h

theorem isString_ne {text text' : String} (h : text ≠ text') :
    ¬ isString (Json.string text : Json ν) text' = true := by
  intro heq
  cases isString_iff.mp heq
  exact h rfl

theorem scope_ok {value : Json ν} {result : NativeScope} :
    scope value = .ok result ↔ ScopeForm value result := by
  refine ⟨scope_form, fun h => ?_⟩
  have hall : IsRecord value (scopeFields .handle) := by
    cases h with
    | bootstrap fields => exact IsRecord.mono fields (by decide)
    | host fields => exact IsRecord.mono fields (by decide)
    | session fields => exact IsRecord.mono fields (by decide)
    | handle fields => exact fields
  obtain ⟨found, hvalue, hkeys⟩ := hall
  subst hvalue
  refine bind_ok.mpr ⟨found, record_ok.mpr ⟨rfl, hkeys⟩, ?_⟩
  cases h with
  | bootstrap fields kind =>
    obtain ⟨own, hown⟩ := (isRecord_iff _).mpr fields
    refine bind_ok.mpr ⟨_, required_ok.mpr kind, ?_⟩
    rw [if_pos (isString_iff.mpr rfl)]
    exact bind_ok.mpr ⟨own, hown, rfl⟩
  | host fields kind hid =>
    obtain ⟨own, hown⟩ := (isRecord_iff _).mpr fields
    obtain ⟨input, hinput, hid⟩ := (hasIdentifier_iff _ _).mpr hid
    refine bind_ok.mpr ⟨_, required_ok.mpr kind, ?_⟩
    rw [if_neg (isString_ne (by decide))]
    refine bind_ok.mpr ⟨input, hinput, bind_ok.mpr ⟨_, hid, ?_⟩⟩
    rw [if_pos (isString_iff.mpr rfl)]
    exact bind_ok.mpr ⟨own, hown, rfl⟩
  | session fields kind hid sid =>
    obtain ⟨own, hown⟩ := (isRecord_iff _).mpr fields
    obtain ⟨input, hinput, hid⟩ := (hasIdentifier_iff _ _).mpr hid
    obtain ⟨sessionInput, hsession, sid⟩ := (hasIdentifier_iff _ _).mpr sid
    refine bind_ok.mpr ⟨_, required_ok.mpr kind, ?_⟩
    rw [if_neg (isString_ne (by decide))]
    refine bind_ok.mpr ⟨input, hinput, bind_ok.mpr ⟨_, hid, ?_⟩⟩
    rw [if_neg (isString_ne (by decide))]
    refine bind_ok.mpr ⟨sessionInput, hsession, bind_ok.mpr ⟨_, sid, ?_⟩⟩
    rw [if_pos (isString_iff.mpr rfl)]
    exact bind_ok.mpr ⟨own, hown, rfl⟩
  | handle fields kind hid sid handleId =>
    obtain ⟨own, hown⟩ := (isRecord_iff _).mpr fields
    obtain ⟨input, hinput, hid⟩ := (hasIdentifier_iff _ _).mpr hid
    obtain ⟨sessionInput, hsession, sid⟩ := (hasIdentifier_iff _ _).mpr sid
    obtain ⟨handleInput, hhandle, handleId⟩ := (hasIdentifier_iff _ _).mpr handleId
    refine bind_ok.mpr ⟨_, required_ok.mpr kind, ?_⟩
    rw [if_neg (isString_ne (by decide))]
    refine bind_ok.mpr ⟨input, hinput, bind_ok.mpr ⟨_, hid, ?_⟩⟩
    rw [if_neg (isString_ne (by decide))]
    refine bind_ok.mpr ⟨sessionInput, hsession, bind_ok.mpr ⟨_, sid, ?_⟩⟩
    rw [if_neg (isString_ne (by decide)), if_pos (isString_iff.mpr rfl)]
    exact bind_ok.mpr ⟨own, hown, bind_ok.mpr ⟨handleInput, hhandle, bind_ok.mpr ⟨_, handleId, rfl⟩⟩⟩

theorem readOperationId_ok {fields : Record ν} {operationId : Option String} :
    readOperationId fields = .ok operationId ↔
      (Json.object fields).member? "operationId" = none ∧ operationId = none ∨
        ∃ id, HasIdentifier (.object fields) "operationId" id ∧ operationId = some id := by
  show _ ↔ Json.get? fields "operationId" = none ∧ operationId = none ∨
    ∃ id, (Json.get? fields "operationId" = some (.string id) ∧ _) ∧ operationId = some id
  unfold readOperationId
  cases Json.get? fields "operationId" with
  | none =>
    refine ⟨fun h => .inl ⟨rfl, (Except.ok.inj h).symm⟩, fun h => ?_⟩
    rcases h with ⟨-, rfl⟩ | ⟨id, ⟨hid, -⟩, -⟩
    · rfl
    · cases hid
  | some value =>
    simp only [map_ok, identifier_ok]
    constructor
    · rintro ⟨id, ⟨rfl, hid⟩, rfl⟩
      exact .inr ⟨id, ⟨rfl, hid⟩, rfl⟩
    · rintro (⟨hnone, -⟩ | ⟨id, ⟨hsome, hid⟩, rfl⟩)
      · cases hnone
      · exact ⟨id, ⟨Option.some.inj hsome, hid⟩, rfl⟩

theorem header_ok {fields : Record ν} {type id : String} (htype : HasText (.object fields) "type" type) :
    (header fields = .ok () ∧ ∃ label, identifier (field fields "id") label = .ok id) ↔
      HeaderForm (.object fields) type id := by
  constructor
  · rintro ⟨h, label, hid⟩
    obtain ⟨protocol, hprotocol, h⟩ := bind_ok.mp h
    split at h
    · cases h
    rename_i hname
    rw [not_not] at hname
    obtain ⟨version, hversion, h⟩ := bind_ok.mp h
    split at h
    · cases h
    rename_i hnumber
    rw [not_not] at hnumber
    obtain ⟨idInput, hidInput, -⟩ := bind_ok.mp h
    rw [isString_iff.mp hname] at hprotocol
    rw [isString_iff.mp hnumber] at hversion
    have hfield : field fields "id" = idInput := by
      rw [field, required_ok.mp hidInput]
      rfl
    rw [hfield] at hid
    exact ⟨required_ok.mp hprotocol, required_ok.mp hversion, htype,
      (hasIdentifier_iff _ _).mp ⟨idInput, hidInput, hid⟩⟩
  · rintro ⟨hprotocol, hversion, -, hid⟩
    obtain ⟨idInput, hidInput, hread⟩ := (hasIdentifier_iff "message" "message.id").mpr hid
    have hget : Json.get? fields "id" = some (.string id) := hid.1
    have hfield : field fields "id" = .string id := by
      rw [field, hget]
      rfl
    refine ⟨bind_ok.mpr ⟨_, required_ok.mpr hprotocol, ?_⟩, "message.id", ?_⟩
    · rw [if_neg (not_not.mpr (isString_iff.mpr rfl))]
      refine bind_ok.mpr ⟨_, required_ok.mpr hversion, ?_⟩
      rw [if_neg (not_not.mpr (isString_iff.mpr rfl))]
      exact bind_ok.mpr ⟨idInput, hidInput, bind_ok.mpr ⟨id, hread, rfl⟩⟩
    · rw [hfield]
      exact identifier_ok.mpr ⟨rfl, hid.2⟩

theorem cancelMessage_ok {value : Json ν} {result : NativeCancel}
    (htype : HasText value "type" "cancel") :
    cancelMessage value = .ok result ↔ CancelForm value result := by
  constructor
  · intro h
    replace h := bind_ok.mp h
    obtain ⟨fields, hrecord, h⟩ := h
    have hfields := (isRecord_iff _).mp ⟨fields, hrecord⟩
    obtain ⟨rfl, -⟩ := record_ok.mp hrecord
    obtain ⟨_, hheader, h⟩ := bind_ok.mp h
    obtain ⟨id, hid, h⟩ := bind_ok.mp h
    obtain ⟨requestInput, hrequestInput, h⟩ := bind_ok.mp h
    obtain ⟨requestId, hrequestId, h⟩ := bind_ok.mp h
    split at h
    · cases h
    rename_i hother
    obtain ⟨reasonInput, hreasonInput, h⟩ := bind_ok.mp h
    obtain ⟨reason, hreason, h⟩ := bind_ok.mp h
    cases h
    exact ⟨hfields, (header_ok htype).mp ⟨hheader, _, hid⟩,
      (hasIdentifier_iff _ _).mp ⟨requestInput, hrequestInput, hrequestId⟩, hother,
      (hasWord_iff _ _).mp ⟨reasonInput, hreasonInput, hreason⟩⟩
  · intro h
    obtain ⟨fields, hrecord⟩ := (isRecord_iff "message").mpr h.fields
    obtain ⟨rfl, -⟩ := record_ok.mp hrecord
    obtain ⟨hheader, label, hid⟩ := (header_ok htype).mpr h.header
    obtain ⟨requestInput, hrequestInput, hrequestId⟩ := (hasIdentifier_iff _ _).mpr h.requestID
    obtain ⟨reasonInput, hreasonInput, hreason⟩ := (hasWord_iff _ _).mpr h.reason
    refine bind_ok.mpr ⟨fields, hrecord, bind_ok.mpr ⟨(), hheader, bind_ok.mpr ⟨_,
      identifier_ok.mpr (identifier_ok.mp hid), bind_ok.mpr ⟨requestInput, hrequestInput,
        bind_ok.mpr ⟨_, hrequestId, ?_⟩⟩⟩⟩⟩
    rw [if_neg h.other]
    exact bind_ok.mpr ⟨reasonInput, hreasonInput, bind_ok.mpr ⟨_, hreason, rfl⟩⟩

variable [JsonNumber ν]

/-- From 0 up to a bound that is itself a safe integer. -/
theorem integer_ok {value : Json ν} {label : String} {maximum n : Nat}
    (hmaximum : maximum ≤ 9007199254740991) :
    integer value label 0 maximum = .ok n ↔ ∃ token, value = .number token ∧
      JsonNumber.integer? token = some (n : Int) ∧ n ≤ maximum := by
  cases value with
  | number token =>
    simp only [integer, safeInteger?]
    cases htoken : JsonNumber.integer? token with
    | none =>
      refine ⟨nofun, fun ⟨token', heq, hsome, _⟩ => ?_⟩
      cases heq
      rw [htoken] at hsome
      cases hsome
    | some m =>
      rw [Option.filter_some]
      constructor
      · intro h
        split at h
        · rename_i n' hn'
          split at hn'
          · cases hn'
            split at h
            · cases h
            · cases h
              exact ⟨token, rfl, by rw [htoken]; congr 1; omega, by omega⟩
          · cases hn'
        · cases h
      · rintro ⟨token', heq, hsome, hle⟩
        cases heq
        rw [htoken] at hsome
        cases hsome
        rw [if_pos (decide_eq_true (by omega))]
        dsimp only
        rw [if_neg (by omega)]
        rfl
  | _ => exact ⟨nofun, fun ⟨_, heq, _⟩ => nomatch heq⟩

/-! ## Carried values -/

/-- What `jsonValue` accepts at a depth. -/
def Fits (depth : Nat) (value : Json ν) : Prop := depth + value.height ≤ 32 ∧ allFinite value = true

def JsonValueOk (value : Json ν) : Prop := ∀ (label : String) (depth : Nat) (result : Json ν),
  jsonValue label depth value = .ok result ↔ result = value ∧ Fits depth value

theorem jsonItems_ok {label : String} {depth : Nat} : ∀ {items result : List (Json ν)} {index : Nat},
    (∀ item ∈ items, JsonValueOk item) → (jsonItems label depth index items = .ok result ↔
      result = items ∧ ∀ item ∈ items, Fits depth item)
  | [], result, index, _ => by
    simp only [jsonItems, Except.ok.injEq, List.not_mem_nil, false_imp_iff, implies_true, and_true]
    exact eq_comm
  | item :: rest, result, index, h => by
    have hitem : JsonValueOk item := h item List.mem_cons_self
    have hrest : ∀ item' ∈ rest, JsonValueOk item' :=
      fun item' hmem => h item' (List.mem_cons_of_mem _ hmem)
    simp only [jsonItems, bind_ok, hitem _ _ _, jsonItems_ok hrest, List.forall_mem_cons]
    constructor
    · rintro ⟨_, ⟨rfl, hfits⟩, _, ⟨rfl, hfits'⟩, heq⟩
      exact ⟨(Except.ok.inj heq).symm, hfits, hfits'⟩
    · rintro ⟨rfl, hfits, hfits'⟩
      exact ⟨item, ⟨rfl, hfits⟩, rest, ⟨rfl, hfits'⟩, rfl⟩

theorem jsonFields_ok {label : String} {depth : Nat} : ∀ {fields result : Record ν},
    (∀ field ∈ fields, JsonValueOk field.2) → (jsonFields label depth fields = .ok result ↔
      result = fields ∧ ∀ field ∈ fields, Fits depth field.2)
  | [], result, _ => by
    simp only [jsonFields, Except.ok.injEq, List.not_mem_nil, false_imp_iff, implies_true, and_true]
    exact eq_comm
  | (key, item) :: rest, result, h => by
    have hitem : JsonValueOk item := h (key, item) List.mem_cons_self
    have hrest : ∀ field ∈ rest, JsonValueOk field.2 :=
      fun field hmem => h field (List.mem_cons_of_mem _ hmem)
    simp only [jsonFields, bind_ok, hitem _ _ _, jsonFields_ok hrest, List.forall_mem_cons]
    constructor
    · rintro ⟨_, ⟨rfl, hfits⟩, _, ⟨rfl, hfits'⟩, heq⟩
      exact ⟨(Except.ok.inj heq).symm, hfits, hfits'⟩
    · rintro ⟨rfl, hfits, hfits'⟩
      exact ⟨item, ⟨rfl, hfits⟩, rest, ⟨rfl, hfits'⟩, rfl⟩

theorem tooDeep_or {label : String} {depth : Nat} {x : Validated (Json ν)} {result : Json ν} :
    (if depth > 32 then tooDeep label else x) = .ok result ↔ depth ≤ 32 ∧ x = .ok result := by
  split
  · exact ⟨nofun, fun h => by omega⟩
  · exact ⟨fun h => ⟨by omega, h⟩, fun h => h.2⟩

theorem jsonValue_ok (value : Json ν) : JsonValueOk value := by
  intro label depth result
  induction value using Json.induct generalizing label depth result with
  | null =>
    simp only [jsonValue, tooDeep_or, Fits, Json.height, allFinite, Except.ok.injEq]
    tauto
  | bool b =>
    simp only [jsonValue, tooDeep_or, Fits, Json.height, allFinite, Except.ok.injEq]
    tauto
  | string s =>
    simp only [jsonValue, tooDeep_or, Fits, Json.height, allFinite, Except.ok.injEq]
    tauto
  | number n =>
    simp only [jsonValue, tooDeep_or, Fits, Json.height, allFinite]
    cases JsonNumber.isFinite n with
    | false => simp [invalid]
    | true =>
      simp only [if_true, Except.ok.injEq]
      tauto
  | array items ih =>
    simp only [jsonValue, tooDeep_or, map_ok, jsonItems_ok fun item hitem => ih item hitem, Fits,
      Json.height, allFinite, allFiniteItems_iff]
    constructor
    · rintro ⟨hdepth, found, ⟨hfound, hfits⟩, heq⟩
      refine ⟨by rw [← heq, hfound], ?_, fun item hitem => (hfits item hitem).2⟩
      have hheight : Json.itemsHeight items ≤ 32 - depth :=
        Json.itemsHeight_le.mpr fun item hitem => by
          have := (hfits item hitem).1
          omega
      omega
    · rintro ⟨rfl, hheight, hfinite⟩
      refine ⟨by omega, items, ⟨rfl, fun item hitem => ⟨?_, hfinite item hitem⟩⟩, rfl⟩
      have := Json.itemsHeight_le.mp le_rfl item hitem
      omega
  | object fields ih =>
    simp only [jsonValue, tooDeep_or, map_ok, jsonFields_ok fun field hfield => ih field hfield, Fits,
      Json.height, allFinite, allFiniteFields_iff]
    constructor
    · rintro ⟨hdepth, found, ⟨hfound, hfits⟩, heq⟩
      refine ⟨by rw [← heq, hfound], ?_, fun field hfield => (hfits field hfield).2⟩
      have hheight : Json.fieldsHeight fields ≤ 32 - depth :=
        Json.fieldsHeight_le.mpr fun field hfield => by
          have := (hfits field hfield).1
          omega
      omega
    · rintro ⟨rfl, hheight, hfinite⟩
      refine ⟨by omega, fields, ⟨rfl, fun field hfield => ⟨?_, hfinite field hfield⟩⟩, rfl⟩
      have := Json.fieldsHeight_le.mp le_rfl field hfield
      omega

theorem carried_iff {label : String} {value result : Json ν} :
    jsonValue label 0 value = .ok result ↔ result = value ∧ Carried value := by
  rw [jsonValue_ok value label 0 result, Fits, Carried, Nat.zero_add, and_comm (a := _ ≤ _)]

/-! ## Messages -/

/-- The client reads a number by its value and names a method by the pattern. -/
def typeScript : Dialect ν := ⟨JsonNumber.integer?, fun name => methodNameChars name.toList⟩

theorem deadline_ok {value : Json ν} {timeoutMs : Nat} :
    deadline value = .ok timeoutMs ↔ ∃ token, DeadlineForm typeScript value token timeoutMs := by
  constructor
  · intro h
    obtain ⟨fields, hrecord, h⟩ := bind_ok.mp h
    obtain ⟨found, hfound, h⟩ := bind_ok.mp h
    obtain ⟨token, rfl, hinteger, hle⟩ := (integer_ok (by decide)).mp h
    have hrecord' := (isRecord_iff _).mp ⟨fields, hrecord⟩
    obtain ⟨rfl, -⟩ := record_ok.mp hrecord
    exact ⟨token, hrecord', required_ok.mp hfound, hinteger, hle⟩
  · rintro ⟨token, hrecord, hnumber, hinteger, hle⟩
    obtain ⟨fields, hfields⟩ := (isRecord_iff "deadline").mpr hrecord
    obtain ⟨rfl, -⟩ := record_ok.mp hfields
    exact bind_ok.mpr ⟨fields, hfields, bind_ok.mpr ⟨_, required_ok.mpr hnumber,
      (integer_ok (by decide)).mpr ⟨token, rfl, hinteger, hle⟩⟩⟩

theorem call_form {value : Json ν} {result : NativeCall (Json ν)} (h : call value = .ok result) :
    CallForm typeScript value result := by
  replace h := bind_ok.mp h
  obtain ⟨fields, hrecord, h⟩ := h
  have hfields := (isRecord_iff _).mp ⟨fields, hrecord⟩
  obtain ⟨rfl, -⟩ := record_ok.mp hrecord
  obtain ⟨nameInput, hnameInput, h⟩ := bind_ok.mp h
  obtain ⟨name, hname, h⟩ := bind_ok.mp h
  obtain ⟨hnameText, hbounded, hmethod⟩ := methodName_ok.mp hname
  rw [hnameText] at hnameInput
  obtain ⟨intentInput, hintentInput, h⟩ := bind_ok.mp h
  obtain ⟨intent, hintent, h⟩ := bind_ok.mp h
  obtain ⟨operationID, hoperation, h⟩ := bind_ok.mp h
  split at h
  · cases h
  split at h
  · cases h
  obtain ⟨payloadInput, hpayloadInput, h⟩ := bind_ok.mp h
  obtain ⟨payload, hpayload, h⟩ := bind_ok.mp h
  obtain ⟨hsame, hcarried⟩ := carried_iff.mp hpayload
  rw [← hsame] at hpayloadInput hcarried
  split at h
  · cases h
  rename_i hobject
  rw [not_not] at hobject
  obtain ⟨scopeInput, hscopeInput, h⟩ := bind_ok.mp h
  obtain ⟨checkedScope, hscope, h⟩ := bind_ok.mp h
  split at h
  · cases h
  rename_i hbootstrap
  split at h
  · cases h
  rename_i hhandshake
  split at h
  · cases h
  rename_i hlaunch
  cases h
  exact
    { fields := hfields
      name := required_ok.mp hnameInput
      bounded := hbounded
      named := hmethod
      intent := (hasWord_iff _ _).mp ⟨intentInput, hintentInput, hintent⟩
      scope := ⟨scopeInput, required_ok.mp hscopeInput, scope_ok.mp hscope⟩
      payload := required_ok.mp hpayloadInput
      object := isObject_iff.mp hobject
      carried := hcarried
      operation := readOperationId_ok.mp hoperation
      bootstrap := by simpa using hbootstrap
      handshake := by simpa using hhandshake
      launch := by simpa [not_or] using hlaunch }

theorem call_ok {value : Json ν} {result : NativeCall (Json ν)} :
    call value = .ok result ↔ CallForm typeScript value result := by
  refine ⟨call_form, fun h => ?_⟩
  obtain ⟨fields, hrecord⟩ := (isRecord_iff "call").mpr h.fields
  obtain ⟨rfl, -⟩ := record_ok.mp hrecord
  obtain ⟨intentInput, hintentInput, hintent⟩ := (hasWord_iff _ _).mpr h.intent
  obtain ⟨scopeInput, hscopeInput, hscope⟩ := h.scope
  obtain ⟨hobserve, heffect⟩ := sideEffecting_checks result.sideEffecting
  refine bind_ok.mpr ⟨fields, hrecord, bind_ok.mpr ⟨_, required_ok.mpr h.name, bind_ok.mpr ⟨_,
    methodName_ok.mpr ⟨rfl, h.bounded, h.named⟩, bind_ok.mpr ⟨intentInput, hintentInput,
      bind_ok.mpr ⟨_, hintent, bind_ok.mpr ⟨_, readOperationId_ok.mpr h.operation, ?_⟩⟩⟩⟩⟩⟩
  rw [dif_neg hobserve, dif_neg heffect]
  refine bind_ok.mpr ⟨_, required_ok.mpr h.payload, bind_ok.mpr ⟨_,
    carried_iff.mpr ⟨rfl, h.carried⟩, ?_⟩⟩
  rw [if_neg (not_not.mpr (isObject_iff.mpr h.object))]
  refine bind_ok.mpr ⟨scopeInput, required_ok.mpr hscopeInput, bind_ok.mpr ⟨_,
    scope_ok.mpr hscope, ?_⟩⟩
  rw [if_neg (by simpa using h.bootstrap), if_neg (by simpa using h.handshake),
    if_neg (by simpa [not_or] using h.launch)]

theorem requestMessage_ok {value : Json ν} {result : NativeRequest (Json ν)}
    (htype : HasText value "type" "request") :
    requestMessage value = .ok result ↔ ∃ token, RequestForm typeScript value token result := by
  constructor
  · intro h
    replace h := bind_ok.mp h
    obtain ⟨fields, hrecord, h⟩ := h
    have hfields := (isRecord_iff _).mp ⟨fields, hrecord⟩
    obtain ⟨rfl, -⟩ := record_ok.mp hrecord
    obtain ⟨_, hheader, h⟩ := bind_ok.mp h
    obtain ⟨id, hid, h⟩ := bind_ok.mp h
    obtain ⟨deadlineInput, hdeadlineInput, h⟩ := bind_ok.mp h
    obtain ⟨timeoutMs, hdeadline, h⟩ := bind_ok.mp h
    obtain ⟨callInput, hcallInput, h⟩ := bind_ok.mp h
    obtain ⟨parsed, hcall, h⟩ := bind_ok.mp h
    obtain ⟨token, hform⟩ := deadline_ok.mp hdeadline
    cases h
    exact ⟨token, hfields, (header_ok htype).mp ⟨hheader, _, hid⟩,
      ⟨deadlineInput, required_ok.mp hdeadlineInput, hform⟩,
      ⟨callInput, required_ok.mp hcallInput, call_ok.mp hcall⟩⟩
  · rintro ⟨token, h⟩
    obtain ⟨fields, hrecord⟩ := (isRecord_iff "message").mpr h.fields
    obtain ⟨rfl, -⟩ := record_ok.mp hrecord
    obtain ⟨hheader, label, hid⟩ := (header_ok htype).mpr h.header
    obtain ⟨deadlineInput, hdeadlineInput, hdeadline⟩ := h.deadline
    obtain ⟨callInput, hcallInput, hcall⟩ := h.call
    exact bind_ok.mpr ⟨fields, hrecord, bind_ok.mpr ⟨(), hheader, bind_ok.mpr ⟨_,
      identifier_ok.mpr (identifier_ok.mp hid), bind_ok.mpr ⟨deadlineInput,
        required_ok.mpr hdeadlineInput, bind_ok.mpr ⟨_, deadline_ok.mpr ⟨token, hdeadline⟩,
          bind_ok.mpr ⟨callInput, required_ok.mpr hcallInput, bind_ok.mpr ⟨_, call_ok.mpr hcall,
            rfl⟩⟩⟩⟩⟩⟩⟩

/-- The schema reads the type first and then the message of that type. -/
theorem validate_type {value : Json ν} {message : WireMessage ν}
    (h : validateWireMessage value = .ok message) :
    HasText value "type" "request" ∧ (requestMessage value).map .request = .ok message ∨
      HasText value "type" "cancel" ∧ (cancelMessage value).map .cancel = .ok message ∨
        HasText value "type" "response" ∧ (responseMessage value).map .response = .ok message := by
  obtain ⟨fields, hrecord, h⟩ := bind_ok.mp h
  obtain ⟨hvalue, -⟩ := record_ok.mp hrecord
  obtain ⟨type, htype, h⟩ := bind_ok.mp h
  replace htype : value.member? "type" = some type := by
    rw [hvalue]
    exact required_ok.mp htype
  split at h
  · rename_i hrequest
    rw [isString_iff.mp hrequest] at htype
    exact .inl ⟨htype, h⟩
  split at h
  · rename_i hcancel
    rw [isString_iff.mp hcancel] at htype
    exact .inr (.inl ⟨htype, h⟩)
  split at h
  · rename_i hresponse
    rw [isString_iff.mp hresponse] at htype
    exact .inr (.inr ⟨htype, h⟩)
  · cases h

theorem validate_request {value : Json ν} {result : NativeRequest (Json ν)} :
    validateWireMessage value = .ok (.request result) ↔
      ∃ token, RequestForm typeScript value token result := by
  constructor
  · intro h
    rcases validate_type h with ⟨htype, h⟩ | ⟨-, h⟩ | ⟨-, h⟩
    · obtain ⟨request, hrequest, heq⟩ := map_ok.mp h
      cases heq
      exact (requestMessage_ok htype).mp hrequest
    · obtain ⟨cancel, -, heq⟩ := map_ok.mp h
      cases heq
    · obtain ⟨response, -, heq⟩ := map_ok.mp h
      cases heq
  · rintro ⟨token, h⟩
    have hfields : IsRecord value messageFields := IsRecord.mono h.fields (by decide)
    obtain ⟨fields, hrecord⟩ := (isRecord_iff "message").mpr hfields
    obtain ⟨rfl, -⟩ := record_ok.mp hrecord
    refine bind_ok.mpr ⟨fields, hrecord, bind_ok.mpr ⟨_, required_ok.mpr h.header.type, ?_⟩⟩
    rw [if_pos (isString_iff.mpr rfl)]
    exact map_ok.mpr ⟨result, (requestMessage_ok h.header.type).mpr ⟨token, h⟩, rfl⟩

theorem validate_cancel {value : Json ν} {result : NativeCancel} :
    validateWireMessage value = .ok (.cancel result) ↔ CancelForm value result := by
  constructor
  · intro h
    rcases validate_type h with ⟨-, h⟩ | ⟨htype, h⟩ | ⟨-, h⟩
    · obtain ⟨request, -, heq⟩ := map_ok.mp h
      cases heq
    · obtain ⟨cancel, hcancel, heq⟩ := map_ok.mp h
      cases heq
      exact (cancelMessage_ok htype).mp hcancel
    · obtain ⟨response, -, heq⟩ := map_ok.mp h
      cases heq
  · intro h
    have hfields : IsRecord value messageFields := IsRecord.mono h.fields (by decide)
    obtain ⟨fields, hrecord⟩ := (isRecord_iff "message").mpr hfields
    obtain ⟨rfl, -⟩ := record_ok.mp hrecord
    refine bind_ok.mpr ⟨fields, hrecord, bind_ok.mpr ⟨_, required_ok.mpr h.header.type, ?_⟩⟩
    rw [if_neg (isString_ne (by decide)), if_pos (isString_iff.mpr rfl)]
    exact map_ok.mpr ⟨result, (cancelMessage_ok h.header.type).mpr h, rfl⟩

end SurfaceLoom.Native.WireSchemaForms
