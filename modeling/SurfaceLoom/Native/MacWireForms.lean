import Mathlib.Data.String.Basic
import SurfaceLoom.Native.MacWireCodec

/-! # The macOS decoder accepts the forms

Each decoder succeeds with a value exactly when the input has the form of that value,
where a method name may have upper case in its first part. -/
namespace SurfaceLoom.Native.MacWireForms
open SurfaceLoom.Lib SurfaceLoom.Lib.Checked SurfaceLoom.Native.Wire SurfaceLoom.Native.MacWireCodec

/-! ## Texts -/

theorem length_le_utf8Len : ∀ chars : List Char, chars.length ≤ String.utf8Len chars
  | [] => Nat.le_refl 0
  | c :: rest => Nat.add_le_add (length_le_utf8Len rest) (Char.utf8Size_pos c)

theorem isText_length {maximum : Nat} {text : String} (h : isText maximum text = true) :
    text.toList.length ≤ maximum := by
  have hbytes := (of_decide_eq_true h).2.1
  rw [← String.utf8Len_toList] at hbytes
  exact (length_le_utf8Len _).trans hbytes

/-- The bound of a text is that of the identifier in it. -/
theorem identifierBytes_iff {text : String} (h : isText 128 text = true) :
    identifierBytes text.toList = true ↔ isIdentifier text = true := by
  have hlength := isText_length h
  unfold isIdentifier
  cases hchars : text.toList with
  | nil => exact Iff.rfl
  | cons first rest =>
    rw [hchars, List.length_cons] at hlength
    simp only [identifierBytes, identifierChars, Bool.and_eq_true, decide_eq_true_eq]
    exact ⟨fun hboth => ⟨hboth, by omega⟩, fun hall => hall.1⟩

variable {ν : Type}

/-! ## Validation -/

theorem object_ok {value : Json ν} {label : String} {allowed : List String}
    {fields : NativeJSONObject ν} : object value label allowed = .ok fields ↔
      value = .object fields ∧ ∀ key ∈ fields.map Prod.fst, key ∈ allowed := by
  cases value with
  | object found =>
    simp only [object]
    split
    · rename_i hunknown
      obtain ⟨key, hkey, hnot⟩ := hunknown
      refine ⟨nofun, fun ⟨heq, hkeys⟩ => ?_⟩
      cases heq
      exact absurd (hkeys key hkey) hnot
    · rename_i hknown
      refine ⟨fun h => ?_, fun ⟨heq, _⟩ => ?_⟩
      · cases h
        refine ⟨rfl, fun key hkey => ?_⟩
        by_contra hnot
        exact hknown ⟨key, hkey, hnot⟩
      · cases heq
        rfl
  | _ => exact ⟨nofun, fun h => nomatch h.1⟩

theorem isRecord_iff {value : Json ν} {allowed : List String} (label : String) :
    (∃ fields, object value label allowed = .ok fields) ↔ IsRecord value allowed := by
  simp only [object_ok, IsRecord]

theorem required_ok {input : NativeJSONObject ν} {key label : String} {value : Json ν} :
    required input key label = .ok value ↔ (Json.object input).member? key = some value := by
  show _ ↔ Json.get? input key = some value
  unfold required
  cases Json.get? input key with
  | none => exact ⟨nofun, nofun⟩
  | some found => exact ⟨fun h => congrArg some (Except.ok.inj h), fun h => by cases h; rfl⟩

theorem text_ok {value : Json ν} {label found : String} {maximum : Nat} :
    text value label maximum = .ok found ↔ value = .string found ∧ isText maximum found = true := by
  cases value with
  | string text' =>
    simp only [text]
    split
    · rename_i hbounded
      refine ⟨fun h => ?_, fun ⟨heq, _⟩ => ?_⟩
      · cases h
        exact ⟨rfl, hbounded⟩
      · cases heq
        rfl
    · rename_i hunbounded
      refine ⟨nofun, fun ⟨heq, hbounded⟩ => ?_⟩
      cases heq
      exact absurd hbounded hunbounded
  | _ => exact ⟨nofun, fun h => nomatch h.1⟩

theorem identifier_ok {value : Json ν} {label id : String} :
    identifier value label = .ok id ↔
      value = .string id ∧ isText 128 id = true ∧ isIdentifier id = true := by
  unfold identifier
  rw [bind_ok]
  constructor
  · rintro ⟨found, htext, h⟩
    obtain ⟨hvalue, hbounded⟩ := text_ok.mp htext
    split at h
    · rename_i hid
      cases h
      exact ⟨hvalue, hbounded, (identifierBytes_iff hbounded).mp hid⟩
    · cases h
  · rintro ⟨hvalue, hbounded, hid⟩
    exact ⟨id, text_ok.mpr ⟨hvalue, hbounded⟩, if_pos ((identifierBytes_iff hbounded).mpr hid)⟩

theorem methodName_ok {value : Json ν} {label name : String} :
    methodName value label = .ok name ↔
      value = .string name ∧ isText 128 name = true ∧ validMethodName name.toList = true := by
  unfold methodName
  rw [bind_ok]
  constructor
  · rintro ⟨found, htext, h⟩
    obtain ⟨hvalue, hbounded⟩ := text_ok.mp htext
    split at h
    · rename_i hname
      cases h
      exact ⟨hvalue, hbounded, hname⟩
    · cases h
  · rintro ⟨hvalue, hbounded, hname⟩
    exact ⟨name, text_ok.mpr ⟨hvalue, hbounded⟩, if_pos hname⟩

/-- Every word of the enumeration is a text. -/
theorem rawValue_ok {α : Type} {words : List (String × α)} {value : Json ν} {label message : String}
    {requestID : Option String} {a : α} (hwords : ∀ word ∈ words, isText 128 word.1 = true) :
    rawValue words value label message requestID = .ok a ↔
      ∃ word, value = .string word ∧ ofWord words word = some a := by
  unfold rawValue
  rw [bind_ok]
  constructor
  · rintro ⟨word, htext, h⟩
    split at h
    · rename_i hword
      cases h
      exact ⟨word, (text_ok.mp htext).1, hword⟩
    · cases h
  · rintro ⟨word, hvalue, hword⟩
    refine ⟨word, text_ok.mpr ⟨hvalue, hwords _ (mem_of_ofWord hword)⟩, ?_⟩
    rw [hword]

theorem hasIdentifier_iff {fields : NativeJSONObject ν} {key id : String} (label label' : String) :
    (∃ value, required fields key label = .ok value ∧ identifier value label' = .ok id) ↔
      HasIdentifier (.object fields) key id := by
  constructor
  · rintro ⟨value, hvalue, hid⟩
    obtain ⟨heq, hid⟩ := identifier_ok.mp hid
    rw [heq] at hvalue
    exact ⟨required_ok.mp hvalue, hid⟩
  · rintro ⟨hvalue, hid⟩
    exact ⟨.string id, required_ok.mpr hvalue, identifier_ok.mpr ⟨rfl, hid⟩⟩

theorem hasText_iff {fields : NativeJSONObject ν} {key found : String} (label label' : String) :
    (∃ value, required fields key label = .ok value ∧ text value label' = .ok found) ↔
      HasText (.object fields) key found ∧ isText 128 found = true := by
  constructor
  · rintro ⟨value, hvalue, htext⟩
    obtain ⟨heq, hbounded⟩ := text_ok.mp htext
    rw [heq] at hvalue
    exact ⟨required_ok.mp hvalue, hbounded⟩
  · rintro ⟨hvalue, hbounded⟩
    exact ⟨.string found, required_ok.mpr hvalue, text_ok.mpr ⟨rfl, hbounded⟩⟩

theorem hasWord_iff {α : Type} {fields : NativeJSONObject ν} {key : String}
    {words : List (String × α)} {a : α} (label label' message : String) (requestID : Option String)
    (hwords : ∀ word ∈ words, isText 128 word.1 = true) :
    (∃ value, required fields key label = .ok value ∧
      rawValue words value label' message requestID = .ok a) ↔
        HasWord (.object fields) key words a := by
  constructor
  · rintro ⟨value, hvalue, hchoice⟩
    obtain ⟨word, rfl, hword⟩ := (rawValue_ok hwords).mp hchoice
    exact ⟨word, required_ok.mp hvalue, hword⟩
  · rintro ⟨word, hvalue, hword⟩
    exact ⟨.string word, required_ok.mpr hvalue, (rawValue_ok hwords).mpr ⟨word, rfl, hword⟩⟩

/-! ## Headers and scopes -/

theorem header_ok {fields : NativeJSONObject ν} {type id : String} (htype : isText 128 type = true) :
    header fields type = .ok id ↔ HeaderForm (.object fields) type id := by
  constructor
  · intro h
    obtain ⟨protocolInput, hprotocolInput, h⟩ := bind_ok.mp h
    obtain ⟨protocol, hprotocol, h⟩ := bind_ok.mp h
    split at h
    · cases h
    rename_i hname
    rw [not_not] at hname
    obtain ⟨versionInput, hversionInput, h⟩ := bind_ok.mp h
    obtain ⟨version, hversion, h⟩ := bind_ok.mp h
    split at h
    · cases h
    rename_i hnumber
    rw [not_not] at hnumber
    obtain ⟨idInput, hidInput, h⟩ := bind_ok.mp h
    obtain ⟨found, hid, h⟩ := bind_ok.mp h
    obtain ⟨typeInput, htypeInput, h⟩ := bind_ok.mp h
    obtain ⟨foundType, hfoundType, h⟩ := bind_ok.mp h
    split at h
    · cases h
    rename_i hexpected
    rw [not_not] at hexpected
    cases h
    rw [hname] at hprotocol
    rw [hnumber] at hversion
    rw [hexpected] at hfoundType
    exact ⟨((hasText_iff _ _).mp ⟨_, hprotocolInput, hprotocol⟩).1,
      ((hasText_iff _ _).mp ⟨_, hversionInput, hversion⟩).1,
      ((hasText_iff _ _).mp ⟨_, htypeInput, hfoundType⟩).1,
      (hasIdentifier_iff _ _).mp ⟨_, hidInput, hid⟩⟩
  · rintro ⟨hprotocol, hversion, hfound, hid⟩
    obtain ⟨protocolInput, hprotocolInput, hprotocol⟩ :=
      (hasText_iff "message" "message.protocol").mpr ⟨hprotocol, by decide⟩
    obtain ⟨versionInput, hversionInput, hversion⟩ :=
      (hasText_iff "message" "message.version").mpr ⟨hversion, by decide⟩
    obtain ⟨idInput, hidInput, hid⟩ := (hasIdentifier_iff "message" "message.id").mpr hid
    obtain ⟨typeInput, htypeInput, hfound⟩ :=
      (hasText_iff "message" "message.type").mpr ⟨hfound, htype⟩
    refine bind_ok.mpr ⟨_, hprotocolInput, bind_ok.mpr ⟨_, hprotocol, ?_⟩⟩
    rw [if_neg (not_not.mpr rfl)]
    refine bind_ok.mpr ⟨_, hversionInput, bind_ok.mpr ⟨_, hversion, ?_⟩⟩
    rw [if_neg (not_not.mpr rfl)]
    refine bind_ok.mpr ⟨_, hidInput, bind_ok.mpr ⟨_, hid, bind_ok.mpr ⟨_, htypeInput,
      bind_ok.mpr ⟨_, hfound, ?_⟩⟩⟩⟩
    rw [if_neg (not_not.mpr rfl)]

theorem scopeKind_ofWord {word : String} {kind : ScopeKind} (h : ofWord scopeKindWords word = some kind) :
    word = match kind with
      | .bootstrap => "bootstrap"
      | .host => "host"
      | .session => "session"
      | .handle => "handle" := by
  have hmem := mem_of_ofWord h
  simp only [scopeKindWords, List.mem_cons, Prod.mk.injEq, List.not_mem_nil, or_false] at hmem
  rcases hmem with ⟨rfl, rfl⟩ | ⟨rfl, rfl⟩ | ⟨rfl, rfl⟩ | ⟨rfl, rfl⟩ <;> rfl

theorem decodeScope_form {value : Json ν} {result : NativeScope}
    (h : decodeScope value = .ok result) : ScopeForm value result := by
  cases value with
  | object raw =>
    obtain ⟨kindInput, hkindInput, h⟩ := bind_ok.mp h
    obtain ⟨word, hword, h⟩ := bind_ok.mp h
    have hkind := ((hasText_iff _ _).mp ⟨_, hkindInput, hword⟩).1
    split at h
    · cases h
    rename_i kind hofWord
    rw [scopeKind_ofWord hofWord] at hkind
    obtain ⟨fields, hobject, h⟩ := bind_ok.mp h
    have hrecord := (isRecord_iff _).mp ⟨fields, hobject⟩
    obtain ⟨heq, -⟩ := object_ok.mp hobject
    cases heq
    cases kind with
    | bootstrap =>
      cases h
      exact .bootstrap hrecord hkind
    | host =>
      obtain ⟨host, hhost, h⟩ := bind_ok.mp h
      cases h
      exact .host hrecord hkind ((hasIdentifier_iff _ _).mp (bind_ok.mp hhost))
    | session =>
      obtain ⟨host, hhost, h⟩ := bind_ok.mp h
      obtain ⟨session, hsession, h⟩ := bind_ok.mp h
      cases h
      exact .session hrecord hkind ((hasIdentifier_iff _ _).mp (bind_ok.mp hhost))
        ((hasIdentifier_iff _ _).mp (bind_ok.mp hsession))
    | handle =>
      obtain ⟨host, hhost, h⟩ := bind_ok.mp h
      obtain ⟨session, hsession, h⟩ := bind_ok.mp h
      obtain ⟨handle, hhandle, h⟩ := bind_ok.mp h
      cases h
      exact .handle hrecord hkind ((hasIdentifier_iff _ _).mp (bind_ok.mp hhost))
        ((hasIdentifier_iff _ _).mp (bind_ok.mp hsession))
        ((hasIdentifier_iff _ _).mp (bind_ok.mp hhandle))
  | _ => cases h

/-- Decoding begins with the kind and the fields of that kind. -/
theorem decodeScope_ok {value : Json ν} {result : NativeScope} :
    decodeScope value = .ok result ↔ ScopeForm value result := by
  refine ⟨decodeScope_form, fun h => ?_⟩
  have hbegin : ∀ {kind : ScopeKind} {word : String}, IsRecord value (scopeFields kind) →
      HasText value "kind" word → isText 128 word = true → ofWord scopeKindWords word = some kind →
      ∃ fields kindInput, value = .object fields ∧
        required fields "kind" "call.scope" = .ok kindInput ∧
        text kindInput "call.scope.kind" = .ok word ∧
        object value "call.scope" (scopeFields kind) = .ok fields := by
    intro kind word hrecord hkind hbounded hword
    obtain ⟨fields, hobject⟩ := (isRecord_iff "call.scope").mpr hrecord
    obtain ⟨rfl, -⟩ := object_ok.mp hobject
    obtain ⟨kindInput, hinput, htext⟩ :=
      (hasText_iff "call.scope" "call.scope.kind").mpr ⟨hkind, hbounded⟩
    exact ⟨fields, kindInput, rfl, hinput, htext, hobject⟩
  cases h with
  | bootstrap hrecord hkind =>
    obtain ⟨fields, kindInput, rfl, hinput, htext, hobject⟩ := hbegin hrecord hkind (by decide) rfl
    exact bind_ok.mpr ⟨kindInput, hinput, bind_ok.mpr ⟨_, htext, bind_ok.mpr ⟨fields, hobject, rfl⟩⟩⟩
  | host hrecord hkind hid =>
    obtain ⟨fields, kindInput, rfl, hinput, htext, hobject⟩ := hbegin hrecord hkind (by decide) rfl
    exact bind_ok.mpr ⟨kindInput, hinput, bind_ok.mpr ⟨_, htext, bind_ok.mpr ⟨fields, hobject,
      bind_ok.mpr ⟨_, bind_ok.mpr ((hasIdentifier_iff _ _).mpr hid), rfl⟩⟩⟩⟩
  | session hrecord hkind hid sid =>
    obtain ⟨fields, kindInput, rfl, hinput, htext, hobject⟩ := hbegin hrecord hkind (by decide) rfl
    exact bind_ok.mpr ⟨kindInput, hinput, bind_ok.mpr ⟨_, htext, bind_ok.mpr ⟨fields, hobject,
      bind_ok.mpr ⟨_, bind_ok.mpr ((hasIdentifier_iff _ _).mpr hid),
        bind_ok.mpr ⟨_, bind_ok.mpr ((hasIdentifier_iff _ _).mpr sid), rfl⟩⟩⟩⟩⟩
  | handle hrecord hkind hid sid handleId =>
    obtain ⟨fields, kindInput, rfl, hinput, htext, hobject⟩ := hbegin hrecord hkind (by decide) rfl
    exact bind_ok.mpr ⟨kindInput, hinput, bind_ok.mpr ⟨_, htext, bind_ok.mpr ⟨fields, hobject,
      bind_ok.mpr ⟨_, bind_ok.mpr ((hasIdentifier_iff _ _).mpr hid),
        bind_ok.mpr ⟨_, bind_ok.mpr ((hasIdentifier_iff _ _).mpr sid),
          bind_ok.mpr ⟨_, bind_ok.mpr ((hasIdentifier_iff _ _).mpr handleId), rfl⟩⟩⟩⟩⟩⟩

theorem readOperationID_ok {fields : NativeJSONObject ν} {operationID : Option String} :
    readOperationID fields = .ok operationID ↔
      (Json.object fields).member? "operationId" = none ∧ operationID = none ∨
        ∃ id, HasIdentifier (.object fields) "operationId" id ∧ operationID = some id := by
  show _ ↔ Json.get? fields "operationId" = none ∧ operationID = none ∨
    ∃ id, (Json.get? fields "operationId" = some (.string id) ∧ _) ∧ operationID = some id
  unfold readOperationID
  cases Json.get? fields "operationId" with
  | none =>
    refine ⟨fun h => .inl ⟨rfl, (Except.ok.inj h).symm⟩, fun h => ?_⟩
    rcases h with ⟨-, rfl⟩ | ⟨id, ⟨hid, -⟩, -⟩
    · rfl
    · cases hid
  | some value =>
    simp only [map_ok, identifier_ok]
    constructor
    · rintro ⟨id, ⟨rfl, hid⟩, rfl⟩
      exact .inr ⟨id, ⟨rfl, hid⟩, rfl⟩
    · rintro (⟨hnone, -⟩ | ⟨id, ⟨hsome, hid⟩, rfl⟩)
      · cases hnone
      · exact ⟨id, ⟨Option.some.inj hsome, hid⟩, rfl⟩

theorem decodeCancel_ok {value : Json ν} {result : NativeCancel} :
    decodeCancel value = .ok result ↔ CancelForm value result := by
  constructor
  · intro h
    replace h := bind_ok.mp h
    obtain ⟨fields, hobject, h⟩ := h
    have hrecord := (isRecord_iff _).mp ⟨fields, hobject⟩
    obtain ⟨rfl, -⟩ := object_ok.mp hobject
    obtain ⟨id, hheader, h⟩ := bind_ok.mp h
    obtain ⟨requestInput, hrequestInput, h⟩ := bind_ok.mp h
    obtain ⟨requestID, hrequestID, h⟩ := bind_ok.mp h
    split at h
    · cases h
    rename_i hother
    obtain ⟨reasonInput, hreasonInput, h⟩ := bind_ok.mp h
    obtain ⟨reason, hreason, h⟩ := bind_ok.mp h
    cases h
    exact ⟨hrecord, (header_ok (by decide)).mp hheader,
      (hasIdentifier_iff _ _).mp ⟨_, hrequestInput, hrequestID⟩, hother,
      (hasWord_iff _ _ _ _ (by decide)).mp ⟨_, hreasonInput, hreason⟩⟩
  · intro h
    obtain ⟨fields, hobject⟩ := (isRecord_iff "message").mpr h.fields
    obtain ⟨rfl, -⟩ := object_ok.mp hobject
    obtain ⟨requestInput, hrequestInput, hrequestID⟩ := (hasIdentifier_iff _ _).mpr h.requestID
    obtain ⟨reasonInput, hreasonInput, hreason⟩ := (hasWord_iff _ _ _ _ (by decide)).mpr h.reason
    refine bind_ok.mpr ⟨fields, hobject, bind_ok.mpr ⟨_, (header_ok (by decide)).mpr h.header,
      bind_ok.mpr ⟨requestInput, hrequestInput, bind_ok.mpr ⟨_, hrequestID, ?_⟩⟩⟩⟩
    rw [if_neg h.other]
    exact bind_ok.mpr ⟨reasonInput, hreasonInput, bind_ok.mpr ⟨_, hreason, rfl⟩⟩

/-! ## Carried values -/

variable [JsonNumber ν]

/-- From 0 up to a bound that is itself exactly a number. -/
theorem integer_ok {value : Json ν} {label : String} {maximum n : Nat}
    (hmaximum : maximum ≤ 9007199254740991) :
    integer value label 0 maximum = .ok n ↔ ∃ token, value = .number token ∧
      JsonNumber.integer? token = some (n : Int) ∧ n ≤ maximum := by
  cases value with
  | number token =>
    simp only [integer]
    cases htoken : JsonNumber.integer? token with
    | none =>
      refine ⟨nofun, fun ⟨token', heq, hsome, _⟩ => ?_⟩
      cases heq
      rw [htoken] at hsome
      cases hsome
    | some m =>
      dsimp only
      constructor
      · intro h
        split at h
        · cases h
          exact ⟨token, rfl, by rw [htoken]; congr 1; omega, by omega⟩
        · cases h
      · rintro ⟨token', heq, hsome, hle⟩
        cases heq
        rw [htoken] at hsome
        cases hsome
        rw [if_pos (by omega)]
        rfl
  | _ => exact ⟨nofun, fun ⟨_, heq, _⟩ => nomatch heq⟩

/-- What `validateJSON` accepts at a depth. -/
def Fits (maximumDepth depth : Nat) (value : Json ν) : Prop :=
  depth + value.height ≤ maximumDepth ∧ allFinite value = true

def ValidateOk (maximumDepth : Nat) (value : Json ν) : Prop :=
  ∀ depth, validateJSON maximumDepth depth value = .ok () ↔ Fits maximumDepth depth value

theorem validateItems_ok {maximumDepth depth : Nat} : ∀ {items : List (Json ν)},
    (∀ item ∈ items, ValidateOk maximumDepth item) →
      (validateItems maximumDepth depth items = .ok () ↔
        ∀ item ∈ items, Fits maximumDepth depth item)
  | [], _ => by simp [validateItems]
  | item :: rest, h => by
    have hitem : ValidateOk maximumDepth item := h item List.mem_cons_self
    have hrest : ∀ item' ∈ rest, ValidateOk maximumDepth item' :=
      fun item' hmem => h item' (List.mem_cons_of_mem _ hmem)
    simp only [validateItems, bind_ok, List.forall_mem_cons, ← hitem depth, ← validateItems_ok hrest]
    constructor
    · rintro ⟨_, hfirst, hlater⟩
      exact ⟨hfirst, hlater⟩
    · rintro ⟨hfirst, hlater⟩
      exact ⟨(), hfirst, hlater⟩

theorem validateFields_ok {maximumDepth depth : Nat} : ∀ {fields : NativeJSONObject ν},
    (∀ field ∈ fields, ValidateOk maximumDepth field.2) →
      (validateFields maximumDepth depth fields = .ok () ↔
        ∀ field ∈ fields, Fits maximumDepth depth field.2)
  | [], _ => by simp [validateFields]
  | (key, item) :: rest, h => by
    have hitem : ValidateOk maximumDepth item := h (key, item) List.mem_cons_self
    have hrest : ∀ field ∈ rest, ValidateOk maximumDepth field.2 :=
      fun field hmem => h field (List.mem_cons_of_mem _ hmem)
    simp only [validateFields, bind_ok, List.forall_mem_cons, ← hitem depth,
      ← validateFields_ok hrest]
    constructor
    · rintro ⟨_, hfirst, hlater⟩
      exact ⟨hfirst, hlater⟩
    · rintro ⟨hfirst, hlater⟩
      exact ⟨(), hfirst, hlater⟩

theorem validateJSON_ok {maximumDepth : Nat} (value : Json ν) : ValidateOk maximumDepth value := by
  have hguard : ∀ {depth : Nat} {x : Decoded Unit},
      (if depth > maximumDepth then invalid "JSON value exceeds the nesting limit." else x) = .ok () ↔
        depth ≤ maximumDepth ∧ x = .ok () := by
    intro depth x
    split
    · exact ⟨nofun, fun h => by omega⟩
    · exact ⟨fun h => ⟨by omega, h⟩, fun h => h.2⟩
  intro depth
  induction value using Json.induct generalizing depth with
  | null => simp [validateJSON, hguard, Fits, Json.height, allFinite]
  | bool b => simp [validateJSON, hguard, Fits, Json.height, allFinite]
  | string s => simp [validateJSON, hguard, Fits, Json.height, allFinite]
  | number n =>
    simp only [validateJSON, hguard, Fits, Json.height, allFinite, Nat.add_zero]
    cases JsonNumber.isFinite n with
    | false => simp [invalid]
    | true => simp
  | array items ih =>
    simp only [validateJSON, hguard, validateItems_ok fun item hitem => ih item hitem, Fits,
      Json.height, allFinite, allFiniteItems_iff]
    constructor
    · rintro ⟨hdepth, hfits⟩
      refine ⟨?_, fun item hitem => (hfits item hitem).2⟩
      have hheight : Json.itemsHeight items ≤ maximumDepth - depth :=
        Json.itemsHeight_le.mpr fun item hitem => by
          have := (hfits item hitem).1
          omega
      omega
    · rintro ⟨hheight, hfinite⟩
      refine ⟨by omega, fun item hitem => ⟨?_, hfinite item hitem⟩⟩
      have := Json.itemsHeight_le.mp le_rfl item hitem
      omega
  | object fields ih =>
    simp only [validateJSON, hguard, validateFields_ok fun field hfield => ih field hfield, Fits,
      Json.height, allFinite, allFiniteFields_iff]
    constructor
    · rintro ⟨hdepth, hfits⟩
      refine ⟨?_, fun field hfield => (hfits field hfield).2⟩
      have hheight : Json.fieldsHeight fields ≤ maximumDepth - depth :=
        Json.fieldsHeight_le.mpr fun field hfield => by
          have := (hfits field hfield).1
          omega
      omega
    · rintro ⟨hheight, hfinite⟩
      refine ⟨by omega, fun field hfield => ⟨?_, hfinite field hfield⟩⟩
      have := Json.fieldsHeight_le.mp le_rfl field hfield
      omega

theorem carried_iff {value : Json ν} : validateJSON 32 0 value = .ok () ↔ Carried value := by
  rw [validateJSON_ok value 0, Fits, Carried, Nat.zero_add, and_comm]

/-! ## Messages -/

/-- The host reads a number by its value; a method name may have upper case throughout. -/
def swift : Dialect ν := ⟨JsonNumber.integer?, fun name => validMethodName name.toList⟩

theorem bootstrap_kind (scope : NativeScope) : scope = .bootstrap ↔ scope.kind = "bootstrap" := by
  cases scope <;> simp [NativeScope.kind]

theorem decodeCall_form {value : Json ν} {requestID : String} {result : NativeCall (Json ν)}
    (h : decodeCall value requestID = .ok result) : CallForm swift value result := by
  replace h := bind_ok.mp h
  obtain ⟨fields, hobject, h⟩ := h
  have hrecord := (isRecord_iff _).mp ⟨fields, hobject⟩
  obtain ⟨rfl, -⟩ := object_ok.mp hobject
  obtain ⟨nameInput, hnameInput, h⟩ := bind_ok.mp h
  obtain ⟨name, hname, h⟩ := bind_ok.mp h
  obtain ⟨hnameText, hbounded, hmethod⟩ := methodName_ok.mp hname
  rw [hnameText] at hnameInput
  obtain ⟨intentInput, hintentInput, h⟩ := bind_ok.mp h
  obtain ⟨intent, hintent, h⟩ := bind_ok.mp h
  obtain ⟨scopeInput, hscopeInput, h⟩ := bind_ok.mp h
  obtain ⟨scope, hscope, h⟩ := bind_ok.mp h
  obtain ⟨payloadValue, hpayloadInput, h⟩ := bind_ok.mp h
  split at h
  · rename_i payload
    obtain ⟨_, hcarried, h⟩ := bind_ok.mp h
    obtain ⟨operationID, hoperation, h⟩ := bind_ok.mp h
    split at h
    · cases h
    split at h
    · cases h
    split at h
    · cases h
    rename_i hbootstrap
    split at h
    · cases h
    rename_i hhandshake
    split at h
    · cases h
    rename_i hlaunch
    cases h
    exact
      { fields := hrecord
        name := required_ok.mp hnameInput
        bounded := hbounded
        named := hmethod
        intent := (hasWord_iff _ _ _ _ (by decide)).mp ⟨_, hintentInput, hintent⟩
        scope := ⟨scopeInput, required_ok.mp hscopeInput, decodeScope_ok.mp hscope⟩
        payload := required_ok.mp hpayloadInput
        object := ⟨payload, rfl⟩
        carried := carried_iff.mp hcarried
        operation := readOperationID_ok.mp hoperation
        bootstrap := by
          rw [← bootstrap_kind]
          simpa using hbootstrap
        handshake := by simpa using hhandshake
        launch := by simpa [not_or] using hlaunch }
  · cases h

theorem decodeCall_ok {value : Json ν} {requestID : String} {result : NativeCall (Json ν)} :
    decodeCall value requestID = .ok result ↔ CallForm swift value result := by
  refine ⟨decodeCall_form, fun h => ?_⟩
  obtain ⟨name, intent, scope, payload, operationID, heffect⟩ := result
  obtain ⟨fields, hobject⟩ := (isRecord_iff "call").mpr h.fields
  obtain ⟨rfl, -⟩ := object_ok.mp hobject
  obtain ⟨intentInput, hintentInput, hintent⟩ :=
    (hasWord_iff "call" "call.intent" "call.intent is not a supported value." (some requestID)
      (by decide)).mpr h.intent
  obtain ⟨scopeInput, hscopeInput, hscope⟩ := h.scope
  obtain ⟨members, hmembers⟩ := h.object
  have hbootstrap := h.bootstrap
  rw [← bootstrap_kind] at hbootstrap
  refine bind_ok.mpr ⟨fields, hobject, bind_ok.mpr ⟨_, required_ok.mpr h.name, bind_ok.mpr ⟨_,
    methodName_ok.mpr ⟨rfl, h.bounded, h.named⟩, bind_ok.mpr ⟨intentInput, hintentInput,
      bind_ok.mpr ⟨_, hintent, bind_ok.mpr ⟨scopeInput, required_ok.mpr hscopeInput,
        bind_ok.mpr ⟨_, decodeScope_ok.mpr hscope, bind_ok.mpr ⟨_, required_ok.mpr h.payload,
          ?_⟩⟩⟩⟩⟩⟩⟩⟩
  have hcarried := carried_iff.mpr h.carried
  dsimp only at hmembers hcarried ⊢
  subst hmembers
  refine bind_ok.mpr ⟨(), hcarried, bind_ok.mpr ⟨_, readOperationID_ok.mpr h.operation, ?_⟩⟩
  obtain ⟨hobserve, hmissing⟩ := sideEffecting_checks heffect
  dsimp only
  rw [dif_neg hobserve, dif_neg hmissing, if_neg (by simpa using hbootstrap),
    if_neg (by simpa using h.handshake), if_neg (by simpa [not_or] using h.launch)]

theorem decodeRequest_ok {value : Json ν} {result : NativeRequest (Json ν)} :
    decodeRequest value = .ok result ↔ ∃ token, RequestForm swift value token result := by
  constructor
  · intro h
    replace h := bind_ok.mp h
    obtain ⟨fields, hobject, h⟩ := h
    have hrecord := (isRecord_iff _).mp ⟨fields, hobject⟩
    obtain ⟨rfl, -⟩ := object_ok.mp hobject
    obtain ⟨id, hheader, h⟩ := bind_ok.mp h
    obtain ⟨deadlineInput, hdeadlineInput, h⟩ := bind_ok.mp h
    obtain ⟨deadline, hdeadline, h⟩ := bind_ok.mp h
    obtain ⟨timeoutInput, htimeoutInput, h⟩ := bind_ok.mp h
    obtain ⟨timeout, htimeout, h⟩ := bind_ok.mp h
    obtain ⟨callInput, hcallInput, h⟩ := bind_ok.mp h
    obtain ⟨call, hcall, h⟩ := bind_ok.mp h
    obtain ⟨token, hnumber, hinteger, hle⟩ := (integer_ok (by decide)).mp htimeout
    have hfields := (isRecord_iff _).mp ⟨deadline, hdeadline⟩
    rw [(object_ok.mp hdeadline).1] at hfields hdeadlineInput
    rw [hnumber] at htimeoutInput
    cases h
    exact ⟨token, hrecord, (header_ok (by decide)).mp hheader,
      ⟨_, required_ok.mp hdeadlineInput, hfields, required_ok.mp htimeoutInput, hinteger, hle⟩,
      ⟨callInput, required_ok.mp hcallInput, decodeCall_ok.mp hcall⟩⟩
  · rintro ⟨token, h⟩
    obtain ⟨fields, hobject⟩ := (isRecord_iff "message").mpr h.fields
    obtain ⟨rfl, -⟩ := object_ok.mp hobject
    obtain ⟨deadlineInput, hdeadlineInput, hdeadline⟩ := h.deadline
    obtain ⟨deadline, hdeadlineObject⟩ := (isRecord_iff "deadline").mpr hdeadline.fields
    obtain ⟨rfl, -⟩ := object_ok.mp hdeadlineObject
    obtain ⟨callInput, hcallInput, hcall⟩ := h.call
    exact bind_ok.mpr ⟨fields, hobject, bind_ok.mpr ⟨_, (header_ok (by decide)).mpr h.header,
      bind_ok.mpr ⟨_, required_ok.mpr hdeadlineInput, bind_ok.mpr ⟨deadline, hdeadlineObject,
        bind_ok.mpr ⟨_, required_ok.mpr hdeadline.number, bind_ok.mpr ⟨_,
          (integer_ok (by decide)).mpr ⟨token, rfl, hdeadline.integer, hdeadline.bounded⟩,
          bind_ok.mpr ⟨callInput, required_ok.mpr hcallInput, bind_ok.mpr ⟨_,
            decodeCall_ok.mpr hcall, rfl⟩⟩⟩⟩⟩⟩⟩⟩

/-- The decoder reads the type first and then the message of that type. -/
theorem decode_type {value : Json ν} {message : WireMessage ν} (h : decodeMessage value = .ok message) :
    (decodeRequest value).map .request = .ok message ∨
      (decodeCancel value).map .cancel = .ok message ∨
        (decodeResponse value).map .response = .ok message := by
  obtain ⟨broad, -, h⟩ := bind_ok.mp h
  obtain ⟨typeInput, -, h⟩ := bind_ok.mp h
  obtain ⟨type, -, h⟩ := bind_ok.mp h
  split at h
  · exact .inl h
  split at h
  · exact .inr (.inl h)
  split at h
  · exact .inr (.inr h)
  · cases h

/-- A message of a type passes the checks in front of its decoder. -/
theorem decode_of_type {value : Json ν} {type id : String} {fields : List String}
    (hfields : IsRecord value fields) (hsub : fields ⊆ messageFields)
    (hheader : HeaderForm value type id) (htype : isText 128 type = true) :
    decodeMessage value =
      if type = "request" then (decodeRequest value).map .request
      else if type = "cancel" then (decodeCancel value).map .cancel
      else if type = "response" then (decodeResponse value).map .response
      else invalid "message.type is not supported." := by
  obtain ⟨broad, hobject⟩ := (isRecord_iff "message").mpr (hfields.mono hsub)
  obtain ⟨rfl, -⟩ := object_ok.mp hobject
  have hread : required broad "type" "message" = .ok (.string type) := required_ok.mpr hheader.type
  have htext : text (.string type : Json ν) "message.type" = .ok type := text_ok.mpr ⟨rfl, htype⟩
  show (object (.object broad) "message" messageFields >>= _) = _
  rw [hobject]
  show (required broad "type" "message" >>= _) = _
  rw [hread]
  show (text (.string type : Json ν) "message.type" >>= _) = _
  rw [htext]
  rfl

theorem decode_request {value : Json ν} {result : NativeRequest (Json ν)} :
    decodeMessage value = .ok (.request result) ↔ ∃ token, RequestForm swift value token result := by
  constructor
  · intro h
    rcases decode_type h with h | h | h
    · obtain ⟨request, hrequest, heq⟩ := map_ok.mp h
      cases heq
      exact decodeRequest_ok.mp hrequest
    · obtain ⟨cancel, -, heq⟩ := map_ok.mp h
      cases heq
    · obtain ⟨response, -, heq⟩ := map_ok.mp h
      cases heq
  · rintro ⟨token, h⟩
    rw [decode_of_type h.fields (by decide) h.header (by decide), if_pos rfl]
    exact map_ok.mpr ⟨result, decodeRequest_ok.mpr ⟨token, h⟩, rfl⟩

theorem decode_cancel {value : Json ν} {result : NativeCancel} :
    decodeMessage value = .ok (.cancel result) ↔ CancelForm value result := by
  constructor
  · intro h
    rcases decode_type h with h | h | h
    · obtain ⟨request, -, heq⟩ := map_ok.mp h
      cases heq
    · obtain ⟨cancel, hcancel, heq⟩ := map_ok.mp h
      cases heq
      exact decodeCancel_ok.mp hcancel
    · obtain ⟨response, -, heq⟩ := map_ok.mp h
      cases heq
  · intro h
    rw [decode_of_type h.fields (by decide) h.header (by decide), if_neg (by decide), if_pos rfl]
    exact map_ok.mpr ⟨result, decodeCancel_ok.mpr h, rfl⟩

end SurfaceLoom.Native.MacWireForms
