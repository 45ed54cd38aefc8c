import SurfaceLoom.Native.WindowsParserErrors
import SurfaceLoom.Native.WireForms

/-! # The Windows parser accepts the forms

On a frame without duplicate keys, whose numbers are read only when they are plain. -/
namespace SurfaceLoom.Native.WindowsWireForms
open SurfaceLoom.Lib SurfaceLoom.Lib.Checked SurfaceLoom.Native.Wire SurfaceLoom.Native.WindowsParser
open SurfaceLoom.Native.WindowsParserErrors

/-- The host reads a number that is written as an integer. -/
def windows : Dialect NumberToken :=
  ⟨fun token => if token.plain then some token.int else none, fun name => methodNameChars name.toList⟩

theorem tryGetProperty_eq (element : JsonElement) (property : String) :
    tryGetProperty element property = element.member? property := by
  cases element <;> rfl

/-! ## Readers -/

theorem requireOnlyProperties_iff {element : JsonElement} {fields : List String}
    (label requestId : String) (hdistinct : element.distinct = true) :
    (∃ found, requireOnlyProperties element label fields requestId = .ok found) ↔
      IsRecord element fields := by
  constructor
  · rintro ⟨found, h⟩
    obtain ⟨hmembers, -, hfields⟩ := requireOnlyProperties_ok h
    cases element with
    | object members =>
      cases hmembers
      exact ⟨_, rfl, hfields⟩
    | _ => cases hmembers
  · rintro ⟨found, rfl, hfields⟩
    exact ⟨found, if_pos ⟨Json.distinct_keys hdistinct, hfields⟩⟩

theorem requireObject_iff {parent element : JsonElement} {property requestId : String}
    {fields : List String} (hdistinct : parent.distinct = true) :
    requireObject parent property fields requestId = .ok element ↔
      parent.member? property = some element ∧ IsRecord element fields := by
  constructor
  · intro h
    obtain ⟨found, hproperty, rfl, -, hfields⟩ := requireObject_ok h
    rw [tryGetProperty_eq] at hproperty
    exact ⟨hproperty, found, rfl, hfields⟩
  · rintro ⟨hproperty, hrecord⟩
    obtain ⟨found, hfound⟩ := (requireOnlyProperties_iff property requestId
      (Json.distinct_member hdistinct hproperty)).mpr hrecord
    obtain ⟨members, rfl, -⟩ := hrecord
    rw [← tryGetProperty_eq] at hproperty
    unfold requireObject
    rw [hproperty]
    exact bind_ok.mpr ⟨found, hfound, rfl⟩

theorem readText_text {parent : JsonElement} {property requestId text : String} :
    readText parent property requestId = .ok text ↔
      HasText parent property text ∧ isText 128 text = true := by
  rw [readText_iff, tryGetProperty_eq]
  rfl

theorem readIdentifier_form {parent : JsonElement} {property requestId id : String} :
    readIdentifier parent property requestId = .ok id ↔ HasIdentifier parent property id := by
  rw [readIdentifier_iff, tryGetProperty_eq]
  rfl

theorem readChoice_form {α : Type} {parent : JsonElement} {property requestId : String}
    {choices : List (String × α)} {a : α} (hchoices : ∀ word ∈ choices, isText 128 word.1 = true) :
    readChoice parent property choices requestId = .ok a ↔ HasWord parent property choices a := by
  unfold readChoice
  rw [bind_ok]
  constructor
  · rintro ⟨word, htext, h⟩
    split at h
    · rename_i hword
      cases h
      exact ⟨word, (readText_text.mp htext).1, hword⟩
    · cases h
  · rintro ⟨word, htext, hword⟩
    refine ⟨word, readText_text.mpr ⟨htext, hchoices _ (mem_of_ofWord hword)⟩, ?_⟩
    rw [hword]

theorem readInteger_form {parent : JsonElement} {property requestId : String} {maximum n : Nat}
    (hmaximum : maximum ≤ 2147483647) :
    readInteger parent property 0 maximum requestId = .ok n ↔
      ∃ token, parent.member? property = some (.number token) ∧
        windows.integer token = some (n : Int) ∧ n ≤ maximum := by
  unfold readInteger
  rw [← tryGetProperty_eq]
  cases tryGetProperty parent property with
  | none => exact ⟨nofun, fun ⟨_, h, _⟩ => nomatch h⟩
  | some value =>
    cases value with
    | number token =>
      have hread : tryGetInt32 (.number token) = .ok (if token.plain = true ∧
          -2147483648 ≤ token.int ∧ token.int ≤ 2147483647 then some token.int else none) := rfl
      simp only [hread, windows]
      constructor
      · intro h
        obtain ⟨read, hsome, h⟩ := bind_ok.mp h
        split at h
        · cases h
        rename_i result
        split at h
        · cases h
        cases h
        have hsome := Except.ok.inj hsome
        split at hsome
        · rename_i hplain
          cases hsome
          refine ⟨token, rfl, ?_, by omega⟩
          rw [if_pos hplain.1]
          congr 1
          omega
        · cases hsome
      · rintro ⟨token', heq, hinteger, hle⟩
        cases heq
        split at hinteger
        · rename_i hplain
          have hint : token.int = n := Option.some.inj hinteger
          refine bind_ok.mpr ⟨some token.int, congrArg Except.ok (if_pos ⟨hplain, by omega⟩), ?_⟩
          dsimp only
          rw [if_neg (by omega), hint]
          rfl
        · cases hinteger
    | _ => exact ⟨nofun, fun ⟨_, h, _⟩ => nomatch h⟩

theorem readOperationId_form {call : JsonElement} {requestId : String} {operationId : Option String} :
    readOperationId call requestId = .ok operationId ↔
      call.member? "operationId" = none ∧ operationId = none ∨
        ∃ id, HasIdentifier call "operationId" id ∧ operationId = some id := by
  unfold readOperationId
  rw [tryGetProperty_eq]
  cases hmember : call.member? "operationId" with
  | none =>
    refine ⟨fun h => .inl ⟨rfl, (Except.ok.inj h).symm⟩, fun h => ?_⟩
    rcases h with ⟨-, rfl⟩ | ⟨id, hid, -⟩
    · rfl
    · have htext : call.member? "operationId" = some (.string id) := hid.1
      rw [hmember] at htext
      cases htext
  | some value =>
    simp only [map_ok, readIdentifier_form]
    constructor
    · rintro ⟨id, hid, rfl⟩
      exact .inr ⟨id, hid, rfl⟩
    · rintro (⟨hnone, -⟩ | ⟨id, hid, rfl⟩)
      · cases hnone
      · exact ⟨id, hid, rfl⟩

/-! ## Nesting -/

def ValidateOk (value : JsonElement) : Prop :=
  ∀ depth, validateSemanticValue depth value = .ok () ↔ depth + value.height ≤ 32

theorem validateSemanticItems_ok {depth : Nat} : ∀ {items : List JsonElement},
    (∀ item ∈ items, ValidateOk item) →
      (validateSemanticItems depth items = .ok () ↔ ∀ item ∈ items, depth + item.height ≤ 32)
  | [], _ => by simp [validateSemanticItems]
  | item :: rest, h => by
    have hitem : ValidateOk item := h item List.mem_cons_self
    have hrest : ∀ item' ∈ rest, ValidateOk item' :=
      fun item' hmem => h item' (List.mem_cons_of_mem _ hmem)
    simp only [validateSemanticItems, bind_ok, List.forall_mem_cons, ← hitem depth,
      ← validateSemanticItems_ok hrest]
    constructor
    · rintro ⟨_, hfirst, hlater⟩
      exact ⟨hfirst, hlater⟩
    · rintro ⟨hfirst, hlater⟩
      exact ⟨(), hfirst, hlater⟩

theorem validateSemanticFields_ok {depth : Nat} : ∀ {fields : List (String × JsonElement)},
    (∀ field ∈ fields, ValidateOk field.2) →
      (validateSemanticFields depth fields = .ok () ↔ ∀ field ∈ fields, depth + field.2.height ≤ 32)
  | [], _ => by simp [validateSemanticFields]
  | (key, item) :: rest, h => by
    have hitem : ValidateOk item := h (key, item) List.mem_cons_self
    have hrest : ∀ field ∈ rest, ValidateOk field.2 :=
      fun field hmem => h field (List.mem_cons_of_mem _ hmem)
    simp only [validateSemanticFields, bind_ok, List.forall_mem_cons, ← hitem depth,
      ← validateSemanticFields_ok hrest]
    constructor
    · rintro ⟨_, hfirst, hlater⟩
      exact ⟨hfirst, hlater⟩
    · rintro ⟨hfirst, hlater⟩
      exact ⟨(), hfirst, hlater⟩

theorem validateSemanticValue_ok (value : JsonElement) : ValidateOk value := by
  have hguard : ∀ {depth : Nat} {x : Parsed Unit},
      (if depth > 32 then invalidMessage "JSON value exceeds the nesting limit." "invalid" else x) =
        .ok () ↔ depth ≤ 32 ∧ x = .ok () := by
    intro depth x
    split
    · exact ⟨nofun, fun h => by omega⟩
    · exact ⟨fun h => ⟨by omega, h⟩, fun h => h.2⟩
  intro depth
  induction value using Json.induct generalizing depth with
  | null => simp [validateSemanticValue, hguard, Json.height]
  | bool b => simp [validateSemanticValue, hguard, Json.height]
  | string s => simp [validateSemanticValue, hguard, Json.height]
  | number n => simp [validateSemanticValue, hguard, Json.height]
  | array items ih =>
    simp only [validateSemanticValue, hguard, validateSemanticItems_ok fun item hitem => ih item hitem,
      Json.height]
    constructor
    · rintro ⟨hdepth, hfits⟩
      have hheight : Json.itemsHeight items ≤ 32 - depth :=
        Json.itemsHeight_le.mpr fun item hitem => by
          have := hfits item hitem
          omega
      omega
    · intro hheight
      refine ⟨by omega, fun item hitem => ?_⟩
      have := Json.itemsHeight_le.mp le_rfl item hitem
      omega
  | object fields ih =>
    simp only [validateSemanticValue, hguard,
      validateSemanticFields_ok fun field hfield => ih field hfield, Json.height]
    constructor
    · rintro ⟨hdepth, hfits⟩
      have hheight : Json.fieldsHeight fields ≤ 32 - depth :=
        Json.fieldsHeight_le.mpr fun field hfield => by
          have := hfits field hfield
          omega
      omega
    · intro hheight
      refine ⟨by omega, fun field hfield => ?_⟩
      have := Json.fieldsHeight_le.mp le_rfl field hfield
      omega

/-- A token is a finite number. -/
theorem allFinite_token (value : JsonElement) : allFinite value = true := by
  induction value using Json.induct with
  | null => rfl
  | bool b => rfl
  | string s => rfl
  | number n => rfl
  | array items ih => exact allFiniteItems_iff.mpr ih
  | object fields ih => exact allFiniteFields_iff.mpr ih

/-! ## Messages -/

theorem scopeKind_form {scope : JsonElement} {kind : ScopeKind} :
    HasWord scope "kind" scopeKindWords kind ↔ HasText scope "kind" (match kind with
      | .bootstrap => "bootstrap"
      | .host => "host"
      | .session => "session"
      | .handle => "handle") := by
  constructor
  · rintro ⟨word, htext, hword⟩
    have hmem := mem_of_ofWord hword
    simp only [scopeKindWords, List.mem_cons, Prod.mk.injEq, List.not_mem_nil, or_false] at hmem
    rcases hmem with ⟨rfl, rfl⟩ | ⟨rfl, rfl⟩ | ⟨rfl, rfl⟩ | ⟨rfl, rfl⟩ <;> exact htext
  · intro htext
    refine ⟨_, htext, ?_⟩
    cases kind <;> rfl

theorem parseScope_form {scope : JsonElement} {requestId : String} {result : NativeScope}
    (hdistinct : scope.distinct = true) :
    parseScope scope requestId = .ok result ↔ ScopeForm scope result := by
  constructor
  · intro h
    obtain ⟨kind, hkind, h⟩ := bind_ok.mp h
    replace hkind := scopeKind_form.mp ((readChoice_form (by decide)).mp hkind)
    obtain ⟨found, hfound, h⟩ := bind_ok.mp h
    have hrecord := (requireOnlyProperties_iff _ _ hdistinct).mp ⟨found, hfound⟩
    cases kind with
    | bootstrap =>
      cases h
      exact .bootstrap hrecord hkind
    | host =>
      obtain ⟨host, hhost, h⟩ := bind_ok.mp h
      cases h
      exact .host hrecord hkind (readIdentifier_form.mp hhost)
    | session =>
      obtain ⟨host, hhost, h⟩ := bind_ok.mp h
      obtain ⟨session, hsession, h⟩ := bind_ok.mp h
      cases h
      exact .session hrecord hkind (readIdentifier_form.mp hhost) (readIdentifier_form.mp hsession)
    | handle =>
      obtain ⟨host, hhost, h⟩ := bind_ok.mp h
      obtain ⟨session, hsession, h⟩ := bind_ok.mp h
      obtain ⟨handle, hhandle, h⟩ := bind_ok.mp h
      cases h
      exact .handle hrecord hkind (readIdentifier_form.mp hhost) (readIdentifier_form.mp hsession)
        (readIdentifier_form.mp hhandle)
  · intro h
    have hbegin : ∀ {kind : ScopeKind}, IsRecord scope (scopeFields kind) →
        HasWord scope "kind" scopeKindWords kind →
        readChoice scope "kind" scopeKindWords requestId = .ok kind ∧
          ∃ found, requireOnlyProperties scope "call.scope" (scopeFields kind) requestId =
            .ok found :=
      fun hrecord hkind => ⟨(readChoice_form (by decide)).mpr hkind,
        (requireOnlyProperties_iff _ _ hdistinct).mpr hrecord⟩
    cases h with
    | bootstrap hrecord hkind =>
      obtain ⟨hread, found, hfound⟩ := hbegin hrecord ⟨_, hkind, rfl⟩
      exact bind_ok.mpr ⟨_, hread, bind_ok.mpr ⟨found, hfound, rfl⟩⟩
    | host hrecord hkind hid =>
      obtain ⟨hread, found, hfound⟩ := hbegin hrecord ⟨_, hkind, rfl⟩
      exact bind_ok.mpr ⟨_, hread, bind_ok.mpr ⟨found, hfound,
        bind_ok.mpr ⟨_, readIdentifier_form.mpr hid, rfl⟩⟩⟩
    | session hrecord hkind hid sid =>
      obtain ⟨hread, found, hfound⟩ := hbegin hrecord ⟨_, hkind, rfl⟩
      exact bind_ok.mpr ⟨_, hread, bind_ok.mpr ⟨found, hfound,
        bind_ok.mpr ⟨_, readIdentifier_form.mpr hid,
          bind_ok.mpr ⟨_, readIdentifier_form.mpr sid, rfl⟩⟩⟩⟩
    | handle hrecord hkind hid sid handleId =>
      obtain ⟨hread, found, hfound⟩ := hbegin hrecord ⟨_, hkind, rfl⟩
      exact bind_ok.mpr ⟨_, hread, bind_ok.mpr ⟨found, hfound,
        bind_ok.mpr ⟨_, readIdentifier_form.mpr hid, bind_ok.mpr ⟨_, readIdentifier_form.mpr sid,
          bind_ok.mpr ⟨_, readIdentifier_form.mpr handleId, rfl⟩⟩⟩⟩⟩

theorem methodNameRegex_iff {name : String} (h : isText 128 name = true) :
    methodNameRegex name = true ↔ methodNameChars name.toList = true := by
  rw [methodNameRegex, endsBeforeNewline_iff (isText_newline h)]

/-- The fields and the nesting of the payload are checked before, on the whole frame. -/
theorem parseCall_form {call : JsonElement} {requestId : String} {result : NativeCall JsonElement}
    (hdistinct : call.distinct = true) (hfields : IsRecord call callFields)
    (hnested : ∀ payload, call.member? "payload" = some payload → payload.height ≤ 32)
    (h : parseCall call requestId = .ok result) : CallForm windows call result := by
  obtain ⟨name, hname, h⟩ := bind_ok.mp h
  obtain ⟨hnameText, hbounded⟩ := readText_text.mp hname
  split at h
  · cases h
  rename_i hmethod
  rw [not_not, methodNameRegex_iff hbounded] at hmethod
  obtain ⟨intent, hintent, h⟩ := bind_ok.mp h
  obtain ⟨scopeElement, hscopeElement, h⟩ := bind_ok.mp h
  obtain ⟨scope, hscope, h⟩ := bind_ok.mp h
  obtain ⟨hscopeMember, -⟩ := (requireObject_iff hdistinct).mp hscopeElement
  split at h
  · rename_i payload hpayload
    rw [tryGetProperty_eq] at hpayload
    obtain ⟨operationID, hoperation, h⟩ := bind_ok.mp h
    split at h
    · cases h
    split at h
    · cases h
    split at h
    · cases h
    rename_i hbootstrap
    split at h
    · cases h
    rename_i hhandshake
    split at h
    · cases h
    rename_i hlaunch
    cases h
    exact
      { fields := hfields
        name := hnameText
        bounded := hbounded
        named := hmethod
        intent := (readChoice_form (by decide)).mp hintent
        scope := ⟨scopeElement, hscopeMember,
          (parseScope_form (Json.distinct_member hdistinct hscopeMember)).mp hscope⟩
        payload := hpayload
        object := ⟨payload, rfl⟩
        carried := ⟨allFinite_token _, hnested _ hpayload⟩
        operation := readOperationId_form.mp hoperation
        bootstrap := by simpa using hbootstrap
        handshake := by simpa using hhandshake
        launch := by simpa [not_or] using hlaunch }
  · cases h

theorem parseCall_of_form {call : JsonElement} {requestId : String} {result : NativeCall JsonElement}
    (hdistinct : call.distinct = true) (h : CallForm windows call result) :
    parseCall call requestId = .ok result := by
  obtain ⟨name, intent, scope, payload, operationID, heffect⟩ := result
  obtain ⟨scopeElement, hscopeMember, hscope⟩ := h.scope
  obtain ⟨members, hmembers⟩ := h.object
  have hpayload := h.payload
  obtain ⟨hobserve, hmissing⟩ := sideEffecting_checks heffect
  have hscopeRecord : IsRecord scopeElement (scopeFields .handle) := by
    cases hscope with
    | bootstrap fields => exact IsRecord.mono fields (by decide)
    | host fields => exact IsRecord.mono fields (by decide)
    | session fields => exact IsRecord.mono fields (by decide)
    | handle fields => exact fields
  dsimp only at hmembers hpayload
  subst hmembers
  rw [← tryGetProperty_eq] at hpayload
  refine bind_ok.mpr ⟨name, readText_text.mpr ⟨h.name, h.bounded⟩, ?_⟩
  rw [if_neg (not_not.mpr ((methodNameRegex_iff h.bounded).mpr h.named))]
  refine bind_ok.mpr ⟨intent, (readChoice_form (by decide)).mpr h.intent, bind_ok.mpr
    ⟨scopeElement, (requireObject_iff hdistinct).mpr ⟨hscopeMember, hscopeRecord⟩, bind_ok.mpr
      ⟨scope, (parseScope_form (Json.distinct_member hdistinct hscopeMember)).mpr hscope, ?_⟩⟩⟩
  rw [hpayload]
  refine bind_ok.mpr ⟨operationID, readOperationId_form.mpr h.operation, ?_⟩
  rw [dif_neg hobserve, dif_neg hmissing, if_neg (by simpa using h.bootstrap),
    if_neg (by simpa using h.handshake), if_neg (by simpa [not_or] using h.launch)]

theorem readHeader_form {root : JsonElement} {type id : String} {fields : List String}
    (hdistinct : root.distinct = true) (htype : isText 128 type = true) :
    readHeader root type fields = .ok id ↔ IsRecord root fields ∧ HeaderForm root type id := by
  constructor
  · intro h
    obtain ⟨found, hfound, h⟩ := bind_ok.mp h
    obtain ⟨protocol, hprotocol, h⟩ := bind_ok.mp h
    split at h
    · cases h
    rename_i hname
    rw [not_not] at hname
    obtain ⟨version, hversion, h⟩ := bind_ok.mp h
    split at h
    · cases h
    rename_i hnumber
    rw [not_not] at hnumber
    obtain ⟨id', hid, h⟩ := bind_ok.mp h
    obtain ⟨type', hfoundType, h⟩ := bind_ok.mp h
    split at h
    · cases h
    rename_i hexpected
    rw [not_not] at hexpected
    cases h
    rw [hname] at hprotocol
    rw [hnumber] at hversion
    rw [hexpected] at hfoundType
    exact ⟨(requireOnlyProperties_iff _ _ hdistinct).mp ⟨found, hfound⟩,
      (readText_text.mp hprotocol).1, (readText_text.mp hversion).1, (readText_text.mp hfoundType).1,
      readIdentifier_form.mp hid⟩
  · rintro ⟨hrecord, hprotocol, hversion, hfound, hid⟩
    obtain ⟨found, hrequire⟩ := (requireOnlyProperties_iff "message" "invalid" hdistinct).mpr hrecord
    refine bind_ok.mpr ⟨found, hrequire, bind_ok.mpr ⟨_,
      readText_text.mpr ⟨hprotocol, by decide⟩, ?_⟩⟩
    rw [if_neg (not_not.mpr rfl)]
    refine bind_ok.mpr ⟨_, readText_text.mpr ⟨hversion, by decide⟩, ?_⟩
    rw [if_neg (not_not.mpr rfl)]
    refine bind_ok.mpr ⟨id, readIdentifier_form.mpr hid, bind_ok.mpr ⟨_,
      readText_text.mpr ⟨hfound, htype⟩, ?_⟩⟩
    rw [if_neg (not_not.mpr rfl)]

theorem validateSemanticMembers_request {root : JsonElement} (htype : HasText root "type" "request") :
    validateSemanticMembers root = .ok () ↔ ∀ call payload, root.member? "call" = some call →
      call.member? "payload" = some payload → payload.height ≤ 32 := by
  have hread : root.member? "type" = some (.string "request") := htype
  unfold validateSemanticMembers
  rw [tryGetProperty_eq, hread]
  rw [tryGetProperty_eq]
  cases root.member? "call" with
  | none => simp
  | some call =>
    rw [Option.bind_some, tryGetProperty_eq]
    cases hpayload : call.member? "payload" with
    | none =>
      refine ⟨fun _ call' payload hcall hmember => ?_, fun _ => rfl⟩
      cases hcall
      rw [hpayload] at hmember
      cases hmember
    | some payload =>
      simp only [validateSemanticValue_ok payload 0, Nat.zero_add, Option.some.injEq]
      constructor
      · rintro hheight _ _ rfl hmember
        rw [hpayload] at hmember
        cases hmember
        exact hheight
      · intro h
        exact h call payload rfl hpayload

theorem parseRequest_form {root : JsonElement} {result : Request} (hdistinct : root.distinct = true) :
    validateSemanticMembers root = .ok () ∧ parseRequest root = .ok result ↔
      ∃ token, RequestForm windows root token result := by
  constructor
  · rintro ⟨hsemantic, h⟩
    obtain ⟨id, hid, h⟩ := bind_ok.mp h
    obtain ⟨hrecord, hheader⟩ := (readHeader_form hdistinct (by decide)).mp hid
    obtain ⟨deadline, hdeadline, h⟩ := bind_ok.mp h
    obtain ⟨hdeadlineMember, hdeadlineRecord⟩ := (requireObject_iff hdistinct).mp hdeadline
    obtain ⟨timeoutMs, htimeout, h⟩ := bind_ok.mp h
    obtain ⟨token, hnumber, hinteger, hle⟩ := (readInteger_form (by decide)).mp htimeout
    obtain ⟨callElement, hcallElement, h⟩ := bind_ok.mp h
    obtain ⟨hcallMember, hcallRecord⟩ := (requireObject_iff hdistinct).mp hcallElement
    obtain ⟨call, hcall, h⟩ := bind_ok.mp h
    cases h
    have hnested := (validateSemanticMembers_request hheader.type).mp hsemantic callElement
    exact ⟨token, hrecord, hheader,
      ⟨deadline, hdeadlineMember, hdeadlineRecord, hnumber, hinteger, hle⟩, callElement, hcallMember,
      parseCall_form (Json.distinct_member hdistinct hcallMember) hcallRecord
        (fun payload => hnested payload hcallMember) hcall⟩
  · rintro ⟨token, h⟩
    obtain ⟨deadline, hdeadlineMember, hdeadline⟩ := h.deadline
    obtain ⟨callElement, hcallMember, hcall⟩ := h.call
    refine ⟨(validateSemanticMembers_request h.header.type).mpr fun call payload hmember hpayload => ?_, ?_⟩
    · cases hcallMember.symm.trans hmember
      cases hcall.payload.symm.trans hpayload
      exact hcall.carried.2
    · exact bind_ok.mpr ⟨_, (readHeader_form hdistinct (by decide)).mpr ⟨h.fields, h.header⟩,
        bind_ok.mpr ⟨deadline, (requireObject_iff hdistinct).mpr ⟨hdeadlineMember, hdeadline.fields⟩,
          bind_ok.mpr ⟨_, (readInteger_form (by decide)).mpr
            ⟨token, hdeadline.number, hdeadline.integer, hdeadline.bounded⟩,
            bind_ok.mpr ⟨callElement, (requireObject_iff hdistinct).mpr ⟨hcallMember, hcall.fields⟩,
              bind_ok.mpr ⟨_, parseCall_of_form (Json.distinct_member hdistinct hcallMember) hcall,
                rfl⟩⟩⟩⟩⟩

theorem validateSemanticMembers_cancel {root : JsonElement} (htype : HasText root "type" "cancel") :
    validateSemanticMembers root = .ok () := by
  have hread : root.member? "type" = some (.string "cancel") := htype
  unfold validateSemanticMembers
  rw [tryGetProperty_eq, hread]
  rfl

theorem parseCancel_form {root : JsonElement} {result : NativeCancel}
    (hdistinct : root.distinct = true) :
    validateSemanticMembers root = .ok () ∧ parseCancel root = .ok result ↔
      CancelForm root result := by
  constructor
  · rintro ⟨-, h⟩
    obtain ⟨id, hid, h⟩ := bind_ok.mp h
    obtain ⟨hrecord, hheader⟩ := (readHeader_form hdistinct (by decide)).mp hid
    obtain ⟨requestId, hrequestId, h⟩ := bind_ok.mp h
    split at h
    · cases h
    rename_i hother
    obtain ⟨reason, hreason, h⟩ := bind_ok.mp h
    cases h
    exact ⟨hrecord, hheader, readIdentifier_form.mp hrequestId, hother,
      (readChoice_form (by decide)).mp hreason⟩
  · intro h
    refine ⟨validateSemanticMembers_cancel h.header.type, bind_ok.mpr ⟨_,
      (readHeader_form hdistinct (by decide)).mpr ⟨h.fields, h.header⟩, bind_ok.mpr ⟨_,
        readIdentifier_form.mpr h.requestID, ?_⟩⟩⟩
    rw [if_neg h.other]
    exact bind_ok.mpr ⟨_, (readChoice_form (by decide)).mpr h.reason, rfl⟩

end SurfaceLoom.Native.WindowsWireForms
