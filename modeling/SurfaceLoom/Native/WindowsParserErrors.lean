import SurfaceLoom.Lib.Checked
import SurfaceLoom.Native.WindowsParser

/-! # What the Windows parser raises

Every protocol exception carries the id the frame was read under, or `invalid`, and
bounded texts. The one exception of another type comes from a `timeoutMs` that is no
number. -/
namespace SurfaceLoom.Native.WindowsParserErrors
open SurfaceLoom.Lib SurfaceLoom.Lib.Checked SurfaceLoom.Native.Wire SurfaceLoom.Native.WindowsParser

/-- A protocol exception under one of some ids, with bounded texts. -/
def Rejects (ids : String → Prop) : ParserException → Prop
  | .protocol exception => ids exception.requestId ∧
    exception.code.length + exception.message.length ≤ 256
  | .invalidOperation => False

theorem Rejects.mono {ids ids' : String → Prop} (h : ∀ id, ids id → ids' id) :
    ∀ e, Rejects ids e → Rejects ids' e := by
  intro e he
  cases e with
  | protocol exception => exact ⟨h _ he.1, he.2⟩
  | invalidOperation => exact he

variable {α : Type}

theorem invalid_fails {ids : String → Prop} {code message requestId : String}
    {category : NativeErrorCategory} {details : Option (List String)} (hid : ids requestId)
    (h : code.length + message.length ≤ 256) :
    Fails (Rejects ids) (invalid code category message requestId details : Parsed α) :=
  .error ⟨hid, h⟩

theorem invalidMessage_fails {message requestId : String} (h : message.length ≤ 200) :
    Fails (Rejects (· = requestId)) (invalidMessage message requestId : Parsed α) := by
  refine invalid_fails rfl ?_
  have hcode : "invalid_message".length = 15 := rfl
  omega

/-- The texts that name a property of bounded length. -/
theorem labelled_length {label text : String} (hlabel : label.length ≤ 64) (htext : text.length ≤ 64) :
    (label ++ text).length ≤ 200 := by
  rw [String.length_append]
  omega

section Readers

variable {parent : JsonElement} {property requestId : String}

theorem requireOnlyProperties_fails {label : String} {fields : List String}
    (h : label.length ≤ 64) :
    Fails (Rejects (· = requestId)) (requireOnlyProperties parent label fields requestId) := by
  unfold requireOnlyProperties
  split
  · exact invalidMessage_fails (labelled_length h (by decide))
  · split
    · exact .ok _
    · exact invalidMessage_fails (labelled_length h (by decide))

theorem requireObject_fails {fields : List String} (h : property.length ≤ 64) :
    Fails (Rejects (· = requestId)) (requireObject parent property fields requestId) := by
  unfold requireObject
  split
  · exact .bind (requireOnlyProperties_fails h) fun _ _ => .ok _
  · exact invalidMessage_fails (labelled_length h (by decide))

theorem readText_fails (h : property.length ≤ 64) :
    Fails (Rejects (· = requestId)) (readText parent property requestId) := by
  unfold readText
  split
  · split
    · exact .ok _
    · exact invalidMessage_fails (labelled_length h (by decide))
  · exact invalidMessage_fails (labelled_length h (by decide))

theorem readChoice_fails {choices : List (String × α)} (h : property.length ≤ 64) :
    Fails (Rejects (· = requestId)) (readChoice parent property choices requestId) := by
  refine .bind (readText_fails h) fun text _ => ?_
  split
  · exact .ok _
  · exact invalidMessage_fails (labelled_length h (by decide))

theorem readIdentifier_fails (h : property.length ≤ 64) :
    Fails (Rejects (· = requestId)) (readIdentifier parent property requestId) := by
  refine .bind (readText_fails h) fun text _ => ?_
  split
  · exact .ok _
  · exact invalidMessage_fails (labelled_length h (by decide))

theorem readOperationId_fails :
    Fails (Rejects (· = requestId)) (readOperationId parent requestId) := by
  unfold readOperationId
  split
  · exact .ok _
  · exact .map (readIdentifier_fails (by decide))

theorem parseScope_fails : Fails (Rejects (· = requestId)) (parseScope parent requestId) := by
  refine .bind (readChoice_fails (by decide)) fun kind _ => ?_
  refine .bind (requireOnlyProperties_fails (by decide)) fun _ _ => ?_
  have hread : ∀ property : String, property.length ≤ 64 →
      Fails (Rejects (· = requestId)) (readIdentifier parent property requestId) :=
    fun _ h => readIdentifier_fails h
  cases kind with
  | bootstrap => exact .ok _
  | host => exact .bind (hread _ (by decide)) fun _ _ => .ok _
  | session =>
    exact .bind (hread _ (by decide)) fun _ _ => .bind (hread _ (by decide)) fun _ _ => .ok _
  | handle =>
    exact .bind (hread _ (by decide)) fun _ _ => .bind (hread _ (by decide)) fun _ _ =>
      .bind (hread _ (by decide)) fun _ _ => .ok _

theorem parseCall_fails : Fails (Rejects (· = requestId)) (parseCall parent requestId) := by
  have hinvalid : ∀ message : String, message.length ≤ 200 →
      Fails (Rejects (· = requestId))
        (invalidMessage message requestId : Parsed (NativeCall JsonElement)) :=
    fun _ h => invalidMessage_fails h
  refine .bind (readText_fails (by decide)) fun name _ => ?_
  split
  · exact hinvalid _ (by decide)
  refine .bind (readChoice_fails (by decide)) fun intent _ => ?_
  refine .bind (requireObject_fails (by decide)) fun scopeElement _ => ?_
  refine .bind parseScope_fails fun scope _ => ?_
  split
  · refine .bind readOperationId_fails fun operationID _ => ?_
    split
    · exact hinvalid _ (by decide)
    split
    · exact hinvalid _ (by decide)
    split
    · exact hinvalid _ (by decide)
    split
    · exact hinvalid _ (by decide)
    split
    · exact hinvalid _ (by decide)
    · exact .ok _
  · exact hinvalid _ (by decide)

end Readers

/-! ## Identifiers -/

theorem isText_newline {maximum : Nat} {text : String} (h : isText maximum text = true) :
    '\n' ∉ text.toList := by
  unfold isText at h
  exact (of_decide_eq_true h).2.2.2.2

theorem endsBeforeNewline_iff {pattern : List Char → Bool} {chars : List Char}
    (h : '\n' ∉ chars) : endsBeforeNewline pattern chars = pattern chars := by
  unfold endsBeforeNewline
  have hlast : chars.getLast? ≠ some '\n' := fun hlast => h (List.mem_of_getLast? hlast)
  simp [hlast]

def stringProperty (element : JsonElement) (property : String) : Option String :=
  match tryGetProperty element property with
  | some (.string text) => some text
  | _ => none

theorem stringProperty_eq_some {element : JsonElement} {property text : String} :
    stringProperty element property = some text ↔
      tryGetProperty element property = some (.string text) := by
  unfold stringProperty
  cases tryGetProperty element property with
  | none => simp
  | some value => cases value <;> simp

theorem readText_iff {parent : JsonElement} {property requestId text : String} :
    readText parent property requestId = .ok text ↔
      tryGetProperty parent property = some (.string text) ∧ isText 128 text = true := by
  unfold readText
  cases tryGetProperty parent property with
  | none => simp [invalidMessage, invalid]
  | some value =>
    cases value with
    | string text' =>
      by_cases hbounded : isText 128 text' = true
      · simp only [hbounded, if_true, Except.ok.injEq, Option.some.injEq, Json.string.injEq]
        exact ⟨fun heq => ⟨heq, heq ▸ hbounded⟩, fun heq => heq.1⟩
      · simp only [hbounded, Bool.false_eq_true, if_false, Option.some.injEq, Json.string.injEq]
        exact ⟨nofun, fun heq => absurd (heq.1 ▸ heq.2) hbounded⟩
    | _ => simp [invalidMessage, invalid]

theorem readIdentifier_iff {parent : JsonElement} {property requestId id : String} :
    readIdentifier parent property requestId = .ok id ↔
      tryGetProperty parent property = some (.string id) ∧ isText 128 id = true ∧
        isIdentifier id = true := by
  unfold readIdentifier
  simp only [bind_ok, readText_iff]
  constructor
  · rintro ⟨text, ⟨hproperty, hbounded⟩, h⟩
    rw [identifierRegex, endsBeforeNewline_iff (isText_newline hbounded)] at h
    split at h
    · rename_i hidentifier
      cases h
      exact ⟨hproperty, hbounded, hidentifier⟩
    · cases h
  · rintro ⟨hproperty, hbounded, hidentifier⟩
    refine ⟨id, ⟨hproperty, hbounded⟩, if_pos ?_⟩
    rw [identifierRegex, endsBeforeNewline_iff (isText_newline hbounded)]
    exact hidentifier

/-- An identifier that was read is the one the lenient reader finds, and is one. -/
theorem readIdentifier_ok {parent : JsonElement} {property requestId id : String}
    (h : readIdentifier parent property requestId = .ok id) :
    stringProperty parent property = some id ∧ tryReadIdentifier parent property = some id ∧
      isIdentifier id = true := by
  obtain ⟨hproperty, hbounded, hidentifier⟩ := readIdentifier_iff.mp h
  refine ⟨stringProperty_eq_some.mpr hproperty, ?_, hidentifier⟩
  rw [tryReadIdentifier, hproperty]
  refine if_pos ?_
  rw [identifierRegex, endsBeforeNewline_iff (isText_newline hbounded)]
  exact hidentifier

/-- A recoverable id is an identifier, up to a newline at its end. -/
theorem tryReadIdentifier_length {parent : JsonElement} {property id : String}
    (h : tryReadIdentifier parent property = some id) : id.length ≤ 129 := by
  unfold tryReadIdentifier at h
  split at h
  · rename_i text _
    split at h
    · rename_i hregex
      cases h
      have hchars : ∀ chars, identifierChars chars = true → chars.length ≤ 128 := by
        intro chars hc
        cases chars with
        | nil => exact Nat.zero_le _
        | cons c rest =>
          simp only [identifierChars, Bool.and_eq_true, decide_eq_true_eq] at hc
          simp only [List.length_cons]
          omega
      rw [← String.length_toList]
      unfold identifierRegex endsBeforeNewline at hregex
      rcases Bool.or_eq_true_iff.mp hregex with hid | hid
      · have := hchars _ hid
        omega
      · have := hchars _ (Bool.and_eq_true_iff.mp hid).2
        rw [List.length_dropLast] at this
        omega
    · cases h
  · cases h

/-! ## Messages -/

/-- The ids an exception about a frame may carry. -/
def FrameId (root : JsonElement) (id : String) : Prop :=
  id = "invalid" ∨ tryReadMessageId root = some id

theorem FrameId.length {root : JsonElement} {id : String} (h : FrameId root id) :
    id.length ≤ 129 := by
  rcases h with rfl | h
  · decide
  · exact tryReadIdentifier_length h

theorem readHeader_fails {root : JsonElement} {expectedType : String} {fields : List String}
    (h : expectedType.length ≤ 64) :
    Fails (Rejects (FrameId root)) (readHeader root expectedType fields) := by
  have hown : ∀ {β : Type} {x : Parsed β} {id : String}, FrameId root id →
      Fails (Rejects (· = id)) x → Fails (Rejects (FrameId root)) x :=
    fun hid hx => hx.mono (Rejects.mono fun _ heq => heq ▸ hid)
  have hrecoverable : FrameId root ((tryReadIdentifier root "id").getD "invalid") := by
    cases hid : tryReadIdentifier root "id" with
    | none => exact .inl rfl
    | some id => exact .inr hid
  refine .bind (hown (.inl rfl) (requireOnlyProperties_fails (by decide))) fun _ _ => ?_
  refine .bind (hown hrecoverable (readText_fails (by decide))) fun protocol _ => ?_
  split
  · exact invalid_fails hrecoverable (by decide)
  refine .bind (hown hrecoverable (readText_fails (by decide))) fun version _ => ?_
  split
  · exact invalid_fails hrecoverable (by decide)
  refine .bind (hown hrecoverable (readIdentifier_fails (by decide))) fun id hid => ?_
  have hframe : FrameId root id := .inr (readIdentifier_ok hid).2.1
  refine .bind (hown hframe (readText_fails (by decide))) fun type _ => ?_
  split
  · refine hown hframe (invalidMessage_fails ?_)
    rw [String.length_append, String.length_append]
    have hfirst : "Expected a ".length = 11 := rfl
    have hlast : " message.".length = 9 := rfl
    omega
  · exact .ok _

/-- The header is that of a message of a type. -/
def headerAccepted (root : JsonElement) (expectedType : String) (fields : List String) : Bool :=
  match members root with
  | none => false
  | some found =>
    (found.map Prod.fst).Nodup ∧ (∀ key ∈ found.map Prod.fst, key ∈ fields) ∧
      stringProperty root "protocol" = some nativeProtocolName ∧
      stringProperty root "version" = some nativeProtocolVersion ∧
      (stringProperty root "id").any isIdentifier ∧ stringProperty root "type" = some expectedType

theorem requireOnlyProperties_ok {element : JsonElement} {label requestId : String}
    {fields : List String} {found : List (String × JsonElement)}
    (h : requireOnlyProperties element label fields requestId = .ok found) :
    members element = some found ∧ (found.map Prod.fst).Nodup ∧
      ∀ key ∈ found.map Prod.fst, key ∈ fields := by
  unfold requireOnlyProperties at h
  split at h
  · cases h
  · rename_i found' hmembers
    split at h
    · rename_i hfields
      cases h
      exact ⟨hmembers, hfields⟩
    · cases h

theorem readHeader_ok {root : JsonElement} {expectedType id : String} {fields : List String}
    (h : readHeader root expectedType fields = .ok id) :
    tryReadMessageId root = some id ∧ isIdentifier id = true ∧
      headerAccepted root expectedType fields = true := by
  obtain ⟨found, hfound, h⟩ := bind_ok.mp h
  obtain ⟨hmembers, hnodup, hfields⟩ := requireOnlyProperties_ok hfound
  obtain ⟨protocol, hprotocol, h⟩ := bind_ok.mp h
  split at h
  · cases h
  rename_i hname
  rw [not_not] at hname
  obtain ⟨version, hversion, h⟩ := bind_ok.mp h
  split at h
  · cases h
  rename_i hnumber
  rw [not_not] at hnumber
  obtain ⟨id', hid, h⟩ := bind_ok.mp h
  obtain ⟨type, htype, h⟩ := bind_ok.mp h
  split at h
  · cases h
  · rename_i hexpected
    rw [not_not] at hexpected
    cases h
    obtain ⟨hstring, htry, hidentifier⟩ := readIdentifier_ok hid
    refine ⟨htry, hidentifier, ?_⟩
    rw [headerAccepted, hmembers]
    refine decide_eq_true ⟨hnodup, hfields,
      hname ▸ stringProperty_eq_some.mpr (readText_iff.mp hprotocol).1,
      hnumber ▸ stringProperty_eq_some.mpr (readText_iff.mp hversion).1, ?_,
      hexpected ▸ stringProperty_eq_some.mpr (readText_iff.mp htype).1⟩
    rw [hstring]
    exact hidentifier

theorem parseCancel_fails {root : JsonElement} :
    Fails (Rejects (FrameId root)) (parseCancel root) := by
  refine .bind (readHeader_fails (by decide)) fun id hid => ?_
  have hown : ∀ {β : Type} {x : Parsed β}, Fails (Rejects (· = id)) x →
      Fails (Rejects (FrameId root)) x :=
    fun hx => hx.mono (Rejects.mono fun _ heq => heq ▸ .inr (readHeader_ok hid).1)
  refine .bind (hown (readIdentifier_fails (by decide))) fun requestId _ => ?_
  split
  · exact hown (invalidMessage_fails (by decide))
  · exact .bind (hown (readChoice_fails (by decide))) fun _ _ => .ok _

/-- A request whose header is accepted and whose deadline has a `timeoutMs`, and nothing
else, that is not a number. -/
def timeoutNotNumber (root : JsonElement) : Bool :=
  headerAccepted root "request" requestFields &&
    match tryGetProperty root "deadline" with
    | some (.object [("timeoutMs", .number _)]) => false
    | some (.object [("timeoutMs", _)]) => true
    | _ => false

theorem requireObject_ok {parent element : JsonElement} {property requestId : String}
    {fields : List String} (h : requireObject parent property fields requestId = .ok element) :
    ∃ found, tryGetProperty parent property = some element ∧ element = .object found ∧
      (found.map Prod.fst).Nodup ∧ ∀ key ∈ found.map Prod.fst, key ∈ fields := by
  unfold requireObject at h
  split at h
  · rename_i found hproperty
    obtain ⟨found', hfound, h⟩ := bind_ok.mp h
    obtain ⟨hmembers, hfields⟩ := requireOnlyProperties_ok hfound
    cases h
    cases hmembers
    exact ⟨found, hproperty, rfl, hfields⟩
  · cases h

/-- An object that has one member of one allowed name has no other. -/
theorem single_member {found : List (String × JsonElement)} {key : String} {value : JsonElement}
    (hmem : (key, value) ∈ found) (hnodup : (found.map Prod.fst).Nodup)
    (hfields : ∀ k ∈ found.map Prod.fst, k ∈ [key]) : found = [(key, value)] := by
  match found with
  | [] => cases hmem
  | [(k, v)] =>
    cases List.mem_singleton.mp hmem
    rfl
  | (k, v) :: (k', v') :: rest =>
    have hk : k = key := List.mem_singleton.mp (hfields k (by simp))
    have hk' : k' = key := List.mem_singleton.mp (hfields k' (by simp))
    rw [hk, hk'] at hnodup
    simp at hnodup

theorem readInteger_fails {parent : JsonElement} {property requestId : String}
    {minimum maximum : Nat} (h : property.length ≤ 64) :
    Fails (fun e => Rejects (· = requestId) e ∨ e = .invalidOperation ∧
      ∃ value, tryGetProperty parent property = some value ∧ ∀ token, value ≠ .number token)
      (readInteger parent property minimum maximum requestId) := by
  have hrange : Fails (Rejects (· = requestId))
      (invalidMessage (property ++ " is outside its allowed range.") requestId : Parsed Nat) :=
    invalidMessage_fails (labelled_length h (by decide))
  unfold readInteger
  split
  · exact hrange.mono fun e he => .inl he
  · rename_i value hvalue
    refine .bind (fun e he => ?_) fun result _ => ?_
    · cases value with
      | number token => cases he
      | _ =>
        cases he
        exact .inr ⟨rfl, _, hvalue, nofun⟩
    · split
      · exact hrange.mono fun e he => .inl he
      · split
        · exact hrange.mono fun e he => .inl he
        · exact .ok _

/-- A request that raises anything but a protocol exception has a `timeoutMs` that is
not a number. -/
theorem parseRequest_fails {root : JsonElement} :
    Fails (fun e => Rejects (FrameId root) e ∨ e = .invalidOperation ∧ timeoutNotNumber root = true)
      (parseRequest root) := by
  refine .bind ((readHeader_fails (by decide)).mono fun e he => .inl he) fun id hid => ?_
  have hown : ∀ {β : Type} {x : Parsed β}, Fails (Rejects (· = id)) x →
      Fails (fun e => Rejects (FrameId root) e ∨
        e = .invalidOperation ∧ timeoutNotNumber root = true) x :=
    fun hx => hx.mono fun e he => .inl (Rejects.mono (fun _ heq => heq ▸ .inr (readHeader_ok hid).1) e he)
  refine .bind (hown (requireObject_fails (by decide))) fun deadline hdeadline => ?_
  obtain ⟨found, hproperty, rfl, hnodup, hfields⟩ := requireObject_ok hdeadline
  refine .bind ((readInteger_fails (by decide)).mono fun e he => ?_) fun timeoutMs _ => ?_
  · rcases he with he | ⟨he, value, hvalue, hnumber⟩
    · exact .inl (Rejects.mono (fun _ heq => heq ▸ .inr (readHeader_ok hid).1) e he)
    · refine .inr ⟨he, ?_⟩
      have hmem : ("timeoutMs", value) ∈ found := Json.mem_of_get? hvalue
      rw [single_member hmem hnodup hfields] at hproperty
      rw [timeoutNotNumber, (readHeader_ok hid).2.2, hproperty]
      cases value with
      | number token => exact absurd rfl (hnumber token)
      | _ => rfl
  refine .bind (hown (requireObject_fails (by decide))) fun callElement _ => ?_
  exact .bind (hown parseCall_fails) fun _ _ => .ok _

end SurfaceLoom.Native.WindowsParserErrors
