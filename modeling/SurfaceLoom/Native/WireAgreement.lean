import SurfaceLoom.Native.MacWireForms
import SurfaceLoom.Native.WindowsIngest
import SurfaceLoom.Native.WindowsWireForms
import SurfaceLoom.Native.WireSchemaForms

/-! # Three readers of one schema

The client's schema and the decoders of the two hosts accept the forms of three dialects.
The macOS dialect is the widest: it differs from the client's in the first part of a method
name, and the Windows dialect differs from the client's in how an integer is written. -/
namespace SurfaceLoom.Native.WireAgreement
open SurfaceLoom.Lib SurfaceLoom.Native.Wire SurfaceLoom.Native.WindowsParser
open SurfaceLoom.Native.WindowsIngest (ClientMessage)
open SurfaceLoom.Native.WireSchemaForms (typeScript)
open SurfaceLoom.Native.MacWireForms (swift)
open SurfaceLoom.Native.WindowsWireForms (windows)

def typeScriptAccepts (value : JsonElement) : ClientMessage → Prop
  | .request request => WireSchema.validateWireMessage value = .ok (.request request)
  | .cancel cancel => WireSchema.validateWireMessage value = .ok (.cancel cancel)

def swiftAccepts (value : JsonElement) : ClientMessage → Prop
  | .request request => MacWireCodec.decodeMessage value = .ok (.request request)
  | .cancel cancel => MacWireCodec.decodeMessage value = .ok (.cancel cancel)

def windowsAccepts (value : JsonElement) : ClientMessage → Prop
  | .request request => validateSemanticMembers value = .ok () ∧ parseRequest value = .ok request
  | .cancel cancel => validateSemanticMembers value = .ok () ∧ parseCancel value = .ok cancel

/-- The three readers accept the same messages and read the same from them. -/
def Agree (value : JsonElement) : Prop :=
  ∀ message, (typeScriptAccepts value message ↔ swiftAccepts value message) ∧
    (swiftAccepts value message ↔ windowsAccepts value message)

/-! ## The dialects -/

theorem lowerTail_mixed {c : Char} (h : lowerTail c = true) : mixedTail c = true := by
  unfold lowerTail at h
  unfold mixedTail Char.isAlphanum Char.isAlpha
  simp only [Bool.or_eq_true] at h ⊢
  tauto

theorem methodNameChars_valid {chars : List Char} (h : methodNameChars chars = true) :
    MacWireCodec.validMethodName chars = true := by
  unfold methodNameChars at h
  unfold MacWireCodec.validMethodName
  generalize List.splitOn '.' chars = parts at h ⊢
  rcases parts with _ | ⟨first, _ | ⟨second, rest⟩⟩
  · cases h
  · cases h
  · simp only [Bool.and_eq_true] at h ⊢
    refine ⟨?_, h.2⟩
    cases first with
    | nil => exact h.1
    | cons c tail =>
      simp only [methodPart, Bool.and_eq_true, List.all_eq_true] at h ⊢
      exact ⟨h.1.1, fun c hc => lowerTail_mixed (h.1.2 c hc)⟩

theorem plain_of_windows {value : JsonElement} {token : NumberToken} {request : Request}
    (h : RequestForm windows value token request) : token.plain = true := by
  obtain ⟨deadline, -, hdeadline⟩ := h.deadline
  have hinteger : (if token.plain then some token.int else none) =
      some (request.timeoutMilliseconds : Int) := hdeadline.integer
  by_contra hplain
  rw [if_neg hplain] at hinteger
  cases hinteger

theorem typeScript_swift {value : JsonElement} {token : NumberToken} {request : Request} :
    RequestForm typeScript value token request ↔
      RequestForm swift value token request ∧ methodNameChars request.call.name.toList = true :=
  ⟨fun h => ⟨h.translate rfl (methodNameChars_valid h.named), h.named⟩,
    fun ⟨h, hmethod⟩ => h.translate rfl hmethod⟩

theorem windows_swift {value : JsonElement} {token : NumberToken} {request : Request} :
    RequestForm windows value token request ↔ RequestForm swift value token request ∧
      token.plain = true ∧ methodNameChars request.call.name.toList = true := by
  have hinteger : token.plain = true → swift.integer token = windows.integer token := by
    intro hplain
    show JsonNumber.integer? token = if token.plain then some token.int else none
    rw [if_pos hplain]
    exact NumberToken.integer?_of_plain hplain
  constructor
  · intro h
    have hplain := plain_of_windows h
    exact ⟨h.translate (hinteger hplain) (methodNameChars_valid h.named), hplain, h.named⟩
  · rintro ⟨h, hplain, hmethod⟩
    exact h.translate (hinteger hplain).symm hmethod

/-! ## Where the readers agree -/

/-- On a frame without duplicate keys, the readers agree unless it is a request, in the
widest dialect, with a method name or a timeout that only some of them take. -/
theorem client_messages_agree (value : JsonElement) (hdistinct : value.distinct = true) :
    Agree value ↔ ∀ token request, RequestForm swift value token request →
      token.plain = true ∧ methodNameChars request.call.name.toList = true := by
  constructor
  · intro h token request hswift
    have hboth := h (.request request)
    have haccepts : swiftAccepts value (.request request) :=
      MacWireForms.decode_request.mpr ⟨token, hswift⟩
    obtain ⟨token', hwindows⟩ :=
      (WindowsWireForms.parseRequest_form hdistinct).mp (hboth.2.mp haccepts)
    cases RequestForm.token_unique hswift hwindows
    exact (windows_swift.mp hwindows).2
  · intro h message
    cases message with
    | request request =>
      refine ⟨?_, ?_⟩
      · show WireSchema.validateWireMessage value = _ ↔ MacWireCodec.decodeMessage value = _
        rw [WireSchemaForms.validate_request, MacWireForms.decode_request]
        exact exists_congr fun token => ⟨fun hform => (typeScript_swift.mp hform).1,
          fun hform => typeScript_swift.mpr ⟨hform, (h token request hform).2⟩⟩
      · show MacWireCodec.decodeMessage value = _ ↔ _ ∧ _
        rw [MacWireForms.decode_request, WindowsWireForms.parseRequest_form hdistinct]
        exact exists_congr fun token => ⟨fun hform => windows_swift.mpr ⟨hform, h token request hform⟩,
          fun hform => (windows_swift.mp hform).1⟩
    | cancel cancel =>
      refine ⟨?_, ?_⟩
      · show WireSchema.validateWireMessage value = _ ↔ MacWireCodec.decodeMessage value = _
        rw [WireSchemaForms.validate_cancel, MacWireForms.decode_cancel]
      · show MacWireCodec.decodeMessage value = _ ↔ _ ∧ _
        rw [MacWireForms.decode_cancel, WindowsWireForms.parseCancel_form hdistinct]

/-! ## Where they do not -/

def demoRequest (name timeoutMs : Json NumberToken) : JsonElement :=
  .object [("protocol", .string nativeProtocolName), ("version", .string nativeProtocolVersion),
    ("id", .string "r1"), ("type", .string "request"),
    ("deadline", .object [("timeoutMs", timeoutMs)]),
    ("call", .object [("name", name), ("intent", .string "observe"),
      ("scope", .object [("kind", .string "host"), ("hostInstanceId", .string "host-1")]),
      ("payload", .object [])])]

local instance neZero_digits : NeZero 10 := ⟨by decide⟩

/-- `100`, `100.0` -/
def hundred : JsonElement := .number ⟨false, 100, [], none⟩
def hundredPoint : JsonElement := .number ⟨false, 100, [0], none⟩

theorem demoRequest_form {d : Dialect NumberToken} {name timeoutMs : JsonElement}
    {token : NumberToken} {request : Request}
    (h : RequestForm d (demoRequest name timeoutMs) token request) :
    timeoutMs = .number token ∧ name = .string request.call.name := by
  obtain ⟨deadline, hmember, hdeadline⟩ := h.deadline
  obtain ⟨call, hcallMember, hcall⟩ := h.call
  have hfound : (demoRequest name timeoutMs).member? "deadline" =
      some (.object [("timeoutMs", timeoutMs)]) := rfl
  cases hfound.symm.trans hmember
  have hfoundCall : ∃ rest, (demoRequest name timeoutMs).member? "call" =
      some (.object (("name", name) :: rest)) ∧
        Json.get? (("name", name) :: rest) "name" = some name := ⟨_, rfl, rfl⟩
  obtain ⟨rest, hfoundCall, hname⟩ := hfoundCall
  cases hfoundCall.symm.trans hcallMember
  exact ⟨Option.some.inj hdeadline.number, Option.some.inj (hname.symm.trans hcall.name)⟩

theorem plain_request_agrees : Agree (demoRequest (.string "host.doctor") hundred) := by
  refine (client_messages_agree _ (by decide +kernel)).mpr fun token request h => ?_
  obtain ⟨htoken, hname⟩ := demoRequest_form h
  cases htoken
  rw [← Json.string.inj hname]
  exact ⟨rfl, by decide +kernel⟩

def requestOf {ε ν : Type} : Except ε (WireMessage ν) → Option (NativeRequest (Json ν))
  | .ok (.request request) => some request
  | _ => none

theorem requestOf_isSome {ε ν : Type} {result : Except ε (WireMessage ν)}
    (h : (requestOf result).isSome = true) : ∃ request, result = .ok (.request request) := by
  unfold requestOf at h
  split at h
  · exact ⟨_, rfl⟩
  · cases h

/-- The macOS host takes `hostTools.doctor`, the Windows host does not take `100.0`. -/
theorem requests_disagree :
    ¬ Agree (demoRequest (.string "hostTools.doctor") hundred) ∧
      ¬ Agree (demoRequest (.string "host.doctor") hundredPoint) := by
  refine ⟨fun h => ?_, fun h => ?_⟩
  · have htaken : (requestOf (MacWireCodec.decodeMessage
        (demoRequest (.string "hostTools.doctor") hundred))).isSome = true := by decide +kernel
    have hrefused : (WireSchema.validateWireMessage
        (demoRequest (.string "hostTools.doctor") hundred)).isOk = false := by decide +kernel
    obtain ⟨request, hswift⟩ := requestOf_isSome htaken
    have haccepted := (h (.request request)).1.mpr hswift
    rw [show WireSchema.validateWireMessage _ = _ from haccepted] at hrefused
    cases hrefused
  · have htaken : (requestOf (MacWireCodec.decodeMessage
        (demoRequest (.string "host.doctor") hundredPoint))).isSome = true := by decide +kernel
    have hrefused : (parseRequest
        (demoRequest (.string "host.doctor") hundredPoint)).isOk = false := by decide +kernel
    obtain ⟨request, hswift⟩ := requestOf_isSome htaken
    have haccepted := ((h (.request request)).2.mp hswift).2
    rw [haccepted] at hrefused
    cases hrefused

end SurfaceLoom.Native.WireAgreement
