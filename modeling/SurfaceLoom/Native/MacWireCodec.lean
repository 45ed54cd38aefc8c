import SurfaceLoom.Lib.Checked
import SurfaceLoom.Native.WireForms

/-! # The macOS host's decoder

`NativeWireCodec.decodeMessage` and `WireValidation`. The keys of an object are compared
by their bytes, so an object is the list of its entries; texts are checked byte by byte,
which a character outside ASCII never passes. -/
namespace SurfaceLoom.Native.MacWireCodec
open SurfaceLoom.Lib SurfaceLoom.Native.Wire

structure NativeProtocolError where
  code : String
  category : NativeErrorCategory
  message : String
  requestID : Option String
  deriving DecidableEq

abbrev Decoded (α : Type) := Except NativeProtocolError α

def invalid {α : Type} (message : String) (requestID : Option String := none) : Decoded α :=
  .error ⟨"invalid_message", .invalidRequest, message, requestID⟩

variable {ν : Type}

abbrev NativeJSONObject (ν : Type) := List (String × Json ν)

/-! ## Validation -/

def object (value : Json ν) (label : String) (allowed : List String) : Decoded (NativeJSONObject ν) :=
  match value with
  | .object result =>
    if ∃ key ∈ result.map Prod.fst, key ∉ allowed then
      invalid (label ++ " contains an unknown field.")
    else .ok result
  | _ => invalid (label ++ " must be an object.")

def required (input : NativeJSONObject ν) (key label : String) : Decoded (Json ν) :=
  match Json.get? input key with
  | some value => .ok value
  | none => invalid (label ++ "." ++ key ++ " is required.")

def text (value : Json ν) (label : String) (maximum : Nat := 128) : Decoded String :=
  match value with
  | .string result =>
    if isText maximum result then .ok result
    else invalid (label ++ " is not a bounded single-line string.")
  | _ => invalid (label ++ " is not a bounded single-line string.")

def identifierBytes : List Char → Bool
  | [] => false
  | first :: rest => first.isAlphanum && rest.all identifierTail

def identifier (value : Json ν) (label : String) : Decoded String := do
  let result ← text value label
  if identifierBytes result.toList then .ok result
  else invalid (label ++ " is not a wire identifier.")

/-- Only the first byte of the first part must be in lower case. -/
def validMethodName (chars : List Char) : Bool :=
  match chars.splitOn '.' with
  | first :: second :: rest =>
    methodPart Char.isLower mixedTail first &&
      (second :: rest).all (methodPart Char.isAlpha mixedTail)
  | _ => false

def methodName (value : Json ν) (label : String) : Decoded String := do
  let name ← text value label
  if validMethodName name.toList then .ok name else invalid (label ++ " must be namespaced.")

/-- A text that is the raw value of an enumeration. -/
def rawValue {α : Type} (words : List (String × α)) (value : Json ν) (label message : String)
    (requestID : Option String := none) : Decoded α := do
  let word ← text value label
  match ofWord words word with
  | some result => .ok result
  | none => invalid message requestID

variable [JsonNumber ν]

def integer (value : Json ν) (label : String) (minimum maximum : Nat) : Decoded Nat :=
  let outside := invalid (label ++ " must be an integer between " ++ toString minimum ++ " and " ++
    toString maximum ++ ".")
  match value with
  | .number number =>
    match JsonNumber.integer? number with
    | some n =>
      if n.natAbs ≤ 9007199254740991 ∧ (minimum : Int) ≤ n ∧ n ≤ maximum then .ok n.toNat
      else outside
    | none => outside
  | _ => outside

mutual

def validateJSON (maximumDepth depth : Nat) : Json ν → Decoded Unit
  | .number value =>
    if depth > maximumDepth then invalid "JSON value exceeds the nesting limit."
    else if JsonNumber.isFinite value then .ok () else invalid "JSON numbers must be finite."
  | .array items =>
    if depth > maximumDepth then invalid "JSON value exceeds the nesting limit."
    else validateItems maximumDepth (depth + 1) items
  | .object fields =>
    if depth > maximumDepth then invalid "JSON value exceeds the nesting limit."
    else validateFields maximumDepth (depth + 1) fields
  | .null | .bool _ | .string _ =>
    if depth > maximumDepth then invalid "JSON value exceeds the nesting limit." else .ok ()

def validateItems (maximumDepth depth : Nat) : List (Json ν) → Decoded Unit
  | [] => .ok ()
  | item :: rest => do
    validateJSON maximumDepth depth item
    validateItems maximumDepth depth rest

def validateFields (maximumDepth depth : Nat) : NativeJSONObject ν → Decoded Unit
  | [] => .ok ()
  | (_, item) :: rest => do
    validateJSON maximumDepth depth item
    validateFields maximumDepth depth rest

end

/-! ## Messages -/

def header (input : NativeJSONObject ν) (expectedType : String) : Decoded String := do
  let recoverableID := (Json.get? input "id").bind fun value =>
    (identifier value "message.id").toOption
  let protocolInput ← required input "protocol" "message"
  let protocolName ← text protocolInput "message.protocol"
  if protocolName ≠ nativeProtocolName then
    .error ⟨"unsupported_protocol", .protocolError, "Unsupported native protocol.", recoverableID⟩
  else do
    let versionInput ← required input "version" "message"
    let version ← text versionInput "message.version"
    if version ≠ nativeProtocolVersion then
      .error ⟨"unsupported_version", .protocolError, "Unsupported native protocol version.",
        recoverableID⟩
    else do
      let idInput ← required input "id" "message"
      let id ← identifier idInput "message.id"
      let typeInput ← required input "type" "message"
      let type ← text typeInput "message.type"
      if type ≠ expectedType then invalid ("Expected a " ++ expectedType ++ " message.") (some id)
      else .ok id

def decodeScope (value : Json ν) : Decoded NativeScope :=
  match value with
  | .object raw => do
    let kindInput ← required raw "kind" "call.scope"
    let kind ← text kindInput "call.scope.kind"
    match ofWord scopeKindWords kind with
    | none => invalid "call.scope.kind is not supported."
    | some kind => do
      let input ← object value "call.scope" (scopeFields kind)
      let identifier (key : String) : Decoded String := do
        let found ← required input key "call.scope"
        identifier found ("call.scope." ++ key)
      match kind with
      | .bootstrap => .ok .bootstrap
      | .host => do
        let hostInstanceID ← identifier "hostInstanceId"
        .ok (.host hostInstanceID)
      | .session => do
        let hostInstanceID ← identifier "hostInstanceId"
        let sessionID ← identifier "sessionId"
        .ok (.session hostInstanceID sessionID)
      | .handle => do
        let hostInstanceID ← identifier "hostInstanceId"
        let sessionID ← identifier "sessionId"
        let handleID ← identifier "handleId"
        .ok (.handle hostInstanceID sessionID handleID)
  | _ => invalid "call.scope must be an object."

def readOperationID (input : NativeJSONObject ν) : Decoded (Option String) :=
  match Json.get? input "operationId" with
  | none => .ok none
  | some value => (identifier value "call.operationId").map some

def decodeCall (value : Json ν) (requestID : String) : Decoded (NativeCall (Json ν)) := do
  let input ← object value "call" callFields
  let nameInput ← required input "name" "call"
  let name ← methodName nameInput "call.name"
  let intentInput ← required input "intent" "call"
  let intent ← rawValue intentWords intentInput "call.intent"
    "call.intent is not a supported value." (some requestID)
  let scopeInput ← required input "scope" "call"
  let scope ← decodeScope scopeInput
  let payloadValue ← required input "payload" "call"
  match payloadValue with
  | .object payload => do
    validateJSON 32 0 (.object payload)
    let operationID ← readOperationID input
    if hobserve : intent = .observe ∧ operationID.isSome then
      invalid "Observe calls must not carry operationId." (some requestID)
    else if heffect : intent ≠ .observe ∧ operationID.isNone then
      invalid "Mutate and lifecycle calls require operationId." (some requestID)
    else if (scope = .bootstrap) ≠ (name = handshakeMethod) then
      invalid "Only host.handshake may use bootstrap scope, and it must use that scope."
        (some requestID)
    else if name = handshakeMethod ∧ intent ≠ .observe then
      invalid "host.handshake must be an observe call." (some requestID)
    else if name = launchMethod ∧ (intent ≠ .lifecycle ∨ scope.kind ≠ "host") then
      invalid "session.launch must be a host-scoped lifecycle call." (some requestID)
    else
      .ok ⟨name, intent, scope, .object payload, operationID, sideEffecting_of hobserve heffect⟩
  | _ => invalid "call.payload must be an object." (some requestID)

def decodeRequest (value : Json ν) : Decoded (NativeRequest (Json ν)) := do
  let input ← object value "message" requestFields
  let id ← header input "request"
  let deadlineInput ← required input "deadline" "message"
  let deadline ← object deadlineInput "deadline" deadlineFields
  let timeoutInput ← required deadline "timeoutMs" "deadline"
  let timeout ← integer timeoutInput "deadline.timeoutMs" 0 maxDeadlineMs
  let callInput ← required input "call" "message"
  let call ← decodeCall callInput id
  .ok ⟨id, timeout, call⟩

def decodeCancel (value : Json ν) : Decoded NativeCancel := do
  let input ← object value "message" cancelFields
  let id ← header input "cancel"
  let requestInput ← required input "requestId" "message"
  let requestID ← identifier requestInput "message.requestId"
  if id = requestID then
    invalid "Cancellation message id must differ from requestId." (some id)
  else do
    let reasonInput ← required input "reason" "message"
    let reason ← rawValue cancellationReasonWords reasonInput "message.reason"
      "message.reason is not a supported value." (some id)
    .ok ⟨id, requestID, reason⟩

def decodeReceipt (value : Json ν) : Decoded (Option NativeOperationReceipt) :=
  match value with
  | .null => .ok none
  | value => do
    let input ← object value "operation" receiptFields
    let operationInput ← required input "operationId" "operation"
    let operationID ← identifier operationInput "operation.operationId"
    let outcomeInput ← required input "outcome" "operation"
    let outcome ← rawValue outcomeWords outcomeInput "operation.outcome"
      "operation.outcome is not a supported value."
    .ok (some ⟨operationID, outcome⟩)

def readDetails (input : NativeJSONObject ν) : Decoded (Option (Json ν)) :=
  match Json.get? input "details" with
  | none => .ok none
  | some (.object details) => do
    validateJSON 32 0 (.object details)
    .ok (some (.object details))
  | some _ => invalid "error.details must be an object."

def decodeWireError (value : Json ν) : Decoded (WireError ν) := do
  let input ← object value "error" errorFields
  let codeInput ← required input "code" "error"
  let code ← identifier codeInput "error.code"
  let categoryInput ← required input "category" "error"
  let categoryText ← text categoryInput "error.category"
  let retryInput ← required input "retry" "error"
  let retryText ← text retryInput "error.retry"
  match ofWord errorCategoryWords categoryText, ofWord retryWords retryText with
  | some category, some retry => do
    let messageInput ← required input "message" "error"
    let message ← text messageInput "error.message" 2048
    let details ← readDetails input
    .ok ⟨code, category, message, retry, details⟩
  | _, _ => invalid "error category or retry disposition is not supported."

def decodeResponse (value : Json ν) : Decoded (WireResponse ν) :=
  match value with
  | .object raw =>
    match Json.get? raw "ok" with
    | some (.bool ok) => do
      let input ← object value "message" (if ok then successFields else failureFields)
      let id ← header input "response"
      let operationInput ← required input "operation" "message"
      let operation ← decodeReceipt operationInput
      if ok then do
        let result ← required input "result" "message"
        validateJSON 32 0 result
        .ok ⟨id, .ok result, operation⟩
      else do
        let errorInput ← required input "error" "message"
        let error ← decodeWireError errorInput
        .ok ⟨id, .error error, operation⟩
    | _ => invalid "message.ok must be boolean."
  | _ => invalid "message must be an object."

def decodeMessage (value : Json ν) : Decoded (WireMessage ν) := do
  let broad ← object value "message" messageFields
  let typeInput ← required broad "type" "message"
  let type ← text typeInput "message.type"
  if type = "request" then (decodeRequest value).map .request
  else if type = "cancel" then (decodeCancel value).map .cancel
  else if type = "response" then (decodeResponse value).map .response
  else invalid "message.type is not supported."

end SurfaceLoom.Native.MacWireCodec
