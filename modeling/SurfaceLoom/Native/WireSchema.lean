import SurfaceLoom.Lib.Checked
import SurfaceLoom.Native.WireForms

/-! # The client's schema

`validateWireMessage` and the primitives it is made of. A JavaScript object is plain:
its members are data fields with distinct names. -/
namespace SurfaceLoom.Native.WireSchema
open SurfaceLoom.Lib SurfaceLoom.Native.Wire

structure NativeProtocolError where
  code : String
  message : String
  deriving DecidableEq

abbrev Validated (α : Type) := Except NativeProtocolError α

def invalid {α : Type} (message : String) : Validated α := .error ⟨"invalid_message", message⟩

variable {ν : Type}

abbrev Record (ν : Type) := List (String × Json ν)

/-! ## Primitives -/

def record (value : Json ν) (label : String) (keys : List String) : Validated (Record ν) :=
  match value with
  | .object fields =>
    match fields.find? fun field => field.1 ∉ keys with
    | some field => invalid (label ++ " contains unknown field '" ++ field.1 ++ "'.")
    | none => .ok fields
  | _ => invalid (label ++ " must be an object.")

def required (input : Record ν) (key label : String) : Validated (Json ν) :=
  match Json.get? input key with
  | none => invalid (label ++ "." ++ key ++ " is required.")
  | some value => .ok value

def text (value : Json ν) (label : String) (maximum : Nat := 128) : Validated String :=
  match value with
  | .string text =>
    if isText maximum text then .ok text
    else invalid (label ++ " is not a bounded single-line string.")
  | _ => invalid (label ++ " is not a bounded single-line string.")

def identifier (value : Json ν) (label : String) : Validated String := do
  let result ← text value label
  if isIdentifier result then .ok result else invalid (label ++ " is not a wire identifier.")

def choice {α : Type} (value : Json ν) (choices : List (String × α)) (label : String) :
    Validated α :=
  match value with
  | .string word =>
    match ofWord choices word with
    | some choice => .ok choice
    | none => invalid (label ++ " is not a supported value.")
  | _ => invalid (label ++ " is not a supported value.")

def methodName (value : Json ν) (label : String) : Validated String := do
  let name ← text value label
  if methodNameChars name.toList then .ok name else invalid (label ++ " must be namespaced.")

/-- `value === text` for a string. -/
def isString (value : Json ν) (text : String) : Bool :=
  match value with
  | .string found => found = text
  | _ => false

variable [JsonNumber ν]

/-- `Number.isSafeInteger`, as the integer. -/
def safeInteger? (number : ν) : Option Int :=
  (JsonNumber.integer? number).filter fun n => n.natAbs ≤ 9007199254740991

def integer (value : Json ν) (label : String) (minimum maximum : Nat) : Validated Nat :=
  let outside := invalid (label ++ " must be an integer between " ++ toString minimum ++ " and " ++
    toString maximum ++ ".")
  match value with
  | .number number =>
    match safeInteger? number with
    | some n => if n < minimum ∨ n > maximum then outside else .ok n.toNat
    | none => outside
  | _ => outside

mutual

def jsonValue (label : String) (depth : Nat) : Json ν → Validated (Json ν)
  | .null => if depth > 32 then tooDeep label else .ok .null
  | .bool value => if depth > 32 then tooDeep label else .ok (.bool value)
  | .string value => if depth > 32 then tooDeep label else .ok (.string value)
  | .number value =>
    if depth > 32 then tooDeep label
    else if JsonNumber.isFinite value then .ok (.number value)
    else invalid (label ++ " must contain only JSON values.")
  | .array items =>
    if depth > 32 then tooDeep label
    else (jsonItems label (depth + 1) 0 items).map .array
  | .object fields =>
    if depth > 32 then tooDeep label
    else (jsonFields label (depth + 1) fields).map .object

def jsonItems (label : String) (depth index : Nat) : List (Json ν) → Validated (List (Json ν))
  | [] => .ok []
  | item :: rest => do
    let item ← jsonValue (label ++ "[" ++ toString index ++ "]") depth item
    let rest ← jsonItems label depth (index + 1) rest
    .ok (item :: rest)

def jsonFields (label : String) (depth : Nat) : Record ν → Validated (Record ν)
  | [] => .ok []
  | (key, item) :: rest => do
    let item ← jsonValue (label ++ "." ++ key) depth item
    let rest ← jsonFields label depth rest
    .ok ((key, item) :: rest)

def tooDeep (label : String) : Validated (Json ν) :=
  invalid (label ++ " exceeds the JSON nesting limit.")

end

/-! ## Messages -/

def header (input : Record ν) : Validated Unit := do
  let protocol ← required input "protocol" "message"
  if ¬ isString protocol nativeProtocolName then
    .error ⟨"unsupported_protocol", "Unsupported native protocol."⟩
  else do
    let version ← required input "version" "message"
    if ¬ isString version nativeProtocolVersion then
      .error ⟨"unsupported_version", "Unsupported native protocol version."⟩
    else do
      let id ← required input "id" "message"
      let _ ← identifier id "message.id"
      .ok ()

/-- A member of a checked record; an absent one is `undefined`. -/
def field (input : Record ν) (key : String) : Json ν := (Json.get? input key).getD .null

def scope (value : Json ν) : Validated NativeScope := do
  let kindInput ← record value "call.scope" (scopeFields .handle)
  let kind ← required kindInput "kind" "call.scope"
  if isString kind "bootstrap" then do
    let _ ← record value "call.scope" (scopeFields .bootstrap)
    .ok .bootstrap
  else do
    let hostInput ← required kindInput "hostInstanceId" "call.scope"
    let hostInstanceId ← identifier hostInput "call.scope.hostInstanceId"
    if isString kind "host" then do
      let _ ← record value "call.scope" (scopeFields .host)
      .ok (.host hostInstanceId)
    else do
      let sessionInput ← required kindInput "sessionId" "call.scope"
      let sessionId ← identifier sessionInput "call.scope.sessionId"
      if isString kind "session" then do
        let _ ← record value "call.scope" (scopeFields .session)
        .ok (.session hostInstanceId sessionId)
      else if isString kind "handle" then do
        let _ ← record value "call.scope" (scopeFields .handle)
        let handleInput ← required kindInput "handleId" "call.scope"
        let handleId ← identifier handleInput "call.scope.handleId"
        .ok (.handle hostInstanceId sessionId handleId)
      else invalid "call.scope.kind is not supported."

def deadline (value : Json ν) : Validated Nat := do
  let input ← record value "deadline" deadlineFields
  let timeoutMs ← required input "timeoutMs" "deadline"
  integer timeoutMs "deadline.timeoutMs" 0 maxDeadlineMs

def readOperationId (input : Record ν) : Validated (Option String) :=
  match Json.get? input "operationId" with
  | none => .ok none
  | some value => (identifier value "call.operationId").map some

def isObject : Json ν → Bool
  | .object _ => true
  | _ => false

def call (value : Json ν) : Validated (NativeCall (Json ν)) := do
  let input ← record value "call" callFields
  let nameInput ← required input "name" "call"
  let name ← methodName nameInput "call.name"
  let intentInput ← required input "intent" "call"
  let intent ← choice intentInput intentWords "call.intent"
  let operationID ← readOperationId input
  if hobserve : intent = .observe ∧ operationID.isSome then
    invalid "Observe calls must not carry operationId."
  else if heffect : intent ≠ .observe ∧ operationID.isNone then
    invalid "Mutate and lifecycle calls require operationId."
  else do
    let payloadInput ← required input "payload" "call"
    let payload ← jsonValue "call.payload" 0 payloadInput
    if ¬ isObject payload then invalid "call.payload must be an object."
    else do
      let scopeInput ← required input "scope" "call"
      let checkedScope ← scope scopeInput
      if (checkedScope.kind = "bootstrap") ≠ (name = handshakeMethod) then
        invalid "Only host.handshake may use bootstrap scope, and it must use that scope."
      else if name = handshakeMethod ∧ intent ≠ .observe then
        invalid "host.handshake must be an observe call."
      else if name = launchMethod ∧ (intent ≠ .lifecycle ∨ checkedScope.kind ≠ "host") then
        invalid "session.launch must be a host-scoped lifecycle call."
      else
        .ok ⟨name, intent, checkedScope, payload, operationID, sideEffecting_of hobserve heffect⟩

def receipt (value : Json ν) : Validated (Option NativeOperationReceipt) :=
  match value with
  | .null => .ok none
  | value => do
    let input ← record value "operation" receiptFields
    let operationInput ← required input "operationId" "operation"
    let operationId ← identifier operationInput "operation.operationId"
    let outcomeInput ← required input "outcome" "operation"
    let outcome ← choice outcomeInput outcomeWords "operation.outcome"
    .ok (some ⟨operationId, outcome⟩)

def readDetails (input : Record ν) : Validated (Option (Json ν)) :=
  match Json.get? input "details" with
  | none => .ok none
  | some value => do
    let details ← jsonValue "error.details" 0 value
    if ¬ isObject details then invalid "error.details must be an object." else .ok (some details)

def wireError (value : Json ν) : Validated (WireError ν) := do
  let input ← record value "error" errorFields
  let codeInput ← required input "code" "error"
  let code ← identifier codeInput "error.code"
  let categoryInput ← required input "category" "error"
  let category ← choice categoryInput errorCategoryWords "error.category"
  let messageInput ← required input "message" "error"
  let message ← text messageInput "error.message" 2048
  let retryInput ← required input "retry" "error"
  let retry ← choice retryInput retryWords "error.retry"
  let details ← readDetails input
  .ok ⟨code, category, message, retry, details⟩

def requestMessage (value : Json ν) : Validated (NativeRequest (Json ν)) := do
  let input ← record value "message" requestFields
  header input
  let id ← identifier (field input "id") "message.id"
  let deadlineInput ← required input "deadline" "message"
  let timeoutMs ← deadline deadlineInput
  let callInput ← required input "call" "message"
  let call ← call callInput
  .ok ⟨id, timeoutMs, call⟩

def cancelMessage (value : Json ν) : Validated NativeCancel := do
  let input ← record value "message" cancelFields
  header input
  let id ← identifier (field input "id") "message.id"
  let requestInput ← required input "requestId" "message"
  let requestId ← identifier requestInput "message.requestId"
  if id = requestId then invalid "Cancellation message id must differ from requestId."
  else do
    let reasonInput ← required input "reason" "message"
    let reason ← choice reasonInput cancellationReasonWords "message.reason"
    .ok ⟨id, requestId, reason⟩

def responseMessage (value : Json ν) : Validated (WireResponse ν) := do
  let common ← record value "message"
    ["protocol", "version", "type", "id", "ok", "result", "error", "operation"]
  header common
  match ← required common "ok" "message" with
  | .bool ok => do
    let operationInput ← required common "operation" "message"
    let operation ← receipt operationInput
    if ok then do
      let input ← record value "message" successFields
      let resultInput ← required input "result" "message"
      let result ← jsonValue "message.result" 0 resultInput
      let id ← identifier (field input "id") "message.id"
      .ok ⟨id, .ok result, operation⟩
    else do
      let input ← record value "message" failureFields
      let id ← identifier (field input "id") "message.id"
      let errorInput ← required input "error" "message"
      let error ← wireError errorInput
      .ok ⟨id, .error error, operation⟩
  | _ => invalid "message.ok must be boolean."

def validateWireMessage (value : Json ν) : Validated (WireMessage ν) := do
  let input ← record value "message" messageFields
  let type ← required input "type" "message"
  if isString type "request" then (requestMessage value).map .request
  else if isString type "cancel" then (cancelMessage value).map .cancel
  else if isString type "response" then (responseMessage value).map .response
  else invalid "message.type is not supported."

end SurfaceLoom.Native.WireSchema
