import SurfaceLoom.Native.WireGrammar

/-! # The Windows parser

`NativeV1Parser` on the element a frame was parsed to. Numbers are the exact tokens.
A failed check is a protocol exception; a number read from an element that is none
is an exception of another type. -/
namespace SurfaceLoom.Native.WindowsParser
open SurfaceLoom.Lib SurfaceLoom.Native.Wire

abbrev JsonElement := Json NumberToken

/-- `details` lists the versions supported. -/
structure NativeV1ProtocolException where
  code : String
  category : NativeErrorCategory
  message : String
  requestId : String
  details : Option (List String)
  deriving DecidableEq

inductive ParserException
  | protocol (exception : NativeV1ProtocolException)
  | invalidOperation
  deriving DecidableEq

abbrev Parsed (α : Type) := Except ParserException α

abbrev Request := NativeRequest JsonElement

def invalid {α : Type} (code : String) (category : NativeErrorCategory) (message : String)
    (requestId : String) (details : Option (List String) := none) : Parsed α :=
  .error (.protocol ⟨code, category, message, requestId, details⟩)

def invalidMessage {α : Type} (message requestId : String) : Parsed α :=
  invalid "invalid_message" .invalidRequest message requestId

/-- The members of an element that is an object. -/
def members : JsonElement → Option (List (String × JsonElement))
  | .object fields => some fields
  | _ => none

def tryGetProperty (element : JsonElement) (property : String) : Option JsonElement :=
  (members element).bind fun fields => Json.get? fields property

/-! ## Frames -/

mutual

def rejectDuplicateObjectKeys : JsonElement → Parsed Unit
  | .object fields => rejectDuplicateMembers [] fields
  | .array items => rejectDuplicateItems items
  | .null | .bool _ | .number _ | .string _ => .ok ()

def rejectDuplicateItems : List JsonElement → Parsed Unit
  | [] => .ok ()
  | item :: rest => do
    rejectDuplicateObjectKeys item
    rejectDuplicateItems rest

def rejectDuplicateMembers (keys : List String) : List (String × JsonElement) → Parsed Unit
  | [] => .ok ()
  | (key, item) :: rest =>
    if key ∈ keys then
      invalid "invalid_json" .protocolError "Wire frame contains a duplicate object key." "invalid"
    else do
      rejectDuplicateObjectKeys item
      rejectDuplicateMembers (key :: keys) rest

end

mutual

def validateSemanticValue (depth : Nat) : JsonElement → Parsed Unit
  | .object fields =>
    if depth > 32 then invalidMessage "JSON value exceeds the nesting limit." "invalid"
    else validateSemanticFields (depth + 1) fields
  | .array items =>
    if depth > 32 then invalidMessage "JSON value exceeds the nesting limit." "invalid"
    else validateSemanticItems (depth + 1) items
  | .null | .bool _ | .number _ | .string _ =>
    if depth > 32 then invalidMessage "JSON value exceeds the nesting limit." "invalid" else .ok ()

def validateSemanticItems (depth : Nat) : List JsonElement → Parsed Unit
  | [] => .ok ()
  | item :: rest => do
    validateSemanticValue depth item
    validateSemanticItems depth rest

def validateSemanticFields (depth : Nat) : List (String × JsonElement) → Parsed Unit
  | [] => .ok ()
  | (_, item) :: rest => do
    validateSemanticValue depth item
    validateSemanticFields depth rest

end

def validateSemanticMembers (root : JsonElement) : Parsed Unit :=
  match tryGetProperty root "type" with
  | some (.string "request") =>
    match (tryGetProperty root "call").bind fun call => tryGetProperty call "payload" with
    | some payload => validateSemanticValue 0 payload
    | none => .ok ()
  | some (.string "response") =>
    match tryGetProperty root "ok" with
    | some (.bool true) =>
      match tryGetProperty root "result" with
      | some result => validateSemanticValue 0 result
      | none => .ok ()
    | some (.bool false) =>
      match (tryGetProperty root "error").bind fun error => tryGetProperty error "details" with
      | some details => validateSemanticValue 0 details
      | none => .ok ()
    | _ => .ok ()
  | _ => .ok ()

def isNativeV1Envelope (root : JsonElement) : Bool := (tryGetProperty root "protocol").isSome

/-- What `ParseFrame` checks of a document it could parse. -/
def checkFrame (root : JsonElement) : Parsed Unit :=
  if isNativeV1Envelope root then do
    rejectDuplicateObjectKeys root
    validateSemanticMembers root
  else .ok ()

/-! ## Readers -/

/-- The pattern's end may be followed by a newline. -/
def identifierRegex (text : String) : Bool := endsBeforeNewline identifierChars text.toList

def methodNameRegex (text : String) : Bool := endsBeforeNewline methodNameChars text.toList

def requireOnlyProperties (value : JsonElement) (label : String) (fields : List String)
    (requestId : String) : Parsed (List (String × JsonElement)) :=
  match members value with
  | none => invalidMessage (label ++ " must be an object.") requestId
  | some found =>
    if (found.map Prod.fst).Nodup ∧ ∀ key ∈ found.map Prod.fst, key ∈ fields then .ok found
    else invalidMessage (label ++ " contains an unknown or duplicate field.") requestId

def requireObject (parent : JsonElement) (property : String) (fields : List String)
    (requestId : String) : Parsed JsonElement :=
  match tryGetProperty parent property with
  | some (.object found) => do
    let _ ← requireOnlyProperties (.object found) property fields requestId
    .ok (.object found)
  | _ => invalidMessage (property ++ " must be an object.") requestId

/-- `TryGetInt32`: only a number may be asked. -/
def tryGetInt32 : JsonElement → Parsed (Option Int)
  | .number token =>
    .ok (if token.plain ∧ -2147483648 ≤ token.int ∧ token.int ≤ 2147483647 then some token.int
      else none)
  | _ => .error .invalidOperation

def readInteger (parent : JsonElement) (property : String) (minimum maximum : Nat)
    (requestId : String) : Parsed Nat :=
  let outOfRange := invalidMessage (property ++ " is outside its allowed range.") requestId
  match tryGetProperty parent property with
  | none => outOfRange
  | some value => do
    match ← tryGetInt32 value with
    | none => outOfRange
    | some result => if result < minimum ∨ result > maximum then outOfRange else .ok result.toNat

def readText (parent : JsonElement) (property requestId : String) : Parsed String :=
  match tryGetProperty parent property with
  | some (.string text) =>
    if isText 128 text then .ok text
    else invalidMessage (property ++ " must be a bounded single-line string.") requestId
  | _ => invalidMessage (property ++ " must be a string.") requestId

def readChoice {α : Type} (parent : JsonElement) (property : String) (choices : List (String × α))
    (requestId : String) : Parsed α := do
  match ofWord choices (← readText parent property requestId) with
  | some value => .ok value
  | none => invalidMessage (property ++ " is not supported.") requestId

def readIdentifier (parent : JsonElement) (property requestId : String) : Parsed String := do
  let value ← readText parent property requestId
  if identifierRegex value then .ok value
  else invalidMessage (property ++ " is not a wire identifier.") requestId

def tryReadIdentifier (parent : JsonElement) (property : String) : Option String :=
  match tryGetProperty parent property with
  | some (.string text) => if identifierRegex text then some text else none
  | _ => none

def tryReadMessageId (root : JsonElement) : Option String := tryReadIdentifier root "id"

def readMessageType (root : JsonElement) : Parsed String :=
  match tryGetProperty root "type" with
  | some (.string type) => .ok type
  | _ => invalidMessage "message.type is required." "invalid"

/-! ## Messages -/

def readHeader (root : JsonElement) (expectedType : String) (fields : List String) :
    Parsed String := do
  let _ ← requireOnlyProperties root "message" fields "invalid"
  let recoverableId := (tryReadIdentifier root "id").getD "invalid"
  if (← readText root "protocol" recoverableId) ≠ nativeProtocolName then
    invalid "unsupported_protocol" .protocolError "Unsupported native protocol." recoverableId
  else if (← readText root "version" recoverableId) ≠ nativeProtocolVersion then
    invalid "unsupported_version" .protocolError "Unsupported native protocol version."
      recoverableId (some [nativeProtocolVersion])
  else do
    let id ← readIdentifier root "id" recoverableId
    if (← readText root "type" id) ≠ expectedType then
      invalidMessage ("Expected a " ++ expectedType ++ " message.") id
    else .ok id

def parseScope (scope : JsonElement) (requestId : String) : Parsed NativeScope := do
  let kind ← readChoice scope "kind" scopeKindWords requestId
  let _ ← requireOnlyProperties scope "call.scope" (scopeFields kind) requestId
  match kind with
  | .bootstrap => .ok .bootstrap
  | .host => do
    let hostInstanceId ← readIdentifier scope "hostInstanceId" requestId
    .ok (.host hostInstanceId)
  | .session => do
    let hostInstanceId ← readIdentifier scope "hostInstanceId" requestId
    let sessionId ← readIdentifier scope "sessionId" requestId
    .ok (.session hostInstanceId sessionId)
  | .handle => do
    let hostInstanceId ← readIdentifier scope "hostInstanceId" requestId
    let sessionId ← readIdentifier scope "sessionId" requestId
    let handleId ← readIdentifier scope "handleId" requestId
    .ok (.handle hostInstanceId sessionId handleId)

/-- A missing operation id is none. -/
def readOperationId (call : JsonElement) (requestId : String) : Parsed (Option String) :=
  match tryGetProperty call "operationId" with
  | none => .ok none
  | some _ => (readIdentifier call "operationId" requestId).map some

def parseCall (call : JsonElement) (requestId : String) : Parsed (NativeCall JsonElement) := do
  let name ← readText call "name" requestId
  if ¬ methodNameRegex name then invalidMessage "call.name must be namespaced." requestId
  else do
    let intent ← readChoice call "intent" intentWords requestId
    let scopeElement ← requireObject call "scope" (scopeFields .handle) requestId
    let scope ← parseScope scopeElement requestId
    match tryGetProperty call "payload" with
    | some (.object payload) => do
      let operationID ← readOperationId call requestId
      if hobserve : intent = .observe ∧ operationID.isSome then
        invalidMessage "Observe calls must not carry operationId." requestId
      else if heffect : intent ≠ .observe ∧ operationID.isNone then
        invalidMessage "Mutate and lifecycle calls require operationId." requestId
      else if (scope.kind = "bootstrap") ≠ (name = handshakeMethod) then
        invalidMessage "Only host.handshake may use bootstrap scope." requestId
      else if name = handshakeMethod ∧ intent ≠ .observe then
        invalidMessage "host.handshake must be observe/bootstrap." requestId
      else if name = launchMethod ∧ (intent ≠ .lifecycle ∨ scope.kind ≠ "host") then
        invalidMessage "session.launch must be lifecycle/host." requestId
      else
        .ok ⟨name, intent, scope, .object payload, operationID, sideEffecting_of hobserve heffect⟩
    | _ => invalidMessage "call.payload must be an object." requestId

def parseRequest (root : JsonElement) : Parsed Request := do
  let id ← readHeader root "request" requestFields
  let deadline ← requireObject root "deadline" deadlineFields id
  let timeoutMs ← readInteger deadline "timeoutMs" 0 maxDeadlineMs id
  let callElement ← requireObject root "call" callFields id
  let call ← parseCall callElement id
  .ok ⟨id, timeoutMs, call⟩

def parseCancel (root : JsonElement) : Parsed NativeCancel := do
  let id ← readHeader root "cancel" cancelFields
  let requestId ← readIdentifier root "requestId" id
  if id = requestId then
    invalidMessage "Cancellation id must differ from requestId." id
  else do
    let reason ← readChoice root "reason" cancellationReasonWords id
    .ok ⟨id, requestId, reason⟩

end SurfaceLoom.Native.WindowsParser
