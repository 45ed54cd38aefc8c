import SurfaceLoom.Native.WireGrammar

/-! # The forms of wire messages

What a JSON value must look like to be a wire message, in one place and for any
reader: a dialect fixes which numbers are integers and which texts name a method.
The parsers of the client and of the two hosts are compared with these forms. -/
namespace SurfaceLoom.Native.Wire
open SurfaceLoom.Lib

variable {ν : Type}

/-! ## Messages -/

structure WireError (ν : Type) where
  code : String
  category : NativeErrorCategory
  message : String
  retry : NativeRetryDisposition
  details : Option (Json ν)

structure WireResponse (ν : Type) where
  id : String
  body : Except (WireError ν) (Json ν)
  operation : Option NativeOperationReceipt

inductive WireMessage (ν : Type)
  | request (request : NativeRequest (Json ν))
  | cancel (cancel : NativeCancel)
  | response (response : WireResponse ν)

def errorCategoryWords : List (String × NativeErrorCategory) :=
  [("protocol", .protocolError), ("invalidRequest", .invalidRequest), ("unsupported", .unsupported),
    ("notFound", .notFound), ("permissionDenied", .permissionDenied), ("deadline", .deadline),
    ("cancelled", .cancelled), ("conflict", .conflict), ("backend", .backend),
    ("internal", .internal)]

def retryWords : List (String × NativeRetryDisposition) := [("never", .never), ("safe", .safe)]

def outcomeWords : List (String × NativeOperationOutcome) :=
  [("notExecuted", .notExecuted), ("executed", .executed), ("unknown", .unknown)]

def messageFields : List String :=
  ["protocol", "version", "type", "id", "deadline", "call", "requestId", "reason", "ok", "result",
    "error", "operation"]
def successFields : List String :=
  ["protocol", "version", "type", "id", "ok", "result", "operation"]
def failureFields : List String :=
  ["protocol", "version", "type", "id", "ok", "error", "operation"]
def errorFields : List String := ["code", "category", "message", "retry", "details"]
def receiptFields : List String := ["operationId", "outcome"]

/-! ## Values -/

/-- An object without other members than these. -/
def IsRecord (value : Json ν) (keys : List String) : Prop :=
  ∃ fields, value = .object fields ∧ ∀ key ∈ fields.map Prod.fst, key ∈ keys

theorem IsRecord.mono {value : Json ν} {keys keys' : List String} (h : IsRecord value keys)
    (hsub : keys ⊆ keys') : IsRecord value keys' := by
  obtain ⟨fields, hvalue, hkeys⟩ := h
  exact ⟨fields, hvalue, fun key hkey => hsub (hkeys key hkey)⟩

def IsObject (value : Json ν) : Prop := ∃ fields, value = .object fields

def HasText (value : Json ν) (key text : String) : Prop := value.member? key = some (.string text)

def HasIdentifier (value : Json ν) (key id : String) : Prop :=
  HasText value key id ∧ isText 128 id = true ∧ isIdentifier id = true

/-- The member is a word for that value of an enumeration. -/
def HasWord {α : Type} (value : Json ν) (key : String) (words : List (String × α)) (a : α) : Prop :=
  ∃ word, HasText value key word ∧ ofWord words word = some a

/-- A reader's choices: its integers and its method names. -/
structure Dialect (ν : Type) where
  integer : ν → Option Int
  method : String → Bool

variable [JsonNumber ν]

mutual

/-- Every number is finite. -/
def allFinite : Json ν → Bool
  | .number value => JsonNumber.isFinite value
  | .array items => allFiniteItems items
  | .object fields => allFiniteFields fields
  | .null | .bool _ | .string _ => true

def allFiniteItems : List (Json ν) → Bool
  | [] => true
  | item :: rest => allFinite item && allFiniteItems rest

def allFiniteFields : List (String × Json ν) → Bool
  | [] => true
  | (_, item) :: rest => allFinite item && allFiniteFields rest

end

theorem allFiniteItems_iff : ∀ {items : List (Json ν)},
    allFiniteItems items = true ↔ ∀ item ∈ items, allFinite item = true
  | [] => by simp [allFiniteItems]
  | item :: rest => by
    simp only [allFiniteItems, Bool.and_eq_true, allFiniteItems_iff, List.forall_mem_cons]

theorem allFiniteFields_iff : ∀ {fields : List (String × Json ν)},
    allFiniteFields fields = true ↔ ∀ field ∈ fields, allFinite field.2 = true
  | [] => by simp [allFiniteFields]
  | (key, item) :: rest => by
    simp only [allFiniteFields, Bool.and_eq_true, allFiniteFields_iff, List.forall_mem_cons]

/-- A value a message may carry: finite numbers, at most 32 levels. -/
def Carried (value : Json ν) : Prop := allFinite value = true ∧ value.height ≤ 32

/-! ## Forms -/

inductive ScopeForm (value : Json ν) : NativeScope → Prop
  | bootstrap (fields : IsRecord value (scopeFields .bootstrap))
      (kind : HasText value "kind" "bootstrap") : ScopeForm value .bootstrap
  | host {host : String} (fields : IsRecord value (scopeFields .host))
      (kind : HasText value "kind" "host") (hid : HasIdentifier value "hostInstanceId" host) :
      ScopeForm value (.host host)
  | session {host session : String} (fields : IsRecord value (scopeFields .session))
      (kind : HasText value "kind" "session") (hid : HasIdentifier value "hostInstanceId" host)
      (sid : HasIdentifier value "sessionId" session) : ScopeForm value (.session host session)
  | handle {host session handle : String} (fields : IsRecord value (scopeFields .handle))
      (kind : HasText value "kind" "handle") (hid : HasIdentifier value "hostInstanceId" host)
      (sid : HasIdentifier value "sessionId" session)
      (handleId : HasIdentifier value "handleId" handle) :
      ScopeForm value (.handle host session handle)

structure CallForm (d : Dialect ν) (value : Json ν) (call : NativeCall (Json ν)) : Prop where
  fields : IsRecord value callFields
  name : HasText value "name" call.name
  bounded : isText 128 call.name = true
  named : d.method call.name = true
  intent : HasWord value "intent" intentWords call.intent
  scope : ∃ scope, value.member? "scope" = some scope ∧ ScopeForm scope call.scope
  payload : value.member? "payload" = some call.payload
  object : IsObject call.payload
  carried : Carried call.payload
  operation : value.member? "operationId" = none ∧ call.operationID = none ∨
    ∃ id, HasIdentifier value "operationId" id ∧ call.operationID = some id
  bootstrap : call.scope.kind = "bootstrap" ↔ call.name = handshakeMethod
  handshake : call.name = handshakeMethod → call.intent = .observe
  launch : call.name = launchMethod → call.intent = .lifecycle ∧ call.scope.kind = "host"

structure HeaderForm (value : Json ν) (type id : String) : Prop where
  protocol : HasText value "protocol" nativeProtocolName
  version : HasText value "version" nativeProtocolVersion
  type : HasText value "type" type
  id : HasIdentifier value "id" id

structure DeadlineForm (d : Dialect ν) (value : Json ν) (token : ν) (timeoutMs : Nat) : Prop where
  fields : IsRecord value deadlineFields
  number : value.member? "timeoutMs" = some (.number token)
  integer : d.integer token = some (timeoutMs : Int)
  bounded : timeoutMs ≤ maxDeadlineMs

structure RequestForm (d : Dialect ν) (value : Json ν) (token : ν)
    (request : NativeRequest (Json ν)) : Prop where
  fields : IsRecord value requestFields
  header : HeaderForm value "request" request.id
  deadline : ∃ deadline, value.member? "deadline" = some deadline ∧
    DeadlineForm d deadline token request.timeoutMilliseconds
  call : ∃ call, value.member? "call" = some call ∧ CallForm d call request.call

structure CancelForm (value : Json ν) (cancel : NativeCancel) : Prop where
  fields : IsRecord value cancelFields
  header : HeaderForm value "cancel" cancel.id
  requestID : HasIdentifier value "requestId" cancel.requestID
  other : cancel.id ≠ cancel.requestID
  reason : HasWord value "reason" cancellationReasonWords cancel.reason

structure ReceiptForm (value : Json ν) (receipt : NativeOperationReceipt) : Prop where
  fields : IsRecord value receiptFields
  operationID : HasIdentifier value "operationId" receipt.operationID
  outcome : HasWord value "outcome" outcomeWords receipt.outcome

structure ErrorForm (value : Json ν) (error : WireError ν) : Prop where
  fields : IsRecord value errorFields
  code : HasIdentifier value "code" error.code
  category : HasWord value "category" errorCategoryWords error.category
  message : HasText value "message" error.message
  bounded : isText 2048 error.message = true
  retry : HasWord value "retry" retryWords error.retry
  details : value.member? "details" = error.details
  carried : ∀ details ∈ error.details, IsObject details ∧ Carried details

structure ResponseForm (value : Json ν) (response : WireResponse ν) : Prop where
  header : HeaderForm value "response" response.id
  operation : ∃ operation, value.member? "operation" = some operation ∧
    (operation = .null ∧ response.operation = none ∨
      ∃ receipt, ReceiptForm operation receipt ∧ response.operation = some receipt)
  body : match response.body with
    | .ok result => IsRecord value successFields ∧ value.member? "ok" = some (.bool true) ∧
        value.member? "result" = some result ∧ Carried result
    | .error error => IsRecord value failureFields ∧ value.member? "ok" = some (.bool false) ∧
        ∃ found, value.member? "error" = some found ∧ ErrorForm found error

/-! ## Requests in two dialects -/

/-- A form in one dialect is one in another that reads the number and the name alike. -/
theorem RequestForm.translate {d d' : Dialect ν} {value : Json ν}
    {token : ν} {request : NativeRequest (Json ν)} (h : RequestForm d value token request)
    (hinteger : d'.integer token = d.integer token) (hmethod : d'.method request.call.name = true) :
    RequestForm d' value token request where
  fields := h.fields
  header := h.header
  deadline := by
    obtain ⟨deadline, hmember, hdeadline⟩ := h.deadline
    exact ⟨deadline, hmember, { hdeadline with integer := hinteger.trans hdeadline.integer }⟩
  call := by
    obtain ⟨call, hmember, hcall⟩ := h.call
    exact ⟨call, hmember, { hcall with named := hmethod }⟩

theorem RequestForm.named {d : Dialect ν} {value : Json ν} {token : ν}
    {request : NativeRequest (Json ν)} (h : RequestForm d value token request) :
    d.method request.call.name = true := by
  obtain ⟨call, -, hcall⟩ := h.call
  exact hcall.named

/-- The token is the one the value holds. -/
theorem RequestForm.token_unique {d d' : Dialect ν} {value : Json ν}
    {token token' : ν} {request request' : NativeRequest (Json ν)}
    (h : RequestForm d value token request) (h' : RequestForm d' value token' request') :
    token = token' := by
  obtain ⟨deadline, hmember, hdeadline⟩ := h.deadline
  obtain ⟨deadline', hmember', hdeadline'⟩ := h'.deadline
  cases hmember.symm.trans hmember'
  cases hdeadline.number.symm.trans hdeadline'.number
  rfl

end SurfaceLoom.Native.Wire
