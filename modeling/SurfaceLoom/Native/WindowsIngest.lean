import SurfaceLoom.Lib.Transition
import SurfaceLoom.Native.WindowsDispatcher
import SurfaceLoom.Native.WindowsParser

/-! # The two threads of the Windows host

`NdjsonHost` reads and parses frames on one thread and executes and answers them on
another. Every access of a thread to what both use (the table of outstanding requests,
the queue, the output) is a step of its own. A request is known by the number of its
line among those that reached `IngestNativeFrame`. The host is not cancelled, so the
tables stay until the last step. -/
namespace SurfaceLoom.Native.WindowsIngest
open SurfaceLoom.Lib SurfaceLoom.Lib.Transition SurfaceLoom.Native.Wire
open SurfaceLoom.Native.WindowsParser
open SurfaceLoom.Native.WindowsDispatcher (WireResult WindowsHost Reads Sessions executeCore outbound)

/-- What the reader gets from its input: `unparsed` is a frame `ParseFrame` could not
parse, `document` the root of one it could. -/
inductive WireLine
  | ended
  | oversized
  | blank
  | unparsed
  | document (root : JsonElement)

abbrev Response (ρ : Type) := NativeResponse (WireResult ρ)

inductive InboundItem (ρ : Type)
  | legacy
  | native (line : Nat) (request : Request)
  | response (line : Nat) (response : Response ρ)

/-- The reader thread: `line` numbers the native frame it works on. -/
inductive Reader (ρ : Type)
  | reading
  | addingLegacy
  | checking (line : Nat) (root : JsonElement)
  | cancelling (line : Nat) (cancel : NativeCancel)
  | preparing (line : Nat) (candidateId : Option String) (request : Request)
  | adding (line : Nat) (request : Request)
  | rejecting (line : Nat) (candidateId : Option String) (exception : NativeV1ProtocolException)
    (parsedRequest : Option Request)
  | answering (line : Nat) (response : Response ρ)
  | closed

inductive Dispatcher (ρ : Type)
  | waiting
  | taken (item : InboundItem ρ)
  | writing (line : Nat) (request : Request) (response : Response ρ)
  | releasing (line : Nat) (request : Request)
  | crashed

/-- How the ingestion of a native frame ended: `unanswered` names the outstanding id it
gave way to, `leaked` is an exception no clause catches. -/
inductive Verdict (ρ : Type)
  | cancelled (cancel : NativeCancel)
  | unanswered (id : String)
  | admitted (request : Request)
  | rejected (response : Response ρ)
  | leaked

structure Frame (ρ : Type) where
  line : Nat
  response : Response ρ

structure NdjsonHost (ρ : Type) where
  reader : Reader ρ
  dispatcher : Dispatcher ρ
  outstanding : OrderedMap String Nat
  inbound : List (InboundItem ρ)
  sessions : Sessions
  usedOperationIds : Finset String
  lines : List JsonElement
  verdicts : List (Verdict ρ)
  output : List (Frame ρ)

def initial (ρ : Type) : NdjsonHost ρ := ⟨.reading, .waiting, .empty, [], .empty, ∅, [], [], []⟩

/-! ## The reader -/

inductive Route
  | closed
  | legacy
  | native
  deriving DecidableEq

/-- `HostProtocol.Version`. -/
def legacyVersion : String := "0.2"

/-- `IngestFrame` up to `IngestNativeFrame`. -/
def ingestFrame (root : JsonElement) : Route :=
  match checkFrame root, members root with
  | .error _, _ | .ok (), none => .closed
  | .ok (), some fields =>
    let nativeMarkerCount := fields.countP fun field => field.1 = "protocol"
    let legacyMarkerCount := fields.countP fun field => field.1 = "protocolVersion"
    if nativeMarkerCount + legacyMarkerCount ≠ 1 then .closed
    else if legacyMarkerCount = 1 then
      match tryGetProperty root "protocolVersion" with
      | some (.string version) => if version = legacyVersion then .legacy else .closed
      | _ => .closed
    else
      match tryGetProperty root "protocol" with
      | some (.string name) => if name = nativeProtocolName then .native else .closed
      | _ => .closed

/-- The parsed message of a native frame. -/
inductive ClientMessage
  | cancel (cancel : NativeCancel)
  | request (request : Request)

def parseMessage (root : JsonElement) : Parsed ClientMessage := do
  let messageType ← readMessageType root
  if messageType = "cancel" then (parseCancel root).map .cancel
  else if messageType ≠ "request" then
    invalidMessage "Clients may send only request or cancel frames."
      ((tryReadMessageId root).getD "invalid")
  else (parseRequest root).map .request

variable {l ρ : Type}

/-- The response to a frame that failed its checks. The supported versions an exception
may list are not read by anything modelled here. -/
def rejection (exception : NativeV1ProtocolException) (parsedRequest : Option Request) :
    Response ρ where
  id := exception.requestId
  result := none
  error := some ⟨exception.code, exception.category, exception.message, .never⟩
  operation := parsedRequest.bind fun request =>
    request.call.operationID.map fun id => ⟨id, .notExecuted⟩

namespace NdjsonHost

def isOutstanding (s : NdjsonHost ρ) (id : String) : Bool := s.outstanding.has id

/-- The reader ends the ingestion of a line. -/
def conclude (s : NdjsonHost ρ) (verdict : Verdict ρ) (reader : Reader ρ) : NdjsonHost ρ :=
  { s with verdicts := s.verdicts ++ [verdict], reader }

def readLine (s : NdjsonHost ρ) : WireLine → NdjsonHost ρ
  | .ended | .oversized | .unparsed => { s with reader := .closed }
  | .blank => s
  | .document root =>
    match ingestFrame root with
    | .closed => { s with reader := .closed }
    | .legacy => { s with reader := .addingLegacy }
    | .native =>
      { s with reader := .checking s.lines.length root, lines := s.lines ++ [root] }

/-- The first part of `IngestNativeFrame`: the look at the id, then the parser. -/
def check (s : NdjsonHost ρ) (line : Nat) (root : JsonElement) : NdjsonHost ρ :=
  let candidateId := tryReadMessageId root
  match candidateId.filter s.isOutstanding with
  | some id => s.conclude (.unanswered id) .closed
  | none =>
    match parseMessage root with
    | .ok (.cancel cancel) => { s with reader := .cancelling line cancel }
    | .ok (.request request) => { s with reader := .preparing line candidateId request }
    | .error (.protocol exception) =>
      { s with reader := .rejecting line candidateId exception none }
    | .error .invalidOperation => s.conclude .leaked .closed

/-- `Prepare` registers the request. -/
def prepare (s : NdjsonHost ρ) (line : Nat) (candidateId : Option String) (request : Request) :
    NdjsonHost ρ :=
  if s.isOutstanding request.id then
    let exception : NativeV1ProtocolException :=
      ⟨"request_id_conflict", .conflict, "An outstanding request already uses this id.",
        request.id, none⟩
    { s with reader := .rejecting line candidateId exception (some request) }
  else
    { s with
      outstanding := s.outstanding.set request.id line
      reader := .adding line request }

def reject (s : NdjsonHost ρ) (line : Nat) (candidateId : Option String)
    (exception : NativeV1ProtocolException) (parsedRequest : Option Request) : NdjsonHost ρ :=
  let id := candidateId.getD exception.requestId
  if s.isOutstanding id then s.conclude (.unanswered id) .closed
  else { s with reader := .answering line (rejection exception parsedRequest) }

/-- One step of the reader thread on the frame it works on. -/
def advanceReader (s : NdjsonHost ρ) : Option (NdjsonHost ρ) :=
  match s.reader with
  | .reading | .closed => none
  | .addingLegacy => some { s with inbound := s.inbound ++ [.legacy], reader := .reading }
  | .checking line root => some (s.check line root)
  | .cancelling _ cancel => some (s.conclude (.cancelled cancel) .reading)
  | .preparing line candidateId request => some (s.prepare line candidateId request)
  | .adding line request =>
    some ({ s with inbound := s.inbound ++ [InboundItem.native line request] }.conclude
      (.admitted request) .reading)
  | .rejecting line candidateId exception parsedRequest =>
    some (s.reject line candidateId exception parsedRequest)
  | .answering line response =>
    some ({ s with inbound := s.inbound ++ [InboundItem.response line response] }.conclude
      (.rejected response) .closed)

/-! ## The dispatching thread -/

/-- `ReleaseOutstanding`, for the registration of that very request. -/
def releaseOutstanding (s : NdjsonHost ρ) (line : Nat) (request : Request) : NdjsonHost ρ :=
  if s.outstanding.get? request.id = some line then
    { s with outstanding := s.outstanding.erase request.id }
  else s

/-- An exception that escapes an execution ends the host. -/
def execute (s : NdjsonHost ρ) (host : WindowsHost JsonElement l ρ) (line : Nat) (request : Request)
    (reads : Reads ρ) : NdjsonHost ρ :=
  let executed := executeCore host s.sessions s.usedOperationIds request reads
  let s := { s with sessions := executed.sessions, usedOperationIds := executed.usedOperationIds }
  match outbound host request reads.remainingOnPublication executed.response with
  | some response => { s with dispatcher := .writing line request response }
  | none => { s.releaseOutstanding line request with dispatcher := .crashed }

def write (s : NdjsonHost ρ) (line : Nat) (response : Response ρ) : NdjsonHost ρ :=
  { s with output := s.output ++ [⟨line, response⟩] }

/-- One step of the dispatching thread. -/
def advanceDispatcher (s : NdjsonHost ρ) (host : WindowsHost JsonElement l ρ) (reads : Reads ρ) :
    Option (NdjsonHost ρ) :=
  match s.dispatcher with
  | .waiting =>
    match s.inbound with
    | [] => none
    | item :: rest => some { s with inbound := rest, dispatcher := .taken item }
  | .taken .legacy => some { s with dispatcher := .waiting }
  | .taken (.native line request) => some (s.execute host line request reads)
  | .taken (.response line response) =>
    if host.serializes response then some { s.write line response with dispatcher := .waiting }
    else some { s with dispatcher := .crashed }
  | .writing line request response =>
    some { s.write line response with dispatcher := .releasing line request }
  | .releasing line request =>
    some { s.releaseOutstanding line request with dispatcher := .waiting }
  | .crashed => none

end NdjsonHost

inductive Event (ρ : Type)
  | read (line : WireLine)
  | reader
  | dispatcher (reads : Reads ρ)

def next (host : WindowsHost JsonElement l ρ) (s : NdjsonHost ρ) : Event ρ → Option (NdjsonHost ρ)
  | .read line =>
    match s.reader with
    | .reading => some (s.readLine line)
    | _ => none
  | .reader => s.advanceReader
  | .dispatcher reads => s.advanceDispatcher host reads

def ndjsonHost (host : WindowsHost JsonElement l ρ) : System (NdjsonHost ρ) (Event ρ) :=
  .ofMachine (initial ρ) (next host)

end SurfaceLoom.Native.WindowsIngest
