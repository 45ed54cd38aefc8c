import SurfaceLoom.Browser.ObservationBuffer
import SurfaceLoom.Lib.OrderedMap

/-! # The observation streams of one session

What the listeners make of a page's events, and the subscriptions that share the listeners. A
handle is the number of its subscription; the page is the list of the session's handlers on it. -/
namespace SurfaceLoom.Browser
open SurfaceLoom.Lib

/-! ## Normalizing an event -/

inductive BrowserObservationKind
  | consoleMessage
  | pageError
  | requestStarted
  | requestFinished
  | requestFailed
  | response
  deriving DecidableEq

/-- A value that a listener is handed. A function has what calling it returns, and a member what
reading it gives; `none` where that throws. -/
inductive Value
  | undefined
  | string (text : String)
  /-- `none` is no finite number. -/
  | number (value : Option ℚ)
  | function (result : Option Value)
  | object (identity : Nat) (isError : Bool) (members : List (String × Option Value))

def readProperty (source : Value) (name : String) : Option Value :=
  match source with
  | .object _ _ members =>
    match members.find? fun m => m.1 = name with
    | some m => m.2
    | none => some .undefined
  | _ => some .undefined

def callMethod (source : Value) (name : String) : Option Value := do
  match ← readProperty source name with
  | .function result => result
  | _ => some .undefined

def textOf : Value → Option String
  | .string text => if text.length > 0 then some text else none
  | _ => none

def numberOf : Value → Option ℚ
  | .number value => value
  | _ => none

def pageErrorText (payload : Value) : Option (Option String) := do
  let message ← readProperty payload "message"
  match payload with
  | .object _ true _ => return textOf message
  | _ => return (textOf message).or (textOf payload)

structure ObservationFields where
  requestId : Option Nat := none
  url : Option String := none
  method : Option String := none
  status : Option ℚ := none
  level : Option String := none
  text : Option String := none
  failure : Option String := none
  deriving DecidableEq

structure BrowserObservation extends ObservationFields where
  kind : BrowserObservationKind
  /-- The source's `at`. -/
  time : String
  deriving DecidableEq

/-- The request objects seen so far with their numbers, and the next number. -/
structure RequestIds where
  known : OrderedMap Nat Nat
  next : Nat

def identifyRequest (ids : RequestIds) (payload : Value) : RequestIds × Option Nat :=
  match payload with
  | .object identity _ _ =>
    match ids.known.get? identity with
    | some known => (ids, some known)
    | none => (⟨ids.known.set identity ids.next, ids.next + 1⟩, some ids.next)
  | _ => (ids, none)

def request (ids : RequestIds) (payload : Value) : RequestIds × Option ObservationFields :=
  let identified := identifyRequest ids payload
  (identified.1, do
    let url ← callMethod payload "url"
    let method ← callMethod payload "method"
    return { requestId := identified.2, url := textOf url, method := textOf method })

/-- The reader of each binding; `none` where a reading throws. -/
def readFields (kind : BrowserObservationKind) (ids : RequestIds) (payload : Value) :
    RequestIds × Option ObservationFields :=
  match kind with
  | .consoleMessage => (ids, do
    let level ← callMethod payload "type"
    let text ← callMethod payload "text"
    return { level := textOf level, text := textOf text })
  | .pageError => (ids, (pageErrorText payload).map fun text => { text := text })
  | .requestStarted | .requestFinished => request ids payload
  | .requestFailed =>
    let requested := request ids payload
    (requested.1, do
      let fields ← requested.2
      let failure ← callMethod payload "failure"
      let text ← readProperty failure "errorText"
      return { fields with failure := textOf text })
  | .response =>
    match callMethod payload "request" with
    | none => (ids, none)
    | some origin =>
      let identified := identifyRequest ids origin
      (identified.1, do
        let url ← callMethod payload "url"
        let method ← callMethod origin "method"
        let status ← callMethod payload "status"
        return {
          requestId := identified.2
          url := textOf url
          method := textOf method
          status := numberOf status })

def observationFailureText : String := "A browser page event could not be normalized."

/-- `time` is what the clock says when the event is normalized. -/
structure PageEvent where
  name : String
  payload : Value
  time : String

/-- The handler of a binding, up to the observation it hands to the sink. -/
def normalize (kind : BrowserObservationKind) (ids : RequestIds) (e : PageEvent) :
    RequestIds × BrowserObservation :=
  match readFields kind ids e.payload with
  | (ids, some fields) => (ids, { fields with kind := kind, time := e.time })
  | (ids, none) => (ids, { text := some observationFailureText, kind := .pageError, time := e.time })

/-! ## The session -/

/-- A handler is told apart by its kind and by the call that made the bindings. -/
structure Binding where
  event : String
  kind : BrowserObservationKind
  attachment : Nat
  deriving DecidableEq

def observed : List (String × BrowserObservationKind) :=
  [("console", .consoleMessage), ("pageerror", .pageError), ("request", .requestStarted),
    ("requestfinished", .requestFinished), ("requestfailed", .requestFailed),
    ("response", .response)]

def observationBindings (attachment : Nat) : List Binding :=
  observed.map fun entry => ⟨entry.1, entry.2, attachment⟩

structure BrowserObservationBatch where
  observations : List BrowserObservation
  dropped : Nat
  deriving DecidableEq

structure Subscription where
  buffer : ObservationBuffer BrowserObservation
  snapshot : Option BrowserObservationBatch

structure SessionObservations where
  /-- Of every handle that was returned. -/
  handles : List Subscription
  subscriptions : List Nat
  bindings : Option (List Binding)
  attachments : Nat
  requestIds : RequestIds
  page : List Binding

inductive ObserveError
  | invalid (error : BrowserAutomationError)
  /-- What `page.on` threw. -/
  | page
  deriving DecidableEq

namespace SessionObservations

def initial : SessionObservations := ⟨[], [], none, 0, ⟨.empty, 1⟩, []⟩

def detachWhenUnobserved (s : SessionObservations) : SessionObservations :=
  match s.bindings with
  | none => s
  | some bindings =>
    if s.subscriptions.length > 0 then s
    else { s with bindings := none, page := bindings.foldl List.erase s.page }

/-- The loop of `page.on`, of which one call may throw: the page, what is attached and whether
all is. -/
def register (failing : Option Nat) (entries page attached : List Binding) :
    List Binding × List Binding × Bool :=
  match entries, failing with
  | [], _ => (page, attached, true)
  | _ :: _, some 0 => (page, attached, false)
  | entry :: rest, some (n + 1) => register (some n) rest (page ++ [entry]) (attached ++ [entry])
  | entry :: rest, none => register none rest (page ++ [entry]) (attached ++ [entry])

/-- Whether the listeners are bound. -/
def attachObservers (s : SessionObservations) (failing : Option Nat) : SessionObservations × Bool :=
  match s.bindings with
  | some _ => (s, true)
  | none =>
    let bindings := observationBindings s.attachments
    match register failing bindings s.page [] with
    | (page, _, true) =>
      ({ s with attachments := s.attachments + 1, bindings := some bindings, page := page }, true)
    | (page, attached, false) =>
      ({ s with attachments := s.attachments + 1, page := attached.foldl List.erase page }, false)

def observe (s : SessionObservations) (limit : Option ℚ) (failing : Option Nat) :
    SessionObservations × Except ObserveError Nat :=
  match observationLimit limit with
  | .error error => (s, .error (.invalid error))
  | .ok limit =>
    let handle := s.handles.length
    let subscribed := { s with
      handles := s.handles ++ [⟨.empty limit, none⟩]
      subscriptions := s.subscriptions ++ [handle] }
    match attachObservers subscribed failing with
    | (s', true) => (s', .ok handle)
    | (s', false) =>
      -- the handle is never returned
      (detachWhenUnobserved { s' with
        handles := s.handles
        subscriptions := s'.subscriptions.erase handle }, .error .page)

/-- What the handle's `stop` returns; `none` if there is no such handle. -/
def stop (s : SessionObservations) (handle : Nat) :
    SessionObservations × Option BrowserObservationBatch :=
  match s.handles[handle]? with
  | none => (s, none)
  | some subscription =>
    match subscription.snapshot with
    | some snapshot => (s, some snapshot)
    | none =>
      let batch := ⟨subscription.buffer.drain, subscription.buffer.dropped⟩
      let detached := detachWhenUnobserved
        { s with subscriptions := s.subscriptions.erase handle }
      ({ detached with
        handles := detached.handles.set handle { subscription with snapshot := some batch } },
        some batch)

def stopAll (s : SessionObservations) : SessionObservations :=
  s.subscriptions.foldl (fun s handle => (s.stop handle).1) s

/-- The sink of the bindings. -/
def push (s : SessionObservations) (observation : BrowserObservation) : SessionObservations :=
  { s with
    handles := s.subscriptions.foldl (fun handles handle =>
      handles.modify handle fun subscription =>
        { subscription with buffer := subscription.buffer.push observation }) s.handles }

/-- The page dispatches an event to its handlers, each of which makes one observation. -/
def emit (s : SessionObservations) (e : PageEvent) :
    SessionObservations × List BrowserObservation :=
  (s.page.filter fun binding => binding.event = e.name).foldl (fun result binding =>
    let normalized := normalize binding.kind result.1.requestIds e
    (push { result.1 with requestIds := normalized.1 } normalized.2,
      result.2 ++ [normalized.2])) (s, [])

/-! ## Runs -/

inductive Input
  | observe (limit : Option ℚ) (failing : Option Nat)
  | stop (handle : Nat)
  | stopAll
  | emit (e : PageEvent)

def step (s : SessionObservations) : Input → SessionObservations
  | .observe limit failing => (s.observe limit failing).1
  | .stop handle => (s.stop handle).1
  | .stopAll => s.stopAll
  | .emit e => (s.emit e).1

def run (s : SessionObservations) (inputs : List Input) : SessionObservations :=
  inputs.foldl step s

/-- The observations of a run, each with the event it was made of. -/
def dispatched (s : SessionObservations) : List Input → List (PageEvent × BrowserObservation)
  | [] => []
  | .emit e :: rest => (s.emit e).2.map (fun o => (e, o)) ++ dispatched (s.emit e).1 rest
  | input :: rest => dispatched (s.step input) rest

end SessionObservations

end SurfaceLoom.Browser
