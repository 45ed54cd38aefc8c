import SurfaceLoom.Lib.Json
import SurfaceLoom.Native.Wire

/-! # The grammar of client messages

What a client may send, in the words the three implementations share: identifiers,
method names, scopes, intents and the cancel message. Each implementation is a
module of its own. -/
namespace SurfaceLoom.Native.Wire
open SurfaceLoom.Lib

def nativeProtocolName : String := "surfaceloom.native"
def nativeProtocolVersion : String := "1.0"
def maxWireMessageBytes : Nat := 1048576
def maxDeadlineMs : Nat := 120000

/-- The name of the handshake and of the launch method. -/
def handshakeMethod : String := "host.handshake"
def launchMethod : String := "session.launch"

inductive NativeCancellationReason
  | caller
  | deadline
  | shutdown
  deriving DecidableEq, Repr

structure NativeCancel where
  id : String
  requestID : String
  reason : NativeCancellationReason
  deriving DecidableEq, Repr

inductive ScopeKind
  | bootstrap
  | host
  | session
  | handle
  deriving DecidableEq, Repr

/-! ## Words of an enumeration -/

def intentWords : List (String × NativeOperationIntent) :=
  [("observe", .observe), ("mutate", .mutate), ("lifecycle", .lifecycle)]

def scopeKindWords : List (String × ScopeKind) :=
  [("bootstrap", .bootstrap), ("host", .host), ("session", .session), ("handle", .handle)]

def cancellationReasonWords : List (String × NativeCancellationReason) :=
  [("caller", .caller), ("deadline", .deadline), ("shutdown", .shutdown)]

/-- The value a word stands for. -/
def ofWord {α : Type} (words : List (String × α)) (text : String) : Option α :=
  (words.find? fun word => word.1 = text).map Prod.snd

theorem mem_of_ofWord {α : Type} {words : List (String × α)} {text : String} {value : α}
    (h : ofWord words text = some value) : (text, value) ∈ words := by
  obtain ⟨word, hfind, hvalue⟩ := Option.map_eq_some_iff.mp h
  have hword : word.1 = text := by simpa using List.find?_some hfind
  rw [← hword, ← hvalue]
  exact List.mem_of_find?_eq_some hfind

/-! ## Fields -/

def requestFields : List String := ["protocol", "version", "type", "id", "deadline", "call"]
def cancelFields : List String := ["protocol", "version", "type", "id", "requestId", "reason"]
def deadlineFields : List String := ["timeoutMs"]
def callFields : List String := ["name", "intent", "scope", "payload", "operationId"]

def scopeFields : ScopeKind → List String
  | .bootstrap => ["kind"]
  | .host => ["kind", "hostInstanceId"]
  | .session => ["kind", "hostInstanceId", "sessionId"]
  | .handle => ["kind", "hostInstanceId", "sessionId", "handleId"]

/-! ## Texts -/

/-- A bounded single line. -/
def isText (maximum : Nat) (text : String) : Bool :=
  text ≠ "" ∧ text.utf8ByteSize ≤ maximum ∧
    '\x00' ∉ text.toList ∧ '\r' ∉ text.toList ∧ '\n' ∉ text.toList

def identifierTail (c : Char) : Bool := c.isAlphanum || c ∈ ['.', '_', ':', '-']

def identifierChars : List Char → Bool
  | [] => false
  | c :: rest => c.isAlphanum && rest.all identifierTail && rest.length ≤ 127

def isIdentifier (text : String) : Bool := identifierChars text.toList

/-- One dot-separated part of a method name. -/
def methodPart (initial tail : Char → Bool) : List Char → Bool
  | [] => false
  | c :: rest => initial c && rest.all tail

def lowerTail (c : Char) : Bool := c.isLower || c.isDigit || c = '-'

def mixedTail (c : Char) : Bool := c.isAlphanum || c = '-'

/-- `^[a-z][a-z0-9-]*(?:\.[A-Za-z][A-Za-z0-9-]*)+$` -/
def methodNameChars (chars : List Char) : Bool :=
  match chars.splitOn '.' with
  | first :: second :: rest =>
    methodPart Char.isLower lowerTail first &&
      (second :: rest).all (methodPart Char.isAlpha mixedTail)
  | _ => false

/-- A pattern whose end may be followed by one newline. -/
def endsBeforeNewline (pattern : List Char → Bool) (chars : List Char) : Bool :=
  pattern chars || (chars.getLast? = some '\n' && pattern chars.dropLast)

/-! ## Operations -/

/-- The checks a parser makes before it builds a call. -/
theorem sideEffecting_of {intent : NativeOperationIntent} {operationId : Option String}
    (hobserve : ¬ (intent = .observe ∧ operationId.isSome))
    (heffect : ¬ (intent ≠ .observe ∧ operationId.isNone)) :
    operationId.isSome ↔ intent ≠ .observe := by
  cases operationId with
  | none => simpa using heffect
  | some id => simpa using hobserve

/-- A call passes the checks. -/
theorem sideEffecting_checks {intent : NativeOperationIntent} {operationId : Option String}
    (h : operationId.isSome ↔ intent ≠ .observe) :
    ¬ (intent = .observe ∧ operationId.isSome) ∧ ¬ (intent ≠ .observe ∧ operationId.isNone) := by
  refine ⟨fun hboth => h.mp hboth.2 hboth.1, fun hboth => ?_⟩
  have hsome := h.mpr hboth.1
  cases operationId with
  | none => cases hsome
  | some id => cases hboth.2

/-! ## Identifiers -/

theorem isIdentifier_tail {text : String} (h : isIdentifier text = true) :
    ∀ c ∈ text.toList, identifierTail c = true := by
  unfold isIdentifier at h
  intro c hc
  cases hchars : text.toList with
  | nil =>
    rw [hchars] at hc
    cases hc
  | cons first rest =>
    rw [hchars] at h hc
    simp only [identifierChars, Bool.and_eq_true, List.all_eq_true] at h
    rcases List.mem_cons.mp hc with rfl | hc
    · rw [identifierTail, h.1.1, Bool.true_or]
    · exact h.1.2 c hc

theorem isIdentifier_length {text : String} (h : isIdentifier text = true) :
    text.length ≤ 128 := by
  unfold isIdentifier at h
  rw [← String.length_toList]
  cases hchars : text.toList with
  | nil => exact Nat.zero_le _
  | cons first rest =>
    rw [hchars] at h
    simp only [identifierChars, Bool.and_eq_true, decide_eq_true_eq] at h
    simp only [List.length_cons]
    omega

end SurfaceLoom.Native.Wire
