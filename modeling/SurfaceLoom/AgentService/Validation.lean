import Mathlib.Data.List.Lex
import SurfaceLoom.AgentService.SafeData

/-! # Reading stored values

The field parsers of the run store. A parsed text is a subtype of `String`
that carries what its parser checked. -/
namespace SurfaceLoom.Service.Validation
open SurfaceLoom.Service.SafeData

/-- Why a store operation rejects. `write` stands for an error of the file
system. -/
inductive Failure
  | corruption (message : String)
  | conflict (message : String)
  | typeError (message : String)
  | safeData (error : SafeDataError)
  | write
  deriving DecidableEq

/-! ## Texts -/

def isText (s : String) : Bool := s ≠ "" && !s.toList.contains '\x00'

def hexDigit (c : Char) : Bool := ('0' ≤ c && c ≤ '9') || ('a' ≤ c && c ≤ 'f')

def isSha256 (s : String) : Bool := s.toList.length = 64 && s.toList.all hexDigit

def isChar (c : Char) : Char → Bool := (· == c)

/-- The characters of a text, one test for each. -/
def matchesAll (tests : List (Char → Bool)) (cs : List Char) : Bool :=
  cs.length = tests.length && (tests.zip cs).all fun p => p.1 p.2

def uuidTests : List (Char → Bool) :=
  List.replicate 8 hexDigit ++ [isChar '-'] ++ List.replicate 4 hexDigit ++ [isChar '-'] ++
    [fun c => '1' ≤ c && c ≤ '8'] ++ List.replicate 3 hexDigit ++ [isChar '-'] ++
    [fun c => c = '8' || c = '9' || c = 'a' || c = 'b'] ++ List.replicate 3 hexDigit ++
    [isChar '-'] ++ List.replicate 12 hexDigit

def isUuidIdentity (kind s : String) : Bool :=
  (kind ++ ":").toList.isPrefixOf s.toList &&
    matchesAll uuidTests (s.toList.drop (kind ++ ":").toList.length)

def segmentStart (c : Char) : Bool := ('a' ≤ c && c ≤ 'z') || ('0' ≤ c && c ≤ '9')

def segmentChar (c : Char) : Bool := segmentStart c || c = '.' || c = '_' || c = '-'

def isSegment (limit : Nat) : List Char → Bool
  | [] => false
  | c :: cs => segmentStart c && cs.length ≤ limit && cs.all segmentChar

def isTestId (s : String) : Bool :=
  "service-test:".toList.isPrefixOf s.toList &&
    (let rest := s.toList.drop "service-test:".toList.length
    isSegment 62 (rest.takeWhile (· ≠ '/')) && rest.dropWhile (· ≠ '/') ≠ [] &&
      isSegment 126 ((rest.dropWhile (· ≠ '/')).drop 1))

/-! ## Times -/

def digits (cs : List Char) : Nat := cs.foldl (fun n c => 10 * n + (c.toNat - '0'.toNat)) 0

def daysInMonth (year month : Nat) : Nat :=
  if month = 2 then
    if year % 4 = 0 ∧ (year % 100 ≠ 0 ∨ year % 400 = 0) then 29 else 28
  else if month = 4 ∨ month = 6 ∨ month = 9 ∨ month = 11 then 30
  else 31

/-- `-MM-DDTHH:mm:ss.sssZ`, the part after the year. -/
def timeTests : List (Char → Bool) :=
  [isChar '-', Char.isDigit, Char.isDigit, isChar '-', Char.isDigit, Char.isDigit, isChar 'T',
    Char.isDigit, Char.isDigit, isChar ':', Char.isDigit, Char.isDigit, isChar ':',
    Char.isDigit, Char.isDigit, isChar '.', Char.isDigit, Char.isDigit, Char.isDigit, isChar 'Z']

/-- Month, day, hour, minute, second and millisecond. -/
def timeParts (cs : List Char) : List Nat :=
  [digits ((cs.drop 1).take 2), digits ((cs.drop 4).take 2), digits ((cs.drop 7).take 2),
    digits ((cs.drop 10).take 2), digits ((cs.drop 13).take 2), digits ((cs.drop 16).take 3)]

def isTimeOf (year : Nat) (cs : List Char) : Bool :=
  matchesAll timeTests cs &&
    match timeParts cs with
    | [month, day, hour, minute, second, _] =>
      1 ≤ month && month ≤ 12 && 1 ≤ day && day ≤ daysInMonth year month && hour ≤ 23 &&
        minute ≤ 59 && second ≤ 59
    | _ => false

/-- The texts `Date.prototype.toISOString` produces: four digits of the year,
or a sign and six. A year before 0 has the calendar of `year % 400`. -/
def isCanonicalTime (s : String) : Bool :=
  match s.toList with
  | '+' :: cs =>
    let year := digits (cs.take 6)
    matchesAll (List.replicate 6 Char.isDigit) (cs.take 6) && 10000 ≤ year &&
      isTimeOf year (cs.drop 6) &&
      (year < 275760 || (year = 275760 && timeParts (cs.drop 6) ≤ [9, 13, 0, 0, 0, 0]))
  | '-' :: cs =>
    let year := digits (cs.take 6)
    matchesAll (List.replicate 6 Char.isDigit) (cs.take 6) && 1 ≤ year &&
      isTimeOf (400 - year % 400) (cs.drop 6) &&
      (year < 271821 || (year = 271821 && [4, 20, 0, 0, 0, 0] ≤ timeParts (cs.drop 6)))
  | cs =>
    matchesAll (List.replicate 4 Char.isDigit) (cs.take 4) && isTimeOf (digits (cs.take 4)) (cs.drop 4)

abbrev Text := { s : String // isText s = true }

def fitsRequestKey (s : String) : Bool := s.utf8ByteSize ≤ 256

abbrev RequestKey := { s : String // isText s = true ∧ fitsRequestKey s = true }

abbrev Sha256 := { s : String // isText s = true ∧ isSha256 s = true }

abbrev RunId := { s : String // isUuidIdentity "run" s = true }

abbrev TaskId := { s : String // isUuidIdentity "task" s = true }

abbrev TestId := { s : String // isTestId s = true }

abbrev Timestamp := { s : String // isText s = true ∧ isCanonicalTime s = true }

def maxSafeInteger : Nat := 9007199254740991

abbrev SafeInteger := { n : Nat // n ≤ maxSafeInteger }

/-! ## Field parsers -/

def fail {α : Type} (message : String) : Except Failure α := .error (.corruption message)

/-- A string that passes a test. -/
def checked (p : String → Bool) (value : Option JsValue) (notString wrong : Failure) :
    Except Failure { s : String // p s = true } :=
  match value with
  | some (.string s) => if h : p s = true then .ok ⟨s, h⟩ else .error wrong
  | _ => .error notString

def text (value : Option JsValue) (label : String) : Except Failure Text :=
  checked isText value (.corruption (label ++ " must be text."))
    (.corruption (label ++ " must be text."))

/-- A text that passes one more test. -/
def narrowed (p : String → Bool) (value : Option JsValue) (label message : String) :
    Except Failure { s : String // isText s = true ∧ p s = true } := do
  let result ← text value label
  if h : p result.1 = true then .ok ⟨result.1, result.2, h⟩ else fail message

def requestKey (value : Option JsValue) : Except Failure RequestKey :=
  narrowed fitsRequestKey value "requestId" "requestId is too large."

def sha (value : Option JsValue) (label : String) : Except Failure Sha256 :=
  narrowed isSha256 value label (label ++ " is not SHA-256.")

/-- A text that is no date at all makes the source throw a `RangeError`, which
every caller treats like this failure. -/
def timestamp (value : Option JsValue) (label : String) : Except Failure Timestamp :=
  narrowed isCanonicalTime value label (label ++ " is not canonical ISO time.")

def integer (value : Option JsValue) (label : String) : Except Failure SafeInteger :=
  match value with
  | some (.number q) =>
    if h : q.num.toNat ≤ maxSafeInteger ∧ (q.num.toNat : ℚ) = q then .ok ⟨q.num.toNat, h.1⟩
    else fail (label ++ " must be a non-negative integer.")
  | _ => fail (label ++ " must be a non-negative integer.")

def boolean (value : Option JsValue) (label : String) : Except Failure Bool :=
  match value with
  | some (.boolean b) => .ok b
  | _ => fail (label ++ " must be boolean.")

def parseUuidIdentity (kind : String) (value : Option JsValue) :
    Except Failure { s : String // isUuidIdentity kind s = true } :=
  checked (isUuidIdentity kind) value (.typeError ("A " ++ kind ++ "Id must be a string."))
    (.typeError ("A " ++ kind ++ "Id must use " ++ kind ++ ":<uuid>."))

def parseRunId (value : Option JsValue) : Except Failure RunId := parseUuidIdentity "run" value

def parseTaskId (value : Option JsValue) : Except Failure TaskId := parseUuidIdentity "task" value

def testIdFailure : Failure := .typeError
  "A service testId must use service-test:<namespace>/<name> with lowercase stable segments."

def parseTestId (value : Option JsValue) : Except Failure TestId :=
  checked isTestId value testIdFailure testIdFailure

/-- `value.x === undefined ? undefined : parse(value.x)`. -/
def optionalField {α : Type} (value : Option JsValue) (parse : Option JsValue → Except Failure α) :
    Except Failure (Option α) :=
  match value with
  | none => .ok none
  | some v => (parse (some v)).map some

def liftSafe {α : Type} (x : Except SafeDataError α) : Except Failure α := x.mapError .safeData

@[simp] theorem liftSafe_ok {α : Type} {x : Except SafeDataError α} {a : α} :
    liftSafe x = .ok a ↔ x = .ok a := by
  cases x <;> simp [liftSafe, Except.mapError]

/-- A plain object of any content. -/
abbrev Record := { fields : Fields // fields.length ≤ maxCollectionEntries }

def Record.toValue (r : Record) : JsValue := .object r.1

def record (value : Option JsValue) (label : String) : Except Failure Record :=
  match h : readSafeRecordEnvelope value label with
  | .ok fields => .ok ⟨fields, (readSafeRecordEnvelope_ok.mp h).2⟩
  | .error e => .error (.safeData e)

/-! ## Parsing what was parsed -/

/-- What a parser returned, written again, is parsed to the same and is no
larger than what was read. -/
def Rereads {α : Type} (parse : Option JsValue → Except Failure α) (write : α → JsValue) : Prop :=
  ∀ v a, parse v = .ok a → parse (some (write a)) = .ok a ∧ ∃ w, v = some w ∧ Smaller (write a) w

theorem Rereads.of_exact {α : Type} {parse : Option JsValue → Except Failure α}
    {write : α → JsValue} (h : ∀ v a, parse v = .ok a → v = some (write a)) :
    Rereads parse write := by
  intro v a hp
  have hv := h v a hp
  exact ⟨hv ▸ hp, write a, hv, .refl _⟩

theorem Rereads.optional {α : Type} {parse : Option JsValue → Except Failure α}
    {write : α → JsValue} (h : Rereads parse write) {v : Option JsValue} {a : Option α}
    (hp : optionalField v parse = .ok a) :
    optionalField (a.map write) parse = .ok a ∧
      ∀ w, a.map write = some w → ∃ v', v = some v' ∧ Smaller w v' := by
  unfold optionalField at hp
  cases v with
  | none =>
    cases hp
    exact ⟨rfl, fun w hw => nomatch hw⟩
  | some v =>
    simp only at hp
    cases hv : parse (some v) with
    | error e =>
      rw [hv] at hp
      cases hp
    | ok a' =>
      rw [hv] at hp
      cases hp
      obtain ⟨hback, w', hw', hs⟩ := h _ _ hv
      cases hw'
      refine ⟨?_, fun w hw => ?_⟩
      · simp only [Option.map_some, optionalField]
        rw [hback]
        rfl
      · cases hw
        exact ⟨v, rfl, hs⟩

/-- A property that is written as it was read. -/
theorem exact_smaller {v o : Option JsValue} (h : v = o) :
    ∀ w, o = some w → ∃ v', v = some v' ∧ Smaller w v' := by
  intro w hw
  exact ⟨w, h.trans hw, .refl w⟩

/-- A property that is written from what was read. -/
theorem Rereads.smaller {α : Type} {parse : Option JsValue → Except Failure α}
    {write : α → JsValue} (h : Rereads parse write) {v : Option JsValue} {a : α}
    (hp : parse v = .ok a) : ∀ w, some (write a) = some w → ∃ v', v = some v' ∧ Smaller w v' := by
  intro w hw
  obtain ⟨-, v', hv, hs⟩ := h v a hp
  cases hw
  exact ⟨v', hv, hs⟩

theorem checked_ok {p : String → Bool} {value : Option JsValue} {notString wrong : Failure}
    {t : { s : String // p s = true }} :
    checked p value notString wrong = .ok t ↔ value = some (.string t.1) := by
  unfold checked
  split
  · split
    · rename_i s h
      simp only [Except.ok.injEq, Option.some.injEq, JsValue.string.injEq]
      exact ⟨fun heq => heq ▸ rfl, fun heq => Subtype.ext heq⟩
    · rename_i s h
      simp only [reduceCtorEq, Option.some.injEq, JsValue.string.injEq, false_iff]
      intro heq
      exact h (heq ▸ t.2)
  · rename_i h
    simp only [reduceCtorEq, false_iff]
    exact fun heq => h _ heq

theorem text_ok {value : Option JsValue} {label : String} {t : Text} :
    text value label = .ok t ↔ value = some (.string t.1) := checked_ok

theorem narrowed_ok {p : String → Bool} {value : Option JsValue} {label message : String}
    {t : { s : String // isText s = true ∧ p s = true }} :
    narrowed p value label message = .ok t ↔ value = some (.string t.1) := by
  unfold narrowed
  simp only [bind_eq_ok, text_ok]
  constructor
  · intro h
    obtain ⟨s, hs, h⟩ := h
    split at h
    · cases h
      exact hs
    · cases h
  · intro h
    refine ⟨⟨t.1, t.2.1⟩, h, ?_⟩
    rw [dif_pos t.2.2]

theorem requestKey_ok {value : Option JsValue} {t : RequestKey} :
    requestKey value = .ok t ↔ value = some (.string t.1) := narrowed_ok

theorem sha_ok {value : Option JsValue} {label : String} {t : Sha256} :
    sha value label = .ok t ↔ value = some (.string t.1) := narrowed_ok

theorem timestamp_ok {value : Option JsValue} {label : String} {t : Timestamp} :
    timestamp value label = .ok t ↔ value = some (.string t.1) := narrowed_ok

theorem integer_ok {value : Option JsValue} {label : String} {n : SafeInteger} :
    integer value label = .ok n ↔ value = some (.number n.1) := by
  unfold integer
  split
  · rename_i q
    simp only [Option.some.injEq, JsValue.number.injEq]
    constructor
    · intro h
      split at h
      · rename_i hq
        cases h
        exact hq.2.symm
      · cases h
    · intro h
      subst h
      have hn : ((n.1 : ℚ).num).toNat = n.1 := by simp
      rw [dif_pos ⟨by rw [hn]; exact n.2, by rw [hn]⟩]
      exact congrArg Except.ok (Subtype.ext hn)
  · rename_i h
    simp only [fail, reduceCtorEq, false_iff]
    exact fun heq => h _ heq

theorem boolean_ok {value : Option JsValue} {label : String} {b : Bool} :
    boolean value label = .ok b ↔ value = some (.boolean b) := by
  unfold boolean
  split
  · simp
  · rename_i h
    simp only [fail, reduceCtorEq, false_iff]
    exact fun heq => h _ heq

theorem parseRunId_ok {value : Option JsValue} {t : RunId} :
    parseRunId value = .ok t ↔ value = some (.string t.1) := checked_ok

theorem parseTaskId_ok {value : Option JsValue} {t : TaskId} :
    parseTaskId value = .ok t ↔ value = some (.string t.1) := checked_ok

theorem parseTestId_ok {value : Option JsValue} {t : TestId} :
    parseTestId value = .ok t ↔ value = some (.string t.1) := checked_ok

theorem record_ok {value : Option JsValue} {label : String} {r : Record} :
    record value label = .ok r ↔ value = some r.toValue := by
  unfold record
  constructor
  · intro h
    split at h
    · rename_i fields hf
      cases h
      exact (readSafeRecordEnvelope_ok.mp hf).1
    · cases h
  · intro h
    have hf : readSafeRecordEnvelope value label = .ok r.1 :=
      readSafeRecordEnvelope_ok.mpr ⟨h, r.2⟩
    split
    · rename_i fields heq
      rw [hf] at heq
      cases heq
      rfl
    · rename_i e heq
      rw [hf] at heq
      cases heq

end SurfaceLoom.Service.Validation
