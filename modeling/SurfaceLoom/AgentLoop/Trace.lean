import Mathlib.Algebra.Order.Floor.Ring
import Mathlib.Data.Rat.Floor
import SurfaceLoom.Lib.Checked
import SurfaceLoom.Lib.Json
import SurfaceLoom.Lib.JsonText
import SurfaceLoom.Lib.StableSort

/-! # Agent-loop traces

The trace of an agent loop, its validator and `buildTrace`. A text is the list
of its UTF-16 code units. The regular expressions of `cleanText`, the reading
and writing of dates and the rounding of a sum are parameters. -/
namespace SurfaceLoom.AgentLoop
open SurfaceLoom.Lib

/-! ## Texts and numbers -/

abbrev Text := List Nat

def units (s : String) : Text := s.toList.flatMap fun c => JsonText.utf16 c.toNat

/-- What `trim` strips. -/
def isSpace (c : Nat) : Bool :=
  (9 ≤ c && c ≤ 13) || c = 0x20 || c = 0xA0 || c = 0x1680 || (0x2000 ≤ c && c ≤ 0x200A) ||
    c = 0x2028 || c = 0x2029 || c = 0x202F || c = 0x205F || c = 0x3000 || c = 0xFEFF

def trim (text : Text) : Text := ((text.dropWhile isSpace).reverse.dropWhile isSpace).reverse

/-- A number of the language. Of those that are not finite only a sum that is too
large is ever compared, so they are one value, above all others. -/
inductive Number
  | finite (value : ℚ)
  | notFinite
  deriving DecidableEq

def maxSafeInteger : Int := 9007199254740991

namespace Number

def zero : Number := .finite 0

def value : Number → ℚ
  | .finite q => q
  | .notFinite => 0

/-- `a < b`. -/
def lt : Number → Number → Bool
  | .finite a, .finite b => a < b
  | .finite _, .notFinite => true
  | .notFinite, _ => false

/-- `Math.max`. -/
def max : Number → Number → Number
  | .finite a, .finite b => .finite (Max.max a b)
  | _, _ => .notFinite

/-- `Math.round`. -/
def round (q : ℚ) : Int := ⌊q + 1 / 2⌋

end Number

/-! ## Traces -/

inductive AgentLoopLane
  | agent
  | model
  | tool
  | desktop
  | browser
  | approval
  | system
  deriving DecidableEq

inductive AgentLoopPhase
  | start
  | finish
  | instant
  deriving DecidableEq

inductive AgentLoopStatus
  | running
  | passed
  | failed
  | blocked
  | unknown
  deriving DecidableEq

structure AgentLoopEvent where
  id : Text
  offsetMs : Number
  lane : AgentLoopLane
  phase : AgentLoopPhase
  name : Text
  status : AgentLoopStatus
  durationMs : Option Number
  correlationId : Option Text
  summary : Option Text
  details : Option (Json Number)

def agentLoopSchemaVersion : Text := units "surfaceloom.agent-loop/v1"

structure AgentLoopTrace where
  schemaVersion : Text
  id : Text
  title : Text
  source : Text
  startedAt : Option Text
  durationMs : Number
  events : List AgentLoopEvent
  warnings : List Text

structure ImportOptions where
  id : Option Text
  title : Option Text
  maxEvents : Option Number

/-! ## Identifiers and limits -/

def within (low high : Char) (c : Nat) : Bool := low.toNat ≤ c && c ≤ high.toNat

def isLower (c : Nat) : Bool := within 'a' 'z' c

def isDigit (c : Nat) : Bool := within '0' '9' c

def isAlphanumeric (c : Nat) : Bool := isLower c || within 'A' 'Z' c || isDigit c

def oneOf (chars : String) (c : Nat) : Bool := c ∈ units chars

/-- A first unit and up to `more` further ones, each of its kind. -/
def shaped (first rest : Nat → Bool) (more : Nat) : Text → Bool
  | [] => false
  | c :: text => first c && text.all rest && text.length ≤ more

/-- `semanticIdentifier.test`. -/
def isSemanticIdentifier : Text → Bool :=
  shaped isAlphanumeric (fun c => isAlphanumeric c || oneOf "._:/-" c) 95

/-- `sourceIdentifier.test`. -/
def isAgentLoopSource : Text → Bool :=
  shaped (fun c => isLower c || isDigit c) (fun c => isLower c || isDigit c || oneOf "._/-" c) 63

def defaultMaximumEvents : Nat := 10000

def hardMaximumEvents : Nat := 100000

def resolveMaxEvents (value : Option Number) : Except Text Nat :=
  match value.getD (.finite defaultMaximumEvents) with
  | .finite q =>
    if q.den = 1 ∧ 1 ≤ q.num ∧ q.num ≤ hardMaximumEvents then .ok q.num.toNat
    else .error (units "maxEvents must be a safe integer between 1 and 100000.")
  | .notFinite => .error (units "maxEvents must be a safe integer between 1 and 100000.")

/-! ## The validator -/

def requireText (label value : Text) : Except Text Unit :=
  if trim value = [] ∨ value.length > 240 then .error (label ++ units " must be 1..240 characters.")
  else .ok ()

def requireDuration (label : Text) : Number → Except Text Unit
  | .finite q =>
    if q < 0 ∨ Number.round q > maxSafeInteger then
      .error (label ++ units " must be a finite non-negative duration.")
    else .ok ()
  | .notFinite => .error (label ++ units " must be a finite non-negative duration.")

/-- The check of a property that may be absent. -/
def whenGiven {α : Type} (value : Option α) (check : α → Except Text Unit) : Except Text Unit :=
  match value with
  | none => .ok ()
  | some value => check value

mutual

def validateSafeValue : Json Number → Nat → Except Text Unit
  | .null, _ | .string _, _ | .bool _, _ => .ok ()
  | .number (.finite _), _ => .ok ()
  | .number .notFinite, _ => .error (units "event details contain a non-finite number.")
  | .array items, depth =>
    if depth > 8 then .error (units "event details exceed the maximum depth.")
    else validateItems items depth 0
  | .object fields, depth =>
    if depth > 8 then .error (units "event details exceed the maximum depth.")
    else validateFields fields depth 0

def validateItems : List (Json Number) → Nat → Nat → Except Text Unit
  | [], _, _ => .ok ()
  | item :: rest, depth, count =>
    if count + 1 > 1000 then .error (units "event details are too wide.")
    else do
      validateSafeValue item (depth + 1)
      validateItems rest depth (count + 1)

def validateFields : List (String × Json Number) → Nat → Nat → Except Text Unit
  | [], _, _ => .ok ()
  | (_, item) :: rest, depth, count =>
    if count + 1 > 1000 then .error (units "event details are too wide.")
    else do
      validateSafeValue item (depth + 1)
      validateFields rest depth (count + 1)

end

def validateEvent (event : AgentLoopEvent) : Except Text Unit := do
  requireText (units "event id") event.id
  requireText (units "event name") event.name
  requireDuration (event.id ++ units ".offsetMs") event.offsetMs
  whenGiven event.durationMs (requireDuration (event.id ++ units ".durationMs"))
  whenGiven event.correlationId (requireText (event.id ++ units ".correlationId"))
  whenGiven event.summary (requireText (event.id ++ units ".summary"))
  whenGiven event.details (validateSafeValue · 0)

section
variable (parseDate : Text → Option Int) (isoString : Int → Text) (cleaned : Text → Text)
  (round : ℚ → Number)

/-- The sum of two numbers, rounded. -/
def Number.add : Number → Number → Number
  | .finite a, .finite b => round (a + b)
  | _, _ => .notFinite

/-- `event.offsetMs + (event.durationMs ?? 0)`. -/
def AgentLoopEvent.endMs (event : AgentLoopEvent) : Number :=
  Number.add round event.offsetMs (event.durationMs.getD .zero)

local instance lawful_units : LawfulBEq (List Nat) := inferInstance

/-- The loop over the events; `ids` and `previousOffset` are of those before. -/
def validateEvents (durationMs : Number) :
    List AgentLoopEvent → List Text → Number → Except Text Unit
  | [], _, _ => .ok ()
  | event :: rest, ids, previousOffset => do
    validateEvent event
    if event.id ∈ ids then .error (units "Duplicate agent-loop event id: " ++ event.id)
    else if event.offsetMs.lt previousOffset then
      .error (units "Agent-loop events must be ordered by offsetMs.")
    else if durationMs.lt (event.endMs round) then
      .error (event.id ++ units " exceeds trace duration.")
    else validateEvents durationMs rest (event.id :: ids) event.offsetMs

def validateWarnings : List Text → Except Text Unit
  | [] => .ok ()
  | warning :: rest => do
    requireText (units "trace warning") warning
    validateWarnings rest

def validateAgentLoopTrace (trace : AgentLoopTrace) : Except Text Unit :=
  if trace.schemaVersion ≠ agentLoopSchemaVersion then
    .error (units "Unsupported agent-loop schema version.")
  else do
    requireText (units "trace id") trace.id
    requireText (units "trace title") trace.title
    if isAgentLoopSource trace.source = false then .error (units "trace source is invalid.")
    else do
      requireDuration (units "trace duration") trace.durationMs
      if trace.startedAt.any fun text => (parseDate text).isNone then
        .error (units "trace startedAt must be an ISO timestamp.")
      else if trace.warnings.length > 100 then .error (units "trace warnings are invalid.")
      else do
        validateWarnings trace.warnings
        validateEvents round trace.durationMs trace.events [] (.finite (-1))

/-! ## Building a trace -/

def cleanText (value : Text) : Text := (cleaned value).take 240

def safeIdentifier (value : Option Text) (fallback : Text) : Text :=
  match value with
  | none => fallback
  | some value =>
    let cleaned := trim (cleanText cleaned value)
    if isSemanticIdentifier cleaned then cleaned else fallback

/-- `source.replace(/[^a-z0-9]+/g, "-")`; `inRun` tells whether the unit before
was replaced. -/
def dashed (inRun : Bool) : Text → Text
  | [] => []
  | c :: rest =>
    if isLower c || isDigit c then c :: dashed false rest
    else if inRun then dashed true rest
    else units "-" ++ dashed true rest

/-- `sourceName`, of a text split at `/` and `.`: its last part, with runs of
`-` and `_` as one space. -/
def spaced (inRun : Bool) : Text → Text
  | [] => []
  | c :: rest =>
    if oneOf "-_" c then if inRun then spaced true rest else units " " ++ spaced true rest
    else c :: spaced false rest

def sourceName (source : Text) : Text :=
  if source = units "surfaceloom" then units "SurfaceLoom"
  else spaced false (source.reverse.takeWhile fun c => !oneOf "/." c).reverse

/-- The events by their offsets, ties in the order of the list. -/
def orderedEvents (events : List AgentLoopEvent) : List AgentLoopEvent :=
  StableSort.stableSort (fun a b => a.offsetMs.lt b.offsetMs) events

def totalDuration (events : List AgentLoopEvent) : Number :=
  events.foldl (fun maximum event => maximum.max (event.endMs round)) .zero

def droppedWarning (count : Nat) : Text :=
  units "Dropped " ++ units (toString count) ++ units " events after maxEvents."

def buildTrace (source : Text) (events : List AgentLoopEvent) (warnings : List Text)
    (options : ImportOptions) (startedAt : Option Text) : Except Text AgentLoopTrace :=
  if isAgentLoopSource source = false then .error (units "trace source is invalid.")
  else do
    let maxEvents ← resolveMaxEvents options.maxEvents
    let ordered := (orderedEvents events).take maxEvents
    let dropped := if events.length > maxEvents then [droppedWarning (events.length - maxEvents)]
      else []
    return {
      schemaVersion := agentLoopSchemaVersion
      id := safeIdentifier cleaned options.id (dashed false source ++ units "-agent-loop")
      title := cleanText cleaned
        (options.title.getD (sourceName source ++ units " agent loop"))
      source := source
      startedAt := startedAt
      durationMs := totalDuration round ordered
      events := ordered
      warnings := (warnings ++ dropped).map (cleanText cleaned) }

end

/-! ## What the validator accepts -/

structure ValidText (value : Text) : Prop where
  shows : trim value ≠ []
  length : value.length ≤ 240

structure Duration (n : Number) : Prop where
  finite : ∃ q : ℚ, n = .finite q ∧ 0 ≤ q ∧ Number.round q ≤ maxSafeInteger

structure ValidEvent (event : AgentLoopEvent) : Prop where
  id : ValidText event.id
  name : ValidText event.name
  offset : Duration event.offsetMs
  duration : ∀ d ∈ event.durationMs, Duration d
  correlation : ∀ c ∈ event.correlationId, ValidText c
  summary : ∀ text ∈ event.summary, ValidText text
  details : ∀ value ∈ event.details, validateSafeValue value 0 = .ok ()

/-- The events of a trace of this duration. -/
structure ValidEvents (round : ℚ → Number) (durationMs : Number) (events : List AgentLoopEvent) :
    Prop where
  each : ∀ e ∈ events, ValidEvent e
  distinct : (events.map AgentLoopEvent.id).Nodup
  ordered : events.Pairwise fun a b => b.offsetMs.lt a.offsetMs = false
  fits : ∀ e ∈ events, durationMs.lt (e.endMs round) = false

structure ValidTrace (parseDate : Text → Option Int) (round : ℚ → Number) (trace : AgentLoopTrace) :
    Prop where
  schemaVersion : trace.schemaVersion = agentLoopSchemaVersion
  id : ValidText trace.id
  title : ValidText trace.title
  source : isAgentLoopSource trace.source = true
  duration : Duration trace.durationMs
  startedAt : ∀ text ∈ trace.startedAt, (parseDate text).isSome = true
  few : trace.warnings.length ≤ 100
  warnings : ∀ w ∈ trace.warnings, ValidText w
  events : ValidEvents round trace.durationMs trace.events

theorem dropWhile_eq_nil {text : Text} : text.dropWhile isSpace = [] ↔ ∀ c ∈ text, isSpace c = true := by
  induction text with
  | nil => simp
  | cons c text ih =>
    by_cases hc : isSpace c = true
    · simp [hc, ih]
    · simp [hc]

theorem trim_eq_nil {text : Text} : trim text = [] ↔ ∀ c ∈ text, isSpace c = true := by
  unfold trim
  rw [List.reverse_eq_nil_iff, dropWhile_eq_nil]
  constructor
  · intro h
    rw [← dropWhile_eq_nil]
    by_contra hne
    have hhead := List.head_dropWhile_not isSpace hne
    have hspace := h _ (List.mem_reverse.mpr (List.head_mem hne))
    rw [hspace] at hhead
    cases hhead
  · intro h c hc
    exact h c ((List.dropWhile_sublist isSpace).subset (List.mem_reverse.mp hc))

theorem requireText_ok {label value : Text} :
    requireText label value = .ok () ↔ ValidText value := by
  unfold requireText
  constructor
  · intro h
    split at h
    · cases h
    · rename_i hbad
      rw [not_or] at hbad
      exact ⟨hbad.1, Nat.not_lt.mp hbad.2⟩
  · intro h
    rw [if_neg]
    rw [not_or]
    exact ⟨h.shows, Nat.not_lt.mpr h.length⟩

theorem requireDuration_ok {label : Text} {n : Number} :
    requireDuration label n = .ok () ↔ Duration n := by
  cases n with
  | finite q =>
    rw [requireDuration]
    constructor
    · intro h
      split at h
      · cases h
      · rename_i hbad
        rw [not_or] at hbad
        exact ⟨q, rfl, not_lt.mp hbad.1, not_lt.mp hbad.2⟩
    · intro h
      obtain ⟨_, heq, hnonneg, hsafe⟩ := h.finite
      cases heq
      rw [if_neg]
      rw [not_or]
      exact ⟨not_lt.mpr hnonneg, not_lt.mpr hsafe⟩
  | notFinite =>
    rw [requireDuration]
    constructor
    · intro h
      cases h
    · intro h
      obtain ⟨_, heq, -⟩ := h.finite
      cases heq

theorem whenGiven_ok {α : Type} {value : Option α} {check : α → Except Text Unit}
    {P : α → Prop} (hcheck : ∀ a, check a = .ok () ↔ P a) :
    whenGiven value check = .ok () ↔ ∀ a ∈ value, P a := by
  cases value with
  | none => simp [whenGiven]
  | some a => simp [whenGiven, hcheck]

theorem validateEvent_ok {event : AgentLoopEvent} :
    validateEvent event = .ok () ↔ ValidEvent event := by
  unfold validateEvent
  simp only [Checked.bind_unit_ok, requireText_ok, requireDuration_ok]
  rw [whenGiven_ok (P := Duration) fun _ => requireDuration_ok,
    whenGiven_ok (P := ValidText) fun _ => requireText_ok,
    whenGiven_ok (P := ValidText) fun _ => requireText_ok,
    whenGiven_ok (P := fun value => validateSafeValue value 0 = .ok ()) fun _ => Iff.rfl]
  constructor
  · intro h
    obtain ⟨h₁, h₂, h₃, h₄, h₅, h₆, h₇⟩ := h
    exact ⟨h₁, h₂, h₃, h₄, h₅, h₆, h₇⟩
  · intro h
    exact ⟨h.id, h.name, h.offset, h.duration, h.correlation, h.summary, h.details⟩

theorem validateWarnings_ok {warnings : List Text} :
    validateWarnings warnings = .ok () ↔ ∀ w ∈ warnings, ValidText w := by
  induction warnings with
  | nil => simp [validateWarnings]
  | cons w rest ih =>
    unfold validateWarnings
    simp only [Checked.bind_unit_ok, requireText_ok, ih, List.forall_mem_cons]

/-! ## Order -/

namespace Number

theorem lt_irrefl (a : Number) : a.lt a = false := by
  cases a <;> simp [lt]

theorem not_lt_trans {a b c : Number} (h : b.lt a = false) (h' : c.lt b = false) :
    c.lt a = false := by
  cases a with
  | notFinite => cases b <;> cases c <;> simp_all [lt]
  | finite x =>
    cases b <;> cases c <;> simp only [lt, decide_eq_false_iff_not, not_lt, reduceCtorEq] at *
    exact h.trans h'

theorem not_lt_total (a b : Number) : b.lt a = false ∨ a.lt b = false := by
  cases a <;> cases b <;> simp only [lt, decide_eq_false_iff_not, not_lt, or_true, true_or]
  exact le_total _ _

theorem eq_of_not_lt {a b : Number} (h : b.lt a = false) (h' : a.lt b = false) : a = b := by
  cases a <;> cases b <;> simp only [lt, decide_eq_false_iff_not, not_lt, reduceCtorEq] at *
  rw [le_antisymm h h']

end Number

variable {parseDate : Text → Option Int} {cleaned : Text → Text} {round : ℚ → Number}

/-- What the loop accepts, after the events `ids` of which the last had this
offset. -/
structure AcceptsEvents (round : ℚ → Number) (durationMs : Number) (events : List AgentLoopEvent)
    (ids : List Text) (previousOffset : Number) : Prop where
  valid : ValidEvents round durationMs events
  fresh : ∀ e ∈ events, e.id ∉ ids
  later : ∀ e ∈ events, e.offsetMs.lt previousOffset = false

theorem validateEvents_ok {durationMs : Number} {events : List AgentLoopEvent} :
    ∀ {ids : List Text} {previousOffset : Number},
      validateEvents round durationMs events ids previousOffset = .ok () ↔
        AcceptsEvents round durationMs events ids previousOffset := by
  induction events with
  | nil =>
    intro ids previousOffset
    refine iff_of_true rfl ⟨⟨?_, List.nodup_nil, .nil, ?_⟩, ?_, ?_⟩
    all_goals exact fun _ h => nomatch h
  | cons event rest ih =>
    intro ids previousOffset
    unfold validateEvents
    simp only [Checked.bind_unit_ok, validateEvent_ok]
    constructor
    · intro h
      obtain ⟨hevent, h⟩ := h
      split at h
      · cases h
      · rename_i hnew
        split at h
        · cases h
        · rename_i hlater
          split at h
          · cases h
          · rename_i hends
            obtain ⟨⟨heach, hdistinct, hordered, hfits⟩, hfresh, hafter⟩ := ih.mp h
            refine ⟨⟨?_, ?_, ?_, ?_⟩, ?_, ?_⟩
            · exact List.forall_mem_cons.mpr ⟨hevent, heach⟩
            · refine List.nodup_cons.mpr ⟨fun hmem => ?_, hdistinct⟩
              obtain ⟨e, he, heq⟩ := List.mem_map.mp hmem
              exact hfresh e he (heq ▸ List.mem_cons_self)
            · exact List.pairwise_cons.mpr ⟨hafter, hordered⟩
            · exact List.forall_mem_cons.mpr ⟨Bool.eq_false_iff.mpr hends, hfits⟩
            · refine List.forall_mem_cons.mpr ⟨hnew, fun e he hmem => ?_⟩
              exact hfresh e he (List.mem_cons_of_mem _ hmem)
            · refine List.forall_mem_cons.mpr ⟨Bool.eq_false_iff.mpr hlater, fun e he => ?_⟩
              exact Number.not_lt_trans (Bool.eq_false_iff.mpr hlater) (hafter e he)
    · intro h
      obtain ⟨⟨heach, hdistinct, hordered, hfits⟩, hfresh, hafter⟩ := h
      obtain ⟨hevent, heach⟩ := List.forall_mem_cons.mp heach
      obtain ⟨hnew, hfresh⟩ := List.forall_mem_cons.mp hfresh
      obtain ⟨hlater, hafter⟩ := List.forall_mem_cons.mp hafter
      obtain ⟨hends, hfits⟩ := List.forall_mem_cons.mp hfits
      obtain ⟨hnext, hordered⟩ := List.pairwise_cons.mp hordered
      obtain ⟨hself, hdistinct⟩ := List.nodup_cons.mp hdistinct
      refine ⟨hevent, ?_⟩
      rw [if_neg hnew, if_neg (Bool.eq_false_iff.mp hlater), if_neg (Bool.eq_false_iff.mp hends)]
      refine ih.mpr ⟨⟨heach, hdistinct, hordered, hfits⟩, fun e he hmem => ?_, hnext⟩
      rcases List.mem_cons.mp hmem with heq | hmem
      · exact hself (heq ▸ List.mem_map_of_mem he)
      · exact hfresh e he hmem

theorem Duration.lt_negative {n : Number} (h : Duration n) : n.lt (.finite (-1)) = false := by
  obtain ⟨q, rfl, hq, -⟩ := h.finite
  simp only [Number.lt, decide_eq_false_iff_not, not_lt]
  exact le_trans (by norm_num) hq

theorem validateAgentLoopTrace_ok {trace : AgentLoopTrace} :
    validateAgentLoopTrace parseDate round trace = .ok () ↔ ValidTrace parseDate round trace := by
  unfold validateAgentLoopTrace
  constructor
  · intro h
    split at h
    · cases h
    · rename_i hschema
      simp only [Checked.bind_unit_ok, requireText_ok] at h
      obtain ⟨hid, htitle, h⟩ := h
      split at h
      · cases h
      · rename_i hsource
        simp only [Checked.bind_unit_ok, requireDuration_ok] at h
        obtain ⟨hduration, h⟩ := h
        split at h
        · cases h
        · rename_i hstarted
          split at h
          · cases h
          · rename_i hfew
            simp only [Checked.bind_unit_ok, validateWarnings_ok, validateEvents_ok] at h
            obtain ⟨hwarnings, hevents⟩ := h
            refine ⟨not_ne_iff.mp hschema, hid, htitle, by simpa using hsource, hduration, ?_,
              Nat.not_lt.mp hfew, hwarnings, hevents.valid⟩
            intro text htext
            simpa [Option.mem_def.mp htext, Option.isSome_iff_ne_none] using hstarted
  · intro h
    rw [if_neg (not_ne_iff.mpr h.schemaVersion)]
    simp only [Checked.bind_unit_ok, requireText_ok]
    refine ⟨h.id, h.title, ?_⟩
    rw [if_neg (by simp [h.source])]
    simp only [Checked.bind_unit_ok, requireDuration_ok]
    refine ⟨h.duration, ?_⟩
    have hstarted : ¬ (trace.startedAt.any fun text => (parseDate text).isNone) = true := by
      cases hs : trace.startedAt with
      | none => simp
      | some text =>
        have := h.startedAt text hs
        simpa [Option.isSome_iff_ne_none] using this
    rw [if_neg hstarted, if_neg (Nat.not_lt.mpr h.few)]
    simp only [Checked.bind_unit_ok, validateWarnings_ok, validateEvents_ok]
    exact ⟨h.warnings, h.events, (fun _ _ hmem => nomatch hmem),
      fun e he => (h.events.each e he).offset.lt_negative⟩

/-! ## What `buildTrace` builds -/

theorem shaped_cons {first rest : Nat → Bool} {more : Nat} {text : Text}
    (h : shaped first rest more text = true) :
    ∃ c tail, text = c :: tail ∧ first c = true ∧ tail.length ≤ more := by
  cases text with
  | nil => cases h
  | cons c tail =>
    simp only [shaped, Bool.and_eq_true, decide_eq_true_eq] at h
    exact ⟨c, tail, rfl, h.1.1, h.2⟩

theorem isSpace_of_isAlphanumeric {c : Nat} (h : isAlphanumeric c = true) : isSpace c = false := by
  simp only [isAlphanumeric, isLower, isDigit, within, Bool.or_eq_true, Bool.and_eq_true,
    decide_eq_true_eq] at h
  simp only [isSpace, Bool.or_eq_false_iff, Bool.and_eq_false_iff, decide_eq_false_iff_not]
  have : 'a'.toNat = 97 ∧ 'z'.toNat = 122 ∧ 'A'.toNat = 65 ∧ 'Z'.toNat = 90 ∧ '0'.toNat = 48 ∧
      '9'.toNat = 57 := by decide
  omega

theorem ValidText.of_mem {text : Text} {c : Nat} (hc : c ∈ text) (hspace : isSpace c = false)
    (hlength : text.length ≤ 240) : ValidText text := by
  refine ⟨fun h => ?_, hlength⟩
  have := trim_eq_nil.mp h c hc
  rw [hspace] at this
  cases this

theorem isSemanticIdentifier.valid {text : Text} (h : isSemanticIdentifier text = true) :
    ValidText text := by
  obtain ⟨c, tail, rfl, hc, hlength⟩ := shaped_cons h
  refine .of_mem List.mem_cons_self (isSpace_of_isAlphanumeric hc) ?_
  rw [List.length_cons]
  omega

theorem safeIdentifier_valid {value : Option Text} {fallback : Text} (h : ValidText fallback) :
    ValidText (safeIdentifier cleaned value fallback) := by
  unfold safeIdentifier
  split
  · exact h
  · simp only
    split
    · rename_i hid
      exact isSemanticIdentifier.valid hid
    · exact h

/-- Where nothing is dropped. -/
theorem buildTrace_ok {source : Text} {events : List AgentLoopEvent} {warnings : List Text}
    {options : ImportOptions} {startedAt : Option Text} {maxEvents : Nat}
    (hsource : isAgentLoopSource source = true)
    (hmax : resolveMaxEvents options.maxEvents = .ok maxEvents) (hfew : events.length ≤ maxEvents) :
    buildTrace cleaned round source events warnings options startedAt = .ok {
      schemaVersion := agentLoopSchemaVersion
      id := safeIdentifier cleaned options.id (dashed false source ++ units "-agent-loop")
      title := cleanText cleaned (options.title.getD (sourceName source ++ units " agent loop"))
      source := source
      startedAt := startedAt
      durationMs := totalDuration round (orderedEvents events)
      events := orderedEvents events
      warnings := warnings.map (cleanText cleaned) } := by
  have hall : (orderedEvents events).take maxEvents = orderedEvents events := by
    refine List.take_of_length_le ?_
    rwa [orderedEvents, (StableSort.stableSort_perm _ _).length_eq]
  unfold buildTrace
  rw [if_neg (by simp [hsource]), hmax, Checked.bind_ok]
  refine ⟨maxEvents, rfl, ?_⟩
  simp only [if_neg (Nat.not_lt.mpr hfew), hall, List.append_nil]
  rfl

theorem cleanText_length (value : Text) : (cleanText cleaned value).length ≤ 240 :=
  List.length_take_le 240 _

/-- A number whose place in a trace is safe, if it is not negative. -/
structure Bounded (n : Number) : Prop where
  finite : ∃ q : ℚ, n = .finite q ∧ Number.round q ≤ maxSafeInteger

theorem Duration.max {a b : Number} (ha : Duration a) (hb : Bounded b) : Duration (a.max b) := by
  obtain ⟨x, rfl, hnonneg, hx⟩ := ha.finite
  obtain ⟨y, rfl, hy⟩ := hb.finite
  refine ⟨Max.max x y, rfl, le_max_of_le_left hnonneg, ?_⟩
  rcases le_total x y with hle | hle
  · rwa [max_eq_right hle]
  · rwa [max_eq_left hle]

theorem Duration.bounded {a b : Number} (hb : Duration b) (h : b.lt a = false) : Bounded a := by
  obtain ⟨y, rfl, -, hy⟩ := hb.finite
  cases a with
  | notFinite => cases h
  | finite x =>
    simp only [Number.lt, decide_eq_false_iff_not, not_lt] at h
    refine ⟨x, rfl, le_trans (Int.floor_le_floor ?_) hy⟩
    exact add_le_add_left h _

namespace Number

theorem le_max_left (a b : Number) : (a.max b).lt a = false := by
  cases a <;> cases b <;> simp [max, lt]

theorem le_max_right (a b : Number) : (a.max b).lt b = false := by
  cases a <;> cases b <;> simp [max, lt]

end Number

/-- The greatest of a list of ends is no less than any of them. -/
theorem foldl_max_ge (ends : AgentLoopEvent → Number) : ∀ (events : List AgentLoopEvent)
    (start : Number),
    (events.foldl (fun maximum event => maximum.max (ends event)) start).lt start = false ∧
      ∀ e ∈ events,
        (events.foldl (fun maximum event => maximum.max (ends event)) start).lt (ends e) = false := by
  intro events
  induction events with
  | nil =>
    intro start
    exact ⟨Number.lt_irrefl start, fun _ h => nomatch h⟩
  | cons event rest ih =>
    intro start
    obtain ⟨hstart, hrest⟩ := ih (start.max (ends event))
    refine ⟨Number.not_lt_trans (Number.le_max_left ..) hstart, ?_⟩
    refine List.forall_mem_cons.mpr ⟨?_, hrest⟩
    exact Number.not_lt_trans (Number.le_max_right ..) hstart

theorem foldl_max_duration (ends : AgentLoopEvent → Number) : ∀ (events : List AgentLoopEvent)
    {start : Number}, Duration start → (∀ e ∈ events, Bounded (ends e)) →
    Duration (events.foldl (fun maximum event => maximum.max (ends event)) start) := by
  intro events
  induction events with
  | nil =>
    intro start hstart _
    exact hstart
  | cons event rest ih =>
    intro start hstart hbounded
    obtain ⟨hevent, hrest⟩ := List.forall_mem_cons.mp hbounded
    exact ih (hstart.max hevent) hrest

theorem totalDuration_ge {events : List AgentLoopEvent} {e : AgentLoopEvent} (he : e ∈ events) :
    (totalDuration round events).lt (e.endMs round) = false :=
  (foldl_max_ge _ events .zero).2 e he

/-- The duration of a trace is one exactly when no event ends too late. -/
theorem totalDuration_iff {events : List AgentLoopEvent} :
    Duration (totalDuration round events) ↔ ∀ e ∈ events, Bounded (e.endMs round) := by
  constructor
  · intro h e he
    exact h.bounded (totalDuration_ge he)
  · intro h
    refine foldl_max_duration _ events ⟨0, rfl, le_refl _, ?_⟩ h
    norm_num [Number.round, maxSafeInteger]

end SurfaceLoom.AgentLoop
