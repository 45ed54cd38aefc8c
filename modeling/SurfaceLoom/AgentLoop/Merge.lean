import Mathlib.Data.List.ReduceOption
import SurfaceLoom.AgentLoop.Trace
import SurfaceLoom.Lib.Decimal

/-! # Merging agent-loop traces

`mergeAgentLoopTraces` puts the events of several traces on one clock, under
identifiers that name their trace. Its result goes through the validator, whose
limits the identifiers and the times of the traces may already have been at. -/
namespace SurfaceLoom.AgentLoop
open SurfaceLoom.Lib

structure MergeOptions extends ImportOptions where
  alignClocks : Option Bool

/-- An event with its place: its trace, and its index there. -/
structure Entry where
  trace : Nat
  index : Nat
  event : AgentLoopEvent

def entries (traces : List AgentLoopTrace) : List Entry :=
  traces.zipIdx.flatMap fun (trace, i) => trace.events.zipIdx.map fun (event, j) => ⟨i, j, event⟩

/-- The text under the number of its trace. -/
def namespaced (traceIndex : Nat) (text : Text) : Text :=
  units (toString (traceIndex + 1)) ++ units ":" ++ text

section
variable (parseDate : Text → Option Int) (isoString : Int → Text) (cleaned : Text → Text)
  (round : ℚ → Number) (options : MergeOptions) (traces : List AgentLoopTrace)

def starts : List (Option Int) := traces.map fun trace => trace.startedAt.bind parseDate

/-- Whether the clocks are aligned. -/
def canAlign : Bool :=
  options.alignClocks.getD true && (starts parseDate traces).all Option.isSome

def origin : Option Int :=
  if canAlign parseDate options traces then (starts parseDate traces).reduceOption.min? else none

/-- By how much the events of a trace are moved. -/
def shift (traceIndex : Nat) : Number :=
  match origin parseDate options traces with
  | none => .zero
  | some first =>
    match (starts parseDate traces)[traceIndex]? with
    | some (some start) => round ((start - first : Int) : ℚ)
    | _ => .notFinite

namespace Entry

/-- The time of an event after the merge. -/
def time (e : Entry) : Number :=
  Number.add round e.event.offsetMs (shift parseDate round options traces e.trace)

/-- The event after the merge. -/
def merged (e : Entry) : AgentLoopEvent :=
  { e.event with
    id := namespaced e.trace e.event.id
    offsetMs := e.time parseDate round options traces
    correlationId := e.event.correlationId.map (namespaced e.trace) }

end Entry

def mergedEvents : List AgentLoopEvent :=
  (entries traces).map fun e => e.merged parseDate round options traces

def mergedWarnings : List Text :=
  (traces.flatMap fun trace => trace.warnings.map fun w => trace.source ++ units ": " ++ w) ++
    if options.alignClocks.getD true && !canAlign parseDate options traces then
      [units "Some traces had no absolute start time; relative offsets were used."]
    else []

def mergedTitle : Text := options.title.getD (units "Merged agent loop")

/-- The options for the merged trace. -/
def mergedOptions : ImportOptions where
  id := some (options.id.getD (units "merged-agent-loop"))
  title := some (mergedTitle options)
  maxEvents := options.maxEvents

def mergeAgentLoopTraces : Except Text AgentLoopTrace :=
  if traces = [] then .error (units "At least one trace is required.")
  else do
    traces.forM (validateAgentLoopTrace parseDate round)
    let merged ← buildTrace cleaned round (units "generic")
      (mergedEvents parseDate round options traces) (mergedWarnings parseDate options traces)
      (mergedOptions options) ((origin parseDate options traces).map isoString)
    validateAgentLoopTrace parseDate round merged
    return merged

/-! ## What a merge is for -/

/-- The time of an event on the clock of its trace, without any rounding. -/
def Entry.exactTime (e : Entry) : ℚ :=
  e.event.offsetMs.value + (((starts parseDate traces)[e.trace]?).join.getD 0 : Int)

/-- Earlier, or at the same time in an earlier trace or earlier in its trace. -/
def Entry.Before (a b : Entry) : Prop :=
  (a.time parseDate round options traces).lt (b.time parseDate round options traces) = true ∨
    a.time parseDate round options traces = b.time parseDate round options traces ∧
      (a.trace < b.trace ∨ a.trace = b.trace ∧ a.index < b.index)

/-- The merged trace has the events of all traces, each once and in order. -/
structure Lossless (merged : AgentLoopTrace) : Prop where
  events : ∃ order : List Entry, order.Perm (entries traces) ∧
    merged.events = order.map (fun e => e.merged parseDate round options traces) ∧
      order.Pairwise fun a b => a.Before parseDate round options traces b
  ids : ∀ a ∈ entries traces, ∀ b ∈ entries traces,
    (a.merged parseDate round options traces).id = (b.merged parseDate round options traces).id →
      a.trace = b.trace ∧ a.event.id = b.event.id
  correlations : ∀ a ∈ entries traces, ∀ b ∈ entries traces,
    ((a.merged parseDate round options traces).correlationId =
        (b.merged parseDate round options traces).correlationId ↔
      a.event.correlationId = b.event.correlationId ∧
        (a.trace = b.trace ∨ a.event.correlationId = none))
  differences : canAlign parseDate options traces = true →
    ∀ a ∈ entries traces, ∀ b ∈ entries traces,
      (a.time parseDate round options traces).value -
          (b.time parseDate round options traces).value =
        a.exactTime parseDate traces - b.exactTime parseDate traces

def MergesWell : Prop :=
  ∃ merged, mergeAgentLoopTraces parseDate isoString cleaned round options traces = .ok merged ∧
    Lossless parseDate round options traces merged

/-- When the result of a merge is within the limits of the validator. -/
structure MergeFits : Prop where
  ids : ∀ e ∈ entries traces, (toString (e.trace + 1)).length + 1 + e.event.id.length ≤ 240
  correlations : ∀ e ∈ entries traces, ∀ c ∈ e.event.correlationId,
    (toString (e.trace + 1)).length + 1 + c.length ≤ 240
  times : ∀ e ∈ entries traces, Duration (e.time parseDate round options traces)
  ends : ∀ e ∈ entries traces, Bounded (Number.add round (e.time parseDate round options traces)
    (e.event.durationMs.getD .zero))
  title : trim (cleanText cleaned (mergedTitle options)) ≠ []
  warnings : ∀ w ∈ mergedWarnings parseDate options traces, trim (cleanText cleaned w) ≠ []

/-- When the times of all events are off by the same. -/
def RoundsAlike : Prop :=
  canAlign parseDate options traces = true →
    ∀ a ∈ entries traces, ∀ b ∈ entries traces,
      (a.time parseDate round options traces).value - a.exactTime parseDate traces =
        (b.time parseDate round options traces).value - b.exactTime parseDate traces

end

/-! ## Entries and their order -/

theorem mem_entries {traces : List AgentLoopTrace} {e : Entry} : e ∈ entries traces ↔
    ∃ trace, traces[e.trace]? = some trace ∧ trace.events[e.index]? = some e.event := by
  unfold entries
  simp only [List.mem_flatMap, List.mem_map, Prod.exists, List.mk_mem_zipIdx_iff_getElem?]
  constructor
  · intro h
    obtain ⟨trace, i, htrace, event, j, hevent, rfl⟩ := h
    exact ⟨trace, htrace, hevent⟩
  · intro h
    obtain ⟨trace, htrace, hevent⟩ := h
    exact ⟨trace, e.trace, htrace, e.event, e.index, hevent, rfl⟩

/-- An entry of an earlier trace, or earlier in its trace. -/
def Entry.Preceding (a b : Entry) : Prop := a.trace < b.trace ∨ a.trace = b.trace ∧ a.index < b.index

theorem zipIdx_pairwise {α : Type} (l : List α) : l.zipIdx.Pairwise fun a b => a.2 < b.2 := by
  have h : (l.zipIdx.map Prod.snd).Pairwise (· < ·) := by
    rw [List.zipIdx_map_snd]
    exact List.pairwise_lt_range'
  exact List.pairwise_map.mp h

theorem entries_pairwise (traces : List AgentLoopTrace) :
    (entries traces).Pairwise Entry.Preceding := by
  unfold entries
  rw [List.pairwise_flatMap]
  constructor
  · intro t _
    rw [List.pairwise_map]
    exact (zipIdx_pairwise t.1.events).imp fun h => .inr ⟨rfl, h⟩
  · refine (zipIdx_pairwise traces).imp ?_
    intro t t' hlt a ha b hb
    obtain ⟨_, -, rfl⟩ := List.mem_map.mp ha
    obtain ⟨_, -, rfl⟩ := List.mem_map.mp hb
    exact .inl hlt

theorem entries_length (traces : List AgentLoopTrace) :
    (entries traces).length = (traces.map (·.events.length)).sum := by
  unfold entries
  rw [List.length_flatMap]
  simp only [List.length_map, List.length_zipIdx]
  rw [show (fun t : AgentLoopTrace × Nat => t.1.events.length) =
    (fun t : AgentLoopTrace => t.events.length) ∘ Prod.fst from rfl, ← List.map_map,
    List.zipIdx_map_fst]

/-! ## Names -/

theorem units_ascii {s : String} (h : ∀ c ∈ s.toList, c.toNat < 0x80) :
    units s = s.toList.map Char.toNat := by
  unfold units
  generalize s.toList = l at h ⊢
  induction l with
  | nil => rfl
  | cons c rest ih =>
    obtain ⟨hc, hrest⟩ := List.forall_mem_cons.mp h
    have hunit : JsonText.utf16 c.toNat = [c.toNat] := by
      unfold JsonText.utf16
      rw [if_pos (by omega)]
    rw [List.flatMap_cons, hunit, ih hrest]
    rfl

theorem units_toString (n : Nat) : units (toString n) = (toString n).toList.map Char.toNat := by
  refine units_ascii fun c hc => ?_
  have := (Decimal.digit_value (Decimal.isDigit_toString hc)).2
  have hzero : '0'.toNat = 48 := rfl
  omega

theorem namespaced_eq (i : Nat) (text : Text) :
    namespaced i text = (toString (i + 1)).toList.map Char.toNat ++ 0x3A :: text := by
  unfold namespaced
  rw [units_toString, show units ":" = [0x3A] by decide, List.append_assoc]
  rfl

theorem namespaced_length (i : Nat) (text : Text) :
    (namespaced i text).length = (toString (i + 1)).length + 1 + text.length := by
  rw [namespaced_eq, List.length_append, List.length_map, List.length_cons, String.length_toList]
  omega

theorem digits_takeWhile (i : Nat) (text : Text) :
    ((toString (i + 1)).toList.map Char.toNat ++ 0x3A :: text).takeWhile (· ≠ 0x3A) =
      (toString (i + 1)).toList.map Char.toNat := by
  have hdigits : ∀ c ∈ (toString (i + 1)).toList.map Char.toNat, decide (c ≠ 0x3A) = true := by
    intro c hc
    obtain ⟨d, hd, rfl⟩ := List.mem_map.mp hc
    have := (Decimal.digit_value (Decimal.isDigit_toString hd)).2
    have hzero : '0'.toNat = 48 := rfl
    simp only [decide_eq_true_eq]
    omega
  rw [List.takeWhile_append_of_pos hdigits]
  simp

/-- The name of a trace's text tells the trace and the text. -/
theorem namespaced_inj {i j : Nat} {a b : Text} (h : namespaced i a = namespaced j b) :
    i = j ∧ a = b := by
  rw [namespaced_eq, namespaced_eq] at h
  have hdigits := congrArg (List.takeWhile (· ≠ 0x3A)) h
  rw [digits_takeWhile, digits_takeWhile] at hdigits
  have hchars := List.map_injective_iff.mpr (fun _ _ => Char.toNat_inj.mp) hdigits
  have hij := Nat.succ.inj (Decimal.toString_injective (String.toList_injective hchars))
  subst hij
  exact ⟨rfl, List.tail_eq_of_cons_eq (List.append_cancel_left h)⟩

theorem namespaced_valid {i : Nat} {text : Text} :
    ValidText (namespaced i text) ↔ (toString (i + 1)).length + 1 + text.length ≤ 240 := by
  rw [← namespaced_length]
  constructor
  · exact ValidText.length
  · intro h
    refine .of_mem (c := 0x3A) ?_ (by decide) h
    rw [namespaced_eq]
    simp

/-! ## The merged trace -/

section
variable {parseDate : Text → Option Int} {isoString : Int → Text} {cleaned : Text → Text}
  {round : ℚ → Number} {options : MergeOptions} {traces : List AgentLoopTrace}

theorem offset_weakOrder : StableSort.WeakOrder
    fun a b : AgentLoopEvent => a.offsetMs.lt b.offsetMs where
  trans _ _ _ := Number.not_lt_trans
  total _ _ := Number.not_lt_total _ _

theorem time_weakOrder : StableSort.WeakOrder fun a b : Entry =>
    (a.time parseDate round options traces).lt (b.time parseDate round options traces) where
  trans _ _ _ := Number.not_lt_trans
  total _ _ := Number.not_lt_total _ _

variable (parseDate round options traces) in
/-- The entries as the merged trace has them. -/
def ordered : List Entry :=
  StableSort.stableSort (fun a b => (a.time parseDate round options traces).lt
    (b.time parseDate round options traces)) (entries traces)

theorem ordered_perm : (ordered parseDate round options traces).Perm (entries traces) :=
  StableSort.stableSort_perm _ _

theorem ordered_pairwise : (ordered parseDate round options traces).Pairwise
    fun a b => a.Before parseDate round options traces b := by
  refine (StableSort.stableSort_pairwise time_weakOrder (entries_pairwise traces)).imp ?_
  intro a b h
  rcases h with hlt | ⟨hab, hba, hplace⟩
  · exact .inl hlt
  · exact .inr ⟨Number.eq_of_not_lt hba hab, hplace⟩

theorem orderedEvents_merged : orderedEvents (mergedEvents parseDate round options traces) =
    (ordered parseDate round options traces).map
      fun e => e.merged parseDate round options traces :=
  StableSort.stableSort_map _ _

/-- In valid traces an entry is known by its trace and its identifier. -/
theorem entry_eq (hvalid : ∀ t ∈ traces, ValidTrace parseDate round t) {a b : Entry}
    (ha : a ∈ entries traces) (hb : b ∈ entries traces) (htrace : a.trace = b.trace)
    (hid : a.event.id = b.event.id) : a = b := by
  obtain ⟨t, ht, hea⟩ := mem_entries.mp ha
  obtain ⟨t', ht', heb⟩ := mem_entries.mp hb
  rw [htrace, ht'] at ht
  cases ht
  have hnodup := (hvalid t (List.mem_of_getElem? ht')).events.distinct
  have hindex : a.index = b.index := by
    have hgeta : (t.events.map AgentLoopEvent.id)[a.index]? = some a.event.id := by
      rw [List.getElem?_map, hea]
      rfl
    have hgetb : (t.events.map AgentLoopEvent.id)[b.index]? = some a.event.id := by
      rw [List.getElem?_map, heb, hid]
      rfl
    obtain ⟨hi, hgeta⟩ := List.getElem?_eq_some_iff.mp hgeta
    obtain ⟨hj, hgetb⟩ := List.getElem?_eq_some_iff.mp hgetb
    exact (List.Nodup.getElem_inj_iff hnodup).mp (hgeta.trans hgetb.symm)
  rw [hindex, heb] at hea
  obtain ⟨_, _, _⟩ := a
  obtain ⟨_, _, _⟩ := b
  cases hea
  cases htrace
  cases hindex
  rfl

theorem entry_valid (hvalid : ∀ t ∈ traces, ValidTrace parseDate round t) {e : Entry}
    (he : e ∈ entries traces) : ValidEvent e.event := by
  obtain ⟨t, ht, hevent⟩ := mem_entries.mp he
  exact (hvalid t (List.mem_of_getElem? ht)).events.each _ (List.mem_of_getElem? hevent)

theorem merged_ids_nodup (hvalid : ∀ t ∈ traces, ValidTrace parseDate round t) :
    ((ordered parseDate round options traces).map fun e =>
      (e.merged parseDate round options traces).id).Nodup := by
  have hnodup : (entries traces).Nodup := by
    refine (entries_pairwise traces).imp ?_
    intro a b hab heq
    subst heq
    rcases hab with hlt | ⟨-, hlt⟩
    · exact Nat.lt_irrefl _ hlt
    · exact Nat.lt_irrefl _ hlt
  refine List.Nodup.map_on ?_ (ordered_perm.nodup_iff.mpr hnodup)
  intro a ha b hb heq
  obtain ⟨htrace, hid⟩ := namespaced_inj heq
  exact entry_eq hvalid (ordered_perm.mem_iff.mp ha) (ordered_perm.mem_iff.mp hb) htrace hid

theorem generic_valid : isAgentLoopSource (units "generic") = true := by decide

theorem fallback_valid : ValidText (dashed false (units "generic") ++ units "-agent-loop") := by
  constructor
  · decide
  · decide

variable (parseDate isoString cleaned round options traces) in
/-- What a merge returns, if the validator accepts it. -/
def mergedTrace : AgentLoopTrace where
  schemaVersion := agentLoopSchemaVersion
  id := safeIdentifier cleaned (some (options.id.getD (units "merged-agent-loop")))
    (dashed false (units "generic") ++ units "-agent-loop")
  title := cleanText cleaned (mergedTitle options)
  source := units "generic"
  startedAt := (origin parseDate options traces).map isoString
  durationMs := totalDuration round (orderedEvents (mergedEvents parseDate round options traces))
  events := orderedEvents (mergedEvents parseDate round options traces)
  warnings := (mergedWarnings parseDate options traces).map (cleanText cleaned)

theorem forM_ok {α : Type} {f : α → Except Text Unit} {l : List α} :
    l.forM f = .ok () ↔ ∀ a ∈ l, f a = .ok () := by
  induction l with
  | nil => simp [pure, Except.pure]
  | cons a l ih =>
    show (f a >>= fun _ => l.forM f) = .ok () ↔ _
    rw [Checked.bind_unit_ok, List.forall_mem_cons]
    exact and_congr_right fun _ => ih

/-- A merge of valid traces that have few enough events. -/
theorem merge_ok {maxEvents : Nat} (hne : traces ≠ [])
    (hvalid : ∀ t ∈ traces, validateAgentLoopTrace parseDate round t = .ok ())
    (hmax : resolveMaxEvents options.maxEvents = .ok maxEvents)
    (hevents : (traces.map (·.events.length)).sum ≤ maxEvents) {merged : AgentLoopTrace} :
    mergeAgentLoopTraces parseDate isoString cleaned round options traces = .ok merged ↔
      merged = mergedTrace parseDate isoString cleaned round options traces ∧
        ValidTrace parseDate round merged := by
  have hfew : (mergedEvents parseDate round options traces).length ≤ maxEvents := by
    rwa [mergedEvents, List.length_map, entries_length]
  have hbuild : buildTrace cleaned round (units "generic")
      (mergedEvents parseDate round options traces) (mergedWarnings parseDate options traces)
      (mergedOptions options) ((origin parseDate options traces).map isoString) =
        .ok (mergedTrace parseDate isoString cleaned round options traces) :=
    buildTrace_ok generic_valid hmax hfew
  unfold mergeAgentLoopTraces
  rw [if_neg hne, Checked.bind_unit_ok, hbuild]
  constructor
  · intro h
    obtain ⟨-, h⟩ := h
    obtain ⟨_, hbuilt, h⟩ := Checked.bind_ok.mp h
    cases hbuilt
    obtain ⟨hok, h⟩ := Checked.bind_unit_ok.mp h
    cases h
    exact ⟨rfl, validateAgentLoopTrace_ok.mp hok⟩
  · intro h
    obtain ⟨rfl, h⟩ := h
    refine ⟨forM_ok.mpr hvalid, Checked.bind_ok.mpr ⟨_, rfl, ?_⟩⟩
    exact Checked.bind_unit_ok.mpr ⟨validateAgentLoopTrace_ok.mpr h, rfl⟩

/-! ## When the validator accepts it -/

theorem mem_orderedEvents {event : AgentLoopEvent} :
    event ∈ orderedEvents (mergedEvents parseDate round options traces) ↔
      ∃ e ∈ entries traces, e.merged parseDate round options traces = event := by
  rw [orderedEvents, StableSort.mem_stableSort, mergedEvents, List.mem_map]

/-- An event that is moved is valid where its names and its time are. -/
theorem merged_valid {e : Entry} (h : ValidEvent e.event) :
    ValidEvent (e.merged parseDate round options traces) ↔
      ValidText (namespaced e.trace e.event.id) ∧
        (∀ c ∈ e.event.correlationId, ValidText (namespaced e.trace c)) ∧
          Duration (e.time parseDate round options traces) := by
  constructor
  · intro hmerged
    refine ⟨hmerged.id, ?_, hmerged.offset⟩
    intro c hc
    exact hmerged.correlation _ (Option.mem_map_of_mem _ hc)
  · intro hnew
    obtain ⟨hid, hcorrelation, htime⟩ := hnew
    refine ⟨hid, h.name, htime, h.duration, ?_, h.summary, h.details⟩
    intro c hc
    obtain ⟨c', hc', rfl⟩ := Option.mem_map.mp hc
    exact hcorrelation c' hc'

theorem origin_parsed {first : Int} (h : origin parseDate options traces = some first) :
    ∃ text, parseDate text = some first := by
  unfold origin at h
  split at h
  · have hmem := List.min?_mem h
    obtain ⟨trace, -, hstart⟩ := List.mem_map.mp (List.reduceOption_mem_iff.mp hmem)
    obtain ⟨text, -, hparse⟩ := Option.bind_eq_some_iff.mp hstart
    exact ⟨text, hparse⟩
  · cases h

theorem mergedWarnings_length : (mergedWarnings parseDate options traces).length ≤
    (traces.map (·.warnings.length)).sum + 1 := by
  unfold mergedWarnings
  rw [List.length_append, List.length_flatMap]
  simp only [List.length_map]
  split
  · simp
  · simp

theorem before_not_lt {a b : Entry} (h : a.Before parseDate round options traces b) :
    (b.time parseDate round options traces).lt (a.time parseDate round options traces) = false := by
  rcases h with hlt | ⟨heq, -⟩
  · exact time_weakOrder.asymm hlt
  · rw [heq]
    exact Number.lt_irrefl _

theorem mergedEvents_valid (hvalid : ∀ t ∈ traces, ValidTrace parseDate round t) :
    ValidEvents round (mergedTrace parseDate isoString cleaned round options traces).durationMs
        (mergedTrace parseDate isoString cleaned round options traces).events ↔
      ∀ e ∈ entries traces, ValidEvent (e.merged parseDate round options traces) := by
  constructor
  · intro h e he
    exact h.each _ (mem_orderedEvents.mpr ⟨e, he, rfl⟩)
  · intro h
    have hevents : (mergedTrace parseDate isoString cleaned round options traces).events =
        (ordered parseDate round options traces).map
          fun e => e.merged parseDate round options traces := orderedEvents_merged
    refine ⟨?_, ?_, ?_, fun e he => totalDuration_ge he⟩
    · intro event hevent
      obtain ⟨e, he, rfl⟩ := mem_orderedEvents.mp hevent
      exact h e he
    · rw [hevents, List.map_map]
      exact merged_ids_nodup hvalid
    · rw [hevents, List.pairwise_map]
      exact ordered_pairwise.imp before_not_lt

theorem mergedTrace_valid (hvalid : ∀ t ∈ traces, ValidTrace parseDate round t)
    (hiso : ∀ text time, parseDate text = some time → (parseDate (isoString time)).isSome = true)
    (hwarnings : (traces.map (·.warnings.length)).sum < 100) :
    ValidTrace parseDate round (mergedTrace parseDate isoString cleaned round options traces) ↔
      MergeFits parseDate cleaned round options traces := by
  constructor
  · intro h
    have heach : ∀ e ∈ entries traces, _ := fun e he =>
      (merged_valid (entry_valid hvalid he)).mp ((mergedEvents_valid hvalid).mp h.events e he)
    refine ⟨?_, ?_, ?_, ?_, h.title.shows, ?_⟩
    · intro e he
      exact namespaced_valid.mp (heach e he).1
    · intro e he c hc
      exact namespaced_valid.mp ((heach e he).2.1 c hc)
    · intro e he
      exact (heach e he).2.2
    · intro e he
      exact totalDuration_iff.mp h.duration _ (mem_orderedEvents.mpr ⟨e, he, rfl⟩)
    · intro w hw
      exact (h.warnings _ (List.mem_map_of_mem hw)).shows
  · intro h
    refine ⟨rfl, ?_, ⟨h.title, cleanText_length _⟩, generic_valid, ?_, ?_, ?_, ?_, ?_⟩
    · simp only [mergedTrace]
      exact safeIdentifier_valid fallback_valid
    · refine totalDuration_iff.mpr fun event hevent => ?_
      obtain ⟨e, he, rfl⟩ := mem_orderedEvents.mp hevent
      exact h.ends e he
    · intro text htext
      obtain ⟨first, hfirst, rfl⟩ := Option.mem_map.mp htext
      obtain ⟨source, hparse⟩ := origin_parsed hfirst
      exact hiso source first hparse
    · have hlength : (mergedWarnings parseDate options traces).length ≤ _ := mergedWarnings_length
      show ((mergedWarnings parseDate options traces).map _).length ≤ 100
      rw [List.length_map]
      omega
    · intro w hw
      obtain ⟨w', hw', rfl⟩ := List.mem_map.mp hw
      exact ⟨h.warnings w' hw', cleanText_length _⟩
    · refine (mergedEvents_valid hvalid).mpr fun e he => ?_
      refine (merged_valid (entry_valid hvalid he)).mpr ⟨?_, ?_, h.times e he⟩
      · exact namespaced_valid.mpr (h.ids e he)
      · intro c hc
        exact namespaced_valid.mpr (h.correlations e he c hc)

/-! ## What it keeps -/

theorem merged_correlations (a b : Entry) :
    (a.merged parseDate round options traces).correlationId =
        (b.merged parseDate round options traces).correlationId ↔
      a.event.correlationId = b.event.correlationId ∧
        (a.trace = b.trace ∨ a.event.correlationId = none) := by
  show a.event.correlationId.map (namespaced a.trace) =
    b.event.correlationId.map (namespaced b.trace) ↔ _
  cases a.event.correlationId with
  | none => cases b.event.correlationId <;> simp
  | some c =>
    cases b.event.correlationId with
    | none => simp
    | some c' =>
      constructor
      · intro h
        obtain ⟨htrace, rfl⟩ := namespaced_inj (Option.some.inj h)
        exact ⟨rfl, .inl htrace⟩
      · intro h
        obtain ⟨hc, htrace | hnone⟩ := h
        · cases hc
          rw [htrace]
        · cases hnone

theorem lossless_iff : Lossless parseDate round options traces
    (mergedTrace parseDate isoString cleaned round options traces) ↔
      RoundsAlike parseDate round options traces := by
  constructor
  · intro h halign a ha b hb
    have := h.differences halign a ha b hb
    linarith
  · intro h
    refine ⟨⟨ordered parseDate round options traces, ordered_perm, orderedEvents_merged,
      ordered_pairwise⟩, ?_, fun a _ b _ => merged_correlations a b, ?_⟩
    · intro a _ b _ hid
      exact namespaced_inj hid
    · intro halign a ha b hb
      have := h halign a ha b hb
      linarith

end

/-! ## Two traces a second apart, and a name at its limit -/

namespace Sample

def clock (text : Text) : Option Int :=
  if text = units "2026-01-01T00:00:00.000Z" then some 1767225600000
  else if text = units "2026-01-01T00:00:01.000Z" then some 1767225601000
  else none

def clockText (time : Int) : Text :=
  if time = 1767225601000 then units "2026-01-01T00:00:01.000Z"
  else units "2026-01-01T00:00:00.000Z"

def noOptions : MergeOptions := ⟨⟨none, none, none⟩, none⟩

def event (id : Text) (offsetMs : Number) : AgentLoopEvent where
  id := id
  offsetMs := offsetMs
  lane := .tool
  phase := .instant
  name := units "tool.event"
  status := .passed
  durationMs := none
  correlationId := none
  summary := none
  details := none

def trace (startedAt : String) (id : Text) (offsetMs : Number) : AgentLoopTrace where
  schemaVersion := agentLoopSchemaVersion
  id := units "sample"
  title := units "sample"
  source := units "generic"
  startedAt := some (units startedAt)
  durationMs := offsetMs
  events := [event id offsetMs]
  warnings := []

def apart : List AgentLoopTrace :=
  [trace "2026-01-01T00:00:00.000Z" (units "same") (.finite 20),
    trace "2026-01-01T00:00:01.000Z" (units "same") (.finite 10)]

/-- One trace whose event has a name of 240 units. -/
def atLimit : List AgentLoopTrace :=
  [trace "2026-01-01T00:00:00.000Z" (List.replicate 240 0x61) (.finite 20)]

end Sample

end SurfaceLoom.AgentLoop
