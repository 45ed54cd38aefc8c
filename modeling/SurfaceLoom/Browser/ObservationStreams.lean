import SurfaceLoom.Browser.SessionObservations

/-! # What a session's observation streams keep

The listeners are on the page exactly while a subscription is open, every open buffer holds what
was dispatched since it was opened, and a request object keeps its number. -/
namespace SurfaceLoom.Browser
open SurfaceLoom.Lib

/-! ## Request numbers -/

def Value.identity : Value → Option Nat
  | .object identity _ _ => some identity
  | _ => none

/-- The request object whose events a listener of that kind reports. -/
def requestObject (kind : BrowserObservationKind) (payload : Value) : Option Nat :=
  match kind with
  | .requestStarted | .requestFinished | .requestFailed => payload.identity
  | .response => (callMethod payload "request").bind Value.identity
  | .consoleMessage | .pageError => none

/-- The request object an observation comes from. What marks a failed normalization is a page
error and comes from none. -/
def comesFrom (entry : PageEvent × BrowserObservation) : Option Nat :=
  requestObject entry.2.kind entry.1.payload

namespace RequestIds

/-- Every number was given once, and the next one to no object. -/
structure Sound (ids : RequestIds) : Prop where
  below : ∀ identity n, ids.known.get? identity = some n → n < ids.next
  injective : ∀ identity identity' n, ids.known.get? identity = some n →
    ids.known.get? identity' = some n → identity = identity'

def Extends (ids ids' : RequestIds) : Prop :=
  ∀ identity n, ids.known.get? identity = some n → ids'.known.get? identity = some n

/-- An observation of a request object carries its number, any other none. -/
def Tagged (ids : RequestIds) (source requestId : Option Nat) : Prop :=
  match source with
  | none => requestId = none
  | some identity => ∃ n, requestId = some n ∧ ids.known.get? identity = some n

theorem Extends.refl (ids : RequestIds) : ids.Extends ids := fun _ _ h => h

theorem Tagged.mono {ids ids' : RequestIds} {source requestId : Option Nat}
    (h : ids.Tagged source requestId) (hext : ids.Extends ids') : ids'.Tagged source requestId := by
  cases source with
  | none => exact h
  | some identity =>
    obtain ⟨n, hn, hknown⟩ := h
    exact ⟨n, hn, hext _ _ hknown⟩

end RequestIds

/-- What reading an event does to the numbers. -/
structure Identifies (ids ids' : RequestIds) : Prop where
  sound : ids'.Sound
  grows : ids.Extends ids'

theorem Identifies.same {ids : RequestIds} (h : ids.Sound) : Identifies ids ids := ⟨h, .refl _⟩

theorem identifyRequest_spec {ids : RequestIds} (h : ids.Sound) (payload : Value) :
    Identifies ids (identifyRequest ids payload).1 ∧
      (identifyRequest ids payload).1.Tagged payload.identity (identifyRequest ids payload).2 := by
  cases payload with
  | object identity isError members =>
    rw [identifyRequest]
    cases hknown : ids.known.get? identity with
    | some n => exact ⟨.same h, n, rfl, hknown⟩
    | none =>
      refine ⟨⟨⟨?_, ?_⟩, ?_⟩, ids.next, rfl, by simp⟩
      · intro identity' n hn
        simp only [OrderedMap.get?_set] at hn
        split at hn
        · cases hn
          exact Nat.lt_succ_self _
        · exact Nat.lt_succ_of_lt (h.below _ _ hn)
      · intro a b n ha hb
        simp only [OrderedMap.get?_set] at ha hb
        split at ha <;> split at hb
        · rename_i ha' hb'
          rw [ha', hb']
        · cases ha
          exact absurd (h.below _ _ hb) (Nat.lt_irrefl _)
        · cases hb
          exact absurd (h.below _ _ ha) (Nat.lt_irrefl _)
        · exact h.injective _ _ _ ha hb
      · intro identity' n hn
        simp only [OrderedMap.get?_set]
        split
        · rename_i hsame
          rw [hsame, hknown] at hn
          cases hn
        · exact hn
  | undefined | string | number | function => exact ⟨.same h, rfl⟩

theorem request_spec {ids : RequestIds} (h : ids.Sound) (payload : Value) :
    Identifies ids (request ids payload).1 ∧ ∀ fields, (request ids payload).2 = some fields →
      (request ids payload).1.Tagged payload.identity fields.requestId := by
  obtain ⟨hidentifies, htagged⟩ := identifyRequest_spec h payload
  refine ⟨hidentifies, fun fields hfields => ?_⟩
  simp only [request, Option.bind_eq_bind, Option.bind_eq_some_iff, Option.pure_def,
    Option.some.injEq] at hfields
  obtain ⟨url, -, method, -, rfl⟩ := hfields
  exact htagged

theorem readFields_spec {ids : RequestIds} (h : ids.Sound) (kind : BrowserObservationKind)
    (payload : Value) : Identifies ids (readFields kind ids payload).1 ∧
      ∀ fields, (readFields kind ids payload).2 = some fields →
        (readFields kind ids payload).1.Tagged (requestObject kind payload) fields.requestId := by
  cases kind with
  | consoleMessage =>
    refine ⟨.same h, fun fields hfields => ?_⟩
    simp only [readFields, Option.bind_eq_bind, Option.bind_eq_some_iff, Option.pure_def,
      Option.some.injEq] at hfields
    obtain ⟨level, -, text, -, rfl⟩ := hfields
    rfl
  | pageError =>
    refine ⟨.same h, fun fields hfields => ?_⟩
    obtain ⟨text, -, rfl⟩ := Option.map_eq_some_iff.mp hfields
    rfl
  | requestStarted | requestFinished => exact request_spec h payload
  | requestFailed =>
    obtain ⟨hidentifies, htagged⟩ := request_spec h payload
    refine ⟨hidentifies, fun fields hfields => ?_⟩
    simp only [readFields, Option.bind_eq_bind, Option.bind_eq_some_iff, Option.pure_def,
      Option.some.injEq] at hfields
    obtain ⟨requested, hrequested, failure, -, text, -, rfl⟩ := hfields
    exact htagged requested hrequested
  | response =>
    rw [readFields]
    cases horigin : callMethod payload "request" with
    | none => exact ⟨.same h, nofun⟩
    | some origin =>
      obtain ⟨hidentifies, htagged⟩ := identifyRequest_spec h origin
      refine ⟨hidentifies, fun fields hfields => ?_⟩
      simp only [Option.bind_eq_bind, Option.bind_eq_some_iff, Option.pure_def,
        Option.some.injEq] at hfields
      obtain ⟨url, -, method, -, status, -, rfl⟩ := hfields
      rw [requestObject, horigin]
      exact htagged

theorem normalize_spec {ids : RequestIds} (h : ids.Sound) (kind : BrowserObservationKind)
    (e : PageEvent) : Identifies ids (normalize kind ids e).1 ∧
      (normalize kind ids e).1.Tagged (comesFrom (e, (normalize kind ids e).2))
        (normalize kind ids e).2.requestId := by
  obtain ⟨hidentifies, htagged⟩ := readFields_spec h kind e.payload
  rw [normalize]
  generalize readFields kind ids e.payload = result at hidentifies htagged
  obtain ⟨ids', fields⟩ := result
  cases fields with
  | none => exact ⟨hidentifies, rfl⟩
  | some fields => exact ⟨hidentifies, htagged fields rfl⟩

/-! ## Listeners -/

theorem foldl_erase_self {α : Type} [DecidableEq α] : ∀ l : List α, l.foldl List.erase l = []
  | [] => rfl
  | a :: l => by
    rw [List.foldl_cons, List.erase_cons_head]
    exact foldl_erase_self l

namespace SessionObservations

/-- One set of listeners is on the page. -/
def Bound (s : SessionObservations) : Prop :=
  ∃ n, s.bindings = some (observationBindings n) ∧ s.page = observationBindings n

def Free (s : SessionObservations) : Prop := s.bindings = none ∧ s.page = []

structure Coherent (s : SessionObservations) : Prop where
  free : s.subscriptions = [] → s.Free
  bound : s.subscriptions ≠ [] → s.Bound
  nodup : s.subscriptions.Nodup
  /-- Open is who has no snapshot yet. -/
  opened : ∀ handle, handle ∈ s.subscriptions ↔
    ∃ subscription, s.handles[handle]? = some subscription ∧ subscription.snapshot = none

@[simp] theorem detach_handles (s : SessionObservations) :
    s.detachWhenUnobserved.handles = s.handles := by
  unfold detachWhenUnobserved
  split
  · rfl
  · split <;> rfl

@[simp] theorem detach_subscriptions (s : SessionObservations) :
    s.detachWhenUnobserved.subscriptions = s.subscriptions := by
  unfold detachWhenUnobserved
  split
  · rfl
  · split <;> rfl

@[simp] theorem detach_requestIds (s : SessionObservations) :
    s.detachWhenUnobserved.requestIds = s.requestIds := by
  unfold detachWhenUnobserved
  split
  · rfl
  · split <;> rfl

theorem Bound.detach {s : SessionObservations} (h : s.Bound) (hopen : s.subscriptions ≠ []) :
    s.detachWhenUnobserved.Bound := by
  obtain ⟨n, hbindings, hpage⟩ := h
  have hpos : s.subscriptions.length > 0 := List.length_pos_iff.mpr hopen
  simp only [detachWhenUnobserved, hbindings, hpos, if_true]
  exact ⟨n, hbindings, hpage⟩

theorem Bound.release {s : SessionObservations} (h : s.Bound) (hclosed : s.subscriptions = []) :
    s.detachWhenUnobserved.Free := by
  obtain ⟨n, hbindings, hpage⟩ := h
  simp [detachWhenUnobserved, hbindings, hclosed, hpage, Free, foldl_erase_self]

theorem Free.detach {s : SessionObservations} (h : s.Free) : s.detachWhenUnobserved = s := by
  rw [detachWhenUnobserved, h.1]

theorem register_spec : ∀ (failing : Option Nat) (entries page attached : List Binding),
    ((register failing entries page attached).2.2 = true →
      (register failing entries page attached).1 = page ++ entries) ∧
    ∃ taken, (register failing entries page attached).1 = page ++ taken ∧
      (register failing entries page attached).2.1 = attached ++ taken
  | _, [], page, attached => by
    cases ‹Option Nat› <;> exact ⟨fun _ => by simp [register], [], by simp [register]⟩
  | some 0, _ :: _, page, attached => ⟨nofun, [], by simp [register]⟩
  | some (n + 1), entry :: rest, page, attached => by
    obtain ⟨hall, taken, hpage, hattached⟩ :=
      register_spec (some n) rest (page ++ [entry]) (attached ++ [entry])
    rw [register]
    exact ⟨fun h => by simp [hall h], entry :: taken, by simp [hpage], by simp [hattached]⟩
  | none, entry :: rest, page, attached => by
    obtain ⟨hall, taken, hpage, hattached⟩ :=
      register_spec none rest (page ++ [entry]) (attached ++ [entry])
    rw [register]
    exact ⟨fun h => by simp [hall h], entry :: taken, by simp [hpage], by simp [hattached]⟩

theorem Bound.attach {s : SessionObservations} (h : s.Bound) (failing : Option Nat) :
    s.attachObservers failing = (s, true) := by
  obtain ⟨n, hbindings, -⟩ := h
  rw [attachObservers, hbindings]

/-- Either all six listeners are on the page or none is. -/
theorem Free.attach {s : SessionObservations} (h : s.Free) (failing : Option Nat) :
    ((s.attachObservers failing).2 = true → (s.attachObservers failing).1.Bound) ∧
      ((s.attachObservers failing).2 = false → (s.attachObservers failing).1.Free) := by
  obtain ⟨hall, taken, hpage, hattached⟩ :=
    register_spec failing (observationBindings s.attachments) s.page []
  simp only [attachObservers, h.1]
  split
  · rename_i page attached hregister
    rw [hregister] at hall
    refine ⟨fun _ => ⟨s.attachments, rfl, ?_⟩, nofun⟩
    have hfull := hall rfl
    rwa [h.2] at hfull
  · rename_i page attached hregister
    rw [hregister, h.2] at hpage
    rw [hregister] at hattached
    refine ⟨nofun, fun _ => ⟨rfl, ?_⟩⟩
    simp only [List.nil_append] at hpage hattached
    simp only [hpage, hattached, foldl_erase_self]

theorem attach_same (s : SessionObservations) (failing : Option Nat) :
    (s.attachObservers failing).1.handles = s.handles ∧
      (s.attachObservers failing).1.subscriptions = s.subscriptions ∧
      (s.attachObservers failing).1.requestIds = s.requestIds := by
  unfold attachObservers
  split
  · exact ⟨rfl, rfl, rfl⟩
  · simp only
    split <;> exact ⟨rfl, rfl, rfl⟩

theorem Coherent.lt {s : SessionObservations} (h : s.Coherent) {handle : Nat}
    (hopen : handle ∈ s.subscriptions) : handle < s.handles.length := by
  obtain ⟨subscription, hget, -⟩ := (h.opened handle).mp hopen
  exact (List.getElem?_eq_some_iff.mp hget).1

/-- An `observe` that threw leaves the streams as they were. -/
structure Unobserved (s t : SessionObservations) : Prop where
  coherent : t.Coherent
  handles : t.handles = s.handles
  subscriptions : t.subscriptions = s.subscriptions
  requestIds : t.requestIds = s.requestIds

/-- An `observe` that returned a handle. -/
structure Observed (s t : SessionObservations) (limit : Nat) : Prop where
  coherent : t.Coherent
  handles : t.handles = s.handles ++ [⟨.empty limit, none⟩]
  requestIds : t.requestIds = s.requestIds

theorem Coherent.observe {s : SessionObservations} (h : s.Coherent) (limit : Option ℚ)
    (failing : Option Nat) :
    (∃ error, (s.observe limit failing).2 = .error error ∧
      Unobserved s (s.observe limit failing).1) ∨
    ∃ n, observationLimit limit = .ok n ∧ (s.observe limit failing).2 = .ok s.handles.length ∧
      Observed s (s.observe limit failing).1 n := by
  rw [SessionObservations.observe]
  cases hlimit : observationLimit limit with
  | error error => exact .inl ⟨_, rfl, h, rfl, rfl, rfl⟩
  | ok n =>
    simp only
    generalize hs : ({ s with
      handles := s.handles ++ [⟨.empty n, none⟩]
      subscriptions := s.subscriptions ++ [s.handles.length] } : SessionObservations) = subscribed
    have hfresh : s.handles.length ∉ s.subscriptions := fun hin => Nat.lt_irrefl _ (h.lt hin)
    have hcases : s.subscriptions = [] ∧ subscribed.Free ∨ subscribed.Bound := by
      by_cases hnone : s.subscriptions = []
      · exact .inl ⟨hnone, hs ▸ h.free hnone⟩
      · exact .inr (hs ▸ h.bound hnone)
    obtain ⟨hhandles, hsubscriptions, hids⟩ := attach_same subscribed failing
    cases hattach : subscribed.attachObservers failing with
    | mk s' attached =>
      rw [hattach] at hhandles hsubscriptions hids
      simp only [← hs] at hhandles hsubscriptions hids
      cases attached with
      | true =>
        have hbound : s'.Bound := by
          rcases hcases with ⟨-, hfree⟩ | hbound
          · have hboth := (hfree.attach failing).1
            rw [hattach] at hboth
            exact hboth rfl
          · rw [hbound.attach failing] at hattach
            obtain ⟨rfl, -⟩ := Prod.mk.inj hattach
            exact hbound
        refine .inr ⟨n, rfl, rfl, ⟨?_, fun _ => hbound, ?_, ?_⟩, hhandles, hids⟩
        · simp [hsubscriptions]
        · rw [hsubscriptions, List.nodup_append]
          refine ⟨h.nodup, List.nodup_singleton _, ?_⟩
          intro a ha b hb heq
          rw [List.mem_singleton.mp hb] at heq
          exact hfresh (heq ▸ ha)
        · intro handle
          rw [hsubscriptions, hhandles, List.mem_append, List.mem_singleton]
          by_cases hlast : handle = s.handles.length
          · simp [hlast]
          · rw [or_iff_left hlast, h.opened]
            by_cases hlt : handle < s.handles.length
            · rw [List.getElem?_append_left hlt]
            · have hnone : s.handles[handle]? = none := List.getElem?_eq_none (by omega)
              have hnone' : (s.handles ++ [(⟨.empty n, none⟩ : Subscription)])[handle]? = none :=
                List.getElem?_eq_none (by simp; omega)
              rw [hnone, hnone']
      | false =>
        have hfree : s.subscriptions = [] ∧ s'.Free := by
          rcases hcases with ⟨hnone, hfree⟩ | hbound
          · have hboth := (hfree.attach failing).2
            rw [hattach] at hboth
            exact ⟨hnone, hboth rfl⟩
          · rw [hbound.attach failing] at hattach
            cases (Prod.mk.inj hattach).2
        have herase : s'.subscriptions.erase s.handles.length = s.subscriptions := by
          simp [hsubscriptions, hfree.1]
        have hreleased : Free { s' with
            handles := s.handles
            subscriptions := s'.subscriptions.erase s.handles.length } := hfree.2
        refine .inl ⟨_, rfl, ?_⟩
        simp only [hreleased.detach]
        refine ⟨⟨fun _ => hfree.2, fun hopen => ?_, ?_, ?_⟩, rfl, herase, hids⟩
        · exact absurd (herase.trans hfree.1) hopen
        · simp only [herase]
          exact h.nodup
        · simp only [herase]
          exact h.opened

/-! ## Stopping -/

/-- The handle is still open, and its buffer is this one. -/
def Open (s : SessionObservations) (handle : Nat)
    (buffer : ObservationBuffer BrowserObservation) : Prop :=
  s.handles[handle]? = some ⟨buffer, none⟩

/-- The handle was stopped with this batch. -/
def Sealed (s : SessionObservations) (handle : Nat) (batch : BrowserObservationBatch) : Prop :=
  ∃ buffer, s.handles[handle]? = some ⟨buffer, some batch⟩

theorem Sealed.stop {s : SessionObservations} {handle : Nat} {batch : BrowserObservationBatch}
    (h : s.Sealed handle batch) : s.stop handle = (s, some batch) := by
  obtain ⟨buffer, hget⟩ := h
  simp [SessionObservations.stop, hget]

theorem Open.stop {s : SessionObservations} {handle : Nat}
    {buffer : ObservationBuffer BrowserObservation} (h : s.Open handle buffer) :
    (s.stop handle).2 = some ⟨buffer.drain, buffer.dropped⟩ ∧
      (s.stop handle).1.Sealed handle ⟨buffer.drain, buffer.dropped⟩ := by
  have hlt := (List.getElem?_eq_some_iff.mp h).1
  rw [SessionObservations.stop, h]
  exact ⟨rfl, buffer, by simp [hlt]⟩

/-- Stopping one handle changes no other. -/
theorem stop_other (s : SessionObservations) {handle handle' : Nat} (hne : handle ≠ handle') :
    (s.stop handle).1.handles[handle']? = s.handles[handle']? := by
  unfold SessionObservations.stop
  split
  · rfl
  · split
    · rfl
    · simp [hne]

theorem stop_requestIds (s : SessionObservations) (handle : Nat) :
    (s.stop handle).1.requestIds = s.requestIds := by
  unfold SessionObservations.stop
  split
  · rfl
  · split <;> simp

theorem Sealed.stop_any {s : SessionObservations} {handle : Nat} {batch : BrowserObservationBatch}
    (h : s.Sealed handle batch) (handle' : Nat) : (s.stop handle').1.Sealed handle batch := by
  by_cases hsame : handle' = handle
  · rw [hsame, h.stop]
    exact h
  · unfold Sealed
    rw [stop_other s hsame]
    exact h

theorem Coherent.stop {s : SessionObservations} (h : s.Coherent) (handle : Nat) :
    (s.stop handle).1.Coherent := by
  unfold SessionObservations.stop
  split
  · exact h
  · rename_i subscription hget
    split
    · exact h
    · rename_i hsnapshot
      have hopen : handle ∈ s.subscriptions := (h.opened handle).mpr ⟨_, hget, hsnapshot⟩
      have hbound := h.bound (List.ne_nil_of_mem hopen)
      have hbound' : Bound { s with subscriptions := s.subscriptions.erase handle } := hbound
      refine ⟨?_, ?_, ?_, ?_⟩
      · intro hnone
        exact hbound'.release (by simpa using hnone)
      · intro hsome
        exact hbound'.detach (by simpa using hsome)
      · simpa using h.nodup.erase handle
      · intro handle'
        simp only [detach_subscriptions, detach_handles, h.nodup.mem_erase_iff, h.opened handle',
          List.getElem?_set]
        by_cases hsame : handle = handle'
        · have hlt := (List.getElem?_eq_some_iff.mp hget).1
          simp [← hsame, hlt]
        · simp [hsame, Ne.symm hsame]

/-- What holds after every stop holds after all of them. -/
theorem stopAll_rule {P : SessionObservations → Prop}
    (hstop : ∀ s handle, P s → P (s.stop handle).1) {s : SessionObservations} (h : P s) :
    P s.stopAll := by
  unfold SessionObservations.stopAll
  generalize s.subscriptions = handles
  induction handles generalizing s with
  | nil => exact h
  | cons handle rest ih => exact ih (hstop s handle h)

theorem Open.stopAll {s : SessionObservations} (hs : s.Coherent) {handle : Nat}
    {buffer : ObservationBuffer BrowserObservation} (h : s.Open handle buffer) :
    s.stopAll.Sealed handle ⟨buffer.drain, buffer.dropped⟩ := by
  have hopen : handle ∈ s.subscriptions := (hs.opened handle).mpr ⟨_, h, rfl⟩
  unfold SessionObservations.stopAll
  generalize s.subscriptions = handles at hopen
  clear hs
  induction handles generalizing s with
  | nil => cases hopen
  | cons first rest ih =>
    rw [List.foldl_cons]
    by_cases hfirst : first = handle
    · rw [hfirst]
      have hsealed := h.stop.2
      generalize (s.stop handle).1 = t at hsealed
      clear ih hopen
      induction rest generalizing t with
      | nil => exact hsealed
      | cons next rest ih => exact ih _ (hsealed.stop_any next)
    · refine ih (s := (s.stop first).1) ?_ ((List.mem_cons.mp hopen).resolve_left (Ne.symm hfirst))
      unfold Open
      rw [stop_other s hfirst]
      exact h

/-! ## Dispatching -/

theorem foldl_modify {α : Type} (f : α → α) : ∀ (l : List Nat) (xs : List α) (i : Nat), l.Nodup →
    (l.foldl (fun xs j => xs.modify j f) xs)[i]? = if i ∈ l then xs[i]?.map f else xs[i]?
  | [], _, _, _ => by simp
  | j :: l, xs, i, h => by
    obtain ⟨hj, hl⟩ := List.nodup_cons.mp h
    rw [List.foldl_cons, foldl_modify f l _ i hl]
    by_cases hij : i = j
    · simp [hij, hj]
    · have hji : j ≠ i := Ne.symm hij
      simp [hij, hji]

def kindOf (name : String) : Option BrowserObservationKind :=
  (observed.find? fun entry => entry.1 = name).map Prod.snd

/-- One of the six listeners is for an event, or none. -/
theorem filter_observationBindings (n : Nat) (name : String) :
    (observationBindings n).filter (fun binding => binding.event = name) =
      match kindOf name with
      | some kind => [⟨name, kind, n⟩]
      | none => [] := by
  have hnames : (observed.map Prod.fst).Nodup := by decide
  have hfind : ∀ entries : List (String × BrowserObservationKind),
      (entries.map Prod.fst).Nodup →
      (entries.map fun entry => (⟨entry.1, entry.2, n⟩ : Binding)).filter
          (fun binding => binding.event = name) =
        match (entries.find? fun entry => entry.1 = name).map Prod.snd with
        | some kind => [⟨name, kind, n⟩]
        | none => [] := by
    intro entries hnodup
    induction entries with
    | nil => rfl
    | cons entry rest ih =>
      obtain ⟨hfirst, hrest⟩ := List.nodup_cons.mp hnodup
      rw [List.map_cons, List.filter_cons, List.find?_cons]
      by_cases hname : entry.1 = name
      · have hnone : (rest.map fun entry => (⟨entry.1, entry.2, n⟩ : Binding)).filter
            (fun binding => binding.event = name) = [] := by
          rw [List.filter_eq_nil_iff]
          intro binding hbinding hevent
          obtain ⟨other, hother, rfl⟩ := List.mem_map.mp hbinding
          have hsame : other.1 = name := of_decide_eq_true hevent
          exact hfirst (List.mem_map.mpr ⟨other, hother, hsame.trans hname.symm⟩)
        simp [hname, hnone]
      · simp only [hname, decide_false, Bool.false_eq_true, if_false]
        exact ih hrest
  exact hfind observed hnames

/-- What one listener does with an event. -/
def deliver (s : SessionObservations) (kind : BrowserObservationKind) (e : PageEvent) :
    SessionObservations :=
  push { s with requestIds := (normalize kind s.requestIds e).1 } (normalize kind s.requestIds e).2

theorem deliver_get {s : SessionObservations} (h : s.subscriptions.Nodup)
    (kind : BrowserObservationKind) (e : PageEvent) (handle : Nat) :
    (s.deliver kind e).handles[handle]? = if handle ∈ s.subscriptions then
      s.handles[handle]?.map fun subscription => { subscription with
        buffer := subscription.buffer.push (normalize kind s.requestIds e).2 }
    else s.handles[handle]? := foldl_modify _ _ _ _ h

/-- An event makes one observation while a subscription is open. -/
theorem Coherent.emit {s : SessionObservations} (h : s.Coherent) (e : PageEvent) :
    (s.subscriptions = [] ∨ kindOf e.name = none) ∧ s.emit e = (s, []) ∨
      ∃ kind, kindOf e.name = some kind ∧
        s.emit e = (s.deliver kind e, [(normalize kind s.requestIds e).2]) := by
  rw [SessionObservations.emit]
  by_cases hnone : s.subscriptions = []
  · rw [(h.free hnone).2]
    exact .inl ⟨.inl hnone, rfl⟩
  · obtain ⟨n, -, hpage⟩ := h.bound hnone
    rw [hpage, filter_observationBindings]
    cases hkind : kindOf e.name with
    | none => exact .inl ⟨.inr rfl, rfl⟩
    | some kind => exact .inr ⟨kind, rfl, rfl⟩

theorem Coherent.deliver {s : SessionObservations} (h : s.Coherent) (kind : BrowserObservationKind)
    (e : PageEvent) : (s.deliver kind e).Coherent := by
  refine ⟨h.free, h.bound, h.nodup, fun handle => ?_⟩
  have hopened := h.opened handle
  rw [show (s.deliver kind e).subscriptions = s.subscriptions from rfl, deliver_get h.nodup]
  split
  · rename_i hin
    refine ⟨fun _ => ?_, fun _ => hin⟩
    obtain ⟨subscription, hget, hsnapshot⟩ := hopened.mp hin
    refine ⟨{ subscription with
      buffer := subscription.buffer.push (normalize kind s.requestIds e).2 }, ?_, hsnapshot⟩
    rw [hget]
    rfl
  · exact hopened

theorem Coherent.step {s : SessionObservations} (h : s.Coherent) (input : Input) :
    (s.step input).Coherent := by
  cases input with
  | observe limit failing =>
    rcases h.observe limit failing with ⟨_, -, hun⟩ | ⟨_, -, -, hob⟩
    · exact hun.coherent
    · exact hob.coherent
  | stop handle => exact h.stop handle
  | stopAll => exact stopAll_rule (fun _ handle hs => hs.stop handle) h
  | emit e =>
    rw [SessionObservations.step]
    rcases h.emit e with ⟨-, hemit⟩ | ⟨kind, -, hemit⟩
    · rw [hemit]
      exact h
    · rw [hemit]
      exact h.deliver kind e

theorem coherent_initial : initial.Coherent :=
  ⟨fun _ => ⟨rfl, rfl⟩, fun h => absurd rfl h, List.nodup_nil, fun handle => by simp [initial]⟩

theorem Coherent.run {s : SessionObservations} (h : s.Coherent) (inputs : List Input) :
    (s.run inputs).Coherent := by
  induction inputs generalizing s with
  | nil => exact h
  | cons input rest ih => exact ih (h.step input)

/-- The observations of one input, each with the event it was made of. -/
def made (s : SessionObservations) : Input → List (PageEvent × BrowserObservation)
  | .emit e => (s.emit e).2.map fun o => (e, o)
  | _ => []

theorem dispatched_cons (s : SessionObservations) (input : Input) (rest : List Input) :
    s.dispatched (input :: rest) = s.made input ++ (s.step input).dispatched rest := by
  cases input <;> rfl

/-! ## Request numbers over runs -/

/-- The numbers are sound, and what was dispatched carries them. -/
structure Numbered (ids : RequestIds) (entries : List (PageEvent × BrowserObservation)) : Prop where
  sound : ids.Sound
  tagged : ∀ entry ∈ entries, ids.Tagged (comesFrom entry) entry.2.requestId

theorem Numbered.step {s : SessionObservations} (hs : s.Coherent)
    {entries : List (PageEvent × BrowserObservation)} (h : Numbered s.requestIds entries)
    (input : Input) : Numbered (s.step input).requestIds (entries ++ s.made input) := by
  cases input with
  | observe limit failing =>
    simp only [made, List.append_nil]
    rcases hs.observe limit failing with ⟨_, -, hun⟩ | ⟨_, -, -, hob⟩
    · exact hun.requestIds.symm ▸ h
    · exact hob.requestIds.symm ▸ h
  | stop handle =>
    simp only [made, List.append_nil, SessionObservations.step, stop_requestIds]
    exact h
  | stopAll =>
    simp only [made, List.append_nil]
    exact stopAll_rule (P := fun s => Numbered s.requestIds entries)
      (fun s handle hs => (stop_requestIds s handle).symm ▸ hs) h
  | emit e =>
    simp only [made, SessionObservations.step]
    rcases hs.emit e with ⟨-, hemit⟩ | ⟨kind, -, hemit⟩
    · rw [hemit, List.map_nil, List.append_nil]
      exact h
    · rw [hemit]
      obtain ⟨hidentifies, htagged⟩ := normalize_spec h.sound kind e
      refine ⟨hidentifies.sound, fun entry hentry => ?_⟩
      rcases List.mem_append.mp hentry with hold | hnew
      · exact (h.tagged entry hold).mono hidentifies.grows
      · rw [List.map_singleton, List.mem_singleton] at hnew
        rw [hnew]
        exact htagged

theorem Numbered.run {s : SessionObservations} (hs : s.Coherent)
    {entries : List (PageEvent × BrowserObservation)} (h : Numbered s.requestIds entries)
    (inputs : List Input) :
    Numbered (s.run inputs).requestIds (entries ++ s.dispatched inputs) := by
  induction inputs generalizing s entries with
  | nil =>
    rw [dispatched, List.append_nil]
    exact h
  | cons input rest ih =>
    rw [dispatched_cons, ← List.append_assoc]
    exact ih (hs.step input) (h.step hs input)

/-! ## One subscription over a run -/

/-- An input after which the handle is stopped. -/
def Stops (handle : Nat) : Input → Prop
  | .stop handle' => handle' = handle
  | .stopAll => True
  | .observe .. | .emit _ => False

/-- The events that the session listens to, in order. -/
def pageEvents : List Input → List PageEvent
  | [] => []
  | .emit e :: rest => if (kindOf e.name).isSome then e :: pageEvents rest else pageEvents rest
  | _ :: rest => pageEvents rest

/-- An open handle whose buffer holds the last of what was dispatched to it. -/
def Recording (s : SessionObservations) (handle limit : Nat)
    (seen : List BrowserObservation) : Prop :=
  ∃ buffer, s.Open handle buffer ∧ buffer.limit = limit ∧ buffer.Holds seen

theorem Recording.subscribed {s : SessionObservations} (hs : s.Coherent) {handle limit : Nat}
    {seen : List BrowserObservation} (h : s.Recording handle limit seen) :
    handle ∈ s.subscriptions := by
  obtain ⟨buffer, hopen, -⟩ := h
  exact (hs.opened handle).mpr ⟨_, hopen, rfl⟩

theorem Recording.step {s : SessionObservations} (hs : s.Coherent) {handle limit : Nat}
    {seen : List BrowserObservation} (h : s.Recording handle limit seen) {input : Input}
    (hstops : ¬ Stops handle input) :
    (s.step input).Recording handle limit (seen ++ (s.made input).map Prod.snd) := by
  obtain ⟨buffer, hopen, hlimit, hholds⟩ := h
  cases input with
  | observe limit' failing =>
    refine ⟨buffer, ?_, hlimit, by simpa [made] using hholds⟩
    have hlt := (List.getElem?_eq_some_iff.mp hopen).1
    unfold Open SessionObservations.step
    rcases hs.observe limit' failing with ⟨_, -, hun⟩ | ⟨_, -, -, hob⟩
    · rw [hun.handles]
      exact hopen
    · rw [hob.handles, List.getElem?_append_left hlt]
      exact hopen
  | stop handle' =>
    refine ⟨buffer, ?_, hlimit, by simpa [made] using hholds⟩
    unfold Open SessionObservations.step
    rw [stop_other s hstops]
    exact hopen
  | stopAll => exact absurd trivial hstops
  | emit e =>
    have hin : handle ∈ s.subscriptions := (hs.opened handle).mpr ⟨_, hopen, rfl⟩
    simp only [made, SessionObservations.step]
    rcases hs.emit e with ⟨-, hemit⟩ | ⟨kind, -, hemit⟩
    · rw [hemit]
      exact ⟨buffer, hopen, hlimit, by simpa using hholds⟩
    · rw [hemit]
      refine ⟨buffer.push (normalize kind s.requestIds e).2, ?_, ?_, hholds.push _⟩
      · unfold Open at hopen ⊢
        simp only [deliver_get hs.nodup, if_pos hin, hopen, Option.map_some]
      · rw [ObservationBuffer.push_limit, hlimit]

/-- While the handle is open every event of the page is dispatched once. -/
theorem Recording.events {s : SessionObservations} (hs : s.Coherent) {handle limit : Nat}
    {seen : List BrowserObservation} (h : s.Recording handle limit seen) (input : Input) :
    (s.made input).map Prod.fst = pageEvents [input] := by
  cases input with
  | observe | stop | stopAll => rfl
  | emit e =>
    rw [made, pageEvents]
    rcases hs.emit e with ⟨hwhy, hemit⟩ | ⟨kind, hkind, hemit⟩
    · have hunknown : kindOf e.name = none :=
        hwhy.resolve_left (List.ne_nil_of_mem (h.subscribed hs))
      simp [hemit, hunknown, pageEvents]
    · simp [hemit, hkind, pageEvents]

theorem pageEvents_cons (input : Input) (rest : List Input) :
    pageEvents (input :: rest) = pageEvents [input] ++ pageEvents rest := by
  cases input with
  | emit e =>
    simp only [pageEvents]
    split <;> rfl
  | observe | stop | stopAll => rfl

theorem Recording.run {s : SessionObservations} (hs : s.Coherent) {handle limit : Nat}
    {seen : List BrowserObservation} (h : s.Recording handle limit seen) {inputs : List Input}
    (hstops : ∀ input ∈ inputs, ¬ Stops handle input) :
    (s.run inputs).Recording handle limit (seen ++ (s.dispatched inputs).map Prod.snd) ∧
      (s.dispatched inputs).map Prod.fst = pageEvents inputs := by
  induction inputs generalizing s seen with
  | nil =>
    refine ⟨?_, rfl⟩
    rw [dispatched, List.map_nil, List.append_nil]
    exact h
  | cons input rest ih =>
    obtain ⟨hfirst, hrest⟩ := List.forall_mem_cons.mp hstops
    obtain ⟨hrecording, hevents⟩ := ih (hs.step input) (h.step hs hfirst) hrest
    rw [dispatched_cons, pageEvents_cons, List.map_append, List.map_append, h.events hs input,
      hevents]
    rw [List.append_assoc] at hrecording
    exact ⟨hrecording, rfl⟩

theorem Sealed.step {s : SessionObservations} (hs : s.Coherent) {handle : Nat}
    {batch : BrowserObservationBatch} (h : s.Sealed handle batch) (input : Input) :
    (s.step input).Sealed handle batch := by
  obtain ⟨buffer, hget⟩ := h
  cases input with
  | observe limit failing =>
    have hlt := (List.getElem?_eq_some_iff.mp hget).1
    refine ⟨buffer, ?_⟩
    unfold SessionObservations.step
    rcases hs.observe limit failing with ⟨_, -, hun⟩ | ⟨_, -, -, hob⟩
    · rw [hun.handles]
      exact hget
    · rw [hob.handles, List.getElem?_append_left hlt]
      exact hget
  | stop handle' => exact Sealed.stop_any ⟨buffer, hget⟩ handle'
  | stopAll =>
    exact stopAll_rule (P := fun s => s.Sealed handle batch)
      (fun _ handle' h => h.stop_any handle') ⟨buffer, hget⟩
  | emit e =>
    have hclosed : handle ∉ s.subscriptions := by
      intro hin
      obtain ⟨subscription, hget', hsnapshot⟩ := (hs.opened handle).mp hin
      rw [hget] at hget'
      rw [← Option.some.inj hget'] at hsnapshot
      cases hsnapshot
    refine ⟨buffer, ?_⟩
    rw [SessionObservations.step]
    rcases hs.emit e with ⟨-, hemit⟩ | ⟨kind, -, hemit⟩
    · rw [hemit]
      exact hget
    · simp only [hemit, deliver_get hs.nodup, if_neg hclosed]
      exact hget

theorem Sealed.run {s : SessionObservations} (hs : s.Coherent) {handle : Nat}
    {batch : BrowserObservationBatch} (h : s.Sealed handle batch) (inputs : List Input) :
    (s.run inputs).Sealed handle batch := by
  induction inputs generalizing s with
  | nil => exact h
  | cons input rest ih => exact ih (hs.step input) (h.step hs input)

/-! ## Every run -/

/-- The page carries one set of listeners while a handle is open and none otherwise. -/
def ListenersMatch (s : SessionObservations) : Prop :=
  ((∃ handle buffer, s.Open handle buffer) → ∃ n, s.page = observationBindings n) ∧
    ((¬ ∃ handle buffer, s.Open handle buffer) → s.page = [])

/-- Observations carry one number iff they come from one request object. -/
def NumbersMatch (entries : List (PageEvent × BrowserObservation)) : Prop :=
  ∀ a ∈ entries, ∀ b ∈ entries,
    (∃ n, a.2.requestId = some n ∧ b.2.requestId = some n) ↔
      ∃ identity, comesFrom a = some identity ∧ comesFrom b = some identity

/-- The last observations that fit, and how many came before them. -/
def batchOf (limit : Nat) (observations : List BrowserObservation) : BrowserObservationBatch :=
  let dropped := observations.length - min observations.length limit
  ⟨observations.drop dropped, dropped⟩

theorem Coherent.listenersMatch {s : SessionObservations} (h : s.Coherent) : s.ListenersMatch := by
  have hopen : s.subscriptions ≠ [] ↔ ∃ handle buffer, s.Open handle buffer := by
    constructor
    · intro hne
      obtain ⟨handle, hin⟩ := List.exists_mem_of_ne_nil _ hne
      obtain ⟨⟨buffer, snapshot⟩, hget, hsnapshot⟩ := (h.opened handle).mp hin
      obtain rfl : snapshot = none := hsnapshot
      exact ⟨handle, buffer, hget⟩
    · intro hopen
      obtain ⟨handle, buffer, hget⟩ := hopen
      exact List.ne_nil_of_mem ((h.opened handle).mpr ⟨_, hget, rfl⟩)
  constructor
  · intro hsome
    obtain ⟨n, -, hpage⟩ := h.bound (hopen.mpr hsome)
    exact ⟨n, hpage⟩
  · intro hnone
    exact (h.free (not_not.mp fun hne => hnone (hopen.mp hne))).2

theorem Numbered.numbersMatch {ids : RequestIds} {entries : List (PageEvent × BrowserObservation)}
    (h : Numbered ids entries) : NumbersMatch entries := by
  intro a ha b hb
  have htagged := h.tagged a ha
  have htagged' := h.tagged b hb
  constructor
  · intro hsame
    obtain ⟨n, hn, hn'⟩ := hsame
    cases hfrom : comesFrom a with
    | none =>
      rw [hfrom] at htagged
      cases hn.symm.trans htagged
    | some identity =>
      cases hfrom' : comesFrom b with
      | none =>
        rw [hfrom'] at htagged'
        cases hn'.symm.trans htagged'
      | some identity' =>
        rw [hfrom] at htagged
        rw [hfrom'] at htagged'
        obtain ⟨m, hm, hknown⟩ := htagged
        obtain ⟨m', hm', hknown'⟩ := htagged'
        obtain rfl := Option.some.inj (hn.symm.trans hm)
        obtain rfl := Option.some.inj (hn'.symm.trans hm')
        rw [h.sound.injective _ _ _ hknown hknown']
        exact ⟨identity', rfl, rfl⟩
  · intro hsame
    obtain ⟨identity, hfrom, hfrom'⟩ := hsame
    rw [hfrom] at htagged
    rw [hfrom'] at htagged'
    obtain ⟨n, hn, hknown⟩ := htagged
    obtain ⟨n', hn', hknown'⟩ := htagged'
    rw [hknown] at hknown'
    rw [← Option.some.inj hknown'] at hn'
    exact ⟨n, hn, hn'⟩

theorem observationLimit_pos {limit : Option ℚ} {n : Nat} (h : observationLimit limit = .ok n) :
    0 < n := by
  unfold observationLimit at h
  split at h
  · rw [← Except.ok.inj h]
    decide
  · split at h
    · cases h
    · rename_i q hvalid
      rw [← Except.ok.inj h]
      omega

/-- A stop seals the last of what was dispatched. -/
theorem Recording.sealed {s : SessionObservations} (hs : s.Coherent) {handle limit : Nat}
    {seen : List BrowserObservation} (h : s.Recording handle limit seen) :
    (s.stop handle).2 = some (batchOf limit seen) ∧
      ∀ input, Stops handle input → (s.step input).Sealed handle (batchOf limit seen) := by
  obtain ⟨buffer, hopen, hlimit, hholds⟩ := h
  have hdropped : seen.length - min seen.length limit = seen.length - limit := by omega
  have hbatch : (⟨buffer.drain, buffer.dropped⟩ : BrowserObservationBatch) = batchOf limit seen := by
    rw [hholds.drain, hholds.dropped, hlimit, batchOf, hdropped]
  rw [← hbatch]
  refine ⟨hopen.stop.1, fun input hstops => ?_⟩
  cases input with
  | stop handle' =>
    obtain rfl : handle' = handle := hstops
    exact hopen.stop.2
  | stopAll => exact hopen.stopAll hs
  | observe | emit => exact hstops.elim

theorem numbered_initial : Numbered initial.requestIds [] :=
  ⟨⟨nofun, nofun⟩, fun _ hentry => absurd hentry List.not_mem_nil⟩

/-- Listeners, request numbers and batches over every run of a session. -/
theorem streams_exact (past : List Input) :
    (initial.run past).ListenersMatch ∧ NumbersMatch (initial.dispatched past) ∧
    ∀ limit failing handle, ((initial.run past).observe limit failing).2 = .ok handle →
      ∃ n, observationLimit limit = .ok n ∧ ∀ during last later,
        (∀ input ∈ during, ¬ Stops handle input) → Stops handle last →
        let opened := ((initial.run past).observe limit failing).1
        let seen := opened.dispatched during
        let batch := batchOf n (seen.map Prod.snd)
        seen.map Prod.fst = pageEvents during ∧
          ((opened.run during).stop handle).2 = some batch ∧
          ((((opened.run during).step last).run later).stop handle).2 = some batch := by
  have hs := coherent_initial.run past
  have hids := numbered_initial
  refine ⟨hs.listenersMatch, (hids.run coherent_initial past).numbersMatch, ?_⟩
  intro limit failing handle hreturned
  rcases hs.observe limit failing with ⟨error, herror, -⟩ | ⟨n, hlimit, hhandle, hobserved⟩
  · rw [herror] at hreturned
    cases hreturned
  · obtain rfl := Except.ok.inj (hhandle.symm.trans hreturned)
    refine ⟨n, hlimit, fun during last later hduring hlast => ?_⟩
    have hrecording : Recording ((initial.run past).observe limit failing).1
        (initial.run past).handles.length n [] := by
      refine ⟨.empty n, ?_, rfl, ObservationBuffer.holds_empty (observationLimit_pos hlimit)⟩
      rw [Open, hobserved.handles, List.getElem?_concat_length]
    obtain ⟨hrun, hevents⟩ := hrecording.run hobserved.coherent hduring
    have hcoherent := hobserved.coherent.run during
    obtain ⟨hstop, hsealed⟩ := hrun.sealed hcoherent
    have hlater := (hsealed last hlast).run (hcoherent.step last) later
    exact ⟨hevents, hstop, congrArg Prod.snd hlater.stop⟩

/-- A request object without members, in an event. -/
def bareRequest (name time : String) : PageEvent := ⟨name, .object 7 false [], time⟩

/-- A buffer of one entry that two events of a request go through. -/
theorem streams_exact_wrapped :
    (((initial.observe (some 1) none).1.run [.emit (bareRequest "request" "1"),
      .emit (bareRequest "requestfinished" "2")]).stop 0).2 =
      some ⟨[{ requestId := some 1, kind := .requestFinished, time := "2" }], 1⟩ := by
  obtain ⟨n, hlimit, hbatch⟩ := (streams_exact []).2.2 (some 1) none 0 rfl
  obtain rfl : 1 = n := Except.ok.inj hlimit
  exact (hbatch [.emit (bareRequest "request" "1"), .emit (bareRequest "requestfinished" "2")]
    (.stop 0) [] (by simp [Stops]) rfl).2.1

end SessionObservations

end SurfaceLoom.Browser
