import Mathlib.Data.List.Induction
import SurfaceLoom.AgentService.RunRecovery

/-! # Whose artifacts a run record holds

Artifacts come into a record by `attachArtifact`, which asks for the run they
belong to, and by `finish`, which does not; both put a later artifact in the
place of an earlier one of its id. Here is what the records keep as long as the
callers supply fitting artifacts, and a run in which one did not. -/
namespace SurfaceLoom.Service.RunArtifacts
open SurfaceLoom.Lib SurfaceLoom.Lib.PromiseTail SurfaceLoom.Lib.Transition
open SurfaceLoom.Service.SafeData SurfaceLoom.Service.Validation SurfaceLoom.Service.StoredRun
open SurfaceLoom.Service.RunStore SurfaceLoom.Service.RunStoreInvariants
open SurfaceLoom.Service.RunStoreQueue SurfaceLoom.Service.RunRecovery

/-- The artifacts of a record are its own run's, under distinct ids, and its
result repeats them. -/
structure Correlated (r : StoredRunRecord) : Prop where
  owned : ∀ a ∈ r.artifacts, a.runId = r.runId
  distinct : (r.artifacts.map (·.artifactId.1)).Nodup
  result : ∀ result ∈ r.result, get? result.1 "artifacts" = some (artifactsValue r.artifacts)

/-- Every artifact is still there, with its digest and its size. -/
def Carries (held later : List Artifact) : Prop :=
  ∀ a ∈ held, ∃ b ∈ later, b.artifactId = a.artifactId ∧ b.sha256 = a.sha256 ∧
    b.sizeBytes = a.sizeBytes

def AllCorrelated (m : Memory) : Prop :=
  ∀ runId r, m.byRun.get? runId = some r → Correlated r

def Keeps (m m' : Memory) : Prop :=
  ∀ runId r, m.byRun.get? runId = some r → ∃ r', m'.byRun.get? runId = some r' ∧
    Carries r.artifacts r'.artifacts

theorem Carries.refl (held : List Artifact) : Carries held held :=
  fun a ha => ⟨a, ha, rfl, rfl, rfl⟩

theorem Carries.trans {as bs cs : List Artifact} (h : Carries as bs) (h' : Carries bs cs) :
    Carries as cs := by
  intro a ha
  obtain ⟨b, hb, hid, hsha, hsize⟩ := h a ha
  obtain ⟨c, hc, hid', hsha', hsize'⟩ := h' b hb
  exact ⟨c, hc, hid'.trans hid, hsha'.trans hsha, hsize'.trans hsize⟩

theorem Keeps.refl (m : Memory) : Keeps m m := fun _ r hr => ⟨r, hr, .refl _⟩

theorem Keeps.trans {m₁ m₂ m₃ : Memory} (h : Keeps m₁ m₂) (h' : Keeps m₂ m₃) : Keeps m₁ m₃ := by
  intro runId r hr
  obtain ⟨r', hr', hcarries⟩ := h runId r hr
  obtain ⟨r'', hr'', hcarries'⟩ := h' runId r' hr'
  exact ⟨r'', hr'', hcarries.trans hcarries'⟩

/-! ## What callers supply -/

/-- The artifacts a result brings, those that are artifacts. -/
def supplied (result : JsValue) : List Artifact :=
  match (do iterate (get? (← properties (some result)) "artifacts")) with
  | .error _ => []
  | .ok items => items.filterMap fun item => (parseArtifact (some item)).toOption

/-- An artifact does not take the place of another of its id. -/
def fits (r : StoredRunRecord) (a : Artifact) : Bool :=
  r.artifacts.all fun b =>
    b.artifactId ≠ a.artifactId || (b.sha256 = a.sha256 && b.sizeBytes = a.sizeBytes)

/-- What `finish` and `attachArtifact` are given fits the record of a run that
is not over. -/
def admissible (m : Memory) : Call → Bool
  | .finish runId result _ => (m.byRun.get? runId).all fun r => r.status.terminal ||
      (supplied result).all fun a => a.runId = r.runId && fits r a
  | .attachArtifact runId artifact _ => (m.byRun.get? runId).all fun r => r.status.terminal ||
      (parseArtifact (some artifact)).toOption.all (fits r)
  | _ => true

/-- Every call that starts is admissible for the maps it starts from. -/
def Begins (limits : Limits) (s : State) : Event → Bool
  | .start index => (s.tail.begin chains (goesOn limits s.memory) index).all fun (call, _) =>
      admissible s.memory call
  | _ => true

/-! ## Merging -/

theorem fits_iff {r : StoredRunRecord} {a : Artifact} : fits r a = true ↔
    ∀ b ∈ r.artifacts, b.artifactId = a.artifactId → b.sha256 = a.sha256 ∧
      b.sizeBytes = a.sizeBytes := by
  simp [fits, imp_iff_not_or]

theorem mem_supplied {result item : JsValue} {fields : Fields} {items : List JsValue}
    {a : Artifact} (hprops : properties (some result) = .ok fields)
    (hitems : iterate (get? fields "artifacts") = .ok items) (hitem : item ∈ items)
    (ha : parseArtifact (some item) = .ok a) : a ∈ supplied result := by
  unfold supplied
  rw [hprops]
  simp only [bind, Except.bind, hitems]
  exact List.mem_filterMap.mpr ⟨item, hitem, by rw [ha]; rfl⟩

theorem mem_of_mapM : ∀ {items : List JsValue} {artifacts : List Artifact},
    items.mapM (fun item => parseArtifact (some item)) = .ok artifacts →
    ∀ a ∈ artifacts, ∃ item ∈ items, parseArtifact (some item) = .ok a := by
  intro items
  induction items with
  | nil =>
    intro artifacts h a ha
    simp only [List.mapM_nil, pure_eq_ok] at h
    subst h
    cases ha
  | cons item items ih =>
    intro artifacts h a ha
    simp only [List.mapM_cons, bind_eq_ok, pure_eq_ok] at h
    obtain ⟨first, hfirst, rest, hrest, rfl⟩ := h
    rcases List.mem_cons.mp ha with rfl | ha
    · exact ⟨item, List.mem_cons_self .., hfirst⟩
    · obtain ⟨item', hitem', hparse⟩ := ih hrest a ha
      exact ⟨item', List.mem_cons_of_mem _ hitem', hparse⟩

/-- What `mergeArtifacts` comes to, for artifacts under distinct ids. -/
structure Merges (left : List Artifact) (right : List JsValue) (merged : List Artifact) :
    Prop where
  distinct : (merged.map (·.artifactId.1)).Nodup
  source : ∀ a ∈ merged, a ∈ left ∨ ∃ item ∈ right, parseArtifact (some item) = .ok a
  present : ∀ a ∈ left, ∃ b ∈ merged, b.artifactId = a.artifactId

theorem mergeArtifacts_ok {left merged : List Artifact} {right : List JsValue}
    (h : mergeArtifacts left right = .ok merged) : Merges left right merged := by
  unfold mergeArtifacts at h
  simp only [bind_eq_ok, pure_eq_ok] at h
  obtain ⟨parsed, hparsed, rfl⟩ := h
  have hget := OrderedMap.get?_collect (fun a : Artifact => a.artifactId.1) (left ++ parsed) .empty
  simp only [OrderedMap.get?_empty, Option.or_none] at hget
  refine ⟨OrderedMap.values_nodup fun k a hk => ?_, fun a ha => ?_, fun a ha => ?_⟩
  · rw [hget] at hk
    simpa using List.find?_some hk
  · obtain ⟨k, hk⟩ := OrderedMap.mem_values_iff.mp ha
    rw [hget] at hk
    rcases List.mem_append.mp (List.mem_reverse.mp (List.mem_of_find?_eq_some hk)) with hl | hr
    · exact .inl hl
    · exact .inr (mem_of_mapM hparsed a hr)
  · have hsome : ((left ++ parsed).reverse.find? fun b =>
        b.artifactId.1 = a.artifactId.1).isSome = true :=
      List.find?_isSome.mpr ⟨a, List.mem_reverse.mpr (List.mem_append_left parsed ha), by simp⟩
    obtain ⟨b, hb⟩ := Option.isSome_iff_exists.mp hsome
    refine ⟨b, OrderedMap.mem_values_iff.mpr ⟨a.artifactId.1, ?_⟩, Subtype.ext ?_⟩
    · rw [hget]
      exact hb
    · simpa using List.find?_some hb

theorem Merges.carries {r : StoredRunRecord} {right : List JsValue} {merged : List Artifact}
    (h : Merges r.artifacts right merged) (hdistinct : (r.artifacts.map (·.artifactId.1)).Nodup)
    (hfits : ∀ item ∈ right, ∀ a, parseArtifact (some item) = .ok a → fits r a = true) :
    Carries r.artifacts merged := by
  intro a ha
  obtain ⟨b, hb, hid⟩ := h.present a ha
  refine ⟨b, hb, hid, ?_⟩
  rcases h.source b hb with hold | ⟨item, hitem, hparse⟩
  · obtain rfl : b = a := List.inj_on_of_nodup_map hdistinct hold ha (congrArg Subtype.val hid)
    exact ⟨rfl, rfl⟩
  · obtain ⟨hsha, hsize⟩ := fits_iff.mp (hfits item hitem b hparse) a ha hid.symm
    exact ⟨hsha.symm, hsize.symm⟩

/-! ## One record -/

theorem parseArtifacts_artifactsValue {artifacts parsed : List Artifact}
    (h : parseArtifacts (some (artifactsValue artifacts)) = .ok parsed) : parsed = artifacts := by
  unfold parseArtifacts artifactsValue at h
  simp only [bind_eq_ok, liftSafe_ok, readSafeArrayEnvelope_ok] at h
  obtain ⟨items, ⟨hitems, -⟩, h⟩ := h
  obtain rfl : artifacts.map Artifact.toValue = items := by simpa using hitems
  clear hitems
  induction artifacts generalizing parsed with
  | nil =>
    simp only [List.map_nil, List.mapM_nil, pure_eq_ok] at h
    exact h.symm
  | cons a rest ih =>
    simp only [List.map_cons, List.mapM_cons, bind_eq_ok, pure_eq_ok, parseArtifact_toValue] at h
    obtain ⟨_, ha, rest', hrest, rfl⟩ := h
    rw [← Except.ok.inj ha, ih hrest]

theorem result_of_reads {raw : RawRun} {next : StoredRunRecord} (h : ReadsAs raw next) :
    raw.result = next.result.map Record.toValue := by
  have hresult := h.result
  cases hraw : raw.result with
  | none =>
    rw [hraw] at hresult
    rw [← Except.ok.inj hresult]
    rfl
  | some v =>
    rw [hraw, optionalField_some] at hresult
    obtain ⟨result, hparse, hnext⟩ := hresult
    rw [hnext, parseResult_exact hparse]
    rfl

/-- A record that was read with artifacts of its own, and a result that repeats
them. -/
theorem correlated_of_reads {r next : StoredRunRecord} {raw : RawRun} {artifacts : List Artifact}
    (hread : ReadsAs raw next) (hrun : raw.runId = r.toRaw.runId)
    (hartifacts : raw.artifacts = some (artifactsValue artifacts))
    (howned : ∀ a ∈ artifacts, a.runId = r.runId)
    (hdistinct : (artifacts.map (·.artifactId.1)).Nodup)
    (hresult : ∀ fields, raw.result = some (.object fields) →
      get? fields "artifacts" = some (artifactsValue artifacts)) :
    Correlated next ∧ next.artifacts = artifacts := by
  have hid : next.runId = r.runId := Subtype.ext (string_inj (hread.runId.symm.trans hrun))
  have hsame : next.artifacts = artifacts :=
    parseArtifacts_artifactsValue (hartifacts ▸ hread.artifacts)
  refine ⟨⟨?_, ?_, ?_⟩, hsame⟩
  · rw [hsame, hid]
    exact howned
  · rw [hsame]
    exact hdistinct
  · intro result hmem
    rw [hsame]
    refine hresult _ ?_
    rw [result_of_reads hread, Option.mem_def.mp hmem]
    rfl

/-- A change that leaves the artifacts and the result alone. -/
theorem Correlated.unchanged {r next : StoredRunRecord} {raw : RawRun} (h : Correlated r)
    (hread : ReadsAs raw next) (hrun : raw.runId = r.toRaw.runId)
    (hartifacts : raw.artifacts = r.toRaw.artifacts) (hresult : raw.result = r.toRaw.result) :
    Correlated next ∧ Carries r.artifacts next.artifacts := by
  obtain ⟨hnext, hsame⟩ := correlated_of_reads hread hrun hartifacts h.owned h.distinct (by
    intro fields hfields
    rw [hresult] at hfields
    obtain ⟨result, hmem, heq⟩ := Option.map_eq_some_iff.mp hfields
    obtain rfl : result.1 = fields := JsValue.object.inj heq
    exact h.result result hmem)
  rw [hsame]
  exact ⟨hnext, .refl _⟩

theorem Correlated.interrupted {r next : StoredRunRecord} (h : Correlated r)
    {error cleanup : JsValue} {finishedAt : String}
    (hread : ReadsAs (interruptedRun r error cleanup finishedAt) next) :
    Correlated next ∧ Carries r.artifacts next.artifacts := by
  obtain ⟨hnext, hsame⟩ := correlated_of_reads hread rfl rfl h.owned h.distinct (by
    intro fields hfields
    obtain rfl := JsValue.object.inj (Option.some.inj hfields)
    exact get?_defined_of_mem (e := ("artifacts", r.toRaw.artifacts)) (by simp) (by simp))
  rw [hsame]
  exact ⟨hnext, .refl _⟩

theorem get?_put_self (fields : Fields) (key : String) (value : JsValue) :
    get? (put fields key value) key = some value := by
  unfold put get?
  split
  · rename_i hany
    induction fields with
    | nil => simp at hany
    | cons e rest ih =>
      by_cases he : e.1 = key
      · simp [he]
      · have hne : (key == e.1) = false := by simpa using Ne.symm he
        simp only [List.any_cons, decide_eq_false he, Bool.false_or] at hany
        rw [List.map_cons, if_neg he, List.lookup_cons, hne]
        exact ih hany
  · rename_i hany
    have hnone : fields.lookup key = none := by
      rw [List.lookup_eq_none_iff]
      intro e he
      simp only [List.any_eq_true, decide_eq_true_eq, not_exists, not_and] at hany
      simpa using Ne.symm (hany e he)
    rw [List.lookup_append, hnone]
    simp

theorem Builds.correlated {m : Memory} {r next : StoredRunRecord} {call : Call} {raw : RawRun}
    (hr : m.byRun.get? r.runId.1 = some r) (h : Correlated r) (hadmissible : admissible m call = true)
    (hbuilds : Builds r call raw) (hread : ReadsAs raw next) :
    Correlated next ∧ Carries r.artifacts next.artifacts := by
  cases hbuilds with
  | running hc =>
    unfold runningChange at hc
    split at hc
    · cases hc
    · cases hc
      exact h.unchanged hread rfl rfl rfl
  | cancelling hc =>
    unfold cancellingChange at hc
    split at hc
    · cases hc
      exact h.unchanged hread rfl rfl rfl
    · split at hc
      · cases hc
        exact h.unchanged hread rfl rfl rfl
      · split at hc
        · cases hc
        · cases hc
          exact h.unchanged hread rfl rfl rfl
  | interrupt hc =>
    unfold interruptChange at hc
    split at hc
    · cases hc
      exact h.unchanged hread rfl rfl rfl
    · simp only [bind_eq_ok, pure_eq_ok] at hc
      obtain ⟨_, -, _, -, rfl⟩ := hc
      exact h.interrupted hread
  | recover _ => exact h.interrupted hread
  | attach hc =>
    rename_i artifact updatedAt
    unfold attachChange at hc
    split at hc
    · cases hc
    · rename_i hlive
      simp only [bind_eq_ok] at hc
      obtain ⟨safe, hsafe, hc⟩ := hc
      split at hc
      · cases hc
      · rename_i hown
        simp only [bind_eq_ok, pure_eq_ok] at hc
        obtain ⟨artifacts, hmerge, rfl⟩ := hc
        have hmerges := mergeArtifacts_ok hmerge
        have hfits : fits r safe = true := by
          simpa [admissible, hr, hsafe, hlive, Except.toOption] using hadmissible
        have hsource : ∀ item ∈ [safe.toValue], ∀ a, parseArtifact (some item) = .ok a → a = safe := by
          intro item hitem a ha
          rw [List.mem_singleton.mp hitem, parseArtifact_toValue] at ha
          exact (Except.ok.inj ha).symm
        have hcarries : Carries r.artifacts artifacts :=
          hmerges.carries h.distinct fun item hitem a ha => hsource item hitem a ha ▸ hfits
        have howned : ∀ a ∈ artifacts, a.runId = r.runId := by
          intro a ha
          rcases hmerges.source a ha with hold | ⟨item, hitem, hparse⟩
          · exact h.owned a hold
          · rw [hsource item hitem a hparse]
            exact not_ne_iff.mp hown
        have hresult : ∀ fields, r.toRaw.result = some (.object fields) → False := by
          intro fields hfields
          have hterminal := terminal_of_result hread hfields
          rw [status_of_reads r.status hread rfl] at hterminal
          exact hlive hterminal
        obtain ⟨hnext, hsame⟩ := correlated_of_reads hread rfl rfl howned hmerges.distinct
          fun fields hfields => (hresult fields hfields).elim
        rw [hsame]
        exact ⟨hnext, hcarries⟩
  | finish hc =>
    rename_i result release
    obtain ⟨hlive, safe, cleanup, receipt, artifacts, ⟨hprops, -⟩, -, -, -,
      ⟨items, hitems, hmerge⟩, rfl⟩ := finishChange_ok hc
    have hmerges := mergeArtifacts_ok hmerge
    have hsupplied : ∀ a ∈ supplied result, a.runId = r.runId ∧ fits r a = true := by
      simpa [admissible, hr, hlive] using hadmissible
    have hcarries : Carries r.artifacts artifacts :=
      hmerges.carries h.distinct fun item hitem a ha =>
        (hsupplied a (mem_supplied hprops hitems hitem ha)).2
    have howned : ∀ a ∈ artifacts, a.runId = r.runId := by
      intro a ha
      rcases hmerges.source a ha with hold | ⟨item, hitem, hparse⟩
      · exact h.owned a hold
      · exact (hsupplied a (mem_supplied hprops hitems hitem hparse)).1
    obtain ⟨hnext, hsame⟩ := correlated_of_reads hread rfl rfl howned hmerges.distinct (by
      intro fields hfields
      obtain rfl := JsValue.object.inj (Option.some.inj hfields)
      exact get?_put_self _ _ _)
    rw [hsame]
    exact ⟨hnext, hcarries⟩

theorem newRun_correlated {input : RunReservation} {r : StoredRunRecord}
    (h : parseStoredRun (newRun input).toValue = .ok r) : Correlated r := by
  have hread := readsAs_of_parse h
  have hempty : r.artifacts = [] := parseArtifacts_artifactsValue hread.artifacts
  refine ⟨by simp [hempty], by simp [hempty], ?_⟩
  intro result hmem
  have hresult : none = r.result.map Record.toValue := result_of_reads hread
  rw [Option.mem_def.mp hmem] at hresult
  cases hresult

/-! ## One operation -/

theorem operation_correlated {m m' : Memory} (hm : WellFormed m) (h : AllCorrelated m)
    {call : Call} {reply : Reply} (hadmissible : admissible m call = true)
    (hok : operation m call = (m', .ok reply)) : AllCorrelated m' ∧ Keeps m m' := by
  have hbuilt : ∀ {runId : String} {r next : StoredRunRecord} {raw : RawRun},
      m.byRun.get? runId = some r → Builds r call raw → ReadsAs raw next →
      Correlated next ∧ Carries r.artifacts next.artifacts := by
    intro runId r next raw hr hbuilds hread
    refine Builds.correlated ?_ (h _ _ hr) hadmissible hbuilds hread
    rw [(hm.fits _ _ hr).keyed]
    exact hr
  constructor
  · intro runId r' hr'
    cases operation_traced hm hok hr' with
    | same hold => exact h _ _ hold
    | reserved input _ hparsed => exact newRun_correlated hparsed
    | built r raw hr hbuilds hread => exact (hbuilt hr hbuilds hread).1
  · intro runId r hr
    have hchange := (operation_ok hm hok).evolves.change runId
    rw [hr] at hchange
    generalize ho : m'.byRun.get? runId = o at hchange
    cases hchange with
    | same => exact ⟨r, rfl, .refl _⟩
    | @advanced _ r' hadvances =>
      refine ⟨r', rfl, ?_⟩
      cases operation_traced hm hok ho with
      | same hold =>
        cases hr.symm.trans hold
        exact .refl _
      | reserved input _ hparsed =>
        have hrevision := hadvances.revision
        rw [(newRun_reads hparsed).1] at hrevision
        cases hrevision
      | built r₁ raw hr₁ hbuilds hread =>
        cases hr.symm.trans hr₁
        exact (hbuilt hr hbuilds hread).2

/-! ## Over a whole run -/

variable {limits : Limits} {start : Memory} {file : Option StoreFile} {s t : State}

/-- Every call that started was admissible for the maps it started from. -/
structure Admitted (s : State) : Prop where
  writing : ∀ w ∈ s.tail.running, admissible w.previous w.call = true
  entries : ∀ e ∈ s.log, admissible e.before e.call = true

theorem Admitted.logged (h : Admitted s) {e : Entry} (hlog : t.log = s.log ++ [e])
    (hrunning : t.tail.running = []) (he : admissible e.before e.call = true) : Admitted t := by
  refine ⟨fun w hw => ?_, fun e' he' => ?_⟩
  · rw [hrunning] at hw
    cases hw
  · rw [hlog, List.mem_append, List.mem_singleton] at he'
    rcases he' with hold | rfl
    · exact h.entries e' hold
    · exact he

/-- The runs in which every call that starts is admissible. -/
def fitting (limits : Limits) (start : Memory) (file : Option StoreFile) : System State Event :=
  (store limits start file).restrict fun s event => Begins limits s event = true

theorem admitted_invariant (hopen : Opens limits start file) :
    (fitting limits start file).Invariant Admitted where
  init := by
    intro s hs
    cases hs
    exact ⟨(fun _ hw => nomatch hw), fun _ he => nomatch he⟩
  step := by
    intro s event t hs h hstep
    have hsound := (sound_invariant hopen).reachable hs.of_restrict
    obtain ⟨hstep, hbegins⟩ := hstep
    replace hstep : next limits s event = some t := hstep
    cases event with
    | issue call =>
      cases hstep
      exact ⟨h.writing, h.entries⟩
    | start index =>
      obtain ⟨⟨call, tail⟩, hb, rfl⟩ := Option.map_eq_some_iff.mp hstep
      obtain ⟨⟨-, -, hrunning⟩, -⟩ := hsound.ordered.begin hb
      have hcall : admissible s.memory call = true := by
        simpa [Begins, hb] using hbegins
      show Admitted (started limits s call tail)
      unfold started
      split
      · rename_i hreads
        exact h.logged rfl (by simpa [chains, hreads] using hrunning) hcall
      · rename_i hreads
        have hchains : chains call = true := by simp [chains, hreads]
        rw [if_pos hchains] at hrunning
        split
        · rename_i memory reply hmutate
          exact h.logged rfl (by simpa [goesOn, hmutate] using hrunning) hcall
        · rename_i memory reply hmutate
          refine ⟨fun w hw => ?_, h.entries⟩
          have hrun : tail.running = [⟨call, s.memory, reply⟩] := by
            simpa [goesOn, hmutate] using hrunning
          rw [hrun, List.mem_singleton] at hw
          subst hw
          exact hcall
    | writeSettled index written renamed =>
      obtain ⟨⟨w, tail⟩, hsettle, rfl⟩ := Option.map_eq_some_iff.mp hstep
      obtain ⟨hrun, hrunning, -, -⟩ := hsound.ordered.settle hsettle
      have hw := h.writing w (by rw [hrun]; exact List.mem_singleton_self w)
      show Admitted (settled s w tail written renamed)
      unfold settled
      split
      · exact h.logged rfl hrunning hw
      · exact h.logged rfl hrunning hw

/-- One settled call. -/
theorem entry_correlated {e : Entry} (he : EntrySound limits e)
    (hadmissible : admissible e.before e.call = true) (h : AllCorrelated e.before) :
    AllCorrelated e.after ∧ Keeps e.before e.after := by
  cases hr : e.reply with
  | ok reply => exact operation_correlated he.wellFormed h hadmissible (he.resolved reply hr)
  | error failure =>
    rw [(he.rejected (by rw [hr]; rfl)).1]
    exact ⟨h, .refl _⟩

/-- The maps between the calls of a log. -/
theorem log_correlated (hsound : Sound limits start s) (hadmitted : Admitted s) :
    ∀ (post pre : List Entry), s.log = pre ++ post → AllCorrelated (effects start pre) →
      AllCorrelated (effects start s.log) ∧ Keeps (effects start pre) (effects start s.log) := by
  intro post
  induction post with
  | nil =>
    intro pre heq h
    rw [heq, List.append_nil]
    exact ⟨h, .refl _⟩
  | cons e post ih =>
    intro pre heq h
    have hmem : e ∈ s.log := by simp [heq]
    have hbefore := hsound.replayed pre e post heq
    rw [← hbefore] at h
    obtain ⟨hafter, hkeeps⟩ :=
      entry_correlated (hsound.entries e hmem) (hadmitted.entries e hmem) h
    rw [hsound.after_eq heq] at hafter hkeeps
    rw [hbefore] at hkeeps
    obtain ⟨hlast, hkeeps'⟩ := ih (pre ++ [e]) (by rw [heq, List.append_assoc]; rfl) hafter
    exact ⟨hlast, hkeeps.trans hkeeps'⟩

/-- The maps before one call of the log. -/
theorem before_correlated (hsound : Sound limits start s) (hadmitted : Admitted s)
    (hstart : AllCorrelated start) : ∀ (pre : List Entry) {e : Entry} {post : List Entry},
      s.log = pre ++ e :: post → AllCorrelated e.before ∧ AllCorrelated e.after ∧
        Keeps e.before e.after := by
  intro pre
  induction pre using List.reverseRecOn with
  | nil =>
    intro e post heq
    have hmem : e ∈ s.log := by simp [heq]
    have hbefore : e.before = start := hsound.replayed [] e post heq
    have h : AllCorrelated e.before := hbefore ▸ hstart
    exact ⟨h, entry_correlated (hsound.entries e hmem) (hadmitted.entries e hmem) h⟩
  | append_singleton pre last ih =>
    intro e post heq
    have hmem : e ∈ s.log := by simp [heq]
    have heq' : s.log = pre ++ last :: e :: post := by rw [heq, List.append_assoc]; rfl
    have h : AllCorrelated e.before := by
      rw [hsound.replayed _ e post heq, ← hsound.after_eq heq']
      exact (ih heq').2.1
    exact ⟨h, entry_correlated (hsound.entries e hmem) (hadmitted.entries e hmem) h⟩

/-- What a store holds of artifacts, in memory, in its file and over time. -/
structure StoreCorrelated (limits : Limits) (start : Memory) (s : State) : Prop where
  memory : AllCorrelated s.memory
  committed : AllCorrelated (committed s)
  entries : ∀ e ∈ s.log, AllCorrelated e.before ∧ AllCorrelated e.after ∧ Keeps e.before e.after
  opened : Keeps start (RunStoreQueue.committed s)
  kept : ∀ e ∈ s.log, Keeps e.after (RunStoreQueue.committed s)
  written : Keeps (RunStoreQueue.committed s) s.memory
  reopens : ∃ m, load limits s.file = .ok m ∧ AllCorrelated m

theorem store_correlated (limits : Limits) (start : Memory) (file : Option StoreFile)
    (hopen : Opens limits start file) (hstart : AllCorrelated start) (s : State)
    (hs : (fitting limits start file).Reachable s) : StoreCorrelated limits start s := by
  have hsound := (sound_invariant hopen).reachable hs.of_restrict
  have hadmitted := (admitted_invariant hopen).reachable hs
  obtain ⟨hcommitted, hopened⟩ := log_correlated hsound hadmitted s.log [] rfl hstart
  rw [← hsound.current] at hcommitted hopened
  have hmemory : AllCorrelated s.memory ∧ Keeps (committed s) s.memory := by
    cases hrun : s.tail.running with
    | nil =>
      have hquiet : committed s = s.memory := by
        unfold committed
        rw [hrun]
      rw [← hquiet]
      exact ⟨hcommitted, .refl _⟩
    | cons w rest =>
      have hbusy : committed s = w.previous := by
        unfold committed
        rw [hrun]
      have hw : w ∈ s.tail.running := by simp [hrun]
      rw [hbusy] at hcommitted ⊢
      exact operation_correlated (hbusy ▸ hsound.durable.1) hcommitted (hadmitted.writing w hw)
        (hsound.writing w hw).done
  refine ⟨hmemory.1, hcommitted, fun e he => ?_, hopened, fun e he => ?_, hmemory.2,
    committed s, hsound.durable.load, hcommitted⟩
  · obtain ⟨pre, post, heq⟩ := List.append_of_mem he
    exact before_correlated hsound hadmitted hstart pre heq
  · obtain ⟨pre, post, heq⟩ := List.append_of_mem he
    have hafter := (before_correlated hsound hadmitted hstart pre heq).2.1
    rw [hsound.after_eq heq] at hafter ⊢
    rw [hsound.current]
    exact (log_correlated hsound hadmitted post (pre ++ [e])
      (by rw [heq, List.append_assoc]; rfl) hafter).2

def demoArtifact (runId digest : String) : JsValue := .object [("artifactId", .string "artifact-1"),
  ("runId", .string runId), ("name", .string "log.txt"), ("mediaType", .string "text/plain"),
  ("sizeBytes", .number 3), ("sha256", .string digest)]

def demoCleanup : JsValue := .object [("snapshotId", .string "snapshot-1"),
  ("status", .string CleanupStatus.confirmed.name), ("tainted", .boolean false),
  ("attemptedAt", .string demoTime.1)]

/-- A result of the run of the reservation, with one artifact. -/
def demoResult (artifact : JsValue) : JsValue := .object [
  ("runId", .string demoReservation.proposedRunId), ("snapshot", demoReservation.snapshot),
  ("finishedAt", .string demoTime.1), ("artifacts", .array [artifact]), ("cleanup", demoCleanup),
  ("executionStatus", .string RunStatus.completed.name),
  ("outcome", .string BusinessOutcome.passed.name)]

def otherRunId : String := "run:00000000-0000-4000-8000-000000000002"

def otherDigest : String := "ffeeddccbbaa99887766554433221100ffeeddccbbaa99887766554433221100"

/-- Reserved, an artifact attached, and finished with another one. -/
def finishing (attached inResult : JsValue) : List Event :=
  [.issue (.reserve demoReservation), .start 0, .writeSettled 0 true true,
    .issue (.attachArtifact demoReservation.proposedRunId attached demoTime.1), .start 0,
    .writeSettled 0 true true,
    .issue (.finish demoReservation.proposedRunId (demoResult inResult) none), .start 0,
    .writeSettled 0 true true]

def ownEvents : List Event :=
  finishing (demoArtifact demoReservation.proposedRunId demoReservation.fingerprint)
    (demoArtifact demoReservation.proposedRunId demoReservation.fingerprint)

/-- The result brings an artifact of another run under the id of the attached
one. -/
def foreignEvents : List Event :=
  finishing (demoArtifact demoReservation.proposedRunId demoReservation.fingerprint)
    (demoArtifact otherRunId otherDigest)

/-- All calls went through. -/
def settledWell (s : State) : Bool := s.log.map (fun e => succeeded e.reply) = [true, true, true]

/-- The stored run holds the other run's artifact in place of its own. -/
def mixedUp (s : State) : Bool :=
  settledWell s && s.memory.byRun.values.map (fun r => (r.runId.1, r.artifacts.map fun a =>
    (a.runId.1, a.sha256.1))) = [(demoReservation.proposedRunId, [(otherRunId, otherDigest)])]

/-- Both runs are evaluated together: what they parse is the same. -/
theorem runs_settled : (System.replay
      (fun s event => if Begins defaultLimits s event = true then next defaultLimits s event else none)
      (opened .empty none) ownEvents).any settledWell = true ∧
    (System.replay (next defaultLimits) (opened .empty none) foreignEvents).any mixedUp = true := by
  decide +kernel

theorem ownEvents_settled : (System.replay
    (fun s event => if Begins defaultLimits s event = true then next defaultLimits s event else none)
    (opened .empty none) ownEvents).any settledWell = true := runs_settled.1

def ownStore : State :=
  (System.replay
    (fun s event => if Begins defaultLimits s event = true then next defaultLimits s event else none)
    (opened .empty none) ownEvents).get (Option.isSome_of_any ownEvents_settled)

theorem ownStore_reachable : (fitting defaultLimits .empty none).Reachable ownStore :=
  System.reachable_restrict_of_replay ownEvents (.init rfl) (Option.some_get _).symm

theorem own_store_correlated : StoreCorrelated defaultLimits .empty ownStore :=
  store_correlated defaultLimits .empty none ⟨.empty, .inl ⟨rfl, rfl⟩⟩ (fun _ _ h => nomatch h)
    ownStore ownStore_reachable

theorem foreignEvents_mixedUp : (System.replay (next defaultLimits) (opened .empty none)
    foreignEvents).any mixedUp = true := runs_settled.2

def foreignStore : State :=
  (System.replay (next defaultLimits) (opened .empty none) foreignEvents).get
    (Option.isSome_of_any foreignEvents_mixedUp)

theorem foreignStore_reachable : (store defaultLimits .empty none).Reachable foreignStore :=
  System.reachable_of_replay (Option.some_get _).symm

/-- The artifact of another run was stored as this run's, over the one that was
attached. -/
theorem foreign_artifact_stored : (store defaultLimits .empty none).Reachable foreignStore ∧
    ¬ StoreCorrelated defaultLimits .empty foreignStore := by
  refine ⟨foreignStore_reachable, fun h => ?_⟩
  have hmixed : mixedUp foreignStore = true := Option.get_of_any_eq_true _ _ foreignEvents_mixedUp
  simp only [mixedUp, Bool.and_eq_true, decide_eq_true_eq] at hmixed
  obtain ⟨r, hvalues, hheld⟩ := List.map_eq_singleton_iff.mp hmixed.2
  obtain ⟨hrun, hartifacts⟩ := Prod.mk.inj hheld
  obtain ⟨a, ha, hstored⟩ := List.map_eq_singleton_iff.mp hartifacts
  obtain ⟨runId, hr⟩ := OrderedMap.mem_values_iff.mp (hvalues ▸ List.mem_singleton_self r)
  have howned := (h.memory runId r hr).owned a (ha ▸ List.mem_singleton_self a)
  have hsame : otherRunId = demoReservation.proposedRunId := by
    rw [← (Prod.mk.inj hstored).1, howned, hrun]
  exact absurd hsame (by decide)

end SurfaceLoom.Service.RunArtifacts
