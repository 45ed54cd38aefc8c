import SurfaceLoom.Core.Fixtures

/-! # What an operation of a fixture runtime does

`Lawful` says of every entry of the log when it may come next: a setup only while no user
code runs and when its dependencies are cached, a teardown only of the fixture cached
last. Every step of the running operation keeps to it. -/
namespace SurfaceLoom.Core.FixtureSteps
open SurfaceLoom.Lib SurfaceLoom.Lib.PromiseTail SurfaceLoom.Lib.Transition
open SurfaceLoom.Core.Fixtures

variable {F V E : Type}

/-! ## What a log says -/

/-- What an entry does to the cache of a runtime, in the order of setup. -/
def replay (i : Nat) (cache : List (F × V)) : Entry F V E → List (F × V)
  | .setupEnded j fixture (.ok value) => if j = i then cache ++ [(fixture, value)] else cache
  | .teardownStarted j _ => if j = i then cache.dropLast else cache
  | _ => cache

/-- The fixtures a runtime has cached after a log. -/
def cached (i : Nat) (log : List (Entry F V E)) : List (F × V) := log.foldl (replay i) []

@[simp] theorem cached_snoc (i : Nat) (log : List (Entry F V E)) (e : Entry F V E) :
    cached i (log ++ [e]) = replay i (cached i log) e := by
  unfold cached
  rw [List.foldl_append]
  rfl

/-- The setups a runtime completed. -/
def setUp (i : Nat) (log : List (Entry F V E)) : List (F × V) :=
  log.filterMap fun
    | .setupEnded j fixture (.ok value) => if j = i then some (fixture, value) else none
    | _ => none

def tornDown (i : Nat) (log : List (Entry F V E)) : List F :=
  log.filterMap fun
    | .teardownStarted j fixture => if j = i then some fixture else none
    | _ => none

def setupErrors (log : List (Entry F V E)) : List (Failure E) :=
  log.filterMap fun
    | .setupEnded _ _ (.error error) => some error
    | _ => none

def teardownErrors (log : List (Entry F V E)) : List (Failure E) :=
  log.filterMap fun
    | .teardownEnded _ _ error => error
    | _ => none

/-- The first and the last entry of an operation. -/
def isBegin : Entry F V E → Bool
  | .useBegan _ _ _ => true
  | .closeBegan _ _ => true
  | _ => false

def isEnd : Entry F V E → Bool
  | .useEnded _ _ _ => true
  | .closeEnded _ _ _ => true
  | _ => false

/-- An entry after which user code runs. -/
def isStart : Entry F V E → Bool
  | .setupStarted _ _ => true
  | .teardownStarted _ _ => true
  | _ => false

def isSetup : Entry F V E → Bool
  | .setupStarted _ _ => true
  | .setupEnded _ _ _ => true
  | _ => false

def isTeardown : Entry F V E → Bool
  | .teardownStarted _ _ => true
  | .teardownEnded _ _ _ => true
  | _ => false

/-- No operation is under way. -/
def Idle (log : List (Entry F V E)) : Prop := ∀ e, log.getLast? = some e → isEnd e = true

/-- No user code is running. -/
def Quiet (log : List (Entry F V E)) : Prop := ∀ e, log.getLast? = some e → isStart e = false

/-- `inner` is what the operation that began last has done. -/
structure Since (log outer inner : List (Entry F V E)) (began : Entry F V E) : Prop where
  log : log = outer ++ began :: inner
  begins : isBegin began = true
  inner : ∀ e ∈ inner, isBegin e = false ∧ isEnd e = false

/-! ## What is allowed -/

variable (defs : Definitions F)

/-- The runtime that owns a fixture a runtime asks for. -/
def owner (i : Nat) (fixture : F) : Option Nat :=
  match (defs.scope fixture).getD .test with
  | .worker => some 0
  | .test => if i = 0 then none else some i

/-- The fixtures a runtime may read are ready. -/
def Ready (log : List (Entry F V E)) (i : Nat) (fixtures : List F) : Prop :=
  ∀ fixture ∈ fixtures, ∃ j value, owner defs i fixture = some j ∧ (fixture, value) ∈ cached j log

/-- A failed `use` has taken back what it set up in the runtime of its fixture, and reports
every error. -/
structure Undone (log : List (Entry F V E)) (promise target : Nat) (failure : Failure E) : Prop where
  undone : ∃ outer inner fixture error, Since log outer inner (.useBegan promise target fixture) ∧
    cached target log = cached target outer ∧
    tornDown target inner = ((setUp target inner).map Prod.fst).reverse ∧
    (∀ j, j ≠ target → tornDown j inner = []) ∧
    (∀ e ∈ setupErrors inner, e = error) ∧
    failure = if teardownErrors inner ≠ [] then
        .aggregate (error :: teardownErrors inner)
          s!"Fixture {defs.id fixture} setup and rollback both failed."
      else error

/-- A closed runtime has torn down what it had cached, and reports every error. -/
structure TornDown (log : List (Entry F V E)) (promise i : Nat) (failure : Option (Failure E)) :
    Prop where
  torn : ∃ outer inner, Since log outer inner (.closeBegan promise i) ∧
    cached i log = [] ∧ (∀ e ∈ inner, isSetup e = false) ∧
    tornDown i inner = ((cached i outer).map Prod.fst).reverse ∧
    (∀ j, j ≠ i → tornDown j inner = []) ∧
    failure = Suite.closeFailure (teardownErrors inner)

/-- What a log may say next. -/
def Lawful (log : List (Entry F V E)) : Entry F V E → Prop
  | .useBegan _ _ _ => Idle log
  | .closeBegan _ i => Idle log ∧ ∀ promise, .closeBegan promise i ∉ log
  | .setupStarted i fixture =>
    Quiet log ∧ (∃ outer inner promise target requested,
      Since log outer inner (.useBegan promise target requested)) ∧
      owner defs i fixture = some i ∧ (∀ promise, .closeBegan promise i ∉ log) ∧
      (∀ c ∈ cached i log, defs.id c.1 ≠ defs.id fixture) ∧
      Ready defs log i (defs.dependencies fixture)
  | .setupEnded i fixture _ => log.getLast? = some (.setupStarted i fixture)
  | .teardownStarted i fixture =>
    Quiet log ∧ (cached i log).getLast?.map Prod.fst = some fixture ∧
      ∃ outer inner promise, (∃ requested, Since log outer inner (.useBegan promise i requested)) ∨
        Since log outer inner (.closeBegan promise i)
  | .teardownEnded i fixture _ => log.getLast? = some (.teardownStarted i fixture)
  | .useEnded promise (some target) (.ok value) =>
    Quiet log ∧ ∃ outer inner fixture, Since log outer inner (.useBegan promise target fixture) ∧
      (fixture, value) ∈ cached target log ∧ (∀ e ∈ inner, isTeardown e = false) ∧
      setupErrors inner = []
  | .useEnded promise (some target) (.error error) =>
    Quiet log ∧ Undone defs log promise target error
  | .useEnded _ none _ => Idle log
  | .closeEnded promise i failure => Quiet log ∧ TornDown log promise i failure

/-! ## Runtimes and their caches -/

/-- A runtime holds a cache. -/
structure Holds (r : FixtureRuntime F V) (cache : List (F × V)) : Prop where
  order : r.setupOrder = r.states.keys
  states : r.states.values.map (fun state => (state.definition, state.value)) = cache
  ids : ∀ e ∈ r.states.entries, e.1 = defs.id e.2.definition

namespace Holds

variable {defs} {r : FixtureRuntime F V} {cache : List (F × V)}

theorem create (scope : FixtureScope) (parent : Option Nat) :
    Holds defs (.create scope parent : FixtureRuntime F V) [] :=
  ⟨rfl, rfl, fun _ he => absurd he List.not_mem_nil⟩

theorem length (h : Holds defs r cache) : r.setupOrder.length = cache.length := by
  rw [h.order, ← h.states]
  simp [OrderedMap.keys, OrderedMap.values]

/-- A fixture with a cached id. -/
theorem get (h : Holds defs r cache) {id : String} {state : FixtureState F V}
    (hget : r.states.get? id = some state) :
    (state.definition, state.value) ∈ cache ∧ defs.id state.definition = id := by
  have hmem := OrderedMap.get?_eq_some_iff.mp hget
  refine ⟨?_, (h.ids _ hmem).symm⟩
  rw [← h.states]
  exact List.mem_map_of_mem (OrderedMap.mem_values_iff.mpr ⟨id, hget⟩)

theorem get_cached (h : Holds defs r cache) {fixture : F} {value : V}
    (hmem : (fixture, value) ∈ cache) :
    ∃ state, r.states.get? (defs.id fixture) = some state ∧ state.definition = fixture ∧
      state.value = value := by
  rw [← h.states] at hmem
  obtain ⟨state, hstate, heq⟩ := List.mem_map.mp hmem
  cases heq
  obtain ⟨id, hid⟩ := OrderedMap.mem_values_iff.mp hstate
  have hkey := h.ids _ (OrderedMap.get?_eq_some_iff.mp hid)
  exact ⟨state, hkey ▸ hid, rfl, rfl⟩

theorem get_none (h : Holds defs r cache) {id : String} :
    r.states.get? id = none ↔ ∀ c ∈ cache, defs.id c.1 ≠ id := by
  constructor
  · intro hnone c hc heq
    obtain ⟨state, hstate, -⟩ := h.get_cached hc
    rw [heq, hnone] at hstate
    cases hstate
  · intro hnew
    by_contra hsome
    obtain ⟨state, hstate⟩ := Option.ne_none_iff_exists'.mp hsome
    obtain ⟨hmem, hid⟩ := h.get hstate
    exact hnew _ hmem hid

/-- A setup appends to the cache. -/
theorem set (h : Holds defs r cache) {fixture : F}
    (hnew : ∀ c ∈ cache, defs.id c.1 ≠ defs.id fixture) (value : V) (teardown : Bool) :
    Holds defs { r with
      states := r.states.set (defs.id fixture) ⟨fixture, value, teardown⟩
      setupOrder := r.setupOrder ++ [defs.id fixture] } (cache ++ [(fixture, value)]) := by
  have hentries := OrderedMap.entries_set_of_get?_none (v := (⟨fixture, value, teardown⟩ :
    FixtureState F V)) (h.get_none.mpr hnew)
  refine ⟨?_, ?_, ?_⟩
  · show r.setupOrder ++ [defs.id fixture] = OrderedMap.keys _
    rw [OrderedMap.keys, hentries, List.map_append, h.order]
    rfl
  · show (OrderedMap.values _).map _ = _
    rw [OrderedMap.values, hentries, List.map_append, List.map_append, ← h.states]
    rfl
  · intro e he
    replace he : e ∈ (r.states.set (defs.id fixture) ⟨fixture, value, teardown⟩).entries := he
    rw [hentries] at he
    rcases List.mem_append.mp he with hold | hnew
    · exact h.ids e hold
    · rw [List.mem_singleton.mp hnew]

/-- The last fixture of the setup order is the last of the cache. -/
theorem pop (h : Holds defs r cache) {id : String} (hid : r.setupOrder.getLast? = some id) :
    ∃ state kept, r.states.get? id = some state ∧
      cache = kept ++ [(state.definition, state.value)] ∧
      Holds defs { r with
        states := r.states.erase id
        setupOrder := r.setupOrder.dropLast } kept := by
  rw [h.order] at hid
  obtain ⟨ids, hids⟩ := List.getLast?_eq_some_iff.mp hid
  obtain ⟨kept, last, hentries, hkept, hlast⟩ := List.map_eq_append_iff.mp hids
  obtain ⟨⟨key, state⟩, rfl, hkey⟩ := List.map_eq_singleton_iff.mp hlast
  obtain rfl : key = id := hkey
  have herase := OrderedMap.entries_erase_concat hentries
  have hstates := h.states
  rw [OrderedMap.values, hentries, List.map_append, List.map_append] at hstates
  refine ⟨state, kept.map fun e => (e.2.definition, e.2.value), ?_, ?_, ?_, ?_, ?_⟩
  · rw [OrderedMap.get?_eq_some_iff, hentries]
    exact List.mem_append_right _ (List.mem_singleton_self _)
  · rw [← hstates, List.map_map]
    rfl
  · show r.setupOrder.dropLast = OrderedMap.keys _
    rw [h.order, hids, List.dropLast_concat, OrderedMap.keys, herase, hkept]
  · show (OrderedMap.values _).map _ = _
    rw [OrderedMap.values, herase, List.map_map]
    rfl
  · intro e he
    replace he : e ∈ (r.states.erase key).entries := he
    rw [herase] at he
    exact h.ids e (hentries ▸ List.mem_append_left _ he)

end Holds

/-! ## Logs that grow -/

section
variable {log outer inner : List (Entry F V E)} {began e : Entry F V E}

/-- An entry of the operation that is under way. -/
theorem Since.snoc (h : Since log outer inner began) (hbegin : isBegin e = false)
    (hend : isEnd e = false) : Since (log ++ [e]) outer (inner ++ [e]) began := by
  refine ⟨by rw [h.log, List.append_assoc, List.cons_append], h.begins, fun x hx => ?_⟩
  rcases List.mem_append.mp hx with hold | hnew
  · exact h.inner x hold
  · rw [List.mem_singleton.mp hnew]
    exact ⟨hbegin, hend⟩

theorem Since.start (log : List (Entry F V E)) (hbegin : isBegin began = true) :
    Since (log ++ [began]) log [] began :=
  ⟨rfl, hbegin, fun _ hx => absurd hx List.not_mem_nil⟩

theorem Quiet.snoc (h : isStart e = false) : Quiet (log ++ [e]) := by
  intro x hx
  rw [List.getLast?_concat] at hx
  cases hx
  exact h

theorem Idle.snoc (h : isEnd e = true) : Idle (log ++ [e]) := by
  intro x hx
  rw [List.getLast?_concat] at hx
  cases hx
  exact h

theorem setUp_snoc (i : Nat) : setUp i (log ++ [e]) = setUp i log ++ setUp i [e] :=
  List.filterMap_append

theorem tornDown_snoc (i : Nat) : tornDown i (log ++ [e]) = tornDown i log ++ tornDown i [e] :=
  List.filterMap_append

theorem setupErrors_snoc : setupErrors (log ++ [e]) = setupErrors log ++ setupErrors [e] :=
  List.filterMap_append

theorem teardownErrors_snoc :
    teardownErrors (log ++ [e]) = teardownErrors log ++ teardownErrors [e] :=
  List.filterMap_append

/-- Only a completed setup and a teardown change a cache. -/
theorem cached_began (i : Nat) (hbegin : isBegin e = true) :
    cached i (log ++ [e]) = cached i log := by
  rw [cached_snoc]
  cases e <;> first | rfl | cases hbegin

end

/-! ## Ownership -/

section
variable {s : Suite F V E}

/-- The worker runtime is number 0, every other runtime is one of its test scopes. -/
structure Shaped (s : Suite F V E) : Prop where
  count : 0 < s.count
  worker : (s.runtime 0).scope = .worker ∧ (s.runtime 0).parent = none
  test : ∀ i, 0 < i → i < s.count → (s.runtime i).scope = .test ∧ (s.runtime i).parent = some 0

variable {defs}

theorem owner_or {i j : Nat} {fixture : F} (h : owner defs i fixture = some j) : j = i ∨ j = 0 := by
  unfold owner at h
  split at h
  · exact .inr (Option.some.inj h).symm
  · split at h
    · cases h
    · exact .inl (Option.some.inj h).symm

/-- The owner of a fixture owns it for itself. -/
theorem owner_self {i j : Nat} {fixture : F} (h : owner defs i fixture = some j) :
    owner defs j fixture = some j := by
  unfold owner at h ⊢
  split at h
  · exact h
  · split at h
    · cases h
    · rename_i hi
      cases h
      exact if_neg hi

theorem Shaped.owner_lt (h : Shaped s) {i j : Nat} {fixture : F} (hi : i < s.count)
    (ho : owner defs i fixture = some j) : j < s.count := by
  rcases owner_or ho with rfl | rfl
  · exact hi
  · exact h.count

theorem Shaped.runtimeFor (h : Shaped s) {i : Nat} (hi : i < s.count) {fixture : F} {target : Nat}
    (ht : s.runtimeFor defs i fixture = .ok target) : owner defs i fixture = some target := by
  unfold Suite.runtimeFor at ht
  unfold owner
  rcases Nat.eq_zero_or_pos i with rfl | hpos
  · obtain ⟨hscope, hparent⟩ := h.worker
    rw [hscope, hparent] at ht
    cases hcase : (defs.scope fixture).getD .test with
    | worker =>
      rw [hcase] at ht
      cases ht
      rfl
    | test =>
      rw [hcase] at ht
      cases ht
  · obtain ⟨hscope, hparent⟩ := h.test i hpos hi
    rw [hscope, hparent] at ht
    cases hcase : (defs.scope fixture).getD .test with
    | worker =>
      rw [hcase] at ht
      cases ht
      rfl
    | test =>
      rw [hcase] at ht
      cases ht
      exact if_neg (Nat.pos_iff_ne_zero.mp hpos)

theorem Shaped.runtimeFor_owner (h : Shaped s) {i : Nat} (hi : i < s.count) {fixture : F}
    {target : Nat} (ho : owner defs i fixture = some target) :
    s.runtimeFor defs i fixture = .ok target := by
  unfold owner at ho
  unfold Suite.runtimeFor
  rcases Nat.eq_zero_or_pos i with rfl | hpos
  · obtain ⟨hscope, hparent⟩ := h.worker
    rw [hscope, hparent]
    cases hcase : (defs.scope fixture).getD .test with
    | worker =>
      rw [hcase] at ho
      cases ho
      rfl
    | test =>
      rw [hcase] at ho
      cases ho
  · obtain ⟨hscope, hparent⟩ := h.test i hpos hi
    rw [hscope, hparent]
    cases hcase : (defs.scope fixture).getD .test with
    | worker =>
      rw [hcase] at ho
      cases ho
      rfl
    | test =>
      rw [hcase] at ho
      simp only [Nat.pos_iff_ne_zero.mp hpos, if_false] at ho
      cases ho
      rfl

end

/-! ## The runtimes and the log agree -/

@[simp] theorem setRuntime_self (s : Suite F V E) (i : Nat) (r : FixtureRuntime F V) :
    (s.setRuntime i r).runtime i = r := Function.update_self ..

theorem setRuntime_of_ne (s : Suite F V E) {i j : Nat} (h : j ≠ i) (r : FixtureRuntime F V) :
    (s.setRuntime i r).runtime j = s.runtime j := Function.update_of_ne h ..

/-- What a changed runtime has kept. -/
theorem setRuntime_field {α : Type} (s : Suite F V E) {i : Nat} {r : FixtureRuntime F V}
    (field : FixtureRuntime F V → α) (hfield : field r = field (s.runtime i)) (j : Nat) :
    field ((s.setRuntime i r).runtime j) = field (s.runtime j) := by
  by_cases hj : j = i
  · subst hj
    rw [setRuntime_self, hfield]
  · rw [setRuntime_of_ne s hj]

structure Recorded (s : Suite F V E) : Prop where
  shaped : Shaped s
  holds : ∀ i, i < s.count → Holds defs (s.runtime i) (cached i s.log)
  fresh : ∀ i, s.count ≤ i → cached i s.log = []
  lawful : Chronicle (Lawful defs) s.log

section
variable {defs} {s : Suite F V E}

theorem Shaped.setRuntime (h : Shaped s) {i : Nat} {r : FixtureRuntime F V}
    (hscope : r.scope = (s.runtime i).scope) (hparent : r.parent = (s.runtime i).parent) :
    Shaped (s.setRuntime i r) where
  count := h.count
  worker := by
    by_cases hi : 0 = i
    · subst hi
      rw [setRuntime_self, hscope, hparent]
      exact h.worker
    · rw [setRuntime_of_ne s hi]
      exact h.worker
  test j hpos hj := by
    by_cases hi : j = i
    · subst hi
      rw [setRuntime_self, hscope, hparent]
      exact h.test j hpos hj
    · rw [setRuntime_of_ne s hi]
      exact h.test j hpos hj

/-- One runtime and the log change together. -/
theorem Recorded.update (h : Recorded defs s) {i : Nat} (hi : i < s.count)
    {r : FixtureRuntime F V} {e : Entry F V E} (he : Lawful defs s.log e)
    (hholds : Holds defs r (replay i (cached i s.log) e))
    (hothers : ∀ j, j ≠ i → replay j (cached j s.log) e = cached j s.log)
    (hscope : r.scope = (s.runtime i).scope) (hparent : r.parent = (s.runtime i).parent) :
    Recorded defs ((s.setRuntime i r).note e) where
  shaped :=
    have hshaped := h.shaped.setRuntime hscope hparent
    ⟨hshaped.count, hshaped.worker, hshaped.test⟩
  holds j hj := by
    show Holds defs ((s.setRuntime i r).runtime j) (cached j (s.log ++ [e]))
    rw [cached_snoc]
    by_cases hij : j = i
    · subst hij
      rw [setRuntime_self]
      exact hholds
    · rw [setRuntime_of_ne s hij, hothers j hij]
      exact h.holds j hj
  fresh j hj := by
    show cached j (s.log ++ [e]) = []
    rw [cached_snoc, hothers j (Nat.ne_of_gt (Nat.lt_of_lt_of_le hi hj))]
    exact h.fresh j hj
  lawful := h.lawful.snoc he

/-- An entry that leaves every cache as it is. -/
theorem Recorded.note (h : Recorded defs s) {e : Entry F V E} (he : Lawful defs s.log e)
    (hsame : ∀ j, replay j (cached j s.log) e = cached j s.log) : Recorded defs (s.note e) := by
  have hupdate := h.update h.shaped.count he ((hsame 0).symm ▸ h.holds 0 h.shaped.count)
    (fun j _ => hsame j) rfl rfl
  rwa [Suite.setRuntime, Function.update_eq_self] at hupdate

end

/-! ## What the running operation relies on -/

/-- A `use` that has not failed. -/
structure Resolving (s : Suite F V E) (u : Use F) (outer inner : List (Entry F V E)) : Prop where
  since : Since s.log outer inner (.useBegan u.promise u.target u.fixture)
  caller : u.runtime < s.count
  owned : owner defs u.runtime u.fixture = some u.target
  cache : cached u.target s.log = cached u.target outer ++ setUp u.target inner
  standing : ∀ e ∈ inner, isTeardown e = false
  errors : setupErrors inner = []
  checkpoint : u.checkpoint = (cached u.target outer).length
  opened : ∀ promise, .closeBegan promise u.runtime ∉ s.log ∧ .closeBegan promise 0 ∉ s.log

/-- A fixture whose dependencies are being resolved is not cached, and not waited for by
one of its dependencies. -/
structure Stacked (log : List (Entry F V E)) (u : Use F) (frame : Frame F) (rest : List (Frame F)) :
    Prop where
  owned : owner defs frame.runtime frame.fixture = some frame.runtime
  caller : frame.runtime = u.runtime ∨ frame.runtime = 0
  new : ∀ c ∈ cached frame.runtime log, defs.id c.1 ≠ defs.id frame.fixture
  ancestry : frame.ancestry = (rest.map fun below => defs.id below.fixture).reverse
  distinct : ∀ below ∈ rest, defs.id below.fixture ≠ defs.id frame.fixture

/-- A stack that goes on when a runtime has a fixture. -/
def Waits (log : List (Entry F V E)) (u : Use F) : Nat → F → List (Frame F) → Prop
  | i, fixture, [] => i = u.target ∧ fixture = u.fixture
  | i, fixture, frame :: rest =>
    owner defs frame.runtime fixture = some i ∧ Stacked defs log u frame rest ∧
      (∃ done, defs.dependencies frame.fixture = done ++ fixture :: frame.pending ∧
        Ready defs log frame.runtime done) ∧
      Waits log u frame.runtime frame.fixture rest

/-- A rollback that has torn down the last fixtures a `use` set up. -/
structure Undoing (s : Suite F V E) (u : Use F) (error : Failure E) (checkpoint : Nat)
    (errors : List (Failure E)) : Prop where
  caller : u.target < s.count
  undoing : ∃ outer inner kept torn, Since s.log outer inner (.useBegan u.promise u.target u.fixture) ∧
    checkpoint = (cached u.target outer).length ∧
    cached u.target s.log = cached u.target outer ++ kept ∧
    setUp u.target inner = kept ++ torn ∧
    tornDown u.target inner = (torn.map Prod.fst).reverse ∧
    (∀ j, j ≠ u.target → tornDown j inner = []) ∧
    errors = teardownErrors inner ∧ ∀ e ∈ setupErrors inner, e = error

/-- A close that has torn down the last fixtures of its runtime. -/
structure TearingDown (s : Suite F V E) (promise i checkpoint : Nat) (errors : List (Failure E)) :
    Prop where
  runtime : i < s.count
  tearing : ∃ outer inner torn, Since s.log outer inner (.closeBegan promise i) ∧
    checkpoint = 0 ∧ cached i outer = cached i s.log ++ torn ∧
    (∀ e ∈ inner, isSetup e = false) ∧
    tornDown i inner = (torn.map Prod.fst).reverse ∧
    (∀ j, j ≠ i → tornDown j inner = []) ∧ errors = teardownErrors inner

def Unwinding (s : Suite F V E) (purpose : Purpose F E) (i checkpoint : Nat)
    (errors : List (Failure E)) : Prop :=
  match purpose with
  | .use u error => i = u.target ∧ Undoing s u error checkpoint errors
  | .close promise => TearingDown s promise i checkpoint errors

def Doing (s : Suite F V E) : Activity F V E → Prop
  | .begun operation => Idle s.log ∧ operation.runtime < s.count
  | .resolve u i fixture ancestry stack =>
    (∃ outer inner, Resolving defs s u outer inner) ∧ Quiet s.log ∧
      owner defs i fixture = some i ∧ (i = u.runtime ∨ i = 0) ∧
      ancestry = (stack.map fun frame => defs.id frame.fixture).reverse ∧
      Waits defs s.log u i fixture stack
  | .dependencies u frame stack =>
    (∃ outer inner, Resolving defs s u outer inner) ∧ Quiet s.log ∧
      Stacked defs s.log u frame stack ∧
      (∃ done, defs.dependencies frame.fixture = done ++ frame.pending ∧
        Ready defs s.log frame.runtime done) ∧
      Waits defs s.log u frame.runtime frame.fixture stack
  | .setup u frame stack =>
    (∃ outer inner, Resolving defs s u outer inner) ∧
      s.log.getLast? = some (.setupStarted frame.runtime frame.fixture) ∧
      Stacked defs s.log u frame stack ∧ Waits defs s.log u frame.runtime frame.fixture stack
  | .returned u value stack =>
    (∃ outer inner, Resolving defs s u outer inner) ∧ Quiet s.log ∧
      ∃ i fixture, Waits defs s.log u i fixture stack ∧ (fixture, value) ∈ cached i s.log
  | .rollback purpose i checkpoint errors =>
    Quiet s.log ∧ Unwinding s purpose i checkpoint errors
  | .teardown purpose i checkpoint errors fixture _ =>
    s.log.getLast? = some (.teardownStarted i fixture) ∧ Unwinding s purpose i checkpoint errors

/-! ## Steps of a `use` -/

/-- Without a teardown a cache only gains what is set up. -/
theorem replay_setUp {e : Entry F V E} (h : isTeardown e = false) (i : Nat)
    (cache : List (F × V)) : replay i cache e = cache ++ setUp i [e] := by
  cases e with
  | setupEnded j fixture result =>
    cases result with
    | error error => simp [replay, setUp]
    | ok value =>
      by_cases hj : j = i
      · simp [replay, setUp, hj]
      · simp [replay, setUp, hj]
  | teardownStarted _ _ => cases h
  | teardownEnded _ _ _ => cases h
  | useBegan _ _ _ => simp [replay, setUp]
  | setupStarted _ _ => simp [replay, setUp]
  | useEnded _ _ _ => simp [replay, setUp]
  | closeBegan _ _ => simp [replay, setUp]
  | closeEnded _ _ _ => simp [replay, setUp]

theorem tornDown_standing {log : List (Entry F V E)} (h : ∀ e ∈ log, isTeardown e = false)
    (i : Nat) : tornDown i log = [] := by
  refine List.filterMap_eq_nil_iff.mpr fun e he => ?_
  have hstanding := h e he
  cases e with
  | teardownStarted _ _ => cases hstanding
  | _ => rfl

theorem teardownErrors_standing {log : List (Entry F V E)}
    (h : ∀ e ∈ log, isTeardown e = false) : teardownErrors log = [] := by
  refine List.filterMap_eq_nil_iff.mpr fun e he => ?_
  have hstanding := h e he
  cases e with
  | teardownEnded _ _ _ => cases hstanding
  | _ => rfl

section
variable {defs} {s t : Suite F V E} {u : Use F} {outer inner : List (Entry F V E)}

theorem Resolving.snoc (h : Resolving defs s u outer inner) {e : Entry F V E}
    (hcount : t.count = s.count) (hlog : t.log = s.log ++ [e]) (hbegin : isBegin e = false)
    (hend : isEnd e = false) (hstanding : isTeardown e = false) (herror : setupErrors [e] = []) :
    Resolving defs t u outer (inner ++ [e]) where
  since := hlog ▸ h.since.snoc hbegin hend
  caller := hcount ▸ h.caller
  owned := h.owned
  cache := by
    rw [hlog, cached_snoc, replay_setUp hstanding, h.cache, setUp_snoc, List.append_assoc]
  standing x hx := by
    rcases List.mem_append.mp hx with hold | hnew
    · exact h.standing x hold
    · rw [List.mem_singleton.mp hnew]
      exact hstanding
  errors := by rw [setupErrors_snoc, h.errors, herror, List.append_nil]
  checkpoint := h.checkpoint
  opened promise := by
    rw [hlog]
    refine ⟨fun hmem => ?_, fun hmem => ?_⟩
    · rcases List.mem_append.mp hmem with hold | hnew
      · exact (h.opened promise).1 hold
      · rw [← List.mem_singleton.mp hnew] at hbegin
        cases hbegin
    · rcases List.mem_append.mp hmem with hold | hnew
      · exact (h.opened promise).2 hold
      · rw [← List.mem_singleton.mp hnew] at hbegin
        cases hbegin

/-- A failure starts a rollback that has torn nothing down yet. -/
theorem unwinding_start (hrec : Recorded defs s) {error : Failure E} (hcaller : u.runtime < s.count)
    (howned : owner defs u.runtime u.fixture = some u.target)
    (hsince : Since s.log outer inner (.useBegan u.promise u.target u.fixture))
    (hcheckpoint : u.checkpoint = (cached u.target outer).length)
    (hcache : cached u.target s.log = cached u.target outer ++ setUp u.target inner)
    (hstanding : ∀ e ∈ inner, isTeardown e = false)
    (herrors : ∀ e ∈ setupErrors inner, e = error) :
    Unwinding s (.use u error) u.target u.checkpoint [] :=
  ⟨rfl, hrec.shaped.owner_lt hcaller howned, outer, inner, setUp u.target inner, [], hsince,
    hcheckpoint, hcache, (List.append_nil _).symm, tornDown_standing hstanding u.target,
    fun j _ => tornDown_standing hstanding j, (teardownErrors_standing hstanding).symm, herrors⟩

theorem Resolving.failed (h : Resolving defs s u outer inner) (hrec : Recorded defs s)
    (hquiet : Quiet s.log) (error : Failure E) : Doing defs s (Suite.failed u error) := by
  refine ⟨hquiet, unwinding_start hrec h.caller h.owned h.since h.checkpoint h.cache h.standing ?_⟩
  intro e he
  rw [h.errors] at he
  exact absurd he List.not_mem_nil

/-- What a stack relies on stays when caches gain fixtures with other ids. -/
theorem Ready.grow {log log' : List (Entry F V E)} {i : Nat} {fixtures : List F}
    (h : Ready defs log i fixtures) (hgrow : ∀ j c, c ∈ cached j log → c ∈ cached j log') :
    Ready defs log' i fixtures := by
  intro fixture hfixture
  obtain ⟨j, value, howner, hcached⟩ := h fixture hfixture
  exact ⟨j, value, howner, hgrow j _ hcached⟩

theorem Waits.grow {log log' : List (Entry F V E)} {i : Nat} {fixture : F} {stack : List (Frame F)}
    (h : Waits defs log u i fixture stack) (hgrow : ∀ j c, c ∈ cached j log → c ∈ cached j log')
    (hnew : ∀ frame ∈ stack, ∀ c ∈ cached frame.runtime log', c ∈ cached frame.runtime log ∨
      defs.id c.1 ≠ defs.id frame.fixture) : Waits defs log' u i fixture stack := by
  induction stack generalizing i fixture with
  | nil => exact h
  | cons frame rest ih =>
    obtain ⟨howner, hstacked, ⟨done, hdone, hready⟩, hwaits⟩ := h
    refine ⟨howner, ⟨hstacked.owned, hstacked.caller, fun c hc => ?_, hstacked.ancestry,
      hstacked.distinct⟩, ⟨done, hdone, hready.grow hgrow⟩,
      ih hwaits fun below hbelow => hnew below (List.mem_cons_of_mem _ hbelow)⟩
    rcases hnew frame List.mem_cons_self c hc with hold | hother
    · exact hstacked.new c hold
    · exact hother

theorem Waits.same {log log' : List (Entry F V E)} {i : Nat} {fixture : F} {stack : List (Frame F)}
    (h : Waits defs log u i fixture stack) (hsame : ∀ j, cached j log' = cached j log) :
    Waits defs log' u i fixture stack :=
  h.grow (fun j _ hc => (hsame j).symm ▸ hc) fun frame _ _ hc => .inl (hsame frame.runtime ▸ hc)

theorem Stacked.same {log log' : List (Entry F V E)} {frame : Frame F} {rest : List (Frame F)}
    (h : Stacked defs log u frame rest) (hsame : ∀ j, cached j log' = cached j log) :
    Stacked defs log' u frame rest :=
  ⟨h.owned, h.caller, hsame frame.runtime ▸ h.new, h.ancestry, h.distinct⟩

variable {stack : List (Frame F)}

/-- The next dependency of the fixture on top. -/
theorem resolveDependency_doing (hrec : Recorded defs s) {frame : Frame F} {dependency : F}
    {rest : List F} (hpending : frame.pending = dependency :: rest)
    (h : Doing defs s (.dependencies u frame stack : Activity F V E)) :
    Doing defs s (s.resolveDependency defs u frame dependency rest stack) := by
  obtain ⟨⟨outer, inner, hresolving⟩, hquiet, hstacked, ⟨done, hdone, hready⟩, hwaits⟩ := h
  have hi : frame.runtime < s.count := by
    rcases hstacked.caller with hcaller | hworker
    · exact hcaller ▸ hresolving.caller
    · exact hworker ▸ hrec.shaped.count
  unfold Suite.resolveDependency
  cases htarget : s.runtimeFor defs frame.runtime dependency with
  | error error => exact hresolving.failed hrec hquiet error
  | ok target =>
    have howner := hrec.shaped.runtimeFor hi htarget
    refine ⟨⟨outer, inner, hresolving⟩, hquiet, owner_self howner, ?_, ?_, howner,
      ⟨hstacked.owned, hstacked.caller, hstacked.new, hstacked.ancestry, hstacked.distinct⟩,
      ⟨done, ?_, hready⟩, hwaits⟩
    · rcases owner_or howner with heq | heq
      · rw [heq]
        exact hstacked.caller
      · exact .inr heq
    · rw [List.map_cons, List.reverse_cons, hstacked.ancestry]
    · rw [hdone, hpending]

variable [DecidableEq F] {i : Nat} {fixture : F} {ancestry : List String}

/-- The runtime of a fixture looks it up or stacks it. -/
theorem resolve_doing (hrec : Recorded defs s)
    (h : Doing defs s (.resolve u i fixture ancestry stack : Activity F V E)) :
    Doing defs s (s.resolve defs u i fixture ancestry stack) := by
  obtain ⟨⟨outer, inner, hresolving⟩, hquiet, howned, hcaller, hancestry, hwaits⟩ := h
  have hi : i < s.count := by
    rcases hcaller with rfl | rfl
    · exact hresolving.caller
    · exact hrec.shaped.count
  unfold Suite.resolve
  split
  · exact hresolving.failed hrec hquiet _
  · cases htarget : s.runtimeFor defs i fixture with
    | error error => exact hresolving.failed hrec hquiet error
    | ok target =>
      obtain rfl : i = target :=
        Option.some.inj (howned.symm.trans (hrec.shaped.runtimeFor hi htarget))
      simp only [ne_eq, not_true_eq_false, if_false]
      unfold Suite.resolveHere
      split
      · exact hresolving.failed hrec hquiet _
      · rename_i hfresh
        cases hget : (s.runtime i).states.get? (defs.id fixture) with
        | none =>
          refine ⟨⟨outer, inner, hresolving⟩, hquiet, ⟨howned, hcaller,
            (hrec.holds i hi).get_none.mp hget, hancestry, fun below hbelow heq => ?_⟩,
            ⟨[], rfl, fun _ hmem => absurd hmem List.not_mem_nil⟩, hwaits⟩
          rw [hancestry, List.mem_reverse] at hfresh
          exact hfresh (List.mem_map.mpr ⟨below, hbelow, heq⟩)
        | some existing =>
          simp only
          split
          · exact hresolving.failed hrec hquiet _
          · rename_i hsame
            obtain rfl : existing.definition = fixture := not_not.mp hsame
            exact ⟨⟨outer, inner, hresolving⟩, hquiet, i, existing.definition, hwaits,
              ((hrec.holds i hi).get hget).1⟩

/-! ## Setups -/

omit [DecidableEq F]

/-- A setup starts when the dependencies are ready. -/
theorem setupStarted_doing (hrec : Recorded defs s) {frame : Frame F} (hpending : frame.pending = [])
    (h : Doing defs s (.dependencies u frame stack : Activity F V E)) :
    Recorded defs (s.note (.setupStarted frame.runtime frame.fixture)) ∧
      Doing defs (s.note (.setupStarted frame.runtime frame.fixture)) (.setup u frame stack) := by
  obtain ⟨⟨outer, inner, hresolving⟩, hquiet, hstacked, ⟨done, hdone, hready⟩, hwaits⟩ := h
  rw [hpending, List.append_nil] at hdone
  have hlawful : Lawful defs s.log (.setupStarted frame.runtime frame.fixture) := by
    refine ⟨hquiet, ⟨outer, inner, _, _, _, hresolving.since⟩, hstacked.owned, fun promise => ?_,
      hstacked.new, hdone ▸ hready⟩
    rcases hstacked.caller with hcaller | hworker
    · rw [hcaller]
      exact (hresolving.opened promise).1
    · rw [hworker]
      exact (hresolving.opened promise).2
  have hsame : ∀ j, cached j (s.log ++ [.setupStarted frame.runtime frame.fixture]) =
      cached j s.log := fun j => cached_snoc ..
  exact ⟨hrec.note hlawful fun _ => rfl,
    ⟨outer, _, hresolving.snoc rfl rfl rfl rfl rfl rfl⟩, List.getLast?_concat,
    hstacked.same hsame, hwaits.same hsame⟩

theorem setupFailed_doing (hrec : Recorded defs s) {frame : Frame F} (error : Failure E)
    (h : Doing defs s (.setup u frame stack : Activity F V E)) :
    Recorded defs (s.note (.setupEnded frame.runtime frame.fixture (.error error))) ∧
      Doing defs (s.note (.setupEnded frame.runtime frame.fixture (.error error)))
        (Suite.failed u error) := by
  obtain ⟨⟨outer, inner, hresolving⟩, hlast, -, -⟩ := h
  have hrec' := hrec.note (show Lawful defs s.log
    (.setupEnded frame.runtime frame.fixture (.error error)) from hlast) fun _ => rfl
  refine ⟨hrec', Quiet.snoc rfl, unwinding_start hrec' hresolving.caller hresolving.owned
    (hresolving.since.snoc rfl rfl) hresolving.checkpoint ?_ ?_ ?_⟩
  · show cached u.target (s.log ++ _) = _
    rw [cached_snoc, setUp_snoc, ← List.append_assoc, ← hresolving.cache]
    exact (List.append_nil _).symm
  · intro e he
    rcases List.mem_append.mp he with hold | hnew
    · exact hresolving.standing e hold
    · rw [List.mem_singleton.mp hnew]
      rfl
  · intro e he
    rw [setupErrors_snoc, hresolving.errors] at he
    exact List.mem_singleton.mp he

theorem addState_doing (hrec : Recorded defs s) {frame : Frame F} (value : V) (teardown : Bool)
    (h : Doing defs s (.setup u frame stack : Activity F V E)) :
    Recorded defs ((s.addState defs frame value teardown).note
        (.setupEnded frame.runtime frame.fixture (.ok value))) ∧
      Doing defs ((s.addState defs frame value teardown).note
        (.setupEnded frame.runtime frame.fixture (.ok value))) (.returned u value stack) := by
  obtain ⟨⟨outer, inner, hresolving⟩, hlast, hstacked, hwaits⟩ := h
  have hi : frame.runtime < s.count := by
    rcases hstacked.caller with hcaller | hworker
    · exact hcaller ▸ hresolving.caller
    · exact hworker ▸ hrec.shaped.count
  have hcached : ∀ j, cached j (s.log ++ [.setupEnded frame.runtime frame.fixture (.ok value)]) =
      if frame.runtime = j then cached j s.log ++ [(frame.fixture, value)]
      else cached j s.log := fun j => cached_snoc ..
  have hlawful : Lawful defs s.log (.setupEnded frame.runtime frame.fixture (.ok value)) := hlast
  have hholds := (hrec.holds _ hi).set hstacked.new value teardown
  have hreplay : replay frame.runtime (cached frame.runtime s.log)
      (.setupEnded frame.runtime frame.fixture (.ok value) : Entry F V E) =
      cached frame.runtime s.log ++ [(frame.fixture, value)] := if_pos rfl
  refine ⟨?_, ⟨outer, _, hresolving.snoc rfl rfl rfl rfl rfl rfl⟩, Quiet.snoc rfl, frame.runtime,
    frame.fixture, hwaits.grow ?_ ?_, ?_⟩
  · rw [← hreplay] at hholds
    exact hrec.update hi hlawful hholds (fun j hj => if_neg (Ne.symm hj)) rfl rfl
  · intro j c hc
    show c ∈ cached j (s.log ++ _)
    rw [hcached]
    split
    · exact List.mem_append_left _ hc
    · exact hc
  · intro below hbelow c hc
    replace hc : c ∈ cached below.runtime (s.log ++ _) := hc
    rw [hcached] at hc
    split at hc
    · rcases List.mem_append.mp hc with hold | hnew
      · exact .inl hold
      · rw [List.mem_singleton.mp hnew]
        exact .inr (Ne.symm (hstacked.distinct below hbelow))
    · exact .inl hc
  · show _ ∈ cached frame.runtime (s.log ++ _)
    rw [hcached, if_pos rfl]
    exact List.mem_append_right _ (List.mem_singleton_self _)

/-- A resolved dependency is ready. -/
theorem returned_doing {value : V} {frame : Frame F}
    (h : Doing defs s (.returned u value (frame :: stack) : Activity F V E)) :
    Doing defs s (.dependencies u frame stack) := by
  obtain ⟨hresolving, hquiet, i, fixture, ⟨howner, hstacked, ⟨done, hdone, hready⟩, hwaits⟩,
    hcached⟩ := h
  refine ⟨hresolving, hquiet, hstacked, ⟨done ++ [fixture], ?_, ?_⟩, hwaits⟩
  · rw [hdone, List.append_assoc]
    rfl
  · intro dependency hdependency
    rcases List.mem_append.mp hdependency with hold | hnew
    · exact hready dependency hold
    · rw [List.mem_singleton.mp hnew]
      exact ⟨i, value, howner, hcached⟩

theorem useEnded_recorded (hrec : Recorded defs s) {value : V}
    (h : Doing defs s (.returned u value [] : Activity F V E)) :
    Recorded defs (s.note (.useEnded u.promise (some u.target) (.ok value))) := by
  obtain ⟨⟨outer, inner, hresolving⟩, hquiet, i, fixture, ⟨rfl, rfl⟩, hcached⟩ := h
  exact hrec.note ⟨hquiet, outer, inner, u.fixture, hresolving.since, hcached,
    hresolving.standing, hresolving.errors⟩ fun _ => rfl

/-! ## Teardowns -/

theorem teardownEnded_doing (hrec : Recorded defs s) {purpose : Purpose F E} {i checkpoint : Nat}
    {errors : List (Failure E)} {fixture : F} {called : Bool} (error : Option (Failure E))
    (h : Doing defs s (.teardown purpose i checkpoint errors fixture called : Activity F V E)) :
    Recorded defs (s.note (.teardownEnded i fixture error)) ∧
      Doing defs (s.note (.teardownEnded i fixture error))
        (.rollback purpose i checkpoint (errors ++ error.toList)) := by
  obtain ⟨hlast, hunwinding⟩ := h
  have herrors : teardownErrors [(.teardownEnded i fixture error : Entry F V E)] =
      error.toList := by
    cases error <;> rfl
  have hsame : ∀ j, cached j (s.log ++ [.teardownEnded i fixture error]) = cached j s.log :=
    fun j => cached_snoc ..
  refine ⟨hrec.note hlast fun _ => rfl, Quiet.snoc rfl, ?_⟩
  cases purpose with
  | use u error' =>
    obtain ⟨rfl, hcaller, outer, inner, kept, torn, hsince, hcheckpoint, hcached, hset, htorn, hothers,
      hreported, hfailed⟩ := hunwinding
    refine ⟨rfl, hcaller, outer, _, kept, torn, hsince.snoc rfl rfl, hcheckpoint,
      (hsame u.target).trans hcached, ?_, ?_, fun j hj => ?_, ?_, fun e he => ?_⟩
    · rw [setUp_snoc, hset]
      exact List.append_nil _
    · rw [tornDown_snoc, htorn]
      exact List.append_nil _
    · rw [tornDown_snoc, hothers j hj]
      rfl
    · rw [teardownErrors_snoc, hreported, herrors]
    · rw [setupErrors_snoc] at he
      exact hfailed e (by simpa [setupErrors] using he)
  | close promise =>
    obtain ⟨hi, outer, inner, torn, hsince, hcheckpoint, hcached, hset, htorn, hothers, hreported⟩ :=
      hunwinding
    refine ⟨hi, outer, _, torn, hsince.snoc rfl rfl, hcheckpoint,
      hcached.trans (by rw [← hsame i]; rfl), fun e he => ?_, ?_, fun j hj => ?_, ?_⟩
    · rcases List.mem_append.mp he with hold | hnew
      · exact hset e hold
      · rw [List.mem_singleton.mp hnew]
        rfl
    · rw [tornDown_snoc, htorn]
      exact List.append_nil _
    · rw [tornDown_snoc, hothers j hj]
      rfl
    · rw [teardownErrors_snoc, hreported, herrors]

/-- A teardown is the one of the fixture cached last. -/
theorem popState_doing (hrec : Recorded defs s) {purpose : Purpose F E} {i checkpoint : Nat}
    {errors : List (Failure E)} {id : String} {state : FixtureState F V}
    (hunwinding : Unwinding s purpose i checkpoint errors) (hquiet : Quiet s.log)
    (hmore : checkpoint < (s.runtime i).setupOrder.length)
    (hid : (s.runtime i).setupOrder.getLast? = some id)
    (hstate : (s.runtime i).states.get? id = some state) :
    Recorded defs ((s.popState i id).note (.teardownStarted i state.definition)) ∧
      Doing defs ((s.popState i id).note (.teardownStarted i state.definition))
        (.teardown purpose i checkpoint errors state.definition state.teardown) := by
  have hi : i < s.count := by
    cases purpose with
    | use u error => exact hunwinding.1 ▸ hunwinding.2.caller
    | close promise => exact hunwinding.runtime
  obtain ⟨state', kept, hstate', hcached, hholds⟩ := (hrec.holds i hi).pop hid
  cases hstate.symm.trans hstate'
  have hlength := (hrec.holds i hi).length
  rw [hlength] at hmore
  have hreplay : replay i (cached i s.log) (.teardownStarted i state.definition : Entry F V E) =
      kept := by
    rw [hcached]
    exact (if_pos rfl).trans List.dropLast_concat
  have hkept : cached i (s.log ++ [.teardownStarted i state.definition]) = kept :=
    (cached_snoc ..).trans hreplay
  have hlast : (cached i s.log).getLast?.map Prod.fst = some state.definition := by
    rw [hcached, List.getLast?_concat]
    rfl
  have htorn : ∀ j, tornDown j [(.teardownStarted i state.definition : Entry F V E)] =
      if i = j then [state.definition] else [] := by
    intro j
    by_cases hj : i = j <;> simp [tornDown, hj]
  have hrec' : ∀ outer inner promise, ((∃ requested, Since s.log outer inner (.useBegan promise i
      requested)) ∨ Since s.log outer inner (.closeBegan promise i)) →
      Recorded defs ((s.popState i id).note (.teardownStarted i state.definition)) := by
    intro outer inner promise hsince
    rw [← hreplay] at hholds
    exact hrec.update hi ⟨hquiet, hlast, outer, inner, promise, hsince⟩ hholds
      (fun j hj => if_neg (Ne.symm hj)) rfl rfl
  cases purpose with
  | use u error =>
    obtain ⟨rfl, hcaller, outer, inner, held, torn, hsince, hcheckpoint, hheld, hset, htorn',
      hothers, hreported, hfailed⟩ := hunwinding
    refine ⟨hrec' _ _ _ (.inl ⟨_, hsince⟩), List.getLast?_concat, rfl, hcaller, outer,
      inner ++ [.teardownStarted u.target state.definition], ?_⟩
    -- The rollback has not reached the checkpoint, so the fixture is one the `use` set up.
    obtain ⟨held', last, rfl⟩ : ∃ held' last, held = held' ++ [last] := by
      rcases List.eq_nil_or_concat held with rfl | ⟨held', last, rfl⟩
      · rw [hheld, List.append_nil] at hmore
        omega
      · exact ⟨held', last, List.concat_eq_append⟩
    rw [hcached, ← List.append_assoc] at hheld
    obtain ⟨rfl, hlast'⟩ := List.append_inj' hheld rfl
    cases hlast'
    refine ⟨held', (state.definition, state.value) :: torn, hsince.snoc rfl rfl, hcheckpoint, hkept,
      ?_, ?_, fun j hj => ?_, ?_, fun e he => ?_⟩
    · have hnone : setUp u.target [(.teardownStarted u.target state.definition : Entry F V E)] = [] :=
        rfl
      rw [setUp_snoc, hset, hnone, List.append_nil, List.append_assoc]
      rfl
    · rw [tornDown_snoc, htorn', htorn, if_pos rfl, List.map_cons, List.reverse_cons]
    · rw [tornDown_snoc, hothers j hj, htorn, if_neg (Ne.symm hj)]
      rfl
    · rw [teardownErrors_snoc, hreported]
      exact (List.append_nil _).symm
    · rw [setupErrors_snoc] at he
      exact hfailed e (by simpa [setupErrors] using he)
  | close promise =>
    obtain ⟨-, outer, inner, torn, hsince, hcheckpoint, hheld, hset, htorn', hothers, hreported⟩ :=
      hunwinding
    refine ⟨hrec' _ _ _ (.inr hsince), List.getLast?_concat, hi, outer, _,
      (state.definition, state.value) :: torn, hsince.snoc rfl rfl, hcheckpoint, ?_, fun e he => ?_,
      ?_, fun j hj => ?_, ?_⟩
    · rw [hheld, hcached, List.append_assoc]
      exact congrArg (· ++ _) hkept.symm
    · rcases List.mem_append.mp he with hold | hnew
      · exact hset e hold
      · rw [List.mem_singleton.mp hnew]
        rfl
    · rw [tornDown_snoc, htorn', htorn, if_pos rfl, List.map_cons, List.reverse_cons]
    · rw [tornDown_snoc, hothers j hj, htorn, if_neg (Ne.symm hj)]
      rfl
    · rw [teardownErrors_snoc, hreported]
      exact (List.append_nil _).symm

/-- Forgetting a child changes no cache. -/
theorem deleteChild_runtime (s : Suite F V E) (i j : Nat) :
    ∃ children, (s.deleteChild i).runtime j = { s.runtime j with children } := by
  unfold Suite.deleteChild
  split
  · exact ⟨_, rfl⟩
  · rename_i parent _
    by_cases hj : j = parent
    · subst hj
      rw [setRuntime_self]
      exact ⟨_, rfl⟩
    · rw [setRuntime_of_ne s hj]
      exact ⟨_, rfl⟩

theorem deleteChild_frame (s : Suite F V E) (i : Nat) :
    (s.deleteChild i).log = s.log ∧ (s.deleteChild i).count = s.count := by
  unfold Suite.deleteChild
  split <;> exact ⟨rfl, rfl⟩

theorem Recorded.deleteChild (h : Recorded defs s) (i : Nat) : Recorded defs (s.deleteChild i) := by
  obtain ⟨hlog, hcount⟩ := deleteChild_frame s i
  refine ⟨⟨hcount ▸ h.shaped.count, ?_, fun j hpos hj => ?_⟩, fun j hj => ?_, fun j hj => ?_, ?_⟩
  · obtain ⟨children, hruntime⟩ := deleteChild_runtime s i 0
    rw [hruntime]
    exact h.shaped.worker
  · obtain ⟨children, hruntime⟩ := deleteChild_runtime s i j
    rw [hruntime]
    exact h.shaped.test j hpos (hcount ▸ hj)
  · obtain ⟨children, hruntime⟩ := deleteChild_runtime s i j
    have hholds := h.holds j (hcount ▸ hj)
    rw [hruntime, hlog]
    exact ⟨hholds.order, hholds.states, hholds.ids⟩
  · rw [hlog]
    exact h.fresh j (hcount ▸ hj)
  · rw [hlog]
    exact h.lawful

/-- An operation ends when it has torn down what it has to. -/
theorem finish_recorded (hrec : Recorded defs s) {purpose : Purpose F E} {i checkpoint : Nat}
    {errors : List (Failure E)} (hunwinding : Unwinding s purpose i checkpoint errors)
    (hquiet : Quiet s.log) (hdone : ¬ checkpoint < (s.runtime i).setupOrder.length) :
    Recorded defs (s.finish defs purpose i errors) := by
  cases purpose with
  | use u error =>
    obtain ⟨rfl, hcaller, outer, inner, kept, torn, hsince, hcheckpoint, hcached, hset, htorn, hothers,
      hreported, hfailed⟩ := hunwinding
    rw [(hrec.holds _ hcaller).length, hcached, List.length_append] at hdone
    obtain rfl : kept = [] := List.eq_nil_of_length_eq_zero (by omega)
    rw [List.append_nil] at hcached
    rw [List.nil_append] at hset
    refine hrec.note ⟨hquiet, outer, inner, u.fixture, error, hsince, hcached, ?_, hothers, hfailed,
      ?_⟩ fun _ => rfl
    · rw [htorn, hset]
    · rw [← hreported]
      rfl
  | close promise =>
    obtain ⟨hi, outer, inner, torn, hsince, hcheckpoint, hcached, hset, htorn, hothers, hreported⟩ :=
      hunwinding
    have hempty : cached i s.log = [] := by
      rw [(hrec.holds _ hi).length] at hdone
      exact List.eq_nil_of_length_eq_zero (by omega)
    rw [hempty, List.nil_append] at hcached
    obtain ⟨hlog, -⟩ := deleteChild_frame s i
    refine (hrec.deleteChild i).note ?_ fun _ => rfl
    rw [hlog]
    exact ⟨hquiet, outer, inner, hsince, hempty, hset, by rw [htorn, hcached], hothers,
      by rw [hreported]⟩

end

/-! ## What a step leaves alone -/

/-- Whether runtimes are open, and which there are. -/
structure Same (s t : Suite F V E) : Prop where
  count : t.count = s.count
  coordinator : t.coordinator = s.coordinator
  closing : ∀ i, (t.runtime i).closing = (s.runtime i).closing
  closePromise : ∀ i, (t.runtime i).closePromise = (s.runtime i).closePromise
  closed : ∀ i, (t.runtime i).closed = (s.runtime i).closed
  children : ∀ i, (t.runtime i).children = (s.runtime i).children

theorem Same.refl (s : Suite F V E) : Same s s :=
  ⟨rfl, rfl, fun _ => rfl, fun _ => rfl, fun _ => rfl, fun _ => rfl⟩

theorem Same.note (s : Suite F V E) (e : Entry F V E) : Same s (s.note e) :=
  ⟨rfl, rfl, fun _ => rfl, fun _ => rfl, fun _ => rfl, fun _ => rfl⟩

/-- Setting up and tearing down change what is cached only. -/
theorem Same.setRuntime (s : Suite F V E) (i : Nat) (states : OrderedMap String (FixtureState F V))
    (setupOrder : List String) (e : Entry F V E) :
    Same s ((s.setRuntime i { s.runtime i with states, setupOrder }).note e) where
  count := rfl
  coordinator := rfl
  closing := setRuntime_field s (·.closing) rfl
  closePromise := setRuntime_field s (·.closePromise) rfl
  closed := setRuntime_field s (·.closed) rfl
  children := setRuntime_field s (·.children) rfl

/-- The runtime that was asked for the fixture an activity resolves. -/
def callerOf : Activity F V E → Option Nat
  | .begun (.use _ i _) => some i
  | .begun (.close _ _) => none
  | .resolve u _ _ _ _ => some u.runtime
  | .dependencies u _ _ => some u.runtime
  | .setup u _ _ => some u.runtime
  | .returned u _ _ => some u.runtime
  | .rollback _ _ _ _ => none
  | .teardown _ _ _ _ _ _ => none

def begunOf : Activity F V E → Option (Operation F)
  | .begun operation => some operation
  | _ => none

/-- What a step of the running operation does. -/
structure Stepped (s : Suite F V E) (a : Activity F V E) (t : Suite F V E)
    (next : Option (Activity F V E)) : Prop where
  recorded : Recorded defs t
  doing : ∀ b, next = some b → Doing defs t b
  idle : next = none → Idle t.log
  caller : ∀ b, next = some b → begunOf b = none ∧ ∀ i, callerOf b = some i → callerOf a = some i
  count : t.count = s.count
  coordinator : t.coordinator = s.coordinator
  closing : ∀ i, (t.runtime i).closing = (s.runtime i).closing
  closePromise : ∀ i, (t.runtime i).closePromise = (s.runtime i).closePromise
  stays : ∀ i, (s.runtime i).closed = true → (t.runtime i).closed = true
  closed : ∀ i, (t.runtime i).closed = true → (s.runtime i).closed = true ∨
    ∃ promise, a = .begun (.close promise i)
  children : ∀ i ∈ (t.runtime 0).children, i ∈ (s.runtime 0).children
  kept : ∀ i ∈ (s.runtime 0).children, i ∈ (t.runtime 0).children ∨
    ∃ promise failure, .closeEnded promise i failure ∈ t.log
  log : t.log = s.log ∨ ∃ e, t.log = s.log ++ [e] ∧
    (∀ promise i, e = .closeBegan promise i →
      a = .begun (.close promise i) ∧ (t.runtime i).closed = true) ∧
    ∀ promise i failure, e = .closeEnded promise i failure → .closeBegan promise i ∈ s.log

section
variable {defs} {s t : Suite F V E} {a b : Activity F V E} {e : Entry F V E}

/-- A step that logs nothing. -/
theorem Stepped.silent (hrec : Recorded defs s) (hdoing : Doing defs s b) (hbegun : begunOf b = none)
    (hcaller : ∀ i, callerOf b = some i → callerOf a = some i) : Stepped defs s a s (some b) where
  recorded := hrec
  doing b' hb := Option.some.inj hb ▸ hdoing
  idle hnone := by cases hnone
  caller b' hb := Option.some.inj hb ▸ ⟨hbegun, hcaller⟩
  count := rfl
  coordinator := rfl
  closing _ := rfl
  closePromise _ := rfl
  stays _ := id
  closed _ := .inl
  children _ := id
  kept _ := .inl
  log := .inl rfl

/-- A step that logs an entry and changes at most a cache. -/
theorem Stepped.logged {next : Option (Activity F V E)} (hrec : Recorded defs t) (hsame : Same s t)
    (hlog : t.log = s.log ++ [e]) (hbegan : ∀ promise i, e ≠ .closeBegan promise i)
    (hended : ∀ promise i failure, e ≠ .closeEnded promise i failure)
    (hdoing : ∀ b, next = some b → Doing defs t b ∧ begunOf b = none ∧
      ∀ i, callerOf b = some i → callerOf a = some i)
    (hidle : next = none → isEnd e = true) : Stepped defs s a t next where
  recorded := hrec
  doing b hb := (hdoing b hb).1
  idle hnone := by
    rw [hlog]
    exact Idle.snoc (hidle hnone)
  caller b hb := (hdoing b hb).2
  count := hsame.count
  coordinator := hsame.coordinator
  closing := hsame.closing
  closePromise := hsame.closePromise
  stays i hclosed := (hsame.closed i).trans hclosed
  closed i hclosed := .inl ((hsame.closed i).symm.trans hclosed)
  children i hi := hsame.children 0 ▸ hi
  kept i hi := .inl (hsame.children 0 ▸ hi)
  log := .inr ⟨e, hlog, fun promise i heq => absurd heq (hbegan promise i),
    fun promise i failure heq => absurd heq (hended promise i failure)⟩

/-- One round of a rollback. -/
theorem rollback_stepped (hrec : Recorded defs s) {purpose : Purpose F E} {i checkpoint : Nat}
    {errors : List (Failure E)} {next : Option (Activity F V E)}
    (h : Doing defs s (.rollback purpose i checkpoint errors : Activity F V E))
    (ht : s.rollback defs purpose i checkpoint errors = (t, next)) :
    Stepped defs s (.rollback purpose i checkpoint errors) t next := by
  obtain ⟨hquiet, hunwinding⟩ := h
  have hi : i < s.count := by
    cases purpose with
    | use u error => exact hunwinding.1 ▸ hunwinding.2.caller
    | close promise => exact hunwinding.runtime
  unfold Suite.rollback at ht
  by_cases hmore : checkpoint < (s.runtime i).setupOrder.length
  · rw [if_pos hmore] at ht
    cases hid : (s.runtime i).setupOrder.getLast? with
    | none =>
      rw [List.getLast?_eq_none_iff.mp hid] at hmore
      exact absurd hmore (Nat.not_lt_zero _)
    | some id =>
      obtain ⟨state, kept, hstate, -⟩ := (hrec.holds i hi).pop hid
      simp only [hid, hstate] at ht
      cases ht
      obtain ⟨hrec', hdoing⟩ := popState_doing hrec hunwinding hquiet hmore hid hstate
      refine Stepped.logged hrec' (Same.setRuntime ..) rfl nofun nofun (fun b hb => ?_) nofun
      cases hb
      exact ⟨hdoing, rfl, nofun⟩
  · rw [if_neg hmore] at ht
    cases ht
    have hfinish := finish_recorded hrec hunwinding hquiet hmore
    cases purpose with
    | use u error => exact Stepped.logged hfinish (Same.note ..) rfl nofun nofun nofun fun _ => rfl
    | close promise =>
      obtain ⟨-, outer, inner, torn, hsince, -⟩ := hunwinding
      have hbegan : .closeBegan promise i ∈ s.log := by
        rw [hsince.log]
        exact List.mem_append_right _ List.mem_cons_self
      obtain ⟨hlog, hcount⟩ := deleteChild_frame s i
      have hfield : ∀ {α : Type} (field : FixtureRuntime F V → α),
          (∀ r children, field { r with children } = field r) → ∀ j,
          field ((s.deleteChild i).runtime j) = field (s.runtime j) := by
        intro α field hfield j
        obtain ⟨children, heq⟩ := deleteChild_runtime s i j
        exact (congrArg field heq).trans (hfield _ _)
      have hclosed := hfield (·.closed) fun _ _ => rfl
      have hcoordinator : (s.deleteChild i).coordinator = s.coordinator := by
        unfold Suite.deleteChild
        split <;> rfl
      have hchildren : ∀ j, j ∈ ((s.deleteChild i).runtime 0).children ∨ j = i ↔
          j ∈ (s.runtime 0).children ∨ j = i := by
        intro j
        unfold Suite.deleteChild
        split
        · rfl
        · rename_i parent _
          by_cases hparent : 0 = parent
          · subst hparent
            rw [setRuntime_self, List.mem_filter]
            by_cases hj : j = i <;> simp [hj]
          · rw [setRuntime_of_ne s hparent]
      refine ⟨hfinish, nofun, fun _ => Idle.snoc rfl, nofun, hcount, hcoordinator,
        hfield (·.closing) fun _ _ => rfl, hfield (·.closePromise) fun _ _ => rfl,
        fun j hj => (hclosed j).trans hj, fun j hj => .inl ((hclosed j).symm.trans hj), fun j hj => ?_,
        fun j hj => ?_, .inr ⟨_, congrArg (· ++ _) hlog, nofun, ?_⟩⟩
      · replace hj : j ∈ ((s.deleteChild i).runtime 0).children := hj
        unfold Suite.deleteChild at hj
        split at hj
        · exact hj
        · rename_i parent _
          by_cases hparent : 0 = parent
          · subst hparent
            rw [setRuntime_self] at hj
            exact (List.mem_filter.mp hj).1
          · rw [setRuntime_of_ne s hparent] at hj
            exact hj
      · rcases (hchildren j).mpr (.inl hj) with hstays | rfl
        · exact .inl hstays
        · exact .inr ⟨promise, Suite.closeFailure errors,
            List.mem_append_right _ (List.mem_singleton_self _)⟩
      · intro promise' j failure heq
        cases heq
        exact hbegan

/-- A `use` begins while its runtime and the worker are open. -/
theorem beginUse_stepped (hrec : Recorded defs s) {promise i : Nat} {fixture : F}
    {next : Option (Activity F V E)}
    (hopened : ∀ promise, .closeBegan promise i ∉ s.log ∧ .closeBegan promise 0 ∉ s.log)
    (h : Doing defs s (.begun (.use promise i fixture) : Activity F V E))
    (ht : s.begin defs (.use promise i fixture) = (t, next)) :
    Stepped defs s (.begun (.use promise i fixture)) t next := by
  obtain ⟨hidle, hi⟩ := h
  replace hi : i < s.count := hi
  unfold Suite.begin at ht
  cases htarget : s.runtimeFor defs i fixture with
  | error error =>
    simp only [htarget] at ht
    cases ht
    exact Stepped.logged (hrec.note hidle fun _ => rfl) (Same.note ..) rfl nofun nofun nofun
      fun _ => rfl
  | ok target =>
    simp only [htarget] at ht
    cases ht
    have howner := hrec.shaped.runtimeFor hi htarget
    have hrec' := hrec.note (show Lawful defs s.log (.useBegan promise target fixture) from hidle)
      fun _ => rfl
    refine Stepped.logged hrec' (Same.note ..) rfl nofun nofun (fun b hb => ?_) nofun
    cases hb
    refine ⟨⟨⟨s.log, [], Since.start s.log rfl, hi, howner, ?_,
      fun _ he => absurd he List.not_mem_nil, rfl, ?_, fun promise' => ?_⟩, Quiet.snoc rfl,
      owner_self howner, owner_or howner, rfl, rfl, rfl⟩, rfl, fun j hj => hj⟩
    · show cached target (s.log ++ _) = _
      rw [cached_began target rfl]
      exact (List.append_nil _).symm
    · exact (hrec.holds target (hrec.shaped.owner_lt hi howner)).length
    · obtain ⟨hcaller, hworker⟩ := hopened promise'
      exact ⟨fun hmem => hcaller (by simpa [Suite.note] using hmem),
        fun hmem => hworker (by simpa [Suite.note] using hmem)⟩

theorem beginClose_stepped (hrec : Recorded defs s) {promise i : Nat}
    {next : Option (Activity F V E)} (hopened : ∀ promise, .closeBegan promise i ∉ s.log)
    (h : Doing defs s (.begun (.close promise i) : Activity F V E))
    (ht : s.begin defs (.close promise i) = (t, next)) :
    Stepped defs s (.begun (.close promise i)) t next := by
  obtain ⟨hidle, hi⟩ := h
  replace hi : i < s.count := hi
  cases ht
  have hholds := hrec.holds i hi
  have hlawful : Lawful defs s.log (.closeBegan promise i : Entry F V E) := ⟨hidle, hopened⟩
  have hrec' : Recorded defs ((s.setRuntime i { s.runtime i with closed := true }).note
      (.closeBegan promise i)) :=
    hrec.update hi hlawful (show Holds defs { s.runtime i with closed := true } (cached i s.log)
      from ⟨hholds.order, hholds.states, hholds.ids⟩) (fun _ _ => rfl) rfl rfl
  have hclosed : ((s.setRuntime i { s.runtime i with closed := true }).runtime i).closed = true := by
    rw [setRuntime_self]
  have hchildren : ((s.setRuntime i { s.runtime i with closed := true }).runtime 0).children =
      (s.runtime 0).children := setRuntime_field s (·.children) (by rfl) 0
  refine ⟨hrec', fun b hb => ?_, nofun, fun b hb => ?_, rfl, rfl,
    setRuntime_field s (·.closing) rfl, setRuntime_field s (·.closePromise) rfl, fun j hj => ?_,
    fun j hj => ?_, fun j hj => hchildren ▸ hj, fun j hj => .inl (hchildren.symm ▸ hj),
    .inr ⟨_, rfl, fun promise' j heq => ?_, nofun⟩⟩
  · cases hb
    refine ⟨Quiet.snoc rfl, hi, s.log, [], [], Since.start s.log rfl, rfl, ?_,
      fun _ he => absurd he List.not_mem_nil, rfl, fun _ _ => rfl, rfl⟩
    rw [List.append_nil]
    exact (cached_began i rfl).symm
  · cases hb
    exact ⟨rfl, nofun⟩
  · by_cases hij : j = i
    · subst hij
      exact hclosed
    · exact (congrArg (·.closed) (setRuntime_of_ne s hij _)).trans hj
  · by_cases hij : j = i
    · subst hij
      exact .inr ⟨promise, rfl⟩
    · exact .inl ((congrArg (·.closed) (setRuntime_of_ne s hij _)).symm.trans hj)
  · cases heq
    exact ⟨rfl, hclosed⟩

/-- The next step of the running operation, once it has begun. -/
theorem advance_stepped [DecidableEq F] (hrec : Recorded defs s) (hdoing : Doing defs s a)
    (hbegun : begunOf a = none) {next : Option (Activity F V E)}
    (ht : s.advance defs a = some (t, next)) : Stepped defs s a t next := by
  cases a with
  | begun operation => cases hbegun
  | resolve u i fixture ancestry stack =>
    cases ht
    refine Stepped.silent hrec (resolve_doing hrec hdoing) ?_ ?_
    · unfold Suite.resolve Suite.resolveHere
      (repeat' split) <;> rfl
    · unfold Suite.resolve Suite.resolveHere
      (repeat' split) <;> first | exact fun _ => id | nofun
  | dependencies u frame stack =>
    cases hpending : frame.pending with
    | nil =>
      simp only [Suite.advance, hpending] at ht
      cases ht
      obtain ⟨hrec', hdoing'⟩ := setupStarted_doing hrec hpending hdoing
      refine Stepped.logged hrec' (Same.note ..) rfl nofun nofun (fun b hb => ?_) nofun
      cases hb
      exact ⟨hdoing', rfl, fun _ => id⟩
    | cons dependency rest =>
      simp only [Suite.advance, hpending] at ht
      cases ht
      refine Stepped.silent hrec (resolveDependency_doing hrec hpending hdoing) ?_ ?_
      · unfold Suite.resolveDependency
        split <;> rfl
      · unfold Suite.resolveDependency
        split <;> first | exact fun _ => id | nofun
  | setup u frame stack => cases ht
  | returned u value stack =>
    cases stack with
    | nil =>
      cases ht
      exact Stepped.logged (useEnded_recorded hrec hdoing) (Same.note ..) rfl nofun nofun nofun
        fun _ => rfl
    | cons frame stack =>
      cases ht
      exact Stepped.silent hrec (returned_doing hdoing) rfl fun _ => id
  | rollback purpose i checkpoint errors =>
    exact rollback_stepped hrec hdoing (Option.some.inj ht)
  | teardown purpose i checkpoint errors fixture called => cases ht

theorem setupEnds_stepped (hrec : Recorded defs s) (hdoing : Doing defs s a)
    {result : Except (Failure E) (V × Bool)} {next : Option (Activity F V E)}
    (ht : s.setupEnds defs result a = some (t, next)) : Stepped defs s a t next := by
  cases a with
  | setup u frame stack =>
    cases result with
    | error error =>
      cases ht
      obtain ⟨hrec', hdoing'⟩ := setupFailed_doing hrec error hdoing
      refine Stepped.logged hrec' (Same.note ..) rfl nofun nofun (fun b hb => ?_) nofun
      cases hb
      exact ⟨hdoing', rfl, nofun⟩
    | ok resource =>
      cases ht
      obtain ⟨hrec', hdoing'⟩ := addState_doing hrec resource.1 resource.2 hdoing
      refine Stepped.logged hrec' (Same.setRuntime ..) rfl nofun nofun (fun b hb => ?_) nofun
      cases hb
      exact ⟨hdoing', rfl, fun _ => id⟩
  | _ => cases ht

theorem teardownEnds_stepped (hrec : Recorded defs s) (hdoing : Doing defs s a)
    {error : Option (Failure E)} {next : Option (Activity F V E)}
    (ht : s.teardownEnds error a = some (t, next)) : Stepped defs s a t next := by
  cases a with
  | teardown purpose i checkpoint errors fixture called =>
    obtain ⟨-, ht⟩ := Option.ite_none_left_eq_some.mp ht
    cases ht
    obtain ⟨hrec', hdoing'⟩ := teardownEnded_doing hrec error hdoing
    refine Stepped.logged hrec' (Same.note ..) rfl nofun nofun (fun b hb => ?_) nofun
    cases hb
    exact ⟨hdoing', rfl, nofun⟩
  | _ => cases ht

end

/-! ## What calls leave alone -/

section
variable {defs} {s t : Suite F V E}

/-- A call may add runtimes but leaves those there are, and the log. -/
theorem Doing.mono {a : Activity F V E} (h : Doing defs s a) (hlog : t.log = s.log)
    (hcount : s.count ≤ t.count) : Doing defs t a := by
  have hresolving : ∀ {u : Use F}, (∃ outer inner, Resolving defs s u outer inner) →
      ∃ outer inner, Resolving defs t u outer inner := by
    rintro u ⟨outer, inner, h⟩
    exact ⟨outer, inner, hlog ▸ h.since, Nat.lt_of_lt_of_le h.caller hcount, h.owned,
      hlog ▸ h.cache, h.standing, h.errors, h.checkpoint, hlog ▸ h.opened⟩
  have hunwinding : ∀ {purpose : Purpose F E} {i checkpoint : Nat} {errors : List (Failure E)},
      Unwinding s purpose i checkpoint errors → Unwinding t purpose i checkpoint errors := by
    intro purpose i checkpoint errors h
    cases purpose with
    | use u error => exact ⟨h.1, Nat.lt_of_lt_of_le h.2.caller hcount, hlog ▸ h.2.undoing⟩
    | close promise => exact ⟨Nat.lt_of_lt_of_le h.runtime hcount, hlog ▸ h.tearing⟩
  cases a with
  | begun operation => exact ⟨hlog ▸ h.1, Nat.lt_of_lt_of_le h.2 hcount⟩
  | resolve u i fixture ancestry stack => exact ⟨hresolving h.1, hlog ▸ h.2⟩
  | dependencies u frame stack => exact ⟨hresolving h.1, hlog ▸ h.2⟩
  | setup u frame stack => exact ⟨hresolving h.1, hlog ▸ h.2⟩
  | returned u value stack => exact ⟨hresolving h.1, hlog ▸ h.2⟩
  | rollback purpose i checkpoint errors => exact ⟨hlog ▸ h.1, hunwinding h.2⟩
  | teardown purpose i checkpoint errors fixture called => exact ⟨hlog ▸ h.1, hunwinding h.2⟩

/-- A call that changes no cache and no scope. -/
theorem Recorded.congr (h : Recorded defs s) (hcount : t.count = s.count) (hlog : t.log = s.log)
    (hruntime : ∀ i, (t.runtime i).scope = (s.runtime i).scope ∧
      (t.runtime i).parent = (s.runtime i).parent ∧ (t.runtime i).states = (s.runtime i).states ∧
      (t.runtime i).setupOrder = (s.runtime i).setupOrder) : Recorded defs t := by
  refine ⟨⟨hcount ▸ h.shaped.count, ?_, fun i hpos hi => ?_⟩, fun i hi => ?_, fun i hi => ?_, ?_⟩
  · rw [(hruntime 0).1, (hruntime 0).2.1]
    exact h.shaped.worker
  · rw [(hruntime i).1, (hruntime i).2.1]
    exact h.shaped.test i hpos (hcount ▸ hi)
  · obtain ⟨-, -, hstates, horder⟩ := hruntime i
    have hholds := h.holds i (hcount ▸ hi)
    rw [hlog]
    exact ⟨horder.trans (hholds.order.trans (congrArg _ hstates.symm)), hstates ▸ hholds.states,
      hstates ▸ hholds.ids⟩
  · rw [hlog]
    exact h.fresh i (hcount ▸ hi)
  · rw [hlog]
    exact h.lawful

theorem addChild_new (s : Suite F V E) (i : Nat) :
    (s.addChild i).runtime s.count = .create .test (some i) := setRuntime_self ..

/-- The runtimes there are only gain a child. -/
theorem addChild_old (s : Suite F V E) (i : Nat) {j : Nat} (hj : j ≠ s.count) :
    ∃ children, (s.addChild i).runtime j = { s.runtime j with children } := by
  have hruntime : (s.addChild i).runtime j = (s.setRuntime i { s.runtime i with
      children := (s.runtime i).children ++ [s.count] }).runtime j := setRuntime_of_ne _ hj _
  rw [hruntime]
  by_cases hij : j = i
  · subst hij
    exact ⟨_, setRuntime_self ..⟩
  · exact ⟨_, setRuntime_of_ne s hij _⟩

theorem addChild_field {α : Type} (s : Suite F V E) (i : Nat) (field : FixtureRuntime F V → α)
    (hfield : ∀ r children, field { r with children } = field r) {j : Nat} (hj : j ≠ s.count) :
    field ((s.addChild i).runtime j) = field (s.runtime j) := by
  obtain ⟨children, heq⟩ := addChild_old s i hj
  rw [heq, hfield]

theorem Recorded.addChild (h : Recorded defs s) : Recorded defs (s.addChild 0) := by
  have hcount : (0 : Nat) ≠ s.count := Nat.ne_of_lt h.shaped.count
  have hlt : ∀ {j}, j < s.count + 1 → j ≠ s.count → j < s.count := fun hj hne =>
    Nat.lt_of_le_of_ne (Nat.le_of_lt_succ hj) hne
  refine ⟨⟨Nat.succ_pos _, ?_, fun j hpos hj => ?_⟩, fun j hj => ?_, fun j hj =>
    h.fresh j (Nat.le_of_succ_le hj), h.lawful⟩
  · rw [addChild_field s 0 (·.scope) (fun _ _ => rfl) hcount,
      addChild_field s 0 (·.parent) (fun _ _ => rfl) hcount]
    exact h.shaped.worker
  · by_cases hne : j = s.count
    · subst hne
      rw [addChild_new]
      exact ⟨rfl, rfl⟩
    · rw [addChild_field s 0 (·.scope) (fun _ _ => rfl) hne,
        addChild_field s 0 (·.parent) (fun _ _ => rfl) hne]
      exact h.shaped.test j hpos (hlt hj hne)
  · show Holds defs ((s.addChild 0).runtime j) (cached j s.log)
    by_cases hne : j = s.count
    · subst hne
      rw [addChild_new, h.fresh s.count (Nat.le_refl _)]
      exact Holds.create .test (some 0)
    · obtain ⟨children, heq⟩ := addChild_old s 0 hne
      have hholds := h.holds j (hlt hj hne)
      rw [heq]
      exact ⟨hholds.order, hholds.states, hholds.ids⟩

end

end SurfaceLoom.Core.FixtureSteps
