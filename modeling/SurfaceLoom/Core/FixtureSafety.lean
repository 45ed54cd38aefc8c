import Mathlib.Data.List.Induction
import SurfaceLoom.Core.FixtureSteps

/-! # The life of fixture runtimes

A runtime that closes takes no more operations, and a worker closes after its test scopes.
So the operations that begin are those of open runtimes, and what every step keeps holds in
every run. -/
namespace SurfaceLoom.Core.FixtureSafety
open SurfaceLoom.Lib SurfaceLoom.Lib.PromiseTail SurfaceLoom.Lib.Transition
open SurfaceLoom.Core.Fixtures SurfaceLoom.Core.FixtureSteps

variable {F V E : Type} (defs : Definitions F)

/-! ## Closing -/

/-- The operations that have not gone on. -/
def queue (s : Suite F V E) : List (Operation F) :=
  s.coordinator.running.filterMap begunOf ++ s.coordinator.waiting.map (·.work)

/-- A worker closes when every test scope has closed. -/
def TestsClosed (count : Nat) (log : List (Entry F V E)) (e : Entry F V E) : Prop :=
  ∀ promise, e = .closeBegan promise 0 → ∀ i, 0 < i → i < count →
    ∃ promise' failure, .closeEnded promise' i failure ∈ log

/-- A runtime that closes takes no more work. -/
structure Scheduled (s : Suite F V E) : Prop where
  bound : ∀ operation ∈ queue s, operation.runtime < s.count
  after : (queue s).Pairwise fun first later => ∀ promise i, first = .close promise i →
    later.runtime ≠ i
  refuses : ∀ i, (s.runtime i).closed = true → (s.runtime i).closing = true
  promised : ∀ i, (s.runtime i).closing = true → (s.runtime i).closePromise.isSome
  closing : ∀ promise i, .close promise i ∈ queue s → (s.runtime i).closing = true
  closed : ∀ i, (s.runtime i).closed = true → ∀ operation ∈ queue s, operation.runtime ≠ i
  active : ∀ i, (s.runtime i).closed = true → ∀ a ∈ s.coordinator.running, callerOf a ≠ some i
  began : ∀ promise i, .closeBegan promise i ∈ s.log → (s.runtime i).closed = true ∧ i < s.count
  children : ∀ i, 0 < i → i < s.count →
    i ∈ (s.runtime 0).children ∨ ∃ promise failure, .closeEnded promise i failure ∈ s.log
  ended : ∀ promise i failure, .closeEnded promise i failure ∈ s.log →
    (s.runtime i).closed = true ∧ i < s.count
  worker : (s.runtime 0).closing = true → (s.runtime 0).children = []
  tests : Chronicle (TestsClosed s.count) s.log

namespace Scheduled

variable {defs} {s t : Suite F V E} {a : Activity F V E}

/-- A worker that closes has no open test scope. -/
theorem tests_ended (h : Scheduled s) (hclosing : (s.runtime 0).closing = true) {i : Nat}
    (hpos : 0 < i) (hi : i < s.count) :
    ∃ promise failure, .closeEnded promise i failure ∈ s.log := by
  rcases h.children i hpos hi with hchild | hended
  · rw [h.worker hclosing] at hchild
    exact absurd hchild List.not_mem_nil
  · exact hended

/-- An operation is one of an open runtime. -/
theorem opened (h : Scheduled s) {operation : Operation F} (hmem : operation ∈ queue s)
    (promise : Nat) : .closeBegan promise operation.runtime ∉ s.log :=
  fun hbegan => h.closed _ (h.began promise _ hbegan).1 operation hmem rfl

theorem worker_opened (h : Scheduled s) {operation : Operation F} (hmem : operation ∈ queue s)
    (promise : Nat) : .closeBegan promise 0 ∉ s.log := by
  intro hbegan
  have hclosed := (h.began promise 0 hbegan).1
  have hne := h.closed 0 hclosed operation hmem
  obtain ⟨promise', failure, hended⟩ := h.tests_ended (h.refuses 0 hclosed)
    (Nat.pos_of_ne_zero hne) (h.bound operation hmem)
  exact h.closed _ (h.ended _ _ _ hended).1 operation hmem rfl

/-- Starting an operation leaves it where it was. -/
theorem start (h : Scheduled s) {c : Tail (Operation F) (Activity F V E)}
    {operation : Operation F} (hqueue : queue { s with coordinator := c } = queue s)
    (hrunning : c.running = [.begun operation]) : Scheduled { s with coordinator := c } where
  bound := hqueue ▸ h.bound
  after := hqueue ▸ h.after
  refuses := h.refuses
  promised := h.promised
  closing promise i hmem := h.closing promise i (hqueue ▸ hmem)
  closed i hclosed operation' hmem := h.closed i hclosed operation' (hqueue ▸ hmem)
  active i hclosed a ha := by
    have hmem : operation ∈ queue s := by
      rw [← hqueue]
      unfold queue
      rw [hrunning]
      exact List.mem_cons_self
    have hne := h.closed i hclosed operation hmem
    replace ha : a ∈ c.running := ha
    rw [hrunning] at ha
    rw [List.mem_singleton.mp ha]
    intro hcaller
    cases operation with
    | use promise j fixture => exact hne (Option.some.inj hcaller)
    | close promise j => cases hcaller
  began := h.began
  children := h.children
  ended := h.ended
  worker := h.worker
  tests := h.tests

/-- A step of the running operation keeps the schedule. -/
theorem step (h : Scheduled s) {next : Option (Activity F V E)} (hstep : Stepped defs s a t next)
    (hrunning : s.coordinator.running = [a]) {c : Tail (Operation F) (Activity F V E)}
    (hnext : c.running = next.toList) (hwaiting : c.waiting = s.coordinator.waiting) :
    Scheduled { t with coordinator := c } := by
  have hqueue : queue s = (begunOf a).toList ++ c.waiting.map (·.work) := by
    unfold queue
    rw [hrunning, hwaiting]
    cases hbegun : begunOf a <;> simp [hbegun]
  have hqueue' : queue { t with coordinator := c } = c.waiting.map (·.work) := by
    unfold queue
    rw [show ({ t with coordinator := c } : Suite F V E).coordinator = c from rfl, hnext]
    cases next with
    | none => rfl
    | some b =>
      rw [Option.toList_some, List.filterMap_cons_none (hstep.caller b rfl).1]
      rfl
  have hsub : ∀ operation ∈ queue { t with coordinator := c }, operation ∈ queue s := by
    intro operation hmem
    rw [hqueue'] at hmem
    rw [hqueue]
    exact List.mem_append_right _ hmem
  have hgrows : ∀ e ∈ s.log, e ∈ t.log := by
    intro e he
    rcases hstep.log with hlog | ⟨e', hlog, -⟩
    · rw [hlog]
      exact he
    · rw [hlog]
      exact List.mem_append_left _ he
  have hclosing : ∀ promise i, a = .begun (.close promise i) → .close promise i ∈ queue s := by
    intro promise i ha
    rw [hqueue, ha]
    exact List.mem_cons_self
  refine ⟨fun operation hmem => hstep.count.symm ▸ h.bound operation (hsub operation hmem), ?_,
    fun i hi => ?_, fun i hi => ?_, fun promise i hmem => ?_, fun i hi operation hmem => ?_,
    fun i hi b hb => ?_, fun promise i hmem => ?_, fun i hpos hi => ?_,
    fun promise i failure hmem => ?_, fun hi => ?_, ?_⟩
  · have hafter := h.after
    rw [hqueue] at hafter
    rw [hqueue']
    exact (List.pairwise_append.mp hafter).2.1
  · show (t.runtime i).closing = true
    rw [hstep.closing i]
    rcases hstep.closed i hi with hold | ⟨promise, ha⟩
    · exact h.refuses i hold
    · exact h.closing promise i (hclosing promise i ha)
  · show (t.runtime i).closePromise.isSome
    rw [hstep.closePromise i]
    exact h.promised i ((hstep.closing i).symm.trans hi)
  · show (t.runtime i).closing = true
    rw [hstep.closing i]
    exact h.closing promise i (hsub _ hmem)
  · rcases hstep.closed i hi with hold | ⟨promise, ha⟩
    · exact h.closed i hold operation (hsub operation hmem)
    · have hafter := h.after
      rw [hqueue, ha] at hafter
      rw [hqueue'] at hmem
      exact (List.pairwise_cons.mp hafter).1 operation hmem promise i rfl
  · replace hb : b ∈ c.running := hb
    rw [hnext] at hb
    have hcaller := (hstep.caller b (Option.mem_toList.mp hb)).2 i
    intro hi'
    rcases hstep.closed i hi with hold | ⟨promise, ha⟩
    · exact h.active i hold a (by rw [hrunning]; exact List.mem_singleton_self a) (hcaller hi')
    · have hsome := hcaller hi'
      rw [ha] at hsome
      cases hsome
  · show (t.runtime i).closed = true ∧ i < t.count
    rw [hstep.count]
    have hold : .closeBegan promise i ∈ s.log → (t.runtime i).closed = true ∧ i < s.count :=
      fun hmem => ⟨hstep.stays i (h.began promise i hmem).1, (h.began promise i hmem).2⟩
    rcases hstep.log with hlog | ⟨e, hlog, hbegan, -⟩
    · exact hold (hlog ▸ hmem)
    · replace hmem : .closeBegan promise i ∈ t.log := hmem
      rw [hlog] at hmem
      rcases List.mem_append.mp hmem with hmem | hnew
      · exact hold hmem
      · obtain ⟨ha, hclosed⟩ := hbegan promise i (List.mem_singleton.mp hnew).symm
        exact ⟨hclosed, h.bound _ (hclosing promise i ha)⟩
  · rcases h.children i hpos (hstep.count ▸ hi) with hchild | ⟨promise, failure, hended⟩
    · exact hstep.kept i hchild
    · exact .inr ⟨promise, failure, hgrows _ hended⟩
  · show (t.runtime i).closed = true ∧ i < t.count
    rw [hstep.count]
    have hold : (s.runtime i).closed = true ∧ i < s.count →
        (t.runtime i).closed = true ∧ i < s.count := fun hi => ⟨hstep.stays i hi.1, hi.2⟩
    rcases hstep.log with hlog | ⟨e, hlog, -, hended⟩
    · exact hold (h.ended promise i failure (hlog ▸ hmem))
    · replace hmem : .closeEnded promise i failure ∈ t.log := hmem
      rw [hlog] at hmem
      rcases List.mem_append.mp hmem with hmem | hnew
      · exact hold (h.ended promise i failure hmem)
      · exact hold (h.began promise i (hended promise i failure (List.mem_singleton.mp hnew).symm))
  · have hnone := h.worker ((hstep.closing 0).symm.trans hi)
    refine List.eq_nil_iff_forall_not_mem.mpr fun j hj => ?_
    have hj' := hstep.children j hj
    rw [hnone] at hj'
    exact absurd hj' List.not_mem_nil
  · show Chronicle (TestsClosed t.count) t.log
    rw [hstep.count]
    rcases hstep.log with hlog | ⟨e, hlog, hbegan, -⟩
    · rw [hlog]
      exact h.tests
    · rw [hlog]
      refine h.tests.snoc fun promise heq i hpos hi => ?_
      obtain ⟨ha, -⟩ := hbegan promise 0 heq
      exact h.tests_ended (h.closing promise 0 (hclosing promise 0 ha)) hpos hi

/-- A call that only makes a promise. -/
theorem refuse (h : Scheduled s) (error : Failure E) : Scheduled (s.refuse error) :=
  ⟨h.bound, h.after, h.refuses, h.promised, h.closing, h.closed, h.active, h.began, h.children,
    h.ended, h.worker, h.tests⟩

/-- An operation of a runtime that has no close before it. -/
theorem enqueue (h : Scheduled s) {operation : Operation F} (hi : operation.runtime < s.count)
    (hopen : (s.runtime operation.runtime).closed = false)
    (hfirst : ∀ promise, .close promise operation.runtime ∉ queue s)
    (hclosing : ∀ promise i, operation = .close promise i → (s.runtime i).closing = true) :
    Scheduled (s.enqueue operation) := by
  have hqueue : queue (s.enqueue operation) = queue s ++ [operation] := by
    unfold queue Suite.enqueue Tail.enqueue
    simp
  have hmem : ∀ {operation'}, operation' ∈ queue (s.enqueue operation) →
      operation' ∈ queue s ∨ operation' = operation := by
    intro operation' hmem
    rw [hqueue] at hmem
    simpa using hmem
  refine ⟨fun operation' hmem' => ?_, ?_, h.refuses, h.promised, fun promise i hmem' => ?_,
    fun i hclosed operation' hmem' => ?_, h.active, h.began, h.children, h.ended, h.worker, h.tests⟩
  · rcases hmem hmem' with hold | rfl
    · exact h.bound operation' hold
    · exact hi
  · rw [hqueue]
    refine List.pairwise_append.mpr ⟨h.after, List.pairwise_singleton _ _, ?_⟩
    intro first hold later hnew promise i heq hruntime
    rw [List.mem_singleton.mp hnew] at hruntime
    subst heq
    exact hfirst promise (hruntime ▸ hold)
  · rcases hmem hmem' with hold | heq
    · exact h.closing promise i hold
    · exact hclosing promise i heq.symm
  · rcases hmem hmem' with hold | rfl
    · exact h.closed i hclosed operation' hold
    · rintro rfl
      rw [show ((s.enqueue operation').runtime operation'.runtime).closed = false from hopen]
        at hclosed
      cases hclosed

/-- A runtime that starts to close. -/
theorem mark (h : Scheduled s) (i promise : Nat)
    (hworker : i = 0 → (s.runtime 0).children = []) :
    Scheduled (s.setRuntime i
      { s.runtime i with closing := true, closePromise := some promise }) := by
  have hclosed := setRuntime_field s (i := i)
    (r := { s.runtime i with closing := true, closePromise := some promise }) (·.closed) rfl
  have hchildren := setRuntime_field s (i := i)
    (r := { s.runtime i with closing := true, closePromise := some promise }) (·.children) rfl 0
  have hruntime : ∀ j, j ≠ i → (s.setRuntime i
      { s.runtime i with closing := true, closePromise := some promise }).runtime j =
        s.runtime j := fun j hj => setRuntime_of_ne s hj _
  refine ⟨h.bound, h.after, fun j hj => ?_, fun j hj => ?_, fun promise j hmem => ?_,
    fun j hj => h.closed j ((hclosed j).symm.trans hj),
    fun j hj => h.active j ((hclosed j).symm.trans hj),
    fun promise j hmem => ⟨(hclosed j).trans (h.began promise j hmem).1, (h.began promise j hmem).2⟩,
    fun j hpos hj => ?_,
    fun _ j _ hmem => ⟨(hclosed j).trans (h.ended _ _ _ hmem).1, (h.ended _ _ _ hmem).2⟩,
    fun hj => hchildren.trans ?_, h.tests⟩
  · by_cases hij : j = i
    · subst hij
      rw [setRuntime_self]
    · rw [hruntime j hij]
      exact h.refuses j ((hclosed j).symm.trans hj)
  · by_cases hij : j = i
    · subst hij
      rw [setRuntime_self]
      rfl
    · rw [hruntime j hij] at hj ⊢
      exact h.promised j hj
  · by_cases hij : j = i
    · subst hij
      rw [setRuntime_self]
    · rw [hruntime j hij]
      exact h.closing _ j hmem
  · rcases h.children j hpos hj with hchild | hended
    · exact .inl (hchildren.symm ▸ hchild)
    · exact .inr hended
  · by_cases hi : i = 0
    · exact hworker hi
    · rw [hruntime 0 (Ne.symm hi)] at hj
      exact h.worker hj

end Scheduled

/-! ## Every reachable state -/

structure Sound (s : Suite F V E) : Prop where
  recorded : Recorded defs s
  ordered : s.coordinator.Ordered fun _ => true
  doing : ∀ a ∈ s.coordinator.running, Doing defs s a
  idle : s.coordinator.running = [] → Idle s.log
  scheduled : Scheduled s

section
variable {defs} {s t : Suite F V E}

theorem Sound.create : Sound defs (.create : Suite F V E) where
  recorded := ⟨⟨Nat.zero_lt_one, ⟨rfl, rfl⟩, fun i hpos hi => (by
    exact absurd hi (Nat.not_lt.mpr hpos))⟩, fun _ _ => Holds.create .worker none,
    fun _ _ => rfl, Chronicle.nil⟩
  ordered := Tail.Ordered.idle
  doing a ha := absurd ha List.not_mem_nil
  idle _ e he := by cases he
  scheduled := by
    refine ⟨fun _ hmem => absurd hmem List.not_mem_nil, List.Pairwise.nil, fun i hi => ?_,
      fun i hi => ?_, fun _ _ hmem => absurd hmem List.not_mem_nil, fun i hi => ?_, fun i hi => ?_,
      fun _ _ hmem => absurd hmem List.not_mem_nil, fun i hpos hi => ?_,
      fun _ _ _ hmem => absurd hmem List.not_mem_nil, fun _ => rfl, Chronicle.nil⟩
    · cases hi
    · cases hi
    · cases hi
    · cases hi
    · exact absurd hi (Nat.not_lt.mpr hpos)

theorem Sound.use (h : Sound defs s) {i : Nat} (hi : i < s.count) (fixture : F) :
    Sound defs (s.use i fixture) := by
  unfold Suite.use
  split
  · exact ⟨h.recorded.congr rfl rfl fun _ => ⟨rfl, rfl, rfl, rfl⟩, h.ordered,
      fun a ha => (h.doing a ha).mono rfl (Nat.le_refl _), h.idle, h.scheduled.refuse _⟩
  · rename_i haccepting
    have hopen : (s.runtime i).closing = false ∧ (s.runtime i).closed = false := by
      simpa [Suite.acceptingWork] using haccepting
    refine ⟨h.recorded.congr rfl rfl fun _ => ⟨rfl, rfl, rfl, rfl⟩, h.ordered.enqueue _,
      fun a ha => (h.doing a ha).mono rfl (Nat.le_refl _), h.idle,
      h.scheduled.enqueue hi hopen.2 (fun promise hmem => ?_) nofun⟩
    have hclosing := h.scheduled.closing promise i hmem
    rw [hopen.1] at hclosing
    cases hclosing

theorem Sound.close (h : Sound defs s) {i : Nat} (hi : i < s.count) : Sound defs (s.close i) := by
  unfold Suite.close
  split
  · exact h
  · rename_i hpromise
    split
    · exact ⟨h.recorded.congr rfl rfl fun _ => ⟨rfl, rfl, rfl, rfl⟩, h.ordered,
        fun a ha => (h.doing a ha).mono rfl (Nat.le_refl _), h.idle, h.scheduled.refuse _⟩
    · rename_i hchildren
      have hclosing : (s.runtime i).closing = false := by
        by_contra hclosing
        exact hpromise (h.scheduled.promised i (by simpa using hclosing))
      have hworker : i = 0 → (s.runtime 0).children = [] := by
        rintro rfl
        by_contra hsome
        exact hchildren ⟨h.recorded.shaped.worker.1, hsome⟩
      have hmark := h.scheduled.mark i s.promises hworker
      have hfield := fun {α : Type} (field : FixtureRuntime F V → α) hfield =>
        setRuntime_field s (i := i)
          (r := { s.runtime i with closing := true, closePromise := some s.promises }) field hfield
      refine ⟨h.recorded.congr rfl rfl fun j => ⟨hfield (·.scope) rfl j, hfield (·.parent) rfl j,
        hfield (·.states) rfl j, hfield (·.setupOrder) rfl j⟩, h.ordered.enqueue _,
        fun a ha => (h.doing a ha).mono rfl (Nat.le_refl _), h.idle,
        hmark.enqueue hi ((hfield (·.closed) rfl i).trans ?_) (fun promise hmem => ?_) ?_⟩
      · by_contra hclosed
        rw [Bool.not_eq_false] at hclosed
        rw [h.scheduled.refuses i hclosed] at hclosing
        cases hclosing
      · rw [h.scheduled.closing promise i hmem] at hclosing
        cases hclosing
      · intro promise j heq
        cases heq
        rw [setRuntime_self]

/-! ## A new test scope -/

/-- A new test scope of an open worker is open. -/
theorem Scheduled.addChild (h : Scheduled s) (hpos : 0 < s.count)
    (hopen : (s.runtime 0).closing = false) : Scheduled (s.addChild 0) := by
  have hcount : (0 : Nat) ≠ s.count := Nat.ne_of_lt hpos
  have hclosing := fun {j : Nat} (hj : j ≠ s.count) =>
    addChild_field s 0 (·.closing) (fun _ _ => rfl) hj
  have hclosed := fun {j : Nat} (hj : j ≠ s.count) =>
    addChild_field s 0 (·.closed) (fun _ _ => rfl) hj
  have hold : ∀ {j}, ((s.addChild 0).runtime j).closed = true →
      j ≠ s.count ∧ (s.runtime j).closed = true := by
    intro j hj
    have hne : j ≠ s.count := by
      rintro rfl
      rw [addChild_new] at hj
      cases hj
    exact ⟨hne, (hclosed hne).symm.trans hj⟩
  have hstays : ∀ {j}, (s.runtime j).closed = true ∧ j < s.count →
      ((s.addChild 0).runtime j).closed = true ∧ j < (s.addChild 0).count := fun hj =>
    ⟨(hclosed (Nat.ne_of_lt hj.2)).trans hj.1, Nat.lt_succ_of_lt hj.2⟩
  have hchildren : ((s.addChild 0).runtime 0).children = (s.runtime 0).children ++ [s.count] := by
    have hruntime : (s.addChild 0).runtime 0 = (s.setRuntime 0 { s.runtime 0 with
        children := (s.runtime 0).children ++ [s.count] }).runtime 0 := setRuntime_of_ne _ hcount _
    rw [hruntime, setRuntime_self]
  refine ⟨fun operation hmem => Nat.lt_succ_of_lt (h.bound operation hmem), h.after,
    fun j hj => ?_, fun j hj => ?_, fun promise j hmem => ?_, fun j hj => h.closed j (hold hj).2,
    fun j hj => h.active j (hold hj).2, fun promise j hmem => hstays (h.began promise j hmem),
    fun j hjpos hj => ?_, fun promise j failure hmem => hstays (h.ended promise j failure hmem),
    fun hj => ?_, ?_⟩
  · obtain ⟨hne, hj'⟩ := hold hj
    exact (hclosing hne).trans (h.refuses j hj')
  · by_cases hne : j = s.count
    · subst hne
      rw [addChild_new] at hj
      cases hj
    · rw [addChild_field s 0 (·.closePromise) (fun _ _ => rfl) hne]
      exact h.promised j ((hclosing hne).symm.trans hj)
  · exact (hclosing (Nat.ne_of_lt (h.bound _ hmem))).trans (h.closing promise j hmem)
  · rw [hchildren]
    by_cases hne : j = s.count
    · rw [hne]
      exact .inl (List.mem_append_right _ (List.mem_singleton_self _))
    · rcases h.children j hjpos (Nat.lt_of_le_of_ne (Nat.le_of_lt_succ hj) hne) with hchild | hended
      · exact .inl (List.mem_append_left _ hchild)
      · exact .inr hended
  · rw [hclosing hcount, hopen] at hj
    cases hj
  · intro pre e post hlog promise heq
    have hbegan : .closeBegan promise 0 ∈ s.log := by
      rw [show s.log = pre ++ e :: post from hlog, heq]
      exact List.mem_append_right _ List.mem_cons_self
    have hdone := h.refuses 0 (h.began promise 0 hbegan).1
    rw [hopen] at hdone
    cases hdone

theorem Sound.createTestScope (h : Sound defs s) {i : Nat} (hi : i < s.count) :
    Sound defs (s.createTestScope i) := by
  unfold Suite.createTestScope
  split
  · exact h
  · rename_i haccepting
    split
    · exact h
    · rename_i hscope
      -- Only the worker runtime has the scope of a worker.
      obtain rfl : i = 0 := by
        by_contra hne
        have htest := (h.recorded.shaped.test i (Nat.pos_of_ne_zero hne) hi).1
        exact hscope (by rw [htest]; nofun)
      have hopen : (s.runtime 0).closing = false ∧ (s.runtime 0).closed = false := by
        simpa [Suite.acceptingWork] using haccepting
      exact ⟨h.recorded.addChild, h.ordered, fun a ha => (h.doing a ha).mono rfl (Nat.le_succ _),
        h.idle, h.scheduled.addChild h.recorded.shaped.count hopen.1⟩

/-! ## Steps of the coordinator -/

theorem Sound.start (h : Sound defs s) {k : Nat} {operation : Operation F}
    {c : Tail (Operation F) (Activity F V E)}
    (hc : s.coordinator.begin (fun _ => true) (fun operation => some (.begun operation)) k =
      some (operation, c)) : Sound defs { s with coordinator := c } := by
  obtain ⟨⟨⟨after, hwaiting⟩, hquiet, hrunning⟩, hordered⟩ := h.ordered.begin hc
  replace hrunning : c.running = [.begun operation] := hrunning
  have hqueue : queue { s with coordinator := c } = queue s := by
    unfold queue
    rw [show ({ s with coordinator := c } : Suite F V E).coordinator = c from rfl, hrunning,
      hwaiting, hquiet]
    rfl
  have hmem : operation ∈ queue s := by
    unfold queue
    rw [hwaiting]
    exact List.mem_append_right _ List.mem_cons_self
  refine ⟨h.recorded.congr rfl rfl fun _ => ⟨rfl, rfl, rfl, rfl⟩, hordered, fun a ha => ?_,
    fun hnone => ?_, h.scheduled.start hqueue hrunning⟩
  · replace ha : a ∈ c.running := ha
    rw [hrunning] at ha
    rw [List.mem_singleton.mp ha]
    exact ⟨h.idle hquiet, h.scheduled.bound operation hmem⟩
  · replace hnone : c.running = [] := hnone
    rw [hrunning] at hnone
    cases hnone

/-- The running operation takes a step. -/
theorem Sound.run (h : Sound defs s)
    {step : Suite F V E → Activity F V E → Option (Suite F V E × Option (Activity F V E))} {k : Nat}
    (hstep : ∀ a u next, s.coordinator.running = [a] → step s a = some (u, next) →
      Stepped defs s a u next) (ht : s.run step k = some t) : Sound defs t := by
  unfold Suite.run at ht
  cases hsettle : s.coordinator.settle k with
  | none =>
    rw [hsettle] at ht
    cases ht
  | some settled =>
    obtain ⟨a, idle⟩ := settled
    simp only [hsettle] at ht
    obtain ⟨hrunning, hempty, hwaiting, hordered⟩ := h.ordered.settle hsettle
    cases hnext : step s a with
    | none =>
      rw [hnext] at ht
      cases ht
    | some result =>
      obtain ⟨u, next⟩ := result
      have hstepped := hstep a u next hrunning hnext
      cases next with
      | none =>
        simp only [hnext] at ht
        cases ht
        refine ⟨hstepped.recorded.congr rfl rfl fun _ => ⟨rfl, rfl, rfl, rfl⟩, hordered,
          fun b hb => ?_, fun _ => hstepped.idle rfl,
          h.scheduled.step hstepped hrunning hempty hwaiting⟩
        replace hb : b ∈ idle.running := hb
        rw [hempty] at hb
        exact absurd hb List.not_mem_nil
      | some b =>
        simp only [hnext] at ht
        cases ht
        obtain rfl : k = 0 := by
          unfold Tail.settle at hsettle
          obtain ⟨_, hk, -⟩ := Option.map_eq_some_iff.mp hsettle
          obtain ⟨hlt, -⟩ := List.getElem?_eq_some_iff.mp hk
          rw [hrunning] at hlt
          simpa using hlt
        have hset : u.coordinator.running.set 0 b = [b] := by
          rw [hstepped.coordinator, hrunning]
          rfl
        have hordered' : Tail.Ordered (fun _ => true)
            { u.coordinator with running := u.coordinator.running.set 0 b } := by
          have hold := h.ordered
          rw [← hstepped.coordinator] at hold
          refine ⟨fun i w hw => ?_, ?_, ?_⟩
          · simpa using hold.positions i w hw
          · simpa using hold.links
          · simpa using hold.single
        refine ⟨hstepped.recorded.congr rfl rfl fun _ => ⟨rfl, rfl, rfl, rfl⟩, hordered',
          fun b' hb => ?_, fun hnone => ?_,
          h.scheduled.step hstepped hrunning hset (congrArg (·.waiting) hstepped.coordinator)⟩
        · replace hb : b' ∈ u.coordinator.running.set 0 b := hb
          rw [hset] at hb
          rw [List.mem_singleton.mp hb]
          exact (hstepped.doing b rfl).mono rfl (Nat.le_refl _)
        · replace hnone : u.coordinator.running.set 0 b = [] := hnone
          rw [hset] at hnone
          cases hnone

theorem sound_invariant [DecidableEq F] :
    (fixtures V E defs).Invariant (Sound defs) where
  init := by
    rintro s rfl
    exact Sound.create
  step := by
    intro s event t _ ih hstep
    cases event with
    | createTestScope i =>
      obtain ⟨hi, ht⟩ := Option.ite_none_right_eq_some.mp hstep
      cases ht
      exact ih.createTestScope hi
    | use i fixture =>
      obtain ⟨hi, ht⟩ := Option.ite_none_right_eq_some.mp hstep
      cases ht
      exact ih.use hi fixture
    | close i =>
      obtain ⟨hi, ht⟩ := Option.ite_none_right_eq_some.mp hstep
      cases ht
      exact ih.close hi
    | start k =>
      obtain ⟨⟨operation, c⟩, hbegin, rfl⟩ := Option.map_eq_some_iff.mp hstep
      exact ih.start hbegin
    | advance k =>
      refine ih.run (fun a u next hrunning hnext => ?_) hstep
      have ha : a ∈ s.coordinator.running := by
        rw [hrunning]
        exact List.mem_singleton_self a
      cases hbegun : begunOf a with
      | none => exact advance_stepped ih.recorded (ih.doing a ha) hbegun hnext
      | some operation =>
        obtain rfl : a = .begun operation := by
          cases a with
          | begun operation' => rw [Option.some.inj hbegun]
          | _ => cases hbegun
        have hmem : operation ∈ queue s := by
          unfold queue
          rw [hrunning]
          exact List.mem_cons_self
        cases operation with
        | use promise i fixture =>
          exact beginUse_stepped ih.recorded (fun promise' =>
            ⟨ih.scheduled.opened hmem promise', ih.scheduled.worker_opened hmem promise'⟩)
            (ih.doing _ ha) (Option.some.inj hnext)
        | close promise i =>
          exact beginClose_stepped ih.recorded (ih.scheduled.opened hmem) (ih.doing _ ha)
            (Option.some.inj hnext)
    | setupEnds k result =>
      have ht : s.run (fun s activity => s.setupEnds defs result activity) k = some t := hstep
      refine ih.run (fun a u next hrunning hnext => ?_) ht
      exact setupEnds_stepped ih.recorded (ih.doing a (hrunning ▸ List.mem_singleton_self a)) hnext
    | teardownEnds k error =>
      have ht : s.run (fun s activity => s.teardownEnds error activity) k = some t := hstep
      refine ih.run (fun a u next hrunning hnext => ?_) ht
      exact teardownEnds_stepped ih.recorded (ih.doing a (hrunning ▸ List.mem_singleton_self a))
        hnext

end

/-! ## What follows for a whole run -/

section
variable {defs} {s : Suite F V E} {log : List (Entry F V E)}

/-- What was set up is torn down or still cached. -/
theorem setUp_perm (h : Chronicle (Lawful defs) log) (i : Nat) :
    ((setUp i log).map Prod.fst).Perm (tornDown i log ++ (cached i log).map Prod.fst) := by
  induction log using List.reverseRecOn with
  | nil => exact List.Perm.refl _
  | append_singleton log e ih =>
    obtain ⟨hlog, he⟩ := h.init
    have hperm := ih hlog
    by_cases hteardown : isTeardown e = false
    · have htorn : tornDown i [e] = [] := tornDown_standing
        (fun x hx => (List.mem_singleton.mp hx).symm ▸ hteardown) i
      rw [cached_snoc, replay_setUp hteardown, setUp_snoc, tornDown_snoc, htorn, List.append_nil,
        List.map_append, List.map_append, ← List.append_assoc]
      exact hperm.append_right _
    · cases e with
      | teardownStarted j fixture =>
        have hset : setUp i [(.teardownStarted j fixture : Entry F V E)] = [] := rfl
        rw [setUp_snoc, hset, List.append_nil, tornDown_snoc, cached_snoc]
        by_cases hj : j = i
        · subst hj
          obtain ⟨-, hlast, -⟩ := he
          obtain ⟨c, hc, rfl⟩ := Option.map_eq_some_iff.mp hlast
          obtain ⟨kept, hkept⟩ := List.getLast?_eq_some_iff.mp hc
          have htorn : tornDown j [(.teardownStarted j c.1 : Entry F V E)] = [c.1] := by
            simp [tornDown]
          have hreplay : replay j (cached j log) (.teardownStarted j c.1 : Entry F V E) = kept := by
            rw [hkept]
            exact (if_pos rfl).trans List.dropLast_concat
          rw [htorn, hreplay]
          rw [hkept, List.map_append] at hperm
          refine hperm.trans ?_
          rw [List.append_assoc]
          exact List.Perm.append_left _ List.perm_append_comm
        · have htorn : tornDown i [(.teardownStarted j fixture : Entry F V E)] = [] := by
            simp [tornDown, hj]
          have hreplay : replay i (cached i log) (.teardownStarted j fixture : Entry F V E) =
              cached i log := if_neg hj
          rw [htorn, List.append_nil, hreplay]
          exact hperm
      | teardownEnded j fixture error =>
        rw [setUp_snoc, tornDown_snoc, cached_snoc]
        simpa [setUp, tornDown, replay] using hperm
      | _ => exact absurd rfl hteardown

/-- A runtime that has closed sets nothing up again. -/
theorem closed_empty {pre post : List (Entry F V E)} {promise i : Nat} {failure : Option (Failure E)}
    (h : Chronicle (Lawful defs) (pre ++ .closeEnded promise i failure :: post)) :
    cached i (pre ++ .closeEnded promise i failure :: post) = [] ∧
      ∀ fixture, .setupStarted i fixture ∉ post := by
  obtain ⟨-, ⟨outer, inner, hsince, hempty, -⟩⟩ := h pre _ post rfl
  have hbegan : .closeBegan promise i ∈ pre := by
    rw [hsince.log]
    exact List.mem_append_right _ List.mem_cons_self
  have hnever : ∀ fixture, .setupStarted i fixture ∉ post := by
    intro fixture hmem
    obtain ⟨before, after, rfl⟩ := List.append_of_mem hmem
    obtain ⟨-, -, -, hopen, -⟩ := h (pre ++ .closeEnded promise i failure :: before) _ after
      (by rw [List.append_assoc]; rfl)
    exact hopen promise (List.mem_append_left _ hbegan)
  refine ⟨?_, hnever⟩
  induction post using List.reverseRecOn with
  | nil => exact (cached_snoc ..).trans hempty
  | append_singleton post e ih =>
    rw [← List.cons_append, ← List.append_assoc] at h ⊢
    obtain ⟨hlog, he⟩ := h.init
    have hcached := ih hlog fun fixture hmem =>
      hnever fixture (List.mem_append_left _ hmem)
    rw [cached_snoc, hcached]
    cases e with
    | setupEnded j fixture result =>
      cases result with
      | error error => rfl
      | ok value =>
        refine if_neg fun hj => ?_
        subst hj
        -- The last entry would be the start of this setup.
        have hlast : (pre ++ .closeEnded promise j failure :: post).getLast? =
            some (.setupStarted j fixture) := he
        obtain ⟨before, hbefore⟩ := List.getLast?_eq_some_iff.mp hlast
        rcases List.eq_nil_or_concat post with rfl | ⟨post', last, rfl⟩
        · obtain ⟨-, hlast⟩ := List.append_inj' hbefore rfl
          cases hlast
        · rw [List.concat_eq_append, ← List.cons_append, ← List.append_assoc] at hbefore
          obtain ⟨-, hlast⟩ := List.append_inj' hbefore rfl
          cases hlast
          exact hnever fixture (List.mem_append_left _ (by simp))
    | teardownStarted j fixture =>
      show (if j = i then _ else _) = _
      split <;> rfl
    | _ => rfl

/-- While a fixture is set up it can read its dependencies. -/
theorem get_ok [DecidableEq F] (h : Sound defs s) {u : Use F} {frame : Frame F} {stack : List (Frame F)}
    (hrunning : .setup u frame stack ∈ s.coordinator.running) {dependency : F}
    (hdependency : dependency ∈ defs.dependencies frame.fixture) :
    ∃ value, s.get defs frame dependency = .ok value := by
  obtain ⟨⟨outer, inner, hresolving⟩, hlast, hstacked, -⟩ := h.doing _ hrunning
  obtain ⟨before, hbefore⟩ := List.getLast?_eq_some_iff.mp hlast
  obtain ⟨-, -, -, -, -, hready⟩ := h.recorded.lawful before _ [] hbefore
  obtain ⟨j, value, howner, hmem⟩ := hready dependency hdependency
  have hi : frame.runtime < s.count := by
    rcases hstacked.caller with hcaller | hworker
    · exact hcaller ▸ hresolving.caller
    · exact hworker ▸ h.recorded.shaped.count
  have hcached : (dependency, value) ∈ cached j s.log := by
    rw [hbefore, cached_snoc]
    exact hmem
  obtain ⟨state, hstate, rfl, rfl⟩ :=
    (h.recorded.holds j (h.recorded.shaped.owner_lt hi howner)).get_cached hcached
  refine ⟨state.value, ?_⟩
  unfold Suite.get
  rw [if_neg (not_not.mpr hdependency), h.recorded.shaped.runtimeFor_owner hi howner]
  simp only [hstate, ne_eq, not_true_eq_false, if_false]

end

/-- Setups run one at a time, each once while it is cached and after its dependencies;
teardowns run once and in reverse; a failed `use` leaves the runtime it was for as it
was; a worker closes after its test scopes; and every error is reported. -/
theorem fixture_lifecycle [DecidableEq F] {s : Suite F V E} (h : (fixtures V E defs).Reachable s) :
    Chronicle (Lawful defs) s.log ∧
      (∀ i, i < s.count → Holds defs (s.runtime i) (cached i s.log)) ∧
      (∀ i, ((setUp i s.log).map Prod.fst).Perm
        (tornDown i s.log ++ (cached i s.log).map Prod.fst)) ∧
      (∀ pre promise i failure post, s.log = pre ++ .closeEnded promise i failure :: post →
        cached i s.log = [] ∧ ∀ fixture, .setupStarted i fixture ∉ post) ∧
      (∀ pre promise post, s.log = pre ++ .closeBegan promise 0 :: post → ∀ i, 0 < i → i < s.count →
        ∃ promise' failure, .closeEnded promise' i failure ∈ pre) ∧
      ∀ u frame stack, .setup u frame stack ∈ s.coordinator.running →
        ∀ dependency ∈ defs.dependencies frame.fixture,
          ∃ value, s.get defs frame dependency = .ok value := by
  have hsound := sound_invariant.reachable h
  have hlawful := hsound.recorded.lawful
  refine ⟨hlawful, hsound.recorded.holds, setUp_perm hlawful, fun pre promise i failure post hlog => ?_,
    fun pre promise post hlog => hsound.scheduled.tests pre _ post hlog promise rfl,
    fun u frame stack hrunning dependency => get_ok hsound hrunning⟩
  rw [hlog] at hlawful ⊢
  exact closed_empty hlawful

inductive DemoFixture
  | database
  | page
  | broken
  deriving DecidableEq

def demoFixtures : Definitions DemoFixture where
  id
    | .database => "database"
    | .page => "page"
    | .broken => "broken"
  scope
    | .database => some .worker
    | .page => none
    | .broken => none
  dependencies
    | .database => []
    | .page => [.database]
    | .broken => [.page]

/-- A setup of a test scope and a teardown of its rollback fail; then both runtimes close. -/
def brokenUse : List (Event DemoFixture Nat Nat) :=
  [.createTestScope 0, .use 1 .broken, .close 1, .start 0] ++ .replicate 7 (.advance 0) ++
    [.setupEnds 0 (.ok (1, true)), .advance 0, .advance 0, .setupEnds 0 (.ok (2, true)),
      .advance 0, .advance 0, .setupEnds 0 (.error (.thrown 3)), .advance 0,
      .teardownEnds 0 (some (.thrown 4)), .advance 0, .start 0, .advance 0, .advance 0, .close 0,
      .start 0, .advance 0, .advance 0, .teardownEnds 0 none, .advance 0]

theorem brokenUse_lifecycle :
    let s := (System.replay (next demoFixtures) .create brokenUse).get (by decide +kernel)
    s.log.length = 16 ∧ Chronicle (Lawful demoFixtures) s.log ∧ tornDown 1 s.log = [.page] ∧
      ((setUp 1 s.log).map Prod.fst).Perm (tornDown 1 s.log ++ (cached 1 s.log).map Prod.fst) := by
  intro s
  have h : (fixtures Nat Nat demoFixtures).Reachable s :=
    System.reachable_of_replay (Option.some_get _).symm
  obtain ⟨hlawful, -, hperm, -⟩ := fixture_lifecycle demoFixtures h
  exact ⟨by decide +kernel, hlawful, by decide +kernel, hperm 1⟩

end SurfaceLoom.Core.FixtureSafety
