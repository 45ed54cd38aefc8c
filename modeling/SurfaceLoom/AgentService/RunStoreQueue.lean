import SurfaceLoom.Lib.PromiseTail
import SurfaceLoom.Lib.Transition
import SurfaceLoom.AgentService.RunStoreInvariants

/-! # The run store under concurrent calls

Calls may be issued at any time. A mutation chains itself to the tail, works on
the maps, writes the file and puts the previous maps back when anything fails;
a read waits for the mutations issued before it. -/
namespace SurfaceLoom.Service.RunStoreQueue
open SurfaceLoom.Lib SurfaceLoom.Lib.PromiseTail SurfaceLoom.Lib.Transition
open SurfaceLoom.Service.SafeData SurfaceLoom.Service.Validation SurfaceLoom.Service.StoredRun
open SurfaceLoom.Service.RunStore SurfaceLoom.Service.RunStoreInvariants

/-- A mutation whose file is being written, with the maps it started from. -/
structure Writing where
  call : Call
  previous : Memory
  reply : Reply

/-- A settled call: its answer, and the store when it started and when it
settled. -/
structure Entry where
  call : Call
  reply : Except Failure Reply
  before : Memory
  after : Memory
  fileBefore : Option StoreFile
  fileAfter : Option StoreFile

structure State where
  memory : Memory
  file : Option StoreFile
  tail : Tail Call Writing
  issued : List Call
  log : List Entry

inductive Event
  | issue (call : Call)
  | start (index : Nat)
  | writeSettled (index : Nat) (written renamed : Bool)

def chains (call : Call) : Bool := !call.reads

/-- How a mutation goes on after its synchronous part: it writes, or it is over
with this answer. -/
inductive Outcome
  | writes (memory : Memory) (reply : Reply)
  | settles (memory : Memory) (reply : Except Failure Reply)

/-- `#mutate` up to the asynchronous write; `writeRunStoreFile` refuses a file
that is too long before it writes anything. -/
def mutate (limits : Limits) (previous : Memory) (call : Call) : Outcome :=
  match operation previous call with
  | (_, .error e) => .settles previous (.error e)
  | (memory, .ok reply) =>
    if changed call reply then
      if memory.toFile.bytes limits > limits.maxStoreBytes then
        .settles previous (.error (.conflict "Run store exceeds the configured byte limit."))
      else .writes memory reply
    else .settles memory (.ok reply)

/-- `writeAtomicFile`: the target changes only by the rename of a temporary file
that was written. -/
def writeAtomicFile (target : Option StoreFile) (data : StoreFile) (written renamed : Bool) :
    Option StoreFile × Bool :=
  if written && renamed then (some data, true) else (target, false)

def goesOn (limits : Limits) (memory : Memory) (call : Call) : Option Writing :=
  match mutate limits memory call with
  | .writes _ reply => some ⟨call, memory, reply⟩
  | .settles .. => none

def issue (s : State) (call : Call) : State :=
  { s with tail := s.tail.enqueue chains call, issued := s.issued ++ [call] }

/-- The store after the call at the head of the tail started. -/
def started (limits : Limits) (s : State) (call : Call) (tail : Tail Call Writing) : State :=
  if call.reads then
    { s with tail, log := s.log ++
      [⟨call, (operation s.memory call).2, s.memory, s.memory, s.file, s.file⟩] }
  else
    match mutate limits s.memory call with
    | .settles memory reply =>
      { s with tail, memory, log := s.log ++ [⟨call, reply, s.memory, memory, s.file, s.file⟩] }
    | .writes memory _ => { s with tail, memory }

/-- A write that failed puts the previous maps back. -/
def settled (s : State) (w : Writing) (tail : Tail Call Writing) (written renamed : Bool) :
    State :=
  match writeAtomicFile s.file s.memory.toFile written renamed with
  | (file, true) =>
    { s with tail, file, log := s.log ++ [⟨w.call, .ok w.reply, w.previous, s.memory, s.file, file⟩] }
  | (file, false) =>
    { s with
      tail, file
      memory := w.previous
      log := s.log ++ [⟨w.call, .error .write, w.previous, w.previous, s.file, file⟩] }

def next (limits : Limits) (s : State) : Event → Option State
  | .issue call => some (issue s call)
  | .start index =>
    (s.tail.begin chains (goesOn limits s.memory) index).map fun (call, tail) =>
      started limits s call tail
  | .writeSettled index written renamed =>
    (s.tail.settle index).map fun (w, tail) => settled s w tail written renamed

def opened (m : Memory) (file : Option StoreFile) : State := ⟨m, file, .idle, [], []⟩

def store (limits : Limits) (m : Memory) (file : Option StoreFile) : System State Event :=
  .ofMachine (opened m file) (next limits)

/-- What `open` starts from: no file yet, or one that a store wrote. -/
def Opens (limits : Limits) (m : Memory) (file : Option StoreFile) : Prop :=
  WellFormed m ∧ (m = .empty ∧ file = none ∨
    file = some m.toFile ∧ m.toFile.bytes limits ≤ limits.maxStoreBytes)

theorem Opens.load {limits : Limits} {m : Memory} {file : Option StoreFile}
    (h : Opens limits m file) : load limits file = .ok m := by
  obtain ⟨hwf, ⟨rfl, rfl⟩ | ⟨rfl, hsize⟩⟩ := h
  · rfl
  · exact load_toFile hwf hsize

/-! ## One call at a time -/

def succeeded : Except Failure Reply → Bool
  | .ok _ => true
  | .error _ => false

/-- The effect of the calls that succeeded, one after the other. -/
def effects (m : Memory) (log : List Entry) : Memory :=
  log.foldl (fun m e => if succeeded e.reply then (operation m e.call).1 else m) m

/-- What a settled call is held to. -/
structure EntrySound (limits : Limits) (e : Entry) : Prop where
  wellFormed : WellFormed e.before
  rejected : succeeded e.reply = false → e.after = e.before ∧ e.fileAfter = e.fileBefore
  resolved : ∀ reply, e.reply = .ok reply → operation e.before e.call = (e.after, .ok reply)
  reads : e.call.reads = true → e.reply = (operation e.before e.call).2
  durable : Opens limits e.after e.fileAfter

theorem EntrySound.serves {limits : Limits} {e : Entry} (h : EntrySound limits e) {reply : Reply}
    (hr : e.reply = .ok reply) : Serves e.before e.call e.after reply :=
  operation_ok h.wellFormed (h.resolved reply hr)

theorem EntrySound.evolves {limits : Limits} {e : Entry} (h : EntrySound limits e) :
    Evolves e.before e.after := by
  cases hr : e.reply with
  | ok reply => exact (h.serves hr).evolves
  | error failure =>
    rw [(h.rejected (by rw [hr]; rfl)).1]
    exact .refl _

/-- The memory the calls that settled left. -/
def committed (s : State) : Memory :=
  match s.tail.running with
  | [] => s.memory
  | w :: _ => w.previous

/-- A mutation that writes: its maps are in place, its file is not. -/
structure WritingSound (limits : Limits) (s : State) (w : Writing) : Prop where
  chained : w.call.reads = false
  done : operation w.previous w.call = (s.memory, .ok w.reply)
  fits : s.memory.toFile.bytes limits ≤ limits.maxStoreBytes

/-- Calls settle in the order they were issued, and each starts from what the
ones before it left. -/
structure Sound (limits : Limits) (start : Memory) (s : State) : Prop where
  ordered : Tail.Ordered chains s.tail
  calls : s.log.map Entry.call ++ s.tail.running.map Writing.call ++
    s.tail.waiting.map Waiting.work = s.issued
  writing : ∀ w ∈ s.tail.running, WritingSound limits s w
  durable : Opens limits (committed s) s.file
  entries : ∀ e ∈ s.log, EntrySound limits e
  replayed : ∀ before e after, s.log = before ++ e :: after → e.before = effects start before
  current : committed s = effects start s.log

theorem effects_snoc (m : Memory) (log : List Entry) (e : Entry) :
    effects m (log ++ [e]) =
      if succeeded e.reply then (operation (effects m log) e.call).1 else effects m log := by
  unfold effects
  rw [List.foldl_append]
  rfl

variable {limits : Limits} {start : Memory} {s t : State}

/-- One more call settled, and nothing runs. -/
theorem Sound.logged (h : Sound limits start s) {e : Entry} (hbefore : e.before = committed s)
    (he : EntrySound limits e) (hlog : t.log = s.log ++ [e]) (hordered : Tail.Ordered chains t.tail)
    (hquiet : t.tail.running = []) (hmemory : t.memory = e.after) (hfile : t.file = e.fileAfter)
    (hcalls : t.log.map Entry.call ++ t.tail.waiting.map Waiting.work = t.issued) :
    Sound limits start t := by
  have hcommitted : committed t = e.after := by
    unfold committed
    rw [hquiet]
    exact hmemory
  refine ⟨hordered, ?_, ?_, ?_, ?_, ?_, ?_⟩
  · rw [hquiet, List.map_nil, List.append_nil]
    exact hcalls
  · intro w hw
    rw [hquiet] at hw
    cases hw
  · rw [hcommitted, hfile]
    exact he.durable
  · intro e' he'
    rw [hlog] at he'
    rcases List.mem_append.mp he' with hold | hnew
    · exact h.entries e' hold
    · rw [List.mem_singleton.mp hnew]
      exact he
  · intro before e' after heq
    rw [hlog] at heq
    rcases List.eq_nil_or_concat after with rfl | ⟨rest, last, rfl⟩
    · obtain ⟨rfl, hlast⟩ := List.append_inj' heq rfl
      cases hlast
      rw [hbefore, h.current]
    · rw [List.concat_eq_append, ← List.cons_append, ← List.append_assoc] at heq
      obtain ⟨heq, -⟩ := List.append_inj' heq rfl
      exact h.replayed before e' rest heq
  · rw [hcommitted, hlog, effects_snoc, ← h.current, ← hbefore]
    cases hr : e.reply with
    | ok reply => simp [succeeded, he.resolved reply hr]
    | error failure =>
      simp only [succeeded, Bool.false_eq_true, if_false]
      exact (he.rejected (by rw [hr]; rfl)).1

theorem reads_memory {m : Memory} {call : Call} (hc : call.reads = true) :
    (operation m call).1 = m := by
  cases call <;> first | rfl | cases hc

/-- What a mutation that is over at once leaves and answers. -/
theorem mutate_settles {m m' : Memory} {call : Call} {reply : Except Failure Reply}
    (hm : WellFormed m) (h : mutate limits m call = .settles m' reply) :
    m' = m ∧ ∀ r, reply = .ok r → operation m call = (m, .ok r) := by
  unfold mutate at h
  split at h
  · cases h
    exact ⟨rfl, fun r hr => nomatch hr⟩
  · rename_i memory r hop
    split at h
    · split at h
      · cases h
        exact ⟨rfl, fun r hr => nomatch hr⟩
      · cases h
    · rename_i hchanged
      cases h
      have hsame := (operation_ok hm hop).unchanged (.inr (Bool.not_eq_true _ ▸ hchanged))
      subst hsame
      refine ⟨rfl, ?_⟩
      rintro _ ⟨⟩
      exact hop

theorem mutate_writes {m m' : Memory} {call : Call} {reply : Reply}
    (h : mutate limits m call = .writes m' reply) :
    operation m call = (m', .ok reply) ∧ m'.toFile.bytes limits ≤ limits.maxStoreBytes := by
  unfold mutate at h
  split at h
  · cases h
  · rename_i memory r hop
    split at h
    · split at h
      · cases h
      · rename_i hsize
        cases h
        exact ⟨hop, Nat.not_lt.mp hsize⟩
    · cases h

theorem Sound.opened {file : Option StoreFile} (h : Opens limits start file) :
    Sound limits start (opened start file) where
  ordered := .idle
  calls := rfl
  writing w hw := nomatch hw
  durable := h
  entries e he := nomatch he
  replayed before e after heq := absurd heq (by simp [RunStoreQueue.opened])
  current := rfl

theorem Sound.issue (h : Sound limits start s) (call : Call) :
    Sound limits start (issue s call) where
  ordered := h.ordered.enqueue call
  calls := by
    have hcalls := h.calls
    unfold RunStoreQueue.issue Tail.enqueue
    simp only [List.map_append, List.map_cons, List.map_nil]
    rw [← List.append_assoc, hcalls]
  writing := by
    intro w hw
    obtain ⟨hchained, hdone, hfits⟩ := h.writing w hw
    exact ⟨hchained, hdone, hfits⟩
  durable := h.durable
  entries := h.entries
  replayed := h.replayed
  current := h.current

theorem Sound.started (h : Sound limits start s) {index : Nat} {call : Call}
    {tail : Tail Call Writing}
    (hb : s.tail.begin chains (goesOn limits s.memory) index = some (call, tail)) :
    Sound limits start (started limits s call tail) := by
  obtain ⟨⟨⟨after, hwaiting⟩, hquiet, hrunning⟩, hordered⟩ := h.ordered.begin hb
  have hcommitted : committed s = s.memory := by
    unfold committed
    rw [hquiet]
  have hcalls := h.calls
  rw [hquiet, hwaiting] at hcalls
  simp only [List.map_nil, List.append_nil, List.map_cons] at hcalls
  have hdurable := h.durable
  rw [hcommitted] at hdurable
  have hcurrent := h.current
  rw [hcommitted] at hcurrent
  unfold RunStoreQueue.started
  split
  · rename_i hreads
    simp only [chains, hreads, Bool.not_true, Bool.false_eq_true, if_false] at hrunning
    have he : EntrySound limits
        ⟨call, (operation s.memory call).2, s.memory, s.memory, s.file, s.file⟩ :=
      { wellFormed := hdurable.1
        rejected := fun _ => ⟨rfl, rfl⟩
        resolved := by
          intro reply hreply
          exact Prod.ext (reads_memory hreads) hreply
        reads := fun _ => rfl
        durable := hdurable }
    exact h.logged hcommitted.symm he rfl hordered hrunning rfl rfl (by simpa using hcalls)
  · rename_i hreads
    have hchains : chains call = true := by simp [chains, hreads]
    rw [if_pos hchains] at hrunning
    split
    · rename_i memory reply hmutate
      obtain ⟨rfl, hresolved⟩ := mutate_settles hdurable.1 hmutate
      have hrunning : tail.running = [] := by simpa [goesOn, hmutate] using hrunning
      have he : EntrySound limits ⟨call, reply, s.memory, s.memory, s.file, s.file⟩ :=
        { wellFormed := hdurable.1
          rejected := fun _ => ⟨rfl, rfl⟩
          resolved := hresolved
          reads := fun hc => absurd hc hreads
          durable := hdurable }
      exact h.logged hcommitted.symm he rfl hordered hrunning rfl rfl (by simpa using hcalls)
    · rename_i memory reply hmutate
      obtain ⟨hop, hsize⟩ := mutate_writes hmutate
      have hrunning : tail.running = [⟨call, s.memory, reply⟩] := by
        simpa [goesOn, hmutate] using hrunning
      refine ⟨hordered, ?_, ?_, ?_, h.entries, h.replayed, ?_⟩
      · rw [hrunning]
        simpa using hcalls
      · intro w hw
        rw [hrunning, List.mem_singleton] at hw
        rw [hw]
        exact ⟨by simpa using hreads, hop, hsize⟩
      · simpa only [committed, hrunning] using hdurable
      · simpa only [committed, hrunning] using hcurrent

theorem writeAtomicFile_cases {target file : Option StoreFile} {data : StoreFile}
    {written renamed ok : Bool} (h : writeAtomicFile target data written renamed = (file, ok)) :
    (ok = true ∧ file = some data) ∨ (ok = false ∧ file = target) := by
  unfold writeAtomicFile at h
  split at h
  · cases h
    exact .inl ⟨rfl, rfl⟩
  · cases h
    exact .inr ⟨rfl, rfl⟩

theorem Sound.settled (h : Sound limits start s) {index : Nat} {w : Writing}
    {tail : Tail Call Writing} {written renamed : Bool}
    (hs : s.tail.settle index = some (w, tail)) :
    Sound limits start (settled s w tail written renamed) := by
  obtain ⟨hrun, hrunning, hwaiting, hordered⟩ := h.ordered.settle hs
  have hw := h.writing w (by rw [hrun]; exact List.mem_singleton_self w)
  have hcommitted : committed s = w.previous := by
    unfold committed
    rw [hrun]
  have hdurable := h.durable
  rw [hcommitted] at hdurable
  have hcalls := h.calls
  rw [hrun, ← hwaiting] at hcalls
  have hreads : ¬ w.call.reads = true := by simp [hw.chained]
  unfold RunStoreQueue.settled
  split
  · rename_i file hwrite
    rcases writeAtomicFile_cases hwrite with ⟨-, rfl⟩ | ⟨hno, -⟩
    · have hnew : Opens limits s.memory (some s.memory.toFile) :=
        ⟨(operation_ok hdurable.1 hw.done).wellFormed, .inr ⟨rfl, hw.fits⟩⟩
      have he : EntrySound limits
          ⟨w.call, .ok w.reply, w.previous, s.memory, s.file, some s.memory.toFile⟩ :=
        { wellFormed := hdurable.1
          rejected := fun hc => nomatch hc
          resolved := by
            rintro reply ⟨⟩
            exact hw.done
          reads := fun hc => absurd hc hreads
          durable := hnew }
      exact h.logged hcommitted.symm he rfl hordered hrunning rfl rfl (by simpa using hcalls)
    · cases hno
  · rename_i file hwrite
    rcases writeAtomicFile_cases hwrite with ⟨hno, -⟩ | ⟨-, rfl⟩
    · cases hno
    · have he : EntrySound limits
          ⟨w.call, .error .write, w.previous, w.previous, s.file, s.file⟩ :=
        { wellFormed := hdurable.1
          rejected := fun _ => ⟨rfl, rfl⟩
          resolved := fun reply hc => nomatch hc
          reads := fun hc => absurd hc hreads
          durable := hdurable }
      exact h.logged hcommitted.symm he rfl hordered hrunning rfl rfl (by simpa using hcalls)

theorem sound_invariant {file : Option StoreFile} (hopen : Opens limits start file) :
    (store limits start file).Invariant (Sound limits start) where
  init := by
    intro s hs
    cases hs
    exact .opened hopen
  step := by
    intro s event t _ h hstep
    replace hstep : next limits s event = some t := hstep
    cases event with
    | issue call =>
      cases hstep
      exact h.issue call
    | start index =>
      obtain ⟨⟨call, tail⟩, hb, rfl⟩ := Option.map_eq_some_iff.mp hstep
      exact h.started hb
    | writeSettled index written renamed =>
      obtain ⟨⟨w, tail⟩, hs, rfl⟩ := Option.map_eq_some_iff.mp hstep
      exact h.settled hs

/-! ## Over a whole run -/

/-- What a record that became terminal looks like for the rest of the run. -/
theorem Evolves.terminal {m m' : Memory} (h : Evolves m m') {runId : String}
    {r : StoredRunRecord} (hr : m.byRun.get? runId = some r) (hterminal : r.status.terminal = true) :
    m'.byRun.get? runId = some r := by
  have hchange := h.change runId
  rw [hr] at hchange
  generalize m'.byRun.get? runId = o at hchange
  cases hchange with
  | same => rfl
  | advanced hadvances =>
    have hlive := hadvances.live
    rw [hterminal] at hlive
    cases hlive

theorem Sound.after_eq (h : Sound limits start s) {pre post : List Entry} {e : Entry}
    (heq : s.log = pre ++ e :: post) : e.after = effects start (pre ++ [e]) := by
  have he := h.entries e (by rw [heq]; simp)
  rw [effects_snoc, ← h.replayed pre e post heq]
  cases hr : e.reply with
  | ok reply => simp [succeeded, he.resolved reply hr]
  | error failure =>
    simp only [succeeded, Bool.false_eq_true, if_false]
    exact (he.rejected (by rw [hr]; rfl)).1

/-- A terminal record survives the calls that follow. -/
theorem Sound.terminal (h : Sound limits start s) {runId : String} {r : StoredRunRecord}
    (hterminal : r.status.terminal = true) :
    ∀ (post pre : List Entry), s.log = pre ++ post →
      (effects start pre).byRun.get? runId = some r →
      (effects start s.log).byRun.get? runId = some r
  | [], pre, heq, hr => by
    rw [heq, List.append_nil]
    exact hr
  | e :: post, pre, heq, hr => by
    have hev := (h.entries e (by rw [heq]; simp)).evolves
    rw [h.replayed pre e post heq, h.after_eq heq] at hev
    exact h.terminal hterminal post (pre ++ [e]) (by rw [heq, List.append_assoc]; rfl)
      (Evolves.terminal hev hr hterminal)

/-- What the store keeps for one settled call: a rejection leaves no trace, a
read shows the maps it started from, and the file always gives back the maps. -/
structure EntryHonest (limits : Limits) (e : Entry) : Prop where
  rejected : succeeded e.reply = false → e.after = e.before ∧ e.fileAfter = e.fileBefore
  resolved : ∀ reply, e.reply = .ok reply → operation e.before e.call = (e.after, .ok reply)
  reads : e.call.reads = true → e.after = e.before ∧ e.reply = (operation e.before e.call).2
  get : ∀ runId reply, e.call = .get runId → e.reply = .ok reply →
    reply = .found (e.before.byRun.get? runId)
  getByRequestId : ∀ requestId reply, e.call = .getByRequestId requestId → e.reply = .ok reply →
    reply = .found ((e.before.byRequest.get? requestId).bind e.before.byRun.get?)
  list : e.call = .list → e.reply = .ok (.records e.before.byRun.values)
  oneToOne : ∀ requestId runId, e.after.byRequest.get? requestId = some runId ↔
    ∃ r, e.after.byRun.get? runId = some r ∧ r.requestId.1 = requestId
  keyed : ∀ runId r, e.after.byRun.get? runId = some r → r.runId.1 = runId
  evolves : Evolves e.before e.after
  reopens : load limits e.fileAfter = .ok e.after

theorem EntrySound.honest {e : Entry} (h : EntrySound limits e) : EntryHonest limits e where
  rejected := h.rejected
  resolved := h.resolved
  reads hc := by
    refine ⟨?_, h.reads hc⟩
    cases hr : e.reply with
    | ok reply => exact (h.serves hr).unchanged (.inl hc)
    | error failure => exact (h.rejected (by rw [hr]; rfl)).1
  get runId reply hc hr := by
    have hop := h.reads (by rw [hc]; rfl)
    rw [hr, hc] at hop
    exact get_ok h.wellFormed hop.symm
  getByRequestId requestId reply hc hr := by
    have hop := h.reads (by rw [hc]; rfl)
    rw [hr, hc] at hop
    exact getByRequestId_ok h.wellFormed hop.symm
  list hc := by
    rw [h.reads (by rw [hc]; rfl), hc]
    exact list_ok h.wellFormed
  oneToOne requestId runId := h.durable.1.byRequest_iff
  keyed runId r hr := (h.durable.1.fits runId r hr).keyed
  evolves := h.evolves
  reopens := h.durable.load

/-- The store over a whole run from the maps it was opened with. -/
structure StoreHonest (limits : Limits) (start : Memory) (s : State) : Prop where
  callOrder : s.log.map Entry.call ++ s.tail.running.map Writing.call ++
    s.tail.waiting.map Waiting.work = s.issued
  oneAtATime : s.tail.running.length ≤ 1
  progress : s.tail.running = [] → s.tail.waiting ≠ [] → ∃ t, next limits s (.start 0) = some t
  effects : ∀ before e after, s.log = before ++ e :: after → e.before = effects start before
  entries : ∀ e ∈ s.log, EntryHonest limits e
  terminal : ∀ e ∈ s.log, ∀ runId r, e.after.byRun.get? runId = some r →
    r.status.terminal = true → (committed s).byRun.get? runId = some r
  reopens : load limits s.file = .ok (committed s)

theorem run_store_honest (limits : Limits) (start : Memory) (file : Option StoreFile)
    (hopen : Opens limits start file) (s : State) (hs : (store limits start file).Reachable s) :
    StoreHonest limits start s := by
  have h := (sound_invariant hopen).reachable hs
  refine ⟨h.calls, h.ordered.single, ?_, h.replayed, fun e he => (h.entries e he).honest, ?_,
    h.durable.load⟩
  · intro hquiet hwaiting
    obtain ⟨w, rest, hw⟩ := List.exists_cons_of_ne_nil hwaiting
    obtain ⟨tail, htail⟩ :
        ∃ tail, s.tail.begin chains (goesOn limits s.memory) 0 = some (w.work, tail) :=
      h.ordered.ready hquiet hw
    exact ⟨_, Option.map_eq_some_iff.mpr ⟨_, htail, rfl⟩⟩
  · intro e he runId r hr hterminal
    obtain ⟨pre, post, heq⟩ := List.append_of_mem he
    rw [h.after_eq heq] at hr
    rw [h.current]
    exact h.terminal hterminal post (pre ++ [e]) (by rw [heq, List.append_assoc]; rfl) hr

def demoReservation : RunReservation where
  requestId := "request-1"
  fingerprint := "00112233445566778899aabbccddeeff00112233445566778899aabbccddeeff"
  proposedRunId := "run:00000000-0000-4000-8000-000000000001"
  snapshot := .object [("snapshotId", .string "snapshot-1"), ("resolvedRevision", .string "head")]
  testId := "service-test:demo/login"
  parameters := .object []
  taskId := none
  executionLinks := none
  createdAt := "2026-01-01T00:00:00.000Z"

/-- The first write fails; the second reservation and the list wait behind it. -/
def demoEvents : List Event :=
  [.issue (.reserve demoReservation), .start 0, .issue (.reserve demoReservation), .issue .list,
    .writeSettled 0 true false, .start 0, .writeSettled 0 true true, .start 0]

def demoLimits : Limits := ⟨4096, fun _ => 1⟩

def demoStore : State :=
  (System.replay (next demoLimits) (opened .empty none) demoEvents).get (by decide +kernel)

theorem demoStore_reachable : (store demoLimits .empty none).Reachable demoStore :=
  System.reachable_of_replay (Option.some_get _).symm

theorem demo_store_honest :
    StoreHonest demoLimits .empty demoStore ∧
      demoStore.log.map (fun e => succeeded e.reply) = [false, true, true] :=
  ⟨run_store_honest demoLimits .empty none ⟨.empty, .inl ⟨rfl, rfl⟩⟩ demoStore demoStore_reachable,
    by decide +kernel⟩

end SurfaceLoom.Service.RunStoreQueue
