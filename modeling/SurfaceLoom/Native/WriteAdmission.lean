import Mathlib.Algebra.Order.Ring.Int
import Mathlib.Algebra.BigOperators.Group.List.Basic
import Mathlib.Algebra.Order.BigOperators.Group.List
import Mathlib.Tactic.Common
import SurfaceLoom.Lib.Transition
import SurfaceLoom.Native.Client

/-! # Which writes to a host process are let in

`ProcessWriter` hands frames to the standard input of a process and counts the bytes that
are on their way. A call of `write` is entered in `writes`, which is not in the source, with
what became of it; the stream may answer a write at any time, also while it is being handed
over, more than once or never. -/
namespace SurfaceLoom.Native.WriteAdmission
open SurfaceLoom.Lib.Transition SurfaceLoom.Native.Client

/-- How the promise of a write is settled. -/
inductive Settlement
  | resolved (bytesWritten : Nat)
  | rejected (phase : NativeWritePhase) (message : String)
  deriving DecidableEq

inductive Timer
  | unset
  | armed
  | cleared
  | fired
  deriving DecidableEq

/-- One call of `write`. `promiseSettled`, `accounted` and `timer` are the variables of the
source; `handed`, `called`, `threw` and `settlements` say what happened to the call. -/
structure Write where
  bytes : Nat
  admitted : Bool
  handed : Bool
  called : Bool
  threw : Bool
  promiseSettled : Bool
  accounted : Bool
  timer : Timer
  settlements : List Settlement
  deriving DecidableEq

structure ProcessWriter where
  maximum : Nat
  accepting : Bool
  outstanding : Int
  writes : List Write
  fatal : List String
  deriving DecidableEq

/-- What the writer reads of its stream. -/
structure Stream where
  destroyed : Bool
  writableEnded : Bool
  writableNeedDrain : Bool
  deriving DecidableEq

namespace Write

/-- A call that `#before` rejects. -/
def refused (message : String) : Write :=
  ⟨0, false, false, false, false, true, false, .unset, [.rejected .beforeWrite message]⟩

/-- A call that is let in: its timer is armed and its bytes go to the stream. -/
def handOver (bytes : Nat) : Write := ⟨bytes, true, true, false, false, false, false, .armed, []⟩

def settle (w : Write) (settlement : Settlement) : Write :=
  if w.promiseSettled then w
  else
    { w with
      promiseSettled := true
      timer := if w.timer = .armed then .cleared else w.timer
      settlements := w.settlements ++ [settlement] }

/-- The settlement that the callback of the stream asks for. -/
def report (w : Write) : Option String → Settlement
  | none => .resolved w.bytes
  | some _ => .rejected .writing "Native process write failed."

end Write

namespace ProcessWriter

def create (maximum : Nat) : ProcessWriter := ⟨maximum, false, 0, [], []⟩

def start (p : ProcessWriter) : ProcessWriter := { p with accepting := true }

def stop (p : ProcessWriter) : ProcessWriter := { p with accepting := false }

def enter (p : ProcessWriter) (w : Write) : ProcessWriter := { p with writes := p.writes ++ [w] }

/-- `encoded` is what `Buffer.from(frame, "utf8")` does. -/
def write (p : ProcessWriter) (encoded : Except String Nat) (stream : Stream) : ProcessWriter :=
  if !p.accepting then p.enter (.refused "Native process is not accepting writes.")
  else
    match encoded with
    | .error _ => p.enter (.refused "Native frame encoding failed.")
    | .ok bytes =>
      if stream.destroyed || stream.writableEnded || stream.writableNeedDrain
          || p.maximum - p.outstanding < bytes then
        p.enter (.refused "Native process write rejected by immediate admission control.")
      else
        { p with
          outstanding := p.outstanding + bytes
          writes := p.writes ++ [.handOver bytes] }

/-- `account` of the write at `i`. -/
def account (p : ProcessWriter) (i : Nat) (w : Write) : ProcessWriter :=
  if w.accounted then p
  else
    { p with
      outstanding := p.outstanding - w.bytes
      writes := p.writes.set i { w with accounted := true } }

def settle (p : ProcessWriter) (i : Nat) (settlement : Settlement) : ProcessWriter :=
  match p.writes[i]? with
  | some w => { p with writes := p.writes.set i (w.settle settlement) }
  | none => p

/-- The callback that was passed with the write at `i`. -/
def callback (p : ProcessWriter) (i : Nat) (error : Option String) : Option ProcessWriter :=
  match p.writes[i]? with
  | some w =>
    if w.handed then
      some ((account { p with writes := p.writes.set i { w with called := true } } i
        { w with called := true }).settle i (w.report error))
    else none
  | none => none

/-- The stream throws while the write at `i` is handed to it. -/
def throws (p : ProcessWriter) (i : Nat) : Option ProcessWriter :=
  match p.writes[i]? with
  | some w =>
    if w.handed && !w.threw then
      some ((account { p with writes := p.writes.set i { w with threw := true } } i
        { w with threw := true }).settle i (.rejected .writing "Native process write failed."))
    else none
  | none => none

def timeout (p : ProcessWriter) (i : Nat) : Option ProcessWriter :=
  match p.writes[i]? with
  | some w =>
    if w.timer = .armed then
      let fired := { p with writes := p.writes.set i { w with timer := .fired } }
      let settled := fired.settle i (.rejected .writing "Native process write timed out.")
      some { settled.stop with fatal := settled.fatal ++ ["Native process write timed out."] }
    else none
  | none => none

end ProcessWriter

inductive Event
  | start
  | stop
  | write (encoded : Except String Nat) (stream : Stream)
  | callback (write : Nat) (error : Option String)
  | throws (write : Nat)
  | timeout (write : Nat)

namespace ProcessWriter

def next (p : ProcessWriter) : Event → Option ProcessWriter
  | .start => some p.start
  | .stop => some p.stop
  | .write encoded stream => some (p.write encoded stream)
  | .callback i error => p.callback i error
  | .throws i => p.throws i
  | .timeout i => p.timeout i

end ProcessWriter

/-- A writer with its stream, from its construction on. -/
def writer (maximum : Nat) : System ProcessWriter Event where
  init p := p = .create maximum
  step p event p' := p.next event = some p'

/-! ## What a write still owes -/

namespace Write

/-- The bytes of a write that was let in and that the stream has not answered. -/
def owed (w : Write) : Int := if w.admitted && !w.called && !w.threw then w.bytes else 0

/-- The bytes the counter holds for a write. -/
def held (w : Write) : Int := if w.admitted && !w.accounted then w.bytes else 0

structure Sound (w : Write) : Prop where
  handed : w.handed = w.admitted
  answered : (w.called || w.threw) = true → w.admitted = true
  accounted : w.accounted = (w.called || w.threw)
  settled : w.promiseSettled = !w.settlements.isEmpty
  once : w.settlements.length ≤ 1
  honest : ∀ message, .rejected .beforeWrite message ∈ w.settlements → w.handed = false

theorem Sound.held {w : Write} (h : w.Sound) : w.held = w.owed := by
  simp only [Write.held, owed, h.accounted, Bool.not_or, Bool.and_assoc]

theorem sound_refused (message : String) : (refused message).Sound :=
  ⟨rfl, by simp [refused], rfl, rfl, by simp [refused], fun _ _ => rfl⟩

theorem sound_handOver (bytes : Nat) : (handOver bytes).Sound :=
  ⟨rfl, by simp [handOver], rfl, rfl, by simp [handOver], by simp [handOver]⟩

/-- Settling: only the first settlement counts, and it is not `beforeWrite`. -/
theorem Sound.settle {w : Write} (h : w.Sound) {settlement : Settlement}
    (hphase : ∀ message, settlement ≠ .rejected .beforeWrite message) :
    (w.settle settlement).Sound := by
  unfold Write.settle
  split
  · exact h
  · rename_i hopen
    have hnone : w.settlements = [] := by
      have hsettled := h.settled
      rw [Bool.eq_false_iff.mpr hopen] at hsettled
      simpa using hsettled.symm
    refine ⟨h.handed, h.answered, h.accounted, ?_, ?_, ?_⟩
    · simp
    · simp [hnone]
    · intro message hin
      rw [hnone, List.nil_append, List.mem_singleton] at hin
      exact absurd hin.symm (hphase message)

@[simp] theorem held_settle (w : Write) (settlement : Settlement) :
    (w.settle settlement).held = w.held := by
  unfold Write.settle
  split <;> rfl

theorem report_ne (w : Write) (error : Option String) (message : String) :
    w.report error ≠ .rejected .beforeWrite message := by
  cases error <;> simp [report]

end Write

/-! ## What a step does to the table -/

namespace ProcessWriter

/-- The step changes one write, and the counter by what that write holds. -/
structure Replaces (p p' : ProcessWriter) (i : Nat) (w w' : Write) : Prop where
  here : p.writes[i]? = some w
  writes : p'.writes = p.writes.set i w'
  outstanding : p'.outstanding = p.outstanding + (w'.held - w.held)
  maximum : p'.maximum = p.maximum

/-- `account` and `settle` of a write that the stream has just answered. -/
theorem answer_replaces {p : ProcessWriter} {i : Nat} {w : Write} (answered : Write)
    (hi : p.writes[i]? = some w) (hheld : answered.held = w.held)
    (hadmitted : answered.admitted = true) (settlement : Settlement) :
    Replaces p ((account { p with writes := p.writes.set i answered } i answered).settle i
      settlement) i w ({ answered with accounted := true }.settle settlement) := by
  have hlt := (List.getElem?_eq_some_iff.mp hi).1
  have hafter : ({ answered with accounted := true } : Write).held = 0 := by
    simp [Write.held]
  unfold account
  split
  · rename_i haccounted
    have hsame : ({ answered with accounted := true } : Write) = answered := by
      rw [← haccounted]
    simp only [ProcessWriter.settle, List.getElem?_set_self hlt, List.set_set]
    refine ⟨hi, ?_, ?_, rfl⟩
    · rw [hsame]
    · rw [Write.held_settle, hsame, hheld]
      show p.outstanding = _
      omega
  · rename_i haccounted
    simp only [ProcessWriter.settle, List.set_set, List.getElem?_set_self hlt]
    refine ⟨hi, rfl, ?_, rfl⟩
    rw [Write.held_settle, hafter, ← hheld]
    show p.outstanding - answered.bytes = _
    simp only [Write.held, hadmitted, Bool.eq_false_iff.mpr haccounted, Bool.not_false, Bool.and_self,
      if_true]
    omega

theorem callback_replaces {p p' : ProcessWriter} {i : Nat} {error : Option String}
    (h : p.callback i error = some p') (hsound : ∀ w ∈ p.writes, w.Sound) :
    ∃ w w', Replaces p p' i w w' ∧ w'.Sound ∧ w'.held ≤ w.held := by
  unfold callback at h
  split at h
  · rename_i w hi
    split at h
    · rename_i hhanded
      cases h
      have hw := hsound w (List.mem_of_getElem? hi)
      have hadmitted : w.admitted = true := hw.handed ▸ hhanded
      have hreplaces := answer_replaces { w with called := true } hi rfl hadmitted
        (w.report error)
      refine ⟨w, _, hreplaces, ?_, ?_⟩
      · refine Write.Sound.settle ?_ (w.report_ne error)
        exact ⟨hw.handed, fun _ => hadmitted, by simp, hw.settled, hw.once, hw.honest⟩
      · rw [Write.held_settle]
        simp only [Write.held, Bool.not_true, Bool.and_false, Bool.false_eq_true, if_false]
        split <;> omega
    · cases h
  · cases h

theorem throws_replaces {p p' : ProcessWriter} {i : Nat} (h : p.throws i = some p')
    (hsound : ∀ w ∈ p.writes, w.Sound) :
    ∃ w w', Replaces p p' i w w' ∧ w'.Sound ∧ w'.held ≤ w.held := by
  unfold throws at h
  split at h
  · rename_i w hi
    split at h
    · rename_i hhanded
      cases h
      have hw := hsound w (List.mem_of_getElem? hi)
      have hadmitted : w.admitted = true := hw.handed ▸ (Bool.and_eq_true_iff.mp hhanded).1
      have hreplaces := answer_replaces { w with threw := true } hi rfl hadmitted
        (.rejected .writing "Native process write failed.")
      refine ⟨w, _, hreplaces, ?_, ?_⟩
      · refine Write.Sound.settle ?_ (by simp)
        exact ⟨hw.handed, fun _ => hadmitted, by simp, hw.settled, hw.once, hw.honest⟩
      · rw [Write.held_settle]
        simp only [Write.held, Bool.not_true, Bool.and_false, Bool.false_eq_true, if_false]
        split <;> omega
    · cases h
  · cases h

theorem timeout_replaces {p p' : ProcessWriter} {i : Nat} (h : p.timeout i = some p')
    (hsound : ∀ w ∈ p.writes, w.Sound) :
    ∃ w w', Replaces p p' i w w' ∧ w'.Sound ∧ w'.held ≤ w.held := by
  unfold timeout at h
  split at h
  · rename_i w hi
    split at h
    · cases h
      have hlt := (List.getElem?_eq_some_iff.mp hi).1
      have hw := hsound w (List.mem_of_getElem? hi)
      refine ⟨w, { w with timer := .fired }.settle
        (.rejected .writing "Native process write timed out."), ⟨hi, ?_, ?_, ?_⟩, ?_, ?_⟩
      · simp only [ProcessWriter.settle, List.getElem?_set_self hlt, stop, List.set_set]
      · rw [Write.held_settle]
        simp only [ProcessWriter.settle, List.getElem?_set_self hlt, stop, Write.held]
        omega
      · simp only [ProcessWriter.settle, List.getElem?_set_self hlt, stop]
      · refine Write.Sound.settle ?_ (by simp)
        exact ⟨hw.handed, hw.answered, hw.accounted, hw.settled, hw.once, hw.honest⟩
      · rw [Write.held_settle]
        exact Int.le_refl _
    · cases h
  · cases h

/-- A call of `write` enters one write, and its bytes only if they fit. -/
theorem write_enters (p : ProcessWriter) (encoded : Except String Nat) (stream : Stream) :
    ∃ w : Write, w.Sound ∧ (p.write encoded stream).writes = p.writes ++ [w] ∧
      (p.write encoded stream).outstanding = p.outstanding + w.held ∧
      (p.write encoded stream).maximum = p.maximum ∧
      (w.held = 0 ∨ p.outstanding + w.held ≤ p.maximum) := by
  have hrefused : ∀ message, ∃ w : Write, w.Sound ∧
      (p.enter (.refused message)).writes = p.writes ++ [w] ∧
      (p.enter (.refused message)).outstanding = p.outstanding + w.held ∧
      (p.enter (.refused message)).maximum = p.maximum ∧
      (w.held = 0 ∨ p.outstanding + w.held ≤ p.maximum) := by
    intro message
    refine ⟨.refused message, Write.sound_refused message, rfl, ?_, rfl, .inl rfl⟩
    show p.outstanding = p.outstanding + 0
    omega
  unfold write
  split
  · exact hrefused _
  · split
    · exact hrefused _
    · rename_i bytes
      split
      · exact hrefused _
      · rename_i hfits
        refine ⟨.handOver bytes, Write.sound_handOver bytes, rfl, rfl, rfl, .inr ?_⟩
        simp only [Bool.or_eq_true, decide_eq_true_eq, not_or] at hfits
        show p.outstanding + (bytes : Int) ≤ p.maximum
        omega

/-! ## The counter -/

structure Sound (p : ProcessWriter) : Prop where
  outstanding : p.outstanding = (p.writes.map Write.held).sum
  atMost : p.outstanding ≤ p.maximum
  writes : ∀ w ∈ p.writes, w.Sound

theorem Sound.replaces {p p' : ProcessWriter} (h : p.Sound) {i : Nat} {w w' : Write}
    (hreplaces : Replaces p p' i w w') (hsound : w'.Sound) (hle : w'.held ≤ w.held) : p'.Sound := by
  obtain ⟨hlt, hget⟩ := List.getElem?_eq_some_iff.mp hreplaces.here
  refine ⟨?_, ?_, ?_⟩
  · rw [hreplaces.outstanding, hreplaces.writes, List.map_set, List.sum_set', h.outstanding]
    rw [dif_pos (by simpa using hlt)]
    simp only [List.getElem_map, hget]
    omega
  · have := h.atMost
    rw [hreplaces.outstanding, hreplaces.maximum]
    omega
  · rw [hreplaces.writes]
    intro x hx
    rcases List.mem_or_eq_of_mem_set hx with hx | rfl
    · exact h.writes x hx
    · exact hsound

theorem Sound.next {p p' : ProcessWriter} (h : p.Sound) {event : Event}
    (hstep : p.next event = some p') : p'.Sound := by
  cases event with
  | start | stop =>
    cases hstep
    exact ⟨h.outstanding, h.atMost, h.writes⟩
  | write encoded stream =>
    cases hstep
    obtain ⟨w, hw, hwrites, houtstanding, hmaximum, hfits⟩ := p.write_enters encoded stream
    have hatMost := h.atMost
    refine ⟨?_, ?_, ?_⟩
    · rw [houtstanding, hwrites, h.outstanding]
      simp
    · rw [houtstanding, hmaximum]
      rcases hfits with hzero | hfits
      · omega
      · exact hfits
    · rw [hwrites]
      intro x hx
      rcases List.mem_append.mp hx with hx | hx
      · exact h.writes x hx
      · rw [List.mem_singleton.mp hx]
        exact hw
  | callback i error =>
    obtain ⟨w, w', hreplaces, hsound, hle⟩ := callback_replaces hstep h.writes
    exact h.replaces hreplaces hsound hle
  | throws i =>
    obtain ⟨w, w', hreplaces, hsound, hle⟩ := throws_replaces hstep h.writes
    exact h.replaces hreplaces hsound hle
  | timeout i =>
    obtain ⟨w, w', hreplaces, hsound, hle⟩ := timeout_replaces hstep h.writes
    exact h.replaces hreplaces hsound hle

end ProcessWriter

theorem sound_invariant (maximum : Nat) :
    (writer maximum).Invariant fun p => p.Sound ∧ p.maximum = maximum := by
  refine ⟨?_, ?_⟩
  · rintro p rfl
    exact ⟨⟨rfl, Int.natCast_nonneg maximum, by simp [ProcessWriter.create]⟩, rfl⟩
  · rintro p event p' - ⟨hsound, hmaximum⟩ hstep
    refine ⟨hsound.next hstep, ?_⟩
    cases event with
    | start | stop =>
      cases hstep
      exact hmaximum
    | write encoded stream =>
      cases hstep
      obtain ⟨_, -, -, -, hsame, -⟩ := p.write_enters encoded stream
      exact hsame.trans hmaximum
    | callback i error =>
      obtain ⟨_, _, hreplaces, -⟩ := ProcessWriter.callback_replaces hstep hsound.writes
      exact hreplaces.maximum.trans hmaximum
    | throws i =>
      obtain ⟨_, _, hreplaces, -⟩ := ProcessWriter.throws_replaces hstep hsound.writes
      exact hreplaces.maximum.trans hmaximum
    | timeout i =>
      obtain ⟨_, _, hreplaces, -⟩ := ProcessWriter.timeout_replaces hstep hsound.writes
      exact hreplaces.maximum.trans hmaximum

/-- The counter is what the stream still owes an answer for, no promise is settled twice, and
a write that is reported as `beforeWrite` never reached the stream. -/
structure Accounted (maximum : Nat) (p : ProcessWriter) : Prop where
  outstanding : p.outstanding = (p.writes.map Write.owed).sum
  nonneg : 0 ≤ p.outstanding
  atMost : p.outstanding ≤ maximum
  once : ∀ w ∈ p.writes, w.settlements.length ≤ 1
  honest : ∀ w ∈ p.writes, ∀ message, .rejected .beforeWrite message ∈ w.settlements →
    w.handed = false

theorem reachable_accounted {maximum : Nat} {p : ProcessWriter}
    (h : (writer maximum).Reachable p) : Accounted maximum p := by
  obtain ⟨hsound, hmaximum⟩ := (sound_invariant maximum).reachable h
  have howed : p.outstanding = (p.writes.map Write.owed).sum := by
    rw [hsound.outstanding, List.map_congr_left fun w hw => (hsound.writes w hw).held]
  refine ⟨howed, ?_, ?_, ?_, ?_⟩
  · rw [howed]
    refine List.sum_nonneg ?_
    intro x hx
    obtain ⟨w, -, rfl⟩ := List.mem_map.mp hx
    unfold Write.owed
    split
    · exact Int.natCast_nonneg _
    · exact Int.le_refl 0
  · rw [← hmaximum]
    exact hsound.atMost
  · exact fun w hw => (hsound.writes w hw).once
  · exact fun w hw => (hsound.writes w hw).honest

/-- A write that times out and is called back later, one that the stream throws at after it
has called back, and one that no longer fits. -/
def crowded : List Event :=
  [.start, .write (.ok 6) ⟨false, false, false⟩, .timeout 0, .start,
    .write (.ok 4) ⟨false, false, false⟩, .callback 1 none, .throws 1,
    .write (.ok 5) ⟨false, false, false⟩, .callback 0 none, .write (.ok 9) ⟨false, false, false⟩]

theorem crowded_accounted : ∃ p, (writer 10).Reachable p ∧ p.outstanding = 9 ∧
    p.writes.length = 4 ∧ Accounted 10 p := by
  have hrun : (System.replay ProcessWriter.next (.create 10) crowded).any (fun p =>
      p.outstanding = 9 && p.writes.length = 4) = true := by
    decide
  obtain ⟨p, hp, hcheck⟩ := (Option.any_eq_true _ _).mp hrun
  obtain ⟨houtstanding, hlength⟩ := Bool.and_eq_true_iff.mp hcheck
  have hreachable : (writer 10).Reachable p := System.reachable_of_replay hp
  exact ⟨p, hreachable, of_decide_eq_true houtstanding, of_decide_eq_true hlength,
    reachable_accounted hreachable⟩

end SurfaceLoom.Native.WriteAdmission
