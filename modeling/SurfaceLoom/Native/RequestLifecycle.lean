import SurfaceLoom.Lib.Transition
import SurfaceLoom.Native.Client

/-! # The life of one request

What may happen to one registered request, on its own: its frame is handed to
the transport, the transport reports on the write, the promise settles once,
and a response may come after a local rejection. The client's tables are
absent here; the client is shown to follow this protocol for every request at
once. -/
namespace SurfaceLoom.Native.RequestLifecycle
open SurfaceLoom.Lib.Transition SurfaceLoom.Native.Wire SurfaceLoom.Native.Client
open SurfaceLoom.Native.Client.NativeClient

variable {π ρ : Type}

/-- The transport itself says that no byte of the frame left. -/
def NothingWritten (report : WriteReport) : Prop :=
  report = .receipt 0 ∨ report = .failed (some .beforeWrite)

inductive PromiseState
  | waiting
  | rejectedLocally
  | answered
  deriving DecidableEq, Repr

/-- `nothingWritten` remembers a report that said so. -/
structure Lifecycle where
  handed : Bool
  nothingWritten : Bool
  promise : PromiseState
  late : Bool
  deriving DecidableEq

def Lifecycle.start : Lifecycle := ⟨false, false, .waiting, false⟩

/-- The outcome a client error may claim for a side effect. Once the frame is
out and the transport has not taken that back, only a response can tell more
than `unknown`. -/
def HonestOutcome (request : NativeRequest π) (l : Lifecycle) (error : NativeClientError) : Prop :=
  request.call.intent ≠ .observe → l.handed = true → l.nothingWritten = false →
    (error.code = .decodeFailed ∧ error.operationOutcome ≠ some .notExecuted) ∨
      (error.code ≠ .decodeFailed ∧ error.operationOutcome = some .unknown)

inductive LifecycleStep (request : NativeRequest π) : Lifecycle → Mark ρ → Lifecycle → Prop
  | handed {l : Lifecycle} : l = .start →
      LifecycleStep request l .handed { l with handed := true }
  | reportedNothing {l : Lifecycle} {report : WriteReport} :
      l.handed = true → NothingWritten report →
      LifecycleStep request l (.reported report) { l with nothingWritten := true }
  | reported {l : Lifecycle} {report : WriteReport} :
      l.handed = true → ¬ NothingWritten report →
      LifecycleStep request l (.reported report) l
  | resolved {l : Lifecycle} {response : WireResponse ρ} :
      l.handed = true → l.promise = .waiting →
      validateResponseForRequest request response = none →
      LifecycleStep request l (.settled (.resolved response)) { l with promise := .answered }
  | refused {l : Lifecycle} {error : NativeWireError} {operation : Option NativeOperationReceipt} :
      l.handed = true → l.promise = .waiting →
      LifecycleStep request l (.settled (.rejected (.remote error operation)))
        { l with promise := .answered }
  | decodeFailed {l : Lifecycle} {error : NativeClientError} :
      l.handed = true → l.promise = .waiting → error.code = .decodeFailed →
      HonestOutcome request l error →
      LifecycleStep request l (.settled (.rejected (.client error)))
        { l with promise := .answered }
  | rejected {l : Lifecycle} {error : NativeClientError} :
      l.promise = .waiting → error.code ≠ .decodeFailed → HonestOutcome request l error →
      LifecycleStep request l (.settled (.rejected (.client error)))
        { l with promise := .rejectedLocally }
  | unsendable {l : Lifecycle} {code : String} :
      l.promise = .waiting → l.handed = false →
      LifecycleStep request l (.settled (.rejected (.protocol code)))
        { l with promise := .rejectedLocally }
  | late {l : Lifecycle} {response : WireResponse ρ} :
      l.handed = true → l.promise = .rejectedLocally → l.late = false →
      validateResponseForRequest request response = none →
      LifecycleStep request l (.late response) { l with late := true }

def lifecycle (ρ : Type) (request : NativeRequest π) : System Lifecycle (Mark ρ) where
  init l := l = .start
  step := LifecycleStep request

/-! ## What a life looks like from outside -/

def isSettled : Mark ρ → Bool
  | .settled _ => true
  | _ => false

def isLate : Mark ρ → Bool
  | .late _ => true
  | _ => false

/-- The promise was rejected before any response. -/
def LocalRejection : Mark ρ → Prop
  | .settled (.rejected (.client error)) => error.code ≠ .decodeFailed
  | .settled (.rejected (.protocol _)) => True
  | _ => False

/-- The state against the marks so far. -/
structure Counted (marks : List (Mark ρ)) (l : Lifecycle) : Prop where
  start : l = .start → marks = []
  handed : .handed ∈ marks ↔ l.handed = true
  nothingWritten : (∃ report, .reported report ∈ marks ∧ NothingWritten report) ↔
    l.nothingWritten = true
  settled : marks.countP isSettled = if l.promise = .waiting then 0 else 1
  lates : marks.countP isLate = if l.late then 1 else 0
  rejectedLocally : l.promise = .rejectedLocally → ∃ m ∈ marks, LocalRejection m
  lateLocal : l.late = true → l.promise = .rejectedLocally

variable {request : NativeRequest π}

theorem counted_invariant : (lifecycle ρ request).TraceInvariant Counted where
  init := by
    rintro l rfl
    refine ⟨fun _ => rfl, by simp [Lifecycle.start], by simp [Lifecycle.start], rfl, rfl, ?_, ?_⟩
    · exact fun h => nomatch h
    · exact fun h => nomatch h
  step := by
    intro marks l m l' _ hc hstep
    obtain ⟨-, hh, hn, hs, hl, hr, hll⟩ := hc
    have hstarted : ∀ l₁ : Lifecycle, (l₁.handed = true ∨ l₁.promise ≠ .waiting) →
        ∀ m', l₁ = .start → marks ++ [m'] = [] := by
      rintro l₁ (h | h) m' rfl
      · cases h
      · exact absurd rfl h
    have hkeep : (∃ m ∈ marks, LocalRejection m) → ∀ m', ∃ m ∈ marks ++ [m'], LocalRejection m := by
      rintro ⟨m, hm, hloc⟩ m'
      exact ⟨m, List.mem_append_left _ hm, hloc⟩
    cases hstep with
    | handed hstart =>
      subst hstart
      refine ⟨hstarted _ (.inl rfl) _, by simp, ?_, ?_, ?_, (fun h => nomatch h), fun h => nomatch h⟩
      · simpa using hn
      · simpa [isSettled] using hs
      · simpa [isLate] using hl
    | reportedNothing hhanded hnothing =>
      refine ⟨hstarted { l with nothingWritten := true } (.inl hhanded) _, by simpa using hh, ?_, by simpa [isSettled] using hs, by simpa [isLate] using hl,
        (fun h => hkeep (hr h) _), hll⟩
      simp only [iff_true]
      exact ⟨_, List.mem_append_right _ (List.mem_singleton.mpr rfl), hnothing⟩
    | reported hhanded hnothing =>
      refine ⟨hstarted _ (.inl hhanded) _, by simpa using hh, ?_, by simpa [isSettled] using hs, by simpa [isLate] using hl,
        (fun h => hkeep (hr h) _), hll⟩
      rw [← hn]
      constructor
      · rintro ⟨r, hr, hnr⟩
        rcases List.mem_append.mp hr with h | h
        · exact ⟨r, h, hnr⟩
        · simp only [List.mem_singleton, Mark.reported.injEq] at h
          exact absurd (h ▸ hnr) hnothing
      · rintro ⟨r, hr, hnr⟩
        exact ⟨r, List.mem_append_left _ hr, hnr⟩
    | resolved _ hwait _ =>
      refine ⟨hstarted _ (.inr (by simp)) _, by simpa using hh, by simpa using hn, ?_, by simpa [isLate] using hl,
        (fun h => nomatch h), fun h => absurd (hll h) (by simp [hwait])⟩
      simpa [isSettled, hwait] using hs
    | refused _ hwait =>
      refine ⟨hstarted _ (.inr (by simp)) _, by simpa using hh, by simpa using hn, ?_, by simpa [isLate] using hl,
        (fun h => nomatch h), fun h => absurd (hll h) (by simp [hwait])⟩
      simpa [isSettled, hwait] using hs
    | decodeFailed _ hwait _ _ =>
      refine ⟨hstarted _ (.inr (by simp)) _, by simpa using hh, by simpa using hn, ?_, by simpa [isLate] using hl,
        (fun h => nomatch h), fun h => absurd (hll h) (by simp [hwait])⟩
      simpa [isSettled, hwait] using hs
    | rejected hwait hcode _ =>
      refine ⟨hstarted _ (.inr (by simp)) _, by simpa using hh, by simpa using hn, ?_, by simpa [isLate] using hl, fun _ => ?_,
        fun _ => rfl⟩
      · simpa [isSettled, hwait] using hs
      · exact ⟨_, List.mem_append_right _ (List.mem_singleton.mpr rfl), hcode⟩
    | unsendable hwait _ =>
      refine ⟨hstarted _ (.inr (by simp)) _, by simpa using hh, by simpa using hn, ?_, by simpa [isLate] using hl, fun _ => ?_,
        fun _ => rfl⟩
      · simpa [isSettled, hwait] using hs
      · exact ⟨_, List.mem_append_right _ (List.mem_singleton.mpr rfl), trivial⟩
    | late hhanded hloc hlate _ =>
      refine ⟨hstarted { l with late := true } (.inl hhanded) _, by simpa using hh, by simpa using hn, by simpa [isSettled] using hs, ?_,
        (fun h => hkeep (hr h) _), fun _ => hloc⟩
      simpa [isLate, hlate] using hl

/-- What a mark says about the marks before it. -/
def Justified (request : NativeRequest π) (before : List (Mark ρ)) : Mark ρ → Prop
  | .handed => before = []
  | .settled (.resolved response) => validateResponseForRequest request response = none
  | .settled (.rejected (.client error)) => request.call.intent ≠ .observe → .handed ∈ before →
      (∀ report, .reported report ∈ before → ¬ NothingWritten report) →
      (error.code = .decodeFailed ∧ error.operationOutcome ≠ some .notExecuted) ∨
        (error.code ≠ .decodeFailed ∧ error.operationOutcome = some .unknown)
  | .late _ => .handed ∈ before ∧ ∃ m ∈ before, LocalRejection m
  | _ => True

def AllJustified (request : NativeRequest π) (marks : List (Mark ρ)) : Prop :=
  ∀ before m after, marks = before ++ m :: after → Justified request before m

theorem AllJustified.snoc {marks : List (Mark ρ)} {m : Mark ρ} (h : AllJustified request marks)
    (hm : Justified request marks m) : AllJustified request (marks ++ [m]) :=
  @Chronicle.snoc (Mark ρ) (Justified request) marks m h hm

theorem justified_invariant :
    (lifecycle ρ request).TraceInvariant fun marks _ => AllJustified request marks where
  init := by
    rintro l rfl before m after h
    simp at h
  step := by
    intro marks l m l' hrun hj hstep
    have hc : Counted marks l := counted_invariant.run hrun
    refine hj.snoc ?_
    have honest : ∀ error : NativeClientError, HonestOutcome request l error →
        Justified request marks (.settled (.rejected (.client error)) : Mark ρ) := by
      intro error ho hi hh hn
      refine ho hi (hc.handed.mp hh) ?_
      by_contra hnw
      rw [Bool.not_eq_false] at hnw
      obtain ⟨r, hr, hnr⟩ := hc.nothingWritten.mpr hnw
      exact hn r hr hnr
    cases hstep with
    | handed hstart => exact hc.start hstart
    | reportedNothing _ _ => trivial
    | reported _ _ => trivial
    | resolved _ _ hv => exact hv
    | refused _ _ => trivial
    | decodeFailed _ _ _ ho => exact honest _ ho
    | rejected _ _ ho => exact honest _ ho
    | unsendable _ _ => trivial
    | late hh hloc _ _ => exact ⟨hc.handed.mpr hh, hc.rejectedLocally hloc⟩

end SurfaceLoom.Native.RequestLifecycle
