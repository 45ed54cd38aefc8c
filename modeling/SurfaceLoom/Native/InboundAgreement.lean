import SurfaceLoom.Native.InboundFraming

/-! # Where the hosts read alike

Both loops go over the same frames: those that `lines` cuts. They agree as long as they
agree on each frame, and the frames on which they do not are known by their text. -/
namespace SurfaceLoom.Native.InboundFraming
open SurfaceLoom.Lib

/-! ## The frames of an input -/

/-- What ends at a line feed or with the input, or the start of a frame that is too large. -/
inductive Line
  | frame (frame : NativeWireFrame)
  | oversized

/-- The bytes before a line feed, without the carriage return. -/
def closedFrame (bytes : Bytes) : NativeWireFrame :=
  if bytes.getLast? = some carriageReturn then ⟨bytes.dropLast, 2⟩ else ⟨bytes, 1⟩

def lines (pending : Bytes) : Bytes → List Line
  | [] => if pending = [] then [] else [.frame ⟨pending, 1⟩]
  | byte :: rest =>
    if byte = lineFeed then .frame (closedFrame pending) :: lines [] rest
    else if pending.length < maxMessageBytes - 1 then lines (pending ++ [byte]) rest
    else [.oversized]

/-- The reading of a host that settles each frame by a verdict. -/
def walk (verdict : NativeWireFrame → Verdict) (goesOn : List NativeWireFrame → Bool)
    (handed : List NativeWireFrame) (number : Nat) : List Line → Reading
  | [] => ⟨handed, .input⟩
  | .oversized :: _ => ⟨handed, .framing number⟩
  | .frame frame :: rest =>
    match settle goesOn handed number frame (verdict frame) with
    | .error reading => reading
    | .ok handed => walk verdict goesOn handed (number + 1) rest

/-- The frames it comes to. -/
def reached (verdict : NativeWireFrame → Verdict) (goesOn : List NativeWireFrame → Bool)
    (handed : List NativeWireFrame) (number : Nat) : List Line → List NativeWireFrame
  | [] => []
  | .oversized :: _ => []
  | .frame frame :: rest =>
    frame ::
      match settle goesOn handed number frame (verdict frame) with
      | .error _ => []
      | .ok handed => reached verdict goesOn handed (number + 1) rest

section
variable {goesOn : List NativeWireFrame → Bool}

/-! ## The two loops -/

theorem append_lineFeed (buffer : Bytes) :
    Mac.NativeFrameReader.append ⟨buffer, false⟩ lineFeed =
      .ok (⟨[], false⟩, some (closedFrame buffer)) := by
  unfold Mac.NativeFrameReader.append
  rw [if_neg Bool.false_ne_true, if_pos rfl]
  rfl

theorem runCore_eq (input buffer : Bytes) (handed : List NativeWireFrame) (number : Nat) :
    Mac.runCore goesOn ⟨buffer, false⟩ handed number input =
      walk Mac.ingest goesOn handed number (lines buffer input) := by
  induction input generalizing buffer handed number with
  | nil =>
    rw [Mac.runCore, lines, Mac.NativeFrameReader.finish]
    by_cases hempty : buffer = []
    · rw [if_pos (.inr hempty), if_pos hempty]
      rfl
    · rw [if_neg (by simp [hempty]), if_neg hempty, walk]
      simp only
      cases settle goesOn handed number ⟨buffer, 1⟩ (Mac.ingest ⟨buffer, 1⟩) with
      | error reading => rfl
      | ok handed => rfl
  | cons byte rest ih =>
    by_cases hend : byte = lineFeed
    · subst hend
      rw [Mac.runCore, append_lineFeed, lines, if_pos rfl, walk]
      simp only
      cases settle goesOn handed number (closedFrame buffer) (Mac.ingest (closedFrame buffer)) with
      | error reading => rfl
      | ok handed => exact ih [] handed (number + 1)
    · rw [Mac.runCore, lines, Mac.NativeFrameReader.append, if_neg Bool.false_ne_true,
        if_neg hend, if_neg hend]
      by_cases hfits : buffer.length < maxMessageBytes - 1
      · rw [if_pos hfits, if_pos hfits]
        exact ih (buffer ++ [byte]) handed number
      · rw [if_neg hfits, if_neg hfits]
        rfl

namespace Windows

/-- What `ReadLine` gives for a frame. -/
def decoded (frame : NativeWireFrame) : LineRead := getString frame.bytes frame.delimiterBytes

/-- What the loop makes of it. -/
def verdict (frame : NativeWireFrame) : Verdict :=
  match Utf8.decodeFatal frame.bytes with
  | none => .refused
  | some line => ingest ⟨line, frame.delimiterBytes, false⟩

theorem decode_closed (bytes : Bytes) :
    decode bytes (if bytes.getLast? = some carriageReturn then 2 else 1) =
      decoded (closedFrame bytes) := by
  unfold decode decoded closedFrame
  split
  · rw [List.dropLast_eq_take]
    rfl
  · rw [if_neg (by decide)]
    exact congrArg (getString · 1) List.take_length

theorem decode_last (bytes : Bytes) : decode bytes 1 = decoded ⟨bytes, 1⟩ := by
  unfold decode decoded
  rw [if_neg (by decide)]
  exact congrArg (getString · 1) List.take_length

/-- One line and the frames that it starts with. -/
inductive Starts (bound : Nat) : LineRead × Bytes → List Line → Prop
  | ended (rest : Bytes) : Starts bound (.ended, rest) []
  | oversized (rest : Bytes) : Starts bound (.line ⟨[], 1, true⟩, rest) [.oversized]
  | frame (frame : NativeWireFrame) (rest : Bytes) (hrest : rest.length < bound) :
    Starts bound (decoded frame, rest) (.frame frame :: lines [] rest)

theorem readLine_starts (input pending : Bytes) :
    Starts (pending.length + input.length) (readLine pending input) (lines pending input) := by
  induction input generalizing pending with
  | nil =>
    rw [readLine, lines]
    by_cases hempty : pending = []
    · rw [if_pos hempty, if_pos hempty]
      exact .ended []
    · rw [if_neg hempty, if_neg hempty, decode_last]
      exact .frame ⟨pending, 1⟩ [] (List.length_pos_iff.mpr hempty)
  | cons next input ih =>
    rw [readLine, lines]
    by_cases hend : next = lineFeed
    · rw [if_pos hend, if_pos hend, decode_closed]
      refine .frame (closedFrame pending) input ?_
      rw [List.length_cons]
      omega
    · rw [if_neg hend, if_neg hend]
      by_cases hfits : pending.length < maxMessageBytes - 1
      · rw [if_neg (Nat.not_le.mpr hfits), if_pos hfits]
        have hnext := ih (pending ++ [next])
        rw [List.length_append, List.length_singleton] at hnext
        rw [List.length_cons, Nat.add_comm input.length, ← Nat.add_assoc]
        exact hnext
      · rw [if_pos (Nat.not_lt.mp hfits), if_neg hfits]
        exact .oversized input

theorem readFrames_eq (fuel : Nat) (input : Bytes) (handed : List NativeWireFrame) (number : Nat)
    (hfuel : input.length < fuel) :
    readFrames goesOn fuel handed number input =
      some (walk verdict goesOn handed number (lines [] input)) := by
  induction fuel generalizing input handed number with
  | zero => exact absurd hfuel (Nat.not_lt_zero _)
  | succ fuel ih =>
    have hstarts := readLine_starts input []
    rw [readFrames]
    generalize readLine [] input = line at hstarts
    generalize lines [] input = ls at hstarts
    cases hstarts with
    | ended rest => rfl
    | oversized rest => rfl
    | frame frame rest hrest =>
      rw [List.length_nil, Nat.zero_add] at hrest
      rw [walk, verdict, decoded, getString]
      cases htext : Utf8.decodeFatal frame.bytes with
      | none => rfl
      | some text =>
        have hframe : (⟨Utf8.encode text, frame.delimiterBytes⟩ : NativeWireFrame) = frame := by
          rw [Utf8.decodeFatal_eq_some_iff.mp htext]
        simp only
        rw [if_neg (by decide), hframe]
        cases settle goesOn handed number frame
            (ingest ⟨text, frame.delimiterBytes, false⟩) with
        | error reading => rfl
        | ok handed => exact ih rest handed (number + 1) (by omega)

end Windows

theorem mac_read (input : Bytes) :
    Mac.read goesOn input = walk Mac.ingest goesOn [] 0 (lines [] input) :=
  runCore_eq input [] [] 0

theorem windows_read (input : Bytes) :
    Windows.read goesOn input = some (walk Windows.verdict goesOn [] 0 (lines [] input)) :=
  Windows.readFrames_eq _ input [] 0 (Nat.lt_succ_self _)

/-! ## What a walk hands on -/

variable {verdict verdict' : NativeWireFrame → Verdict}

/-- The frames handed on from here, and the number of a frame that is refused. -/
structure Walks (verdict : NativeWireFrame → Verdict) (handed : List NativeWireFrame)
    (number : Nat) (reading : Reading) : Prop where
  handed : ∃ new, reading.handed = handed ++ new ∧ ∀ frame ∈ new, verdict frame = .handed
  ended : ∀ frame, reading.ended = .framing frame → number ≤ frame

theorem Walks.stop (handed : List NativeWireFrame) (number : Nat) {ended : Ended}
    (h : ∀ frame, ended = .framing frame → number ≤ frame) :
    Walks verdict handed number ⟨handed, ended⟩ :=
  ⟨⟨[], (List.append_nil _).symm, fun _ hmem => absurd hmem List.not_mem_nil⟩, h⟩

theorem Walks.later {handed : List NativeWireFrame} {number : Nat} {frame : NativeWireFrame}
    {reading : Reading} (h : Walks verdict (handed ++ [frame]) (number + 1) reading)
    (hverdict : verdict frame = .handed) : Walks verdict handed number reading := by
  obtain ⟨new, hnew, hall⟩ := h.handed
  refine ⟨⟨frame :: new, ?_, ?_⟩, ?_⟩
  · rw [hnew, List.append_assoc]
    rfl
  · intro frame' hmem
    rcases List.mem_cons.mp hmem with rfl | hlater
    · exact hverdict
    · exact hall frame' hlater
  · intro frame' hframe
    exact Nat.le_of_succ_le (h.ended frame' hframe)

theorem Walks.host {handed : List NativeWireFrame} {number : Nat} {frame : NativeWireFrame}
    (hverdict : verdict frame = .handed) :
    Walks verdict handed number ⟨handed ++ [frame], .host⟩ := by
  refine Walks.later (.stop _ _ ?_) hverdict
  intro frame' hframe
  cases hframe

theorem walk_walks (ls : List Line) (handed : List NativeWireFrame) (number : Nat) :
    Walks verdict handed number (walk verdict goesOn handed number ls) := by
  induction ls generalizing handed number with
  | nil =>
    refine .stop _ _ ?_
    intro frame hframe
    cases hframe
  | cons line rest ih =>
    cases line with
    | oversized =>
      refine .stop _ _ ?_
      intro frame hframe
      cases hframe
      exact Nat.le_refl _
    | frame frame =>
      rw [walk]
      cases hverdict : verdict frame with
      | blank =>
        have hrest := ih handed (number + 1)
        exact ⟨hrest.handed, fun frame' hframe => Nat.le_of_succ_le (hrest.ended frame' hframe)⟩
      | refused =>
        refine .stop _ _ ?_
        intro frame' hframe
        cases hframe
        exact Nat.le_refl _
      | handed =>
        rw [settle]
        split
        · rename_i reading heq
          split at heq
          · cases heq
          · cases heq
            exact .host hverdict
        · rename_i handed' heq
          split at heq
          · cases heq
            exact (ih _ _).later hverdict
          · cases heq

/-- A frame that is handed on is among what is. -/
theorem walk_handed {frame : NativeWireFrame} (hverdict : verdict frame = .handed)
    (rest : List Line) (handed : List NativeWireFrame) (number : Nat) :
    ∃ new, (walk verdict goesOn handed number (.frame frame :: rest)).handed =
      handed ++ frame :: new := by
  rw [walk, hverdict, settle]
  split
  · rename_i reading heq
    split at heq
    · cases heq
    · cases heq
      exact ⟨[], rfl⟩
  · rename_i handed' heq
    split at heq
    · cases heq
      have hwalks : Walks verdict (handed ++ [frame]) (number + 1)
          (walk verdict goesOn (handed ++ [frame]) (number + 1) rest) := walk_walks rest _ _
      obtain ⟨new, hnew, -⟩ := hwalks.handed
      exact ⟨new, by rw [hnew, List.append_assoc]; rfl⟩
    · cases heq

theorem walk_blank {frame : NativeWireFrame} (hverdict : verdict frame = .blank)
    (rest : List Line) (handed : List NativeWireFrame) (number : Nat) :
    walk verdict goesOn handed number (.frame frame :: rest) =
      walk verdict goesOn handed (number + 1) rest := by
  rw [walk, hverdict]
  rfl

theorem walk_refused {frame : NativeWireFrame} (hverdict : verdict frame = .refused)
    (rest : List Line) (handed : List NativeWireFrame) (number : Nat) :
    walk verdict goesOn handed number (.frame frame :: rest) = ⟨handed, .framing number⟩ := by
  rw [walk, hverdict]
  rfl

/-- Hosts that agree on the frames the first comes to read alike. -/
theorem walk_congr (ls : List Line) (handed : List NativeWireFrame) (number : Nat)
    (h : ∀ frame ∈ reached verdict goesOn handed number ls, verdict frame = verdict' frame) :
    walk verdict goesOn handed number ls = walk verdict' goesOn handed number ls := by
  induction ls generalizing handed number with
  | nil => rfl
  | cons line rest ih =>
    cases line with
    | oversized => rfl
    | frame frame =>
      rw [reached] at h
      rw [walk, walk, ← h frame List.mem_cons_self]
      cases hsettle : settle goesOn handed number frame (verdict frame) with
      | error reading => rfl
      | ok handed' =>
        rw [hsettle] at h
        exact ih handed' (number + 1) fun frame' hmem => h frame' (List.mem_cons_of_mem _ hmem)

end

/-! ## The frames that the hosts tell apart -/

/-- A frame of an input is as long as its line end says and no larger than the maximum. -/
structure Sized (frame : NativeWireFrame) : Prop where
  delimiter : frame.delimiterBytes = 1 ∨ frame.delimiterBytes = 2
  fits : frame.bytes.length + frame.delimiterBytes ≤ maxMessageBytes

theorem lines_sized (input pending : Bytes) (hpending : pending.length ≤ maxMessageBytes - 1) :
    ∀ frame, .frame frame ∈ lines pending input → Sized frame := by
  have hmax : maxMessageBytes = 1048576 := rfl
  induction input generalizing pending with
  | nil =>
    intro frame hmem
    rw [lines] at hmem
    split at hmem
    · cases hmem
    · cases List.mem_singleton.mp hmem
      exact ⟨.inl rfl, by simp only; omega⟩
  | cons byte rest ih =>
    intro frame hmem
    rw [lines] at hmem
    split at hmem
    · rcases List.mem_cons.mp hmem with heq | hlater
      · cases heq
        unfold closedFrame
        split
        · rename_i hlast
          have hlength : 0 < pending.length := by
            cases pending with
            | nil => cases hlast
            | cons first bytes => exact Nat.succ_pos _
          refine ⟨.inr rfl, ?_⟩
          rw [List.length_dropLast]
          simp only
          omega
        · exact ⟨.inl rfl, by simp only; omega⟩
      · exact ih [] (Nat.zero_le _) frame hlater
    · split at hmem
      · rename_i hfits
        refine ih (pending ++ [byte]) ?_ frame hmem
        rw [List.length_append, List.length_singleton]
        omega
      · cases List.mem_singleton.mp hmem

/-- A frame of white space that is not blank for the Swift host, and otherwise one that
begins with a byte order mark, or has an unpaired surrogate in a string, but not both. -/
def apart (frame : NativeWireFrame) : Bool :=
  match Utf8.decodeFatal frame.bytes with
  | none => false
  | some text =>
    if text.all Windows.isWhiteSpace then !frame.bytes.all Mac.isBlank
    else if '\r' ∈ text ∨ '\n' ∈ text then false
    else
      Mac.byteOrderMark.isPrefixOf frame.bytes !=
        Windows.rejectInvalidUnicodeScalars text.length false text

theorem blank_text {bytes : Bytes} (h : bytes.all Mac.isBlank = true) :
    ∃ text, Utf8.decodeFatal bytes = some text ∧ text.all Windows.isWhiteSpace = true := by
  induction bytes with
  | nil => exact ⟨[], rfl, rfl⟩
  | cons byte rest ih =>
    rw [List.all_cons, Bool.and_eq_true] at h
    obtain ⟨text, htext, hspace⟩ := ih h.2
    have hrest := Utf8.decodeFatal_eq_some_iff.mp htext
    have hbyte : byte = 0x20 ∨ byte = 0x09 := by
      have hblank := h.1
      unfold Mac.isBlank at hblank
      rwa [Bool.or_eq_true, decide_eq_true_eq, decide_eq_true_eq] at hblank
    rcases hbyte with rfl | rfl
    · refine ⟨' ' :: text, Utf8.decodeFatal_eq_some_iff.mpr ?_, ?_⟩
      · rw [← hrest]
        rfl
      · rw [List.all_cons, hspace]
        rfl
    · refine ⟨'\t' :: text, Utf8.decodeFatal_eq_some_iff.mpr ?_, ?_⟩
      · rw [← hrest]
        rfl
      · rw [List.all_cons, hspace]
        rfl

section
variable {frame : NativeWireFrame}

theorem not_blank {text : List Char} (htext : Utf8.decodeFatal frame.bytes = some text)
    (hspace : text.all Windows.isWhiteSpace = false) : frame.bytes.all Mac.isBlank = false := by
  cases hblank : frame.bytes.all Mac.isBlank with
  | false => rfl
  | true =>
    obtain ⟨text', htext', hspace'⟩ := blank_text hblank
    cases htext.symm.trans htext'
    rw [hspace] at hspace'
    cases hspace'

/-- What the Swift host does with a text that is not blank for it. -/
theorem mac_verdict (hsized : Sized frame) {text : List Char}
    (htext : Utf8.decodeFatal frame.bytes = some text)
    (hblank : frame.bytes.all Mac.isBlank = false) :
    Mac.ingest frame =
      if Mac.byteOrderMark.isPrefixOf frame.bytes ∨ '\r' ∈ text ∨ '\n' ∈ text then .refused
      else .handed := by
  have hnonempty : text ≠ [] := by
    rintro rfl
    have hbytes := Utf8.decodeFatal_eq_some_iff.mp htext
    rw [← hbytes] at hblank
    cases hblank
  unfold Mac.ingest Mac.parseFrame
  rw [hblank, if_neg Bool.false_ne_true, if_neg (not_not.mpr hsized.delimiter),
    if_neg (Nat.not_lt.mpr hsized.fits), htext]
  by_cases hmark : Mac.byteOrderMark.isPrefixOf frame.bytes = true
  · rw [if_pos hmark, if_pos (.inl hmark)]
  · rw [if_neg hmark]
    by_cases hline : '\r' ∈ text ∨ '\n' ∈ text
    · simp only
      rw [if_pos (.inr hline), if_pos (.inr hline)]
    · simp only
      rw [if_neg (not_or.mpr ⟨hnonempty, hline⟩), if_neg (not_or.mpr ⟨hmark, hline⟩)]

/-- What the C# host does with a text that is not blank for it. -/
theorem windows_verdict (hsized : Sized frame) {text : List Char}
    (htext : Utf8.decodeFatal frame.bytes = some text)
    (hspace : text.all Windows.isWhiteSpace = false) :
    Windows.verdict frame =
      if ('\r' ∈ text ∨ '\n' ∈ text) ∨
          Windows.rejectInvalidUnicodeScalars text.length false text then .refused
      else .handed := by
  have hnonempty : text ≠ [] := by
    rintro rfl
    cases hspace
  have hdelimiter : ¬(frame.delimiterBytes < 1 ∨ frame.delimiterBytes > 2) := by
    have := hsized.delimiter
    omega
  have hfits : ¬(Utf8.encode text).length + frame.delimiterBytes > maxMessageBytes := by
    rw [Utf8.decodeFatal_eq_some_iff.mp htext]
    exact Nat.not_lt.mpr hsized.fits
  unfold Windows.verdict
  rw [htext]
  simp only
  unfold Windows.ingest Windows.parseFrame
  simp only
  rw [hspace, if_neg Bool.false_ne_true, if_neg hdelimiter, if_neg hfits]
  by_cases hline : '\r' ∈ text ∨ '\n' ∈ text
  · rw [if_pos (.inr hline.symm), if_pos (.inl hline)]
  · rw [if_neg (not_or.mpr ⟨hnonempty, fun h => hline h.symm⟩)]
    by_cases hscalars : Windows.rejectInvalidUnicodeScalars text.length false text = true
    · rw [if_pos hscalars, if_pos (.inr hscalars)]
    · rw [if_neg hscalars, if_neg (not_or.mpr ⟨hline, hscalars⟩)]

theorem windows_blank {text : List Char} (htext : Utf8.decodeFatal frame.bytes = some text)
    (hspace : text.all Windows.isWhiteSpace = true) : Windows.verdict frame = .blank := by
  unfold Windows.verdict
  rw [htext]
  exact if_pos hspace

theorem alike (hsized : Sized frame) (h : apart frame = false) :
    Mac.ingest frame = Windows.verdict frame := by
  unfold apart at h
  cases htext : Utf8.decodeFatal frame.bytes with
  | none =>
    have hblank : frame.bytes.all Mac.isBlank = false := by
      cases hblank : frame.bytes.all Mac.isBlank with
      | false => rfl
      | true =>
        obtain ⟨text, htext', -⟩ := blank_text hblank
        rw [htext] at htext'
        cases htext'
    unfold Windows.verdict Mac.ingest Mac.parseFrame
    rw [htext, hblank, if_neg Bool.false_ne_true, if_neg (not_not.mpr hsized.delimiter),
      if_neg (Nat.not_lt.mpr hsized.fits)]
    by_cases hmark : Mac.byteOrderMark.isPrefixOf frame.bytes = true
    · rw [if_pos hmark]
    · rw [if_neg hmark]
  | some text =>
    rw [htext] at h
    simp only at h
    cases hspace : text.all Windows.isWhiteSpace with
    | true =>
      rw [hspace, if_pos rfl, Bool.not_eq_false'] at h
      rw [windows_blank htext hspace]
      exact if_pos h
    | false =>
      rw [hspace, if_neg Bool.false_ne_true] at h
      rw [mac_verdict hsized htext (not_blank htext hspace), windows_verdict hsized htext hspace]
      by_cases hline : '\r' ∈ text ∨ '\n' ∈ text
      · rw [if_pos (.inr hline), if_pos (.inl hline)]
      · rw [if_neg hline, bne_eq_false_iff_eq] at h
        simp only [hline, h, false_or, or_false]

/-- What the hosts do with a frame they tell apart. -/
theorem apart_cases (hsized : Sized frame) (h : apart frame = true) :
    (Windows.verdict frame = .blank ∧ Mac.ingest frame ≠ .blank) ∨
      (Mac.ingest frame = .refused ∧ Windows.verdict frame = .handed) ∨
      (Mac.ingest frame = .handed ∧ Windows.verdict frame = .refused) := by
  unfold apart at h
  cases htext : Utf8.decodeFatal frame.bytes with
  | none =>
    rw [htext] at h
    cases h
  | some text =>
    rw [htext] at h
    simp only at h
    cases hspace : text.all Windows.isWhiteSpace with
    | true =>
      rw [hspace, if_pos rfl, Bool.not_eq_true'] at h
      refine .inl ⟨windows_blank htext hspace, ?_⟩
      rw [mac_verdict hsized htext h]
      split
      · decide
      · decide
    | false =>
      rw [hspace, if_neg Bool.false_ne_true] at h
      rw [mac_verdict hsized htext (not_blank htext hspace), windows_verdict hsized htext hspace]
      by_cases hline : '\r' ∈ text ∨ '\n' ∈ text
      · rw [if_pos hline] at h
        cases h
      · rw [if_neg hline] at h
        cases hmark : Mac.byteOrderMark.isPrefixOf frame.bytes with
        | true =>
          cases hscalars : Windows.rejectInvalidUnicodeScalars text.length false text with
          | true =>
            rw [hmark, hscalars] at h
            cases h
          | false =>
            refine .inr (.inl ⟨if_pos (.inl rfl), if_neg ?_⟩)
            exact not_or.mpr ⟨hline, Bool.false_ne_true⟩
        | false =>
          cases hscalars : Windows.rejectInvalidUnicodeScalars text.length false text with
          | true =>
            refine .inr (.inr ⟨if_neg ?_, if_pos (.inr rfl)⟩)
            exact not_or.mpr ⟨Bool.false_ne_true, hline⟩
          | false =>
            rw [hmark, hscalars] at h
            cases h

end

/-! ## Where the hosts agree -/

/-- Both hosts hand the same bodies to their parsers, refuse the same frame if any, and hand
on nothing above the maximum. -/
structure Agrees (mac windows : Reading) : Prop where
  bodies : mac.handed.map (·.bytes) = windows.handed.map (·.bytes)
  refused : ∀ number, mac.ended = .framing number ↔ windows.ended = .framing number
  fits : ∀ frame ∈ mac.handed ++ windows.handed,
    frame.bytes.length + frame.delimiterBytes ≤ maxMessageBytes

/-- The C# host ends its reading, as the Swift host does. -/
def ReadAlike (goesOn : List NativeWireFrame → Bool) (input : Bytes) : Prop :=
  ∃ windows, Windows.read goesOn input = some windows ∧ Agrees (Mac.read goesOn input) windows

/-- The frames that the Swift host comes to. -/
def framesOf (goesOn : List NativeWireFrame → Bool) (input : Bytes) : List NativeWireFrame :=
  reached Mac.ingest goesOn [] 0 (lines [] input)

theorem mac_fits {frame : NativeWireFrame} (h : Mac.ingest frame = .handed) :
    frame.bytes.length + frame.delimiterBytes ≤ maxMessageBytes := by
  refine Nat.not_lt.mp fun hlarge => ?_
  unfold Mac.ingest Mac.parseFrame at h
  rw [if_pos hlarge] at h
  split at h
  · cases h
  · split at h
    · cases h
    · rename_i heq
      split at heq
      · cases heq
      · cases heq

theorem windows_fits {frame : NativeWireFrame} (h : Windows.verdict frame = .handed) :
    frame.bytes.length + frame.delimiterBytes ≤ maxMessageBytes := by
  refine Nat.not_lt.mp fun hlarge => ?_
  unfold Windows.verdict at h
  split at h
  · cases h
  · rename_i text htext
    rw [← Utf8.decodeFatal_eq_some_iff.mp htext] at hlarge
    unfold Windows.ingest Windows.parseFrame at h
    simp only at h
    rw [if_pos hlarge] at h
    split at h
    · cases h
    · split at h
      · cases h
      · rename_i heq
        split at heq
        · cases heq
        · cases heq

theorem windows_blank_iff {frame : NativeWireFrame} : Windows.verdict frame = .blank ↔
    ∃ text, Utf8.decodeFatal frame.bytes = some text ∧
      text.all Windows.isWhiteSpace = true := by
  constructor
  · intro h
    unfold Windows.verdict at h
    split at h
    · cases h
    · rename_i text htext
      refine ⟨text, htext, ?_⟩
      unfold Windows.ingest at h
      split at h
      · rename_i hspace
        exact hspace
      · split at h
        · cases h
        · cases h
  · rintro ⟨text, htext, hspace⟩
    exact windows_blank htext hspace

section
variable {goesOn : List NativeWireFrame → Bool}

/-- A frame that the hosts tell apart shows in what they hand on or in where they stop. -/
theorem not_apart {frame : NativeWireFrame} {rest : List Line} {handed : List NativeWireFrame}
    {number : Nat} (hsized : Sized frame)
    (hbodies : (walk Mac.ingest goesOn handed number (.frame frame :: rest)).handed.map (·.bytes) =
      (walk Windows.verdict goesOn handed number (.frame frame :: rest)).handed.map (·.bytes))
    (hended : ∀ n,
      (walk Mac.ingest goesOn handed number (.frame frame :: rest)).ended = .framing n ↔
        (walk Windows.verdict goesOn handed number (.frame frame :: rest)).ended = .framing n) :
    apart frame = false := by
  rw [← Bool.not_eq_true]
  intro happart
  rcases apart_cases hsized happart with ⟨hblank, hmac⟩ | ⟨hmac, hwindows⟩ | ⟨hmac, hwindows⟩
  · rw [walk_blank hblank] at hbodies hended
    have hrest : Walks Windows.verdict handed (number + 1)
        (walk Windows.verdict goesOn handed (number + 1) rest) := walk_walks rest _ _
    cases hverdict : Mac.ingest frame with
    | blank => exact hmac hverdict
    | refused =>
      -- the other host is past this frame
      rw [walk_refused hverdict] at hended
      have := hrest.ended number ((hended number).mp rfl)
      omega
    | handed =>
      -- the other host never hands on white space
      obtain ⟨new, hnew⟩ := walk_handed hverdict rest handed number
      obtain ⟨new', hnew', hall⟩ := hrest.handed
      rw [hnew, hnew', List.map_append, List.map_append] at hbodies
      have hmem : frame.bytes ∈ new'.map (·.bytes) := by
        rw [← List.append_cancel_left hbodies, List.map_cons]
        exact List.mem_cons_self
      obtain ⟨frame', hmem', hbytes⟩ := List.mem_map.mp hmem
      have hblank' : Windows.verdict frame' = .blank := by
        rw [windows_blank_iff] at hblank ⊢
        rwa [hbytes]
      have := hall frame' hmem'
      rw [hblank'] at this
      cases this
  · obtain ⟨new, hnew⟩ := walk_handed hwindows rest handed number
    rw [walk_refused hmac, hnew] at hbodies
    have hlength := congrArg List.length hbodies
    simp only [List.length_map, List.length_append, List.length_cons] at hlength
    omega
  · obtain ⟨new, hnew⟩ := walk_handed hmac rest handed number
    rw [walk_refused hwindows, hnew] at hbodies
    have hlength := congrArg List.length hbodies
    simp only [List.length_map, List.length_append, List.length_cons] at hlength
    omega

theorem reached_alike (ls : List Line) (hsized : ∀ frame, .frame frame ∈ ls → Sized frame)
    (handed : List NativeWireFrame) (number : Nat)
    (hbodies : (walk Mac.ingest goesOn handed number ls).handed.map (·.bytes) =
      (walk Windows.verdict goesOn handed number ls).handed.map (·.bytes))
    (hended : ∀ n, (walk Mac.ingest goesOn handed number ls).ended = .framing n ↔
      (walk Windows.verdict goesOn handed number ls).ended = .framing n) :
    ∀ frame ∈ reached Mac.ingest goesOn handed number ls, apart frame = false := by
  induction ls generalizing handed number with
  | nil =>
    intro frame hmem
    cases hmem
  | cons line rest ih =>
    cases line with
    | oversized =>
      intro frame hmem
      cases hmem
    | frame frame =>
      have hframe := hsized frame List.mem_cons_self
      have happart := not_apart hframe hbodies hended
      intro frame' hmem
      rw [reached] at hmem
      rcases List.mem_cons.mp hmem with rfl | hlater
      · exact happart
      · rw [walk, walk, ← alike hframe happart] at hbodies hended
        cases hsettle : settle goesOn handed number frame (Mac.ingest frame) with
        | error reading =>
          rw [hsettle] at hlater
          cases hlater
        | ok handed' =>
          rw [hsettle] at hlater hbodies hended
          exact ih (fun frame'' hin => hsized frame'' (List.mem_cons_of_mem _ hin)) handed'
            (number + 1) hbodies hended frame' hlater

theorem mem_reached {verdict : NativeWireFrame → Verdict} {frame : NativeWireFrame}
    (ls : List Line) (handed : List NativeWireFrame) (number : Nat)
    (h : frame ∈ reached verdict goesOn handed number ls) : .frame frame ∈ ls := by
  induction ls generalizing handed number with
  | nil => cases h
  | cons line rest ih =>
    cases line with
    | oversized => cases h
    | frame frame' =>
      rw [reached] at h
      rcases List.mem_cons.mp h with rfl | hlater
      · exact List.mem_cons_self
      · split at hlater
        · cases hlater
        · exact List.mem_cons_of_mem _ (ih _ _ hlater)

end

/-- Neither host hands on a frame above the maximum. -/
theorem handed_fits (goesOn : List NativeWireFrame → Bool) (input : Bytes) :
    ∀ frame ∈ (Mac.read goesOn input).handed ++
      (walk Windows.verdict goesOn [] 0 (lines [] input)).handed,
      frame.bytes.length + frame.delimiterBytes ≤ maxMessageBytes := by
  have hmac : Walks Mac.ingest [] 0 (Mac.read goesOn input) := by
    rw [mac_read]
    exact walk_walks _ _ _
  have hwindows : Walks Windows.verdict [] 0
      (walk Windows.verdict goesOn [] 0 (lines [] input)) := walk_walks _ _ _
  obtain ⟨macNew, hmacNew, hmacAll⟩ := hmac.handed
  obtain ⟨windowsNew, hwindowsNew, hwindowsAll⟩ := hwindows.handed
  intro frame hmem
  rcases List.mem_append.mp hmem with hin | hin
  · rw [hmacNew, List.nil_append] at hin
    exact mac_fits (hmacAll frame hin)
  · rw [hwindowsNew, List.nil_append] at hin
    exact windows_fits (hwindowsAll frame hin)

end SurfaceLoom.Native.InboundFraming
