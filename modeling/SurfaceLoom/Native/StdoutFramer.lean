import SurfaceLoom.Lib.Segments
import SurfaceLoom.Lib.Utf8

/-! # Framing what a host writes

The framer takes chunks of bytes as they come, emits a frame at each newline, and refuses
a frame that is too large as soon as it is known to be. How the bytes are cut into chunks
does not matter: the frames are those of the whole stream (`framing_of_stream`). -/
namespace SurfaceLoom.Native.StdoutFramer
open SurfaceLoom.Lib SurfaceLoom.Lib.Segments

abbrev Bytes := List UInt8

def newline : UInt8 := 0x0A

structure NodeProcessTransportError where
  code : String
  message : String
  deriving DecidableEq

def frameTooLarge : NodeProcessTransportError :=
  ⟨"frame_too_large", "Native host stdout frame exceeds the byte limit."⟩

def invalidUtf8 : NodeProcessTransportError :=
  ⟨"invalid_utf8", "Native host stdout is not valid UTF-8."⟩

structure Framer where
  maximum : Nat
  pending : List Bytes
  pendingBytes : Nat
  ended : Bool
  deriving DecidableEq

/-- What a call leaves: the frames it emitted, and the error it threw behind them. -/
structure Outcome where
  framer : Framer
  frames : List String
  error : Option NodeProcessTransportError
  deriving DecidableEq

def Outcome.andThen (o : Outcome) (next : Framer → Outcome) : Outcome :=
  match o.error with
  | some _ => o
  | none => { next o.framer with frames := o.frames ++ (next o.framer).frames }

namespace Framer

def create (maximum : Nat) : Framer := ⟨maximum, [], 0, false⟩

def done (f : Framer) : Outcome := ⟨f, [], none⟩

def tooLarge (f : Framer) : Outcome := ⟨f, [], some frameTooLarge⟩

/-- `Buffer.concat(buffers, length)` -/
def concat (buffers : List Bytes) (length : Nat) : Bytes :=
  buffers.flatten.take length ++ List.replicate (length - buffers.flatten.length) 0

def decode (bytes : Bytes) : Except NodeProcessTransportError String :=
  match Utf8.decodeFatal bytes with
  | some chars => .ok (String.ofList chars)
  | none => .error invalidUtf8

def pendingBuffer (f : Framer) : Bytes :=
  match f.pending with
  | [bytes] => bytes
  | buffers => concat buffers f.pendingBytes

def emitPending (f : Framer) : Outcome :=
  let emptied := { f with pending := [], pendingBytes := 0 }
  match decode f.pendingBuffer with
  | .ok frame => ⟨emptied, [frame], none⟩
  | .error e => ⟨emptied, [], some e⟩

def append (f : Framer) (part : Bytes) : Framer :=
  { f with pending := f.pending ++ [part], pendingBytes := f.pendingBytes + part.length }

/-- One turn of the loop: what is up to the next newline of the chunk. -/
def pushPart (f : Framer) (part : Bytes) : Outcome :=
  let nextBytes := f.pendingBytes + part.length
  if (if closed newline part then nextBytes > f.maximum else nextBytes ≥ f.maximum) then f.tooLarge
  else if closed newline part then (f.append part).emitPending
  else (f.append part).done

def pushParts : List Bytes → Framer → Outcome
  | [], f => f.done
  | part :: rest, f => (f.pushPart part).andThen (pushParts rest)

def push (chunk : Bytes) (f : Framer) : Outcome :=
  if f.ended then f.done else pushParts (cut newline chunk) f

def end' (f : Framer) : Outcome :=
  if f.ended then f.done
  else
    let finished := { f with ended := true }
    if f.pendingBytes = 0 then finished.done
    else if f.pendingBytes + 1 > f.maximum then finished.tooLarge
    else finished.emitPending

def abort (f : Framer) : Framer := { f with ended := true, pending := [], pendingBytes := 0 }

def pushAll : List Bytes → Framer → Outcome
  | [], f => f.done
  | chunk :: rest, f => (f.push chunk).andThen (pushAll rest)

end Framer

open Framer

/-- The chunks one after the other, and then the end. -/
def deliver (maximum : Nat) (chunks : List Bytes) : Outcome :=
  (pushAll chunks (create maximum)).andThen end'

/-! ## The frames of a stream -/

/-- The size of a segment with its newline; the last one may have an implicit one. -/
def frameSize (segment : Bytes) : Nat :=
  if closed newline segment then segment.length else segment.length + 1

theorem frameSize_closed {segment : Bytes} (h : closed newline segment = true) :
    frameSize segment = segment.length := if_pos h

theorem frameSize_open {segment : Bytes} (h : closed newline segment = false) :
    frameSize segment = segment.length + 1 := if_neg (Bool.eq_false_iff.mp h)

/-- The frames of the segments, up to one that is too large or no text. -/
def framed (maximum : Nat) : List Bytes → List String × Option NodeProcessTransportError
  | [] => ([], none)
  | segment :: rest =>
    if maximum < frameSize segment then ([], some frameTooLarge)
    else
      match decode segment with
      | .ok frame => (frame :: (framed maximum rest).1, (framed maximum rest).2)
      | .error e => ([], some e)

/-! ## Parts in turn -/

@[simp] theorem Outcome.andThen_error {o : Outcome} {e : NodeProcessTransportError}
    (h : o.error = some e) (next : Framer → Outcome) : o.andThen next = o := by
  rw [Outcome.andThen, h]

theorem Outcome.andThen_none {o : Outcome} (h : o.error = none) (next : Framer → Outcome) :
    o.andThen next = { next o.framer with frames := o.frames ++ (next o.framer).frames } := by
  rw [Outcome.andThen, h]

@[simp] theorem done_andThen (f : Framer) (next : Framer → Outcome) :
    f.done.andThen next = next f := rfl

theorem Outcome.andThen_assoc (o : Outcome) (next last : Framer → Outcome) :
    (o.andThen next).andThen last = o.andThen fun f => (next f).andThen last := by
  cases ho : o.error with
  | some e => rw [andThen_error ho, andThen_error ho, andThen_error ho]
  | none =>
    rw [andThen_none ho, andThen_none ho]
    cases hnext : (next o.framer).error <;> simp [andThen, hnext]

theorem pushParts_append (a b : List Bytes) (f : Framer) :
    pushParts (a ++ b) f = (pushParts a f).andThen (pushParts b) := by
  induction a generalizing f with
  | nil => rfl
  | cons part a ih =>
    rw [List.cons_append, pushParts, pushParts, Outcome.andThen_assoc]
    exact congrArg _ (funext ih)

theorem emitPending_ended (f : Framer) : f.emitPending.framer.ended = f.ended := by
  rw [emitPending]
  cases decode f.pendingBuffer <;> rfl

theorem pushPart_closed (f : Framer) {part : Bytes} (h : closed newline part = true) :
    f.pushPart part = if f.maximum < f.pendingBytes + part.length then f.tooLarge
      else (f.append part).emitPending := by
  simp [pushPart, h]

theorem pushPart_open (f : Framer) {part : Bytes} (h : closed newline part = false) :
    f.pushPart part = if f.maximum ≤ f.pendingBytes + part.length then f.tooLarge
      else (f.append part).done := by
  simp [pushPart, h]

theorem pushPart_ended (f : Framer) (part : Bytes) : (f.pushPart part).framer.ended = f.ended := by
  by_cases hclosed : closed newline part = true
  · rw [pushPart_closed f hclosed]
    split
    · rfl
    · exact emitPending_ended _
  · rw [pushPart_open f (Bool.eq_false_iff.mpr hclosed)]
    split <;> rfl

theorem pushParts_ended (parts : List Bytes) (f : Framer) :
    (pushParts parts f).framer.ended = f.ended := by
  induction parts generalizing f with
  | nil => rfl
  | cons part rest ih =>
    rw [pushParts]
    cases hpart : (f.pushPart part).error with
    | some e => rw [Outcome.andThen_error hpart, pushPart_ended]
    | none =>
      rw [Outcome.andThen_none hpart]
      exact (ih _).trans (pushPart_ended f part)

/-- Pushing chunk after chunk pushes all their parts. -/
theorem pushAll_eq (chunks : List Bytes) {f : Framer} (hf : f.ended = false) :
    pushAll chunks f = pushParts (chunks.flatMap (cut newline)) f := by
  induction chunks generalizing f with
  | nil => rfl
  | cons chunk rest ih =>
    have hpush : f.push chunk = pushParts (cut newline chunk) f := by
      rw [push, hf]
      rfl
    rw [pushAll, hpush, List.flatMap_cons, pushParts_append]
    cases hparts : (pushParts (cut newline chunk) f).error with
    | some e => rw [Outcome.andThen_error hparts, Outcome.andThen_error hparts]
    | none =>
      rw [Outcome.andThen_none hparts, Outcome.andThen_none hparts,
        ih ((pushParts_ended _ f).trans hf)]

/-! ## What is pending -/

/-- The framer holds the bytes behind the last newline. -/
structure Holds (f : Framer) (p : Bytes) : Prop where
  pending : f.pending.flatten = p
  pendingBytes : f.pendingBytes = p.length
  free : newline ∉ p
  ended : f.ended = false

theorem concat_flatten (buffers : List Bytes) :
    concat buffers buffers.flatten.length = buffers.flatten := by
  rw [concat, List.take_length, Nat.sub_self, List.replicate_zero, List.append_nil]

theorem pendingBuffer_eq {f : Framer} (h : f.pendingBytes = f.pending.flatten.length) :
    f.pendingBuffer = f.pending.flatten := by
  rw [pendingBuffer]
  split
  · rename_i bytes hbytes
    rw [hbytes, List.flatten_singleton]
  · rw [h, concat_flatten]

theorem Holds.append {f : Framer} {p : Bytes} (h : Holds f p) {part : Bytes}
    (hpart : newline ∉ part) : Holds (f.append part) (p ++ part) where
  pending := by simp [Framer.append, h.pending]
  pendingBytes := by simp [Framer.append, h.pendingBytes]
  free := by simp [h.free, hpart]
  ended := h.ended

/-- An emitted frame, and a framer that holds nothing. -/
theorem emitPending_eq {f : Framer} {bytes : Bytes} (hpending : f.pending.flatten = bytes)
    (hbytes : f.pendingBytes = bytes.length) :
    f.emitPending =
      match decode bytes with
      | .ok frame => ⟨{ f with pending := [], pendingBytes := 0 }, [frame], none⟩
      | .error e => ⟨{ f with pending := [], pendingBytes := 0 }, [], some e⟩ := by
  rw [emitPending, pendingBuffer_eq (by rw [hbytes, hpending]), hpending]

/-! ## A stream and its frames -/

/-- What is left over already fills a frame, which can only grow. -/
theorem framed_overflow {maximum : Nat} {p : Bytes} (hp : newline ∉ p) (hne : p ≠ [])
    (hlarge : maximum ≤ p.length) (rest : Bytes) :
    framed maximum (cut newline (p ++ rest)) = ([], some frameTooLarge) := by
  rcases first_delimiter newline rest with hfree | ⟨q, rest, hq, rfl⟩
  · have hopen : newline ∉ p ++ rest := by simp [hp, hfree]
    rw [cut_open hopen (by simp [hne]), framed, frameSize_open (closed_eq_false hopen), if_pos]
    rw [List.length_append]
    omega
  · have hopen : newline ∉ p ++ q := by simp [hp, hq]
    rw [← List.append_assoc, cut_append hopen, framed, frameSize_closed (closed_append _), if_pos]
    rw [List.length_append, List.length_append, List.length_singleton]
    omega

theorem framed_cons {maximum : Nat} {p q : Bytes} (hp : newline ∉ p) (hq : newline ∉ q)
    (rest : Bytes) :
    framed maximum (cut newline (p ++ (q ++ [newline] ++ rest))) =
      if maximum < p.length + (q ++ [newline]).length then ([], some frameTooLarge)
      else
        match decode (p ++ (q ++ [newline])) with
        | .ok frame => (frame :: (framed maximum (cut newline rest)).1,
            (framed maximum (cut newline rest)).2)
        | .error e => ([], some e) := by
  have hopen : newline ∉ p ++ q := by simp [hp, hq]
  have hsplit : p ++ (q ++ [newline] ++ rest) = (p ++ q) ++ newline :: rest := by simp
  rw [hsplit, cut_append hopen, framed, frameSize_closed (closed_append _), List.append_assoc,
    List.length_append]

theorem end'_pending {f : Framer} (hended : f.ended = false) (hpending : f.pendingBytes ≠ 0) :
    f.end' = if f.maximum < f.pendingBytes + 1 then { f with ended := true }.tooLarge
      else { f with ended := true }.emitPending := by
  simp [end', hended, hpending]

theorem end'_eq {f : Framer} {p : Bytes} (h : Holds f p) :
    (f.end'.frames, f.end'.error) = framed f.maximum (cut newline p) := by
  by_cases hempty : p = []
  · have hzero : f.pendingBytes = 0 := by rw [h.pendingBytes, hempty]; rfl
    simp [end', h.ended, hzero, hempty, cut, framed, done]
  · have hpositive : f.pendingBytes ≠ 0 := by
      rw [h.pendingBytes]
      exact fun hzero => hempty (List.length_eq_zero_iff.mp hzero)
    rw [end'_pending h.ended hpositive, cut_open h.free hempty, framed,
      frameSize_open (closed_eq_false h.free), ← h.pendingBytes]
    by_cases hlarge : f.maximum < f.pendingBytes + 1
    · rw [if_pos hlarge, if_pos hlarge]
      rfl
    · rw [if_neg hlarge, if_neg hlarge,
        emitPending_eq (f := { f with ended := true }) h.pending h.pendingBytes]
      cases decode p <;> rfl

theorem pushParts_end' (parts : List Bytes) (hparts : ∀ part ∈ parts, IsSegment newline part) {f : Framer}
    {p : Bytes} (h : Holds f p) :
    (((pushParts parts f).andThen end').frames, ((pushParts parts f).andThen end').error) =
      framed f.maximum (cut newline (p ++ parts.flatten)) := by
  induction parts generalizing f p with
  | nil =>
    rw [pushParts, done_andThen, List.flatten_nil, List.append_nil]
    exact end'_eq h
  | cons part rest ih =>
    rw [pushParts, Outcome.andThen_assoc, List.flatten_cons]
    rcases hparts part (.head _) with ⟨q, hq, rfl⟩ | ⟨hfree, hne⟩
    · rw [pushPart_closed f (closed_append q), framed_cons h.free hq, ← h.pendingBytes]
      by_cases hlarge : f.maximum < f.pendingBytes + (q ++ [newline]).length
      · rw [if_pos hlarge, if_pos hlarge]
        rfl
      · rw [if_neg hlarge, if_neg hlarge]
        have hpending : (f.append (q ++ [newline])).pending.flatten = p ++ (q ++ [newline]) := by
          simp [Framer.append, h.pending]
        have hbytes : (f.append (q ++ [newline])).pendingBytes = (p ++ (q ++ [newline])).length := by
          simp only [Framer.append, h.pendingBytes, List.length_append]
        rw [emitPending_eq hpending hbytes]
        cases hdecode : decode (p ++ (q ++ [newline])) with
        | ok frame =>
          have hempty : Holds { f.append (q ++ [newline]) with pending := [], pendingBytes := 0 } [] :=
            ⟨rfl, rfl, by simp, h.ended⟩
          have hrest := ih (fun part hmem => hparts part (.tail _ hmem)) hempty
          rw [List.nil_append] at hrest
          rw [Outcome.andThen_none rfl]
          exact congrArg (fun o => (frame :: o.1, o.2)) hrest
        | error e => rfl
    · rw [pushPart_open f (closed_eq_false hfree)]
      by_cases hlarge : f.maximum ≤ f.pendingBytes + part.length
      · rw [if_pos hlarge, ← List.append_assoc, framed_overflow]
        · rfl
        · simp [h.free, hfree]
        · simp [hne]
        · rw [List.length_append, ← h.pendingBytes]
          exact hlarge
      · rw [if_neg hlarge, done_andThen, ← List.append_assoc]
        exact ih (fun part hmem => hparts part (.tail _ hmem)) (h.append hfree)

/-- Whatever the chunks, the frames are those of the stream. -/
theorem deliver_eq (maximum : Nat) (chunks : List Bytes) :
    ((deliver maximum chunks).frames, (deliver maximum chunks).error) =
      framed maximum (cut newline chunks.flatten) := by
  have hparts : ∀ part ∈ chunks.flatMap (cut newline), IsSegment newline part := by
    intro part hpart
    obtain ⟨chunk, -, hmem⟩ := List.mem_flatMap.mp hpart
    exact (segmented_cut newline chunk).mem hmem
  have hflatten : (chunks.flatMap (cut newline)).flatten = chunks.flatten := by
    induction chunks with
    | nil => rfl
    | cons chunk rest ih =>
      rw [List.flatMap_cons, List.flatten_append, flatten_cut, List.flatten_cons]
      refine congrArg _ (ih fun part hpart => hparts part ?_)
      rw [List.flatMap_cons]
      exact List.mem_append_right _ hpart
  rw [deliver, pushAll_eq chunks rfl, pushParts_end' _ hparts (p := []) ⟨rfl, rfl, by simp, rfl⟩,
    hflatten]
  rfl

/-- What becomes of a stream: all its segments are emitted in order, or all before one that
is too large or no text. -/
structure Framing (maximum : Nat) (stream : Bytes) (frames : List String)
    (error : Option NodeProcessTransportError) (segments : List Bytes) : Prop where
  stream : segments.flatten = stream
  segmented : Segmented newline segments
  emitted : frames.map (fun frame => Utf8.encode frame.toList) = segments.take frames.length
  fits : ∀ segment ∈ segments.take frames.length, frameSize segment ≤ maximum
  complete : error = none → frames.length = segments.length
  refused : ∀ e, error = some e → ∃ segment, segments[frames.length]? = some segment ∧
    (e = frameTooLarge ∧ maximum < frameSize segment ∨
      e = invalidUtf8 ∧ frameSize segment ≤ maximum ∧ Utf8.decodeFatal segment = none)

theorem decode_ok {bytes : Bytes} {frame : String} (h : decode bytes = .ok frame) :
    Utf8.encode frame.toList = bytes := by
  rw [decode] at h
  split at h
  · rename_i chars hchars
    cases h
    rw [String.toList_ofList, Utf8.decodeFatal_eq_some_iff.mp hchars]
  · cases h

theorem decode_error {bytes : Bytes} {e : NodeProcessTransportError} (h : decode bytes = .error e) :
    e = invalidUtf8 ∧ Utf8.decodeFatal bytes = none := by
  rw [decode] at h
  split at h
  · cases h
  · rename_i hnone
    cases h
    exact ⟨rfl, hnone⟩

theorem framed_refused {maximum : Nat} {segment : Bytes} (rest : List Bytes)
    {e : NodeProcessTransportError} (he : e = frameTooLarge ∧ maximum < frameSize segment ∨
      e = invalidUtf8 ∧ frameSize segment ≤ maximum ∧ Utf8.decodeFatal segment = none)
    (h : Segmented newline (segment :: rest)) :
    Framing maximum (segment :: rest).flatten [] (some e) (segment :: rest) where
  stream := rfl
  segmented := h
  emitted := rfl
  fits := by simp
  complete := fun hnone => by cases hnone
  refused := fun e' hsome => by
    cases hsome
    exact ⟨segment, rfl, he⟩

theorem Framing.cons {maximum : Nat} {segment : Bytes} {rest : List Bytes} {frame : String}
    {frames : List String} {error : Option NodeProcessTransportError}
    (h : Framing maximum rest.flatten frames error rest) (hframe : decode segment = .ok frame)
    (hfits : frameSize segment ≤ maximum) (hs : Segmented newline (segment :: rest)) :
    Framing maximum (segment :: rest).flatten (frame :: frames) error (segment :: rest) where
  stream := rfl
  segmented := hs
  emitted := by
    rw [List.map_cons, decode_ok hframe, h.emitted]
    rfl
  fits := fun s hmem => by
    rcases List.mem_cons.mp hmem with rfl | hmem
    · exact hfits
    · exact h.fits s hmem
  complete := fun hnone => congrArg (· + 1) (h.complete hnone)
  refused := fun e hsome => h.refused e hsome

theorem framing_framed (maximum : Nat) {segments : List Bytes} (h : Segmented newline segments) :
    Framing maximum segments.flatten (framed maximum segments).1 (framed maximum segments).2
      segments := by
  induction segments with
  | nil => exact ⟨rfl, h, rfl, by simp, fun _ => rfl, fun e he => by cases he⟩
  | cons segment rest ih =>
    rw [framed]
    by_cases hlarge : maximum < frameSize segment
    · rw [if_pos hlarge]
      exact framed_refused rest (.inl ⟨rfl, hlarge⟩) h
    · rw [if_neg hlarge]
      have hfits := Nat.le_of_not_lt hlarge
      cases hdecode : decode segment with
      | ok frame => exact (ih h.tail).cons hdecode hfits h
      | error e =>
        obtain ⟨rfl, hnone⟩ := decode_error hdecode
        exact framed_refused rest (.inr ⟨rfl, hfits, hnone⟩) h

/-- The frames and the outcome depend on the stream alone, and the frames are its segments. -/
theorem framing_of_stream (maximum : Nat) (stream : Bytes) (chunks chunks' : List Bytes)
    (h : chunks.flatten = stream) (h' : chunks'.flatten = stream) :
    (deliver maximum chunks).frames = (deliver maximum chunks').frames ∧
      (deliver maximum chunks).error = (deliver maximum chunks').error ∧
      Framing maximum stream (deliver maximum chunks).frames (deliver maximum chunks).error
        (cut newline stream) := by
  have hchunks := deliver_eq maximum chunks
  have hchunks' := deliver_eq maximum chunks'
  rw [h] at hchunks
  rw [h'] at hchunks'
  obtain ⟨hframes, herror⟩ := Prod.mk.inj hchunks
  obtain ⟨hframes', herror'⟩ := Prod.mk.inj hchunks'
  refine ⟨hframes.trans hframes'.symm, herror.trans herror'.symm, ?_⟩
  have hframing := framing_framed maximum (segmented_cut newline stream)
  rwa [flatten_cut, ← hframes, ← herror] at hframing

/-- Frames of exactly the limit, cut in front of a newline and behind it. -/
theorem demo_framing :
    (deliver 3 [[0x61, 0x62], [0x0A, 0x63], [0x64]]).frames =
      (deliver 3 [[0x61], [0x62, 0x0A], [0x63, 0x64]]).frames ∧
    Framing 3 [0x61, 0x62, 0x0A, 0x63, 0x64]
      (deliver 3 [[0x61, 0x62], [0x0A, 0x63], [0x64]]).frames none
      [[0x61, 0x62, 0x0A], [0x63, 0x64]] := by
  obtain ⟨hframes, -, hframing⟩ := framing_of_stream 3 [0x61, 0x62, 0x0A, 0x63, 0x64]
    [[0x61, 0x62], [0x0A, 0x63], [0x64]] [[0x61], [0x62, 0x0A], [0x63, 0x64]] rfl rfl
  exact ⟨hframes, hframing⟩

end SurfaceLoom.Native.StdoutFramer
