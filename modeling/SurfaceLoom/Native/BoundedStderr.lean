import Mathlib.Algebra.Order.Ring.Nat
import SurfaceLoom.Lib.Segments
import SurfaceLoom.Lib.StringDecoder

/-! # What is kept of a host's diagnostics

The lines are redacted one by one, a line that is too long is replaced by a fixed one, and
of the result the end is kept. Texts are lists of characters; `redact` is the redaction of
one line. -/
namespace SurfaceLoom.Native.BoundedStderr
open SurfaceLoom.Lib SurfaceLoom.Lib.Segments
open SurfaceLoom.Lib.StringDecoder (Decoder)

abbrev Bytes := List UInt8
abbrev Text := List Char

def lineLimit : Nat := 4096

/-- `Buffer.byteLength(text, "utf8")` -/
def byteLength (text : Text) : Nat := (text.map Char.utf8Size).sum

def placeholder : Text := "[stderr line redacted]\n".toList

/-- The loop of `tailBytes`: characters from the end, as long as they fit. -/
def fitting (maximum : Nat) : Text → Nat → Text
  | [], _ => []
  | c :: rest, size =>
    if size + c.utf8Size > maximum then [] else c :: fitting maximum rest (size + c.utf8Size)

def tailBytes (value : Text) (maximum : Nat) : Text :=
  if maximum = 0 then []
  else if byteLength value ≤ maximum then value
  else (fitting maximum value.reverse 0).reverse

structure Stderr where
  maximum : Nat
  decoder : Decoder
  pending : Text
  tail : Text
  bytesSeen : Nat
  truncated : Bool
  discardingLongLine : Bool
  deriving DecidableEq

namespace Stderr

def create (maximum : Nat) : Stderr := ⟨maximum, StringDecoder.create, [], [], 0, false, false⟩

def append (s : Stderr) (value : Text) : Stderr :=
  { s with
    truncated := s.truncated || byteLength (s.tail ++ value) > s.maximum
    tail := tailBytes (s.tail ++ value) s.maximum }

variable (redact : Text → Text)

def getTail (s : Stderr) : Text := tailBytes (s.tail ++ redact s.pending) s.maximum

def getTruncated (s : Stderr) : Bool := s.truncated || s.bytesSeen > s.maximum

def appendLine (s : Stderr) (line : Text) : Stderr :=
  if byteLength line > lineLimit then { s with truncated := true }.append placeholder
  else s.append (redact line)

/-- The lines of the pending text one by one; what has no newline stays pending. -/
def flushSegments : List Text → Stderr → Stderr
  | [], s => { s with pending := [] }
  | line :: rest, s =>
    if closed '\n' line then flushSegments rest (s.appendLine redact line)
    else { s with pending := line }

def flushLines (s : Stderr) : Stderr := flushSegments redact (cut '\n' s.pending) s

/-- `push` from where the long line being discarded has ended. -/
def pushText (s : Stderr) (decoded : Text) : Stderr :=
  let flushed := { s with pending := s.pending ++ decoded }.flushLines redact
  if byteLength flushed.pending > lineLimit then
    { { flushed with truncated := true }.append placeholder with
      pending := []
      discardingLongLine := true }
  else flushed

def push (s : Stderr) (chunk : Bytes) : Stderr :=
  let written := s.decoder.write chunk
  let seen := { s with bytesSeen := s.bytesSeen + chunk.length, decoder := written.1 }
  if s.discardingLongLine then
    match written.2.dropWhile (· ≠ '\n') with
    | [] => seen
    | _ :: decoded => { seen with discardingLongLine := false }.pushText redact decoded
  else seen.pushText redact written.2

/-- The limit of a line is not looked at again. -/
def end' (s : Stderr) : Stderr :=
  let remainder := s.decoder.end'
  let pending := if s.discardingLongLine then s.pending else s.pending ++ remainder
  let s := { s with decoder := StringDecoder.create, pending }
  let appended := if s.pending.length > 0 then s.append (redact s.pending) else s
  { appended with pending := [] }

/-- The chunks one after the other, and then the end. -/
def deliver (maximum : Nat) (chunks : List Bytes) : Stderr :=
  (chunks.foldl (push redact) (create maximum)).end' redact

end Stderr

/-! ## The end of a text -/

/-- The longest end of the text that fits. -/
structure IsTail (maximum : Nat) (text tail : Text) : Prop where
  suffix : tail <:+ text
  fits : byteLength tail ≤ maximum
  longest : ∀ other, other <:+ text → byteLength other ≤ maximum → other.length ≤ tail.length

theorem utf8Size_pos (c : Char) : 0 < c.utf8Size := c.utf8Size_pos

theorem byteLength_append (a b : Text) : byteLength (a ++ b) = byteLength a + byteLength b := by
  simp [byteLength]

theorem byteLength_cons (c : Char) (a : Text) : byteLength (c :: a) = c.utf8Size + byteLength a := by
  simp [byteLength]

theorem byteLength_reverse (a : Text) : byteLength a.reverse = byteLength a := by
  rw [byteLength, List.map_reverse, List.sum_reverse]
  rfl

theorem fitting_all {maximum : Nat} {l : Text} {size : Nat} (h : size + byteLength l ≤ maximum) :
    fitting maximum l size = l := by
  induction l generalizing size with
  | nil => rfl
  | cons c l ih =>
    rw [byteLength_cons] at h
    rw [fitting, if_neg (by omega), ih (by omega)]

/-- The branches in front of the loop change nothing. -/
theorem tailBytes_eq (value : Text) (maximum : Nat) :
    tailBytes value maximum = (fitting maximum value.reverse 0).reverse := by
  rw [tailBytes]
  split
  · rename_i hzero
    cases hvalue : value.reverse with
    | nil => rfl
    | cons c l =>
      have hpos := utf8Size_pos c
      rw [fitting, if_pos (by omega)]
      rfl
  split
  · rename_i hfits
    rw [fitting_all (by rw [byteLength_reverse]; omega), List.reverse_reverse]
  · rfl

theorem fitting_fitting (maximum : Nat) (l : Text) {size more : Nat} (h : size ≤ more) :
    fitting maximum (fitting maximum l size) more = fitting maximum l more := by
  induction l generalizing size more with
  | nil => rfl
  | cons c l ih =>
    rw [fitting]
    by_cases hlarge : size + c.utf8Size > maximum
    · rw [if_pos hlarge, fitting, fitting, if_pos (by omega)]
    · rw [if_neg hlarge, fitting, fitting, ih (by omega)]

theorem fitting_append (maximum : Nat) (b a : Text) (size : Nat) :
    fitting maximum (b ++ fitting maximum a 0) size = fitting maximum (b ++ a) size := by
  induction b generalizing size with
  | nil => exact fitting_fitting maximum a (Nat.zero_le size)
  | cons c b ih => rw [List.cons_append, List.cons_append, fitting, fitting, ih]

/-- What was cut off before would be cut off now. -/
theorem tailBytes_append (a b : Text) (maximum : Nat) :
    tailBytes (tailBytes a maximum ++ b) maximum = tailBytes (a ++ b) maximum := by
  simp only [tailBytes_eq, List.reverse_append, List.reverse_reverse]
  rw [fitting_append]

theorem fitting_initial (maximum : Nat) (l : Text) (size : Nat) : fitting maximum l size <+: l := by
  induction l generalizing size with
  | nil => exact List.prefix_rfl
  | cons c l ih =>
    rw [fitting]
    split
    · exact List.nil_prefix
    · exact List.cons_prefix_cons.mpr ⟨rfl, ih _⟩

theorem fitting_fits {maximum size : Nat} (h : size ≤ maximum) (l : Text) :
    size + byteLength (fitting maximum l size) ≤ maximum := by
  induction l generalizing size with
  | nil => exact h
  | cons c l ih =>
    rw [fitting]
    split
    · exact h
    · rename_i hsmall
      have hrest := ih (Nat.le_of_not_lt hsmall)
      rw [byteLength_cons]
      omega

theorem fitting_longest {maximum : Nat} {l other : Text} {size : Nat} (h : other <+: l)
    (hfits : size + byteLength other ≤ maximum) :
    other.length ≤ (fitting maximum l size).length := by
  induction l generalizing other size with
  | nil =>
    rw [List.prefix_nil.mp h]
    exact Nat.zero_le _
  | cons c l ih =>
    cases other with
    | nil => exact Nat.zero_le _
    | cons c' other =>
      obtain ⟨rfl, hrest⟩ := List.cons_prefix_cons.mp h
      rw [byteLength_cons] at hfits
      rw [fitting, if_neg (by omega), List.length_cons, List.length_cons]
      exact Nat.succ_le_succ (ih hrest (by omega))

theorem isTail_tailBytes (value : Text) (maximum : Nat) :
    IsTail maximum value (tailBytes value maximum) := by
  rw [tailBytes_eq]
  refine ⟨?_, ?_, fun other hother hfits => ?_⟩
  · have hprefix := List.reverse_suffix.mpr (fitting_initial maximum value.reverse 0)
    rwa [List.reverse_reverse] at hprefix
  · have hfits := fitting_fits (Nat.zero_le maximum) value.reverse
    rw [byteLength_reverse]
    omega
  · have hroom : 0 + byteLength other.reverse ≤ maximum := by
      rw [byteLength_reverse, Nat.zero_add]
      exact hfits
    have hlongest := fitting_longest (List.reverse_prefix.mpr hother) hroom
    rwa [List.length_reverse] at hlongest ⊢

theorem tailBytes_of_fits {value : Text} {maximum : Nat} (h : byteLength value ≤ maximum) :
    tailBytes value maximum = value := by
  rw [tailBytes_eq, fitting_all (by rw [byteLength_reverse]; omega), List.reverse_reverse]

theorem byteLength_suffix {a b : Text} (h : a <:+ b) : byteLength a ≤ byteLength b := by
  obtain ⟨front, rfl⟩ := h
  rw [byteLength_append]
  exact Nat.le_add_left _ _

theorem IsTail.unique {maximum : Nat} {text a b : Text} (ha : IsTail maximum text a)
    (hb : IsTail maximum text b) : a = b := by
  have hlength := Nat.le_antisymm (hb.longest a ha.suffix ha.fits) (ha.longest b hb.suffix hb.fits)
  exact (List.suffix_of_suffix_length_le ha.suffix hb.suffix (Nat.le_of_eq hlength)).eq_of_length hlength

/-! ## Text in pieces -/

variable (redact : Text → Text)

/-- What becomes of a line. -/
def shown (line : Text) : Text :=
  if byteLength line > lineLimit then placeholder else redact line

def long (text : Text) : Bool := byteLength text > lineLimit

variable {redact}

theorem appendLine_tail (s : Stderr) (line : Text) :
    (s.appendLine redact line).tail = tailBytes (s.tail ++ shown redact line) s.maximum := by
  rw [Stderr.appendLine, shown]
  split <;> rfl

/-- The state behind these lines and a piece of one more. -/
structure Reading (redact : Text → Text) (maximum : Nat) (lines : List Text) (rest : Text)
    (s : Stderr) : Prop where
  bound : s.maximum = maximum
  closed : ∀ line ∈ lines, ∃ q, '\n' ∉ q ∧ line = q ++ ['\n']
  free : '\n' ∉ rest
  tail : s.tail = tailBytes (lines.flatMap (shown redact) ++ if long rest then placeholder else [])
    maximum
  pending : s.pending = if long rest then [] else rest
  discarding : s.discardingLongLine = long rest

/-- The lines of a text that was flushed, and what is left of it. -/
structure Flushed (redact : Text → Text) (kept text : Text) (s s' : Stderr) (lines : List Text)
    (rest : Text) : Prop where
  text : text = lines.flatten ++ rest
  closed : ∀ line ∈ lines, ∃ q, '\n' ∉ q ∧ line = q ++ ['\n']
  free : '\n' ∉ rest
  tail : s'.tail = tailBytes (kept ++ lines.flatMap (shown redact)) s.maximum
  pending : s'.pending = rest
  bound : s'.maximum = s.maximum
  discarding : s'.discardingLongLine = s.discardingLongLine
  decoder : s'.decoder = s.decoder

theorem appendLine_fields (s : Stderr) (line : Text) :
    (s.appendLine redact line).maximum = s.maximum ∧
      (s.appendLine redact line).discardingLongLine = s.discardingLongLine ∧
      (s.appendLine redact line).decoder = s.decoder := by
  rw [Stderr.appendLine]
  split <;> exact ⟨rfl, rfl, rfl⟩

theorem flushSegments_open {q : Text} (hq : '\n' ∉ q) (s : Stderr) :
    Stderr.flushSegments redact [q] s = { s with pending := q } := by
  rw [Stderr.flushSegments, closed_eq_false hq]
  rfl

theorem flushSegments_flushed {segments : List Text} (h : Segmented '\n' segments) {s : Stderr}
    {kept : Text} (htail : s.tail = tailBytes kept s.maximum) :
    ∃ lines rest, Flushed redact kept segments.flatten s
      (Stderr.flushSegments redact segments s) lines rest := by
  induction h generalizing s kept with
  | nil =>
    have hkept : s.tail = tailBytes (kept ++ []) s.maximum := by rw [htail, List.append_nil]
    exact ⟨[], [], rfl, by simp, by simp, hkept, rfl, rfl, rfl, rfl⟩
  | @last q hq hne =>
    have hkept : s.tail = tailBytes (kept ++ []) s.maximum := by rw [htail, List.append_nil]
    refine ⟨[], q, ?_⟩
    rw [flushSegments_open hq]
    exact ⟨List.flatten_singleton, by simp, hq, hkept, rfl, rfl, rfl, rfl⟩
  | @cons q more hq hrest ih =>
    obtain ⟨hmaximum, hdiscarding, hdecoder⟩ := @appendLine_fields redact s (q ++ ['\n'])
    have hkept : (s.appendLine redact (q ++ ['\n'])).tail =
        tailBytes (kept ++ shown redact (q ++ ['\n'])) (s.appendLine redact (q ++ ['\n'])).maximum := by
      rw [appendLine_tail, htail, tailBytes_append, hmaximum]
    obtain ⟨lines, rest, hflushed⟩ := ih hkept
    refine ⟨(q ++ ['\n']) :: lines, rest, ?_⟩
    rw [Stderr.flushSegments, closed_append, if_pos rfl]
    exact
      { text := by rw [List.flatten_cons, hflushed.text]; simp
        closed := fun line hline => by
          rcases List.mem_cons.mp hline with rfl | hmem
          · exact ⟨q, hq, rfl⟩
          · exact hflushed.closed line hmem
        free := hflushed.free
        tail := by rw [hflushed.tail, hmaximum, List.flatMap_cons, List.append_assoc]
        pending := hflushed.pending
        bound := hflushed.bound.trans hmaximum
        discarding := hflushed.discarding.trans hdiscarding
        decoder := hflushed.decoder.trans hdecoder }

theorem long_append {q : Text} (h : long q = true) (t : Text) : long (q ++ t) = true := by
  simp only [long, decide_eq_true_eq, byteLength_append] at h ⊢
  omega

theorem shown_long {line : Text} (h : long line = true) : shown redact line = placeholder :=
  if_pos (of_decide_eq_true h)

variable {maximum : Nat} {lines : List Text} {q : Text} {s : Stderr}

/-- Text behind a piece of a line that is not too long. -/
theorem Reading.pushText (h : Reading redact maximum lines q s) (hshort : long q = false) (t : Text) :
    ∃ lines' q', Reading redact maximum lines' q' (s.pushText redact t) ∧
      lines'.flatten ++ q' = lines.flatten ++ q ++ t ∧
      (s.pushText redact t).decoder = s.decoder := by
  have htail : s.tail = tailBytes (lines.flatMap (shown redact)) s.maximum := by
    rw [h.tail, hshort, h.bound]
    simp
  have hpending : s.pending = q := by
    rw [h.pending, hshort]
    rfl
  obtain ⟨more, rest, hflushed⟩ := @flushSegments_flushed redact _
    (segmented_cut '\n' (q ++ t)) { s with pending := q ++ t } _ htail
  have htext : (lines ++ more).flatten ++ rest = lines.flatten ++ q ++ t := by
    have hcut := hflushed.text
    rw [flatten_cut] at hcut
    rw [List.flatten_append, List.append_assoc, ← hcut, List.append_assoc]
  have hclosed : ∀ line ∈ lines ++ more, ∃ q, '\n' ∉ q ∧ line = q ++ ['\n'] := by
    intro line hline
    rcases List.mem_append.mp hline with hline | hline
    · exact h.closed line hline
    · exact hflushed.closed line hline
  refine ⟨lines ++ more, rest, ?_, htext, ?_⟩
  all_goals
    rw [Stderr.pushText, hpending, Stderr.flushLines]
    generalize Stderr.flushSegments redact (cut '\n' (q ++ t)) { s with pending := q ++ t } = s'
      at hflushed ⊢
    dsimp only
    split
  · rename_i hlong
    rw [hflushed.pending] at hlong
    have hlong : long rest = true := decide_eq_true hlong
    refine ⟨hflushed.bound.trans h.bound, hclosed, hflushed.free, ?_, ?_, ?_⟩
    · show tailBytes (s'.tail ++ placeholder) s'.maximum = _
      rw [hflushed.tail, hflushed.bound, tailBytes_append, hlong, if_pos rfl, List.flatMap_append,
        ← h.bound]
    · rw [hlong]
      rfl
    · exact hlong.symm
  · rename_i hlong
    rw [hflushed.pending] at hlong
    have hlong : long rest = false := decide_eq_false hlong
    refine ⟨hflushed.bound.trans h.bound, hclosed, hflushed.free, ?_, ?_, ?_⟩
    · rw [hflushed.tail, hlong, List.flatMap_append, ← h.bound]
      simp
    · rw [hflushed.pending, hlong]
      rfl
    · rw [hflushed.discarding, hlong]
      exact h.discarding.trans hshort
  · exact hflushed.decoder
  · exact hflushed.decoder

theorem Reading.push (h : Reading redact maximum lines q s) (chunk : Bytes) :
    ∃ lines' q', Reading redact maximum lines' q' (s.push redact chunk) ∧
      lines'.flatten ++ q' = lines.flatten ++ q ++ (s.decoder.write chunk).2 ∧
      (s.push redact chunk).decoder = (s.decoder.write chunk).1 := by
  rw [Stderr.push]
  generalize s.decoder.write chunk = written
  obtain ⟨decoder, decoded⟩ := written
  dsimp only
  have hseen : Reading redact maximum lines q
      { s with bytesSeen := s.bytesSeen + chunk.length, decoder } :=
    ⟨h.bound, h.closed, h.free, h.tail, h.pending, h.discarding⟩
  cases hlong : long q with
  | false =>
    have hdiscarding : ¬ s.discardingLongLine = true := by
      rw [h.discarding, hlong]
      exact Bool.false_ne_true
    rw [if_neg hdiscarding]
    exact hseen.pushText hlong decoded
  | true =>
    rw [if_pos (h.discarding.trans hlong)]
    rcases first_delimiter '\n' decoded with hfree | ⟨a, rest, ha, rfl⟩
    · have hdrop : decoded.dropWhile (· ≠ '\n') = [] := by
        rw [List.dropWhile_eq_nil_iff]
        intro c hc
        exact decide_eq_true fun heq => hfree (heq ▸ hc)
      rw [hdrop]
      refine ⟨lines, q ++ decoded, ⟨h.bound, h.closed, by simp [h.free, hfree], ?_, ?_, ?_⟩,
        by rw [List.append_assoc], rfl⟩
      · rw [long_append hlong, h.tail, hlong]
      · rw [long_append hlong, h.pending, hlong]
        rfl
      · rw [long_append hlong, h.discarding, hlong]
    · have hother : ∀ c ∈ a, decide (c ≠ '\n') = true := by
        intro c hc
        exact decide_eq_true fun heq => ha (heq ▸ hc)
      have hdrop : (a ++ '\n' :: rest).dropWhile (· ≠ '\n') = '\n' :: rest := by
        rw [List.dropWhile_append_of_pos hother]
        simp
      rw [hdrop]
      have hline : Reading redact maximum (lines ++ [q ++ a ++ ['\n']]) []
          { s with bytesSeen := s.bytesSeen + chunk.length, decoder, discardingLongLine := false } := by
        refine ⟨h.bound, fun line hmem => ?_, by simp, ?_, ?_, rfl⟩
        · rcases List.mem_append.mp hmem with hmem | hmem
          · exact h.closed line hmem
          · exact ⟨q ++ a, by simp [h.free, ha], List.mem_singleton.mp hmem⟩
        · have hshown : shown redact (q ++ a ++ ['\n']) = placeholder :=
            shown_long (long_append (long_append hlong a) _)
          rw [h.tail, hlong, List.flatMap_append, List.flatMap_singleton, hshown]
          simp [long, byteLength]
        · rw [h.pending, hlong]
          rfl
      obtain ⟨lines', q', hreading, htext, hdecoder⟩ := hline.pushText rfl rest
      refine ⟨lines', q', hreading, ?_, hdecoder⟩
      rw [htext]
      simp

/-! ## A stream -/

/-- The lines of a stream as they are shown, one after the other. -/
def retained (redact : Text → Text) (stream : Bytes) : Text :=
  (cut '\n' (Utf8.decodeLossy stream)).flatMap (shown redact)

/-- The last line without the character that is cut off at the end. -/
def lastLine (stream : Bytes) : Text :=
  behind '\n' (Utf8.decodeLossy (StringDecoder.complete stream))

/-- The character that is cut off at the end. -/
def remainder (stream : Bytes) : Text := Utf8.decodeLossy (StringDecoder.incomplete stream)

/-- The last line is too long only with that character. -/
def endsLong (stream : Bytes) : Bool :=
  !long (lastLine stream) && long (lastLine stream ++ remainder stream)

theorem newline_not_mem_remainder (stream : Bytes) : '\n' ∉ remainder stream := by
  intro hmem
  have hreplacement := StringDecoder.decode_incomplete stream _ hmem
  revert hreplacement
  decide

/-- The state behind some bytes of a stream. -/
structure Behind (redact : Text → Text) (maximum : Nat) (seen : Bytes) (lines : List Text)
    (q : Text) (s : Stderr) : Prop where
  reading : Reading redact maximum lines q s
  text : lines.flatten ++ q = Utf8.decodeLossy (StringDecoder.complete seen)
  buffered : s.decoder.buffered = StringDecoder.incomplete seen

theorem Behind.push {seen : Bytes} (h : Behind redact maximum seen lines q s) (chunk : Bytes) :
    ∃ lines' q', Behind redact maximum (seen ++ chunk) lines' q' (s.push redact chunk) := by
  obtain ⟨lines', q', hreading, htext, hdecoder⟩ := h.reading.push chunk
  refine ⟨lines', q', hreading, ?_, ?_⟩
  · rw [htext, h.text, StringDecoder.decode_complete_append, Decoder.write, h.buffered]
  · rw [hdecoder, Decoder.write, h.buffered, StringDecoder.incomplete_append seen chunk]

theorem Behind.pushes {seen : Bytes} (h : Behind redact maximum seen lines q s)
    (chunks : List Bytes) : ∃ lines' q', Behind redact maximum (seen ++ chunks.flatten) lines' q'
      (chunks.foldl (Stderr.push redact) s) := by
  induction chunks generalizing seen lines q s with
  | nil =>
    rw [List.flatten_nil, List.append_nil]
    exact ⟨lines, q, h⟩
  | cons chunk rest ih =>
    obtain ⟨lines', q', hpush⟩ := h.push chunk
    rw [List.flatten_cons, ← List.append_assoc]
    exact ih hpush

theorem behind_create (redact : Text → Text) (maximum : Nat) :
    Behind redact maximum [] [] [] (Stderr.create maximum) where
  reading :=
    { bound := rfl
      closed := by simp
      free := by simp
      tail := by simp [Stderr.create, tailBytes, long, byteLength]
      pending := rfl
      discarding := rfl }
  text := rfl
  buffered := rfl

theorem tailBytes_tailBytes (value : Text) (maximum : Nat) :
    tailBytes (tailBytes value maximum) maximum = tailBytes value maximum := by
  have happend := tailBytes_append value [] maximum
  rwa [List.append_nil, List.append_nil] at happend

/-- What is pending at the end is shown, unless it is nothing. -/
theorem end'_getTail (s : Stderr) (hempty : redact [] = []) {p : Text}
    (hp : (if s.discardingLongLine then s.pending else s.pending ++ s.decoder.end') = p)
    {kept : Text} (htail : s.tail = tailBytes kept s.maximum) :
    (s.end' redact).getTail redact = tailBytes (kept ++ redact p) s.maximum := by
  rw [Stderr.getTail, Stderr.end', hp]
  cases p with
  | nil =>
    show tailBytes (s.tail ++ redact []) s.maximum = _
    rw [htail, tailBytes_append]
  | cons c p =>
    show tailBytes (tailBytes (s.tail ++ redact (c :: p)) s.maximum ++ redact []) s.maximum = _
    rw [hempty, List.append_nil, tailBytes_tailBytes, htail, tailBytes_append]

/-- The tail at the end, where the last line is looked at without its last character. -/
theorem Behind.end' {stream : Bytes} (h : Behind redact maximum stream lines q s)
    (hempty : redact [] = []) :
    (s.end' redact).getTail redact = tailBytes (lines.flatMap (shown redact) ++
      if long q then placeholder else redact (q ++ remainder stream)) maximum := by
  have htail : s.tail = tailBytes (lines.flatMap (shown redact) ++
      if long q then placeholder else []) s.maximum := by rw [h.reading.tail, h.reading.bound]
  have hremainder : s.decoder.end' = remainder stream := by
    rw [Decoder.end', h.buffered]
    rfl
  cases hlong : long q with
  | true =>
    have hpending : (if s.discardingLongLine then s.pending else s.pending ++ s.decoder.end') = [] := by
      rw [if_pos (h.reading.discarding.trans hlong), h.reading.pending, hlong]
      rfl
    rw [end'_getTail s hempty hpending htail, hlong, hempty, List.append_nil, h.reading.bound]
    rfl
  | false =>
    have hpending : (if s.discardingLongLine then s.pending else s.pending ++ s.decoder.end') =
        q ++ remainder stream := by
      rw [h.reading.discarding, hlong, h.reading.pending, hlong, hremainder]
      rfl
    rw [end'_getTail s hempty hpending htail, hlong, h.reading.bound]
    simp

/-- The lines of a stream that are over, as they are shown. -/
def shownLines (redact : Text → Text) (stream : Bytes) : Text :=
  ((cut '\n' (Utf8.decodeLossy (StringDecoder.complete stream))).filter (closed '\n')).flatMap
    (shown redact)

/-- What the chunks leave, whatever they are. -/
theorem deliver_getTail (maximum : Nat) (chunks : List Bytes) (hempty : redact [] = []) :
    (Stderr.deliver redact maximum chunks).getTail redact =
      tailBytes (shownLines redact chunks.flatten ++
        if long (lastLine chunks.flatten) then placeholder
        else redact (lastLine chunks.flatten ++ remainder chunks.flatten)) maximum := by
  obtain ⟨lines, q, hbehind⟩ := (behind_create redact maximum).pushes chunks
  rw [List.nil_append] at hbehind
  have hlines : (cut '\n' (Utf8.decodeLossy (StringDecoder.complete chunks.flatten))).filter
      (closed '\n') = lines := by
    rw [← hbehind.text]
    exact filter_closed hbehind.reading.closed hbehind.reading.free
  have hlast : lastLine chunks.flatten = q := by
    rw [lastLine, ← hbehind.text]
    exact behind_append hbehind.reading.closed hbehind.reading.free
  rw [Stderr.deliver, hbehind.end' hempty, shownLines, hlines, hlast]

/-- The lines of the whole stream are those, and the last one with its last character. -/
theorem retained_eq (hempty : redact [] = []) (stream : Bytes) :
    retained redact stream =
      shownLines redact stream ++ shown redact (lastLine stream ++ remainder stream) := by
  obtain ⟨lines, q, hlines, hq, htext⟩ :=
    exists_segments '\n' (Utf8.decodeLossy (StringDecoder.complete stream))
  have hall : Utf8.decodeLossy stream = lines.flatten ++ (q ++ remainder stream) := by
    rw [← StringDecoder.decode_complete_incomplete, htext, List.append_assoc]
    rfl
  have hfree : '\n' ∉ q ++ remainder stream := by
    simp [hq, newline_not_mem_remainder]
  rw [retained, shownLines, lastLine, htext, filter_closed hlines hq, behind_append hlines hq, hall,
    cut_segments hlines hfree]
  split
  · rename_i hnothing
    have hshown : shown redact [] = [] := by
      rw [shown, hempty]
      rfl
    rw [hnothing, hshown, List.append_nil]
  · rw [List.flatMap_append, List.flatMap_singleton]

/-! ## What is promised of it -/

/-- The tail does not depend on the chunks; it is the longest end that fits of the lines, each
redacted, or replaced if it is too long. -/
def RetainsExactly (stream : Bytes) : Prop :=
  ∀ maximum redact, redact [] = [] → ∀ chunks chunks', chunks.flatten = stream →
    chunks'.flatten = stream →
    (Stderr.deliver redact maximum chunks).getTail redact =
      (Stderr.deliver redact maximum chunks').getTail redact ∧
    IsTail maximum (retained redact stream) ((Stderr.deliver redact maximum chunks).getTail redact)

theorem retains_of_not_endsLong {stream : Bytes} (h : endsLong stream = false) :
    RetainsExactly stream := by
  intro maximum redact hempty chunks chunks' hchunks hchunks'
  rw [deliver_getTail maximum chunks hempty, deliver_getTail maximum chunks' hempty, hchunks,
    hchunks']
  refine ⟨rfl, ?_⟩
  have hlast : (if long (lastLine stream) then placeholder
      else redact (lastLine stream ++ remainder stream)) =
      shown redact (lastLine stream ++ remainder stream) := by
    cases hlong : long (lastLine stream) with
    | true => exact (shown_long (long_append hlong _)).symm
    | false =>
      have hshort : long (lastLine stream ++ remainder stream) = false := by
        simpa [endsLong, hlong] using h
      exact (if_neg (of_decide_eq_false hshort)).symm
  rw [hlast, ← retained_eq hempty]
  exact isTail_tailBytes _ _

theorem not_retains_of_endsLong {stream : Bytes} (h : endsLong stream = true) :
    ¬ RetainsExactly stream := by
  intro hretains
  obtain ⟨hshort, hlong⟩ := Bool.and_eq_true_iff.mp h
  have hshort : long (lastLine stream) = false := by simpa using hshort
  -- with this much room nothing is cut off, and with no redaction only the lengths differ
  obtain ⟨-, htail⟩ := hretains (byteLength (shownLines id stream ++
    (lastLine stream ++ remainder stream))) id rfl [stream] [stream] List.flatten_singleton
    List.flatten_singleton
  rw [deliver_getTail _ _ rfl, List.flatten_singleton, hshort, if_neg Bool.false_ne_true] at htail
  have hall : tailBytes (shownLines id stream ++ id (lastLine stream ++ remainder stream))
      (byteLength (shownLines id stream ++ (lastLine stream ++ remainder stream))) =
      shownLines id stream ++ (lastLine stream ++ remainder stream) :=
    tailBytes_of_fits (Nat.le_refl _)
  have hsuffix := htail.suffix
  rw [hall, retained_eq rfl, shown_long hlong] at hsuffix
  have hbytes := byteLength_suffix hsuffix
  have hplaceholder : byteLength placeholder = 23 := by decide
  have hover : 4096 < byteLength (lastLine stream ++ remainder stream) := of_decide_eq_true hlong
  rw [byteLength_append, byteLength_append _ placeholder, hplaceholder] at hbytes
  omega

/-- Exactly the streams that do not end in such a line are kept as promised. -/
theorem retains_iff (stream : Bytes) : RetainsExactly stream ↔ endsLong stream = false := by
  constructor
  · intro h
    cases hends : endsLong stream with
    | true => exact absurd h (not_retains_of_endsLong hends)
    | false => rfl
  · exact retains_of_not_endsLong

/-- A last line of 4096 characters, and the first byte of one more. -/
def demoStream : Bytes := List.replicate 4096 0x61 ++ [0xE2]

theorem demoStream_not_retained : ¬ RetainsExactly demoStream :=
  not_retains_of_endsLong (by decide +kernel)

end SurfaceLoom.Native.BoundedStderr
