import Mathlib.Data.List.Induction
import SurfaceLoom.Lib.Utf8

/-! # Decoding a stream of bytes

A decoder takes bytes in chunks and keeps back those of a character that is not complete,
which the next chunk may go on with. Together with what it keeps at the end, its texts are
the decoded stream. -/
namespace SurfaceLoom.Lib.StringDecoder
open SurfaceLoom.Lib.Utf8

/-- The length of a character by its first byte; 0 of a byte that starts none. -/
def expected (b : UInt8) : Nat :=
  let n := b.toNat
  if n < 0xC0 then 0 else if n < 0xE0 then 2 else if n < 0xF0 then 3 else if n < 0xF8 then 4 else 0

/-- How many of the last bytes are a character that is not complete, from the end. -/
def heldCount : List UInt8 → Nat → Nat
  | [], _ => 0
  | b :: rest, seen =>
    if isContinuation b then if seen + 1 ≥ 4 then 0 else heldCount rest (seen + 1)
    else if seen + 1 < expected b then seen + 1
    else 0

def completeLength (bytes : List UInt8) : Nat := bytes.length - heldCount bytes.reverse 0

def complete (bytes : List UInt8) : List UInt8 := bytes.take (completeLength bytes)

def incomplete (bytes : List UInt8) : List UInt8 := bytes.drop (completeLength bytes)

structure Decoder where
  buffered : List UInt8
  deriving DecidableEq

def create : Decoder := ⟨[]⟩

def Decoder.write (d : Decoder) (chunk : List UInt8) : Decoder × List Char :=
  (⟨incomplete (d.buffered ++ chunk)⟩, decodeLossy (complete (d.buffered ++ chunk)))

/-- What is still kept at the end. -/
def Decoder.end' (d : Decoder) : List Char := decodeLossy d.buffered

/-! ## What is held back -/

theorem heldCount_stop {b : UInt8} (hb : isContinuation b = false) (l more : List UInt8)
    (seen : Nat) : heldCount (l ++ b :: more) seen = heldCount (l ++ [b]) seen := by
  induction l generalizing seen with
  | nil => simp [heldCount, hb]
  | cons a l ih => simp only [List.cons_append, heldCount, ih]

/-- Bytes after it make no character incomplete that was not. -/
theorem heldCount_eq_zero {l : List UInt8} {seen : Nat} (h : heldCount l seen = 0) {k : Nat}
    (hk : seen ≤ k) : heldCount l k = 0 := by
  induction l generalizing seen k with
  | nil => rfl
  | cons b rest ih =>
    rw [heldCount] at h ⊢
    by_cases hb : isContinuation b = true
    · rw [if_pos hb] at h ⊢
      split
      · rfl
      · rw [if_neg (by omega)] at h
        exact ih h (by omega)
    · rw [if_neg hb] at h ⊢
      split at h
      · cases h
      · exact if_neg (by omega)

theorem heldCount_append_zero {l : List UInt8} (h : heldCount l 0 = 0) (c : List UInt8) (seen : Nat) :
    heldCount (c ++ l) seen = heldCount c seen := by
  induction c generalizing seen with
  | nil => exact heldCount_eq_zero h (Nat.zero_le seen)
  | cons a c ih => simp only [List.cons_append, heldCount, ih]

/-- The bytes end inside a character that needs some more. -/
structure Within (bytes : List UInt8) (owed : Nat) : Prop where
  split : ∃ before lead continued, bytes = before ++ lead :: continued ∧
    isContinuation lead = false ∧ (∀ b ∈ continued, isContinuation b = true) ∧
    expected lead = continued.length + 1 + owed
  owed : 1 ≤ owed

theorem first_inside {b : UInt8} {bits owed low high : Nat}
    (h : (first b).1 = .inside bits owed low high) :
    isContinuation b = false ∧ expected b = 1 + owed ∧ 1 ≤ owed ∧ 0x80 ≤ low ∧ high ≤ 0xBF := by
  unfold first at h
  dsimp only at h
  have hexpected : expected b = 1 + owed ∧ 0xC0 ≤ b.toNat ∧ 1 ≤ owed ∧ 0x80 ≤ low ∧ high ≤ 0xBF := by
    unfold expected
    split at h
    · cases h
    split at h
    · cases h
    split at h
    · obtain ⟨-, rfl, rfl, rfl⟩ := State.inside.inj h
      simp only
      rw [if_neg (by omega), if_pos (by omega)]
      omega
    split at h
    · obtain ⟨-, rfl, rfl, rfl⟩ := State.inside.inj h
      simp only
      rw [if_neg (by omega), if_neg (by omega), if_pos (by omega)]
      refine ⟨rfl, by omega, by omega, ?_, ?_⟩ <;> split <;> omega
    split at h
    · obtain ⟨-, rfl, rfl, rfl⟩ := State.inside.inj h
      simp only
      rw [if_neg (by omega), if_neg (by omega), if_neg (by omega), if_pos (by omega)]
      refine ⟨rfl, by omega, by omega, ?_, ?_⟩ <;> split <;> omega
    · cases h
  refine ⟨?_, hexpected.1, hexpected.2.2⟩
  simp only [isContinuation, Bool.and_eq_false_iff, decide_eq_false_iff_not]
  omega

theorem first_within {before : List UInt8} {b : UInt8} {bits owed low high : Nat}
    (h : (first b).1 = .inside bits owed low high) :
    Within (before ++ [b]) owed ∧ 0x80 ≤ low ∧ high ≤ 0xBF := by
  obtain ⟨hb, hexpected, howed, hbounds⟩ := first_inside h
  refine ⟨⟨⟨before, b, [], rfl, hb, by simp, ?_⟩, howed⟩, hbounds⟩
  rw [hexpected]
  rfl

/-- The decoder is inside a character only behind the first bytes of one. -/
theorem after_within {bytes : List UInt8} {bits owed low high : Nat}
    (h : after .start bytes = .inside bits owed low high) :
    Within bytes owed ∧ 0x80 ≤ low ∧ high ≤ 0xBF := by
  induction bytes using List.reverseRecOn generalizing bits owed low high with
  | nil => cases h
  | append_singleton before b ih =>
    have hstep : (step (after .start before) b).1 = .inside bits owed low high := by
      rw [after_append] at h
      exact h
    cases hbefore : after .start before with
    | start =>
      rw [hbefore] at hstep
      exact first_within hstep
    | inside bits' owed' low' high' =>
      obtain ⟨⟨⟨start, lead, continued, rfl, hlead, hcontinued, hexpected⟩, howed⟩, hlow, hhigh⟩ :=
        ih hbefore
      rw [hbefore, step] at hstep
      split at hstep
      · rename_i hbounds
        split at hstep
        · cases hstep
        · rename_i hmore
          cases hstep
          have hb : isContinuation b = true := by
            simp only [isContinuation, Bool.and_eq_true, decide_eq_true_eq]
            omega
          refine ⟨⟨⟨start, lead, continued ++ [b], by simp, hlead, ?_, ?_⟩, by omega⟩,
            Nat.le_refl _, Nat.le_refl _⟩
          · intro c hc
            rcases List.mem_append.mp hc with hc | hc
            · exact hcontinued c hc
            · rw [List.mem_singleton.mp hc]
              exact hb
          · rw [hexpected, List.length_append, List.length_singleton]
            omega
      · exact first_within hstep

theorem expected_le (b : UInt8) : expected b ≤ 4 := by
  unfold expected
  dsimp only
  repeat' split
  all_goals omega

theorem heldCount_open {lead : UInt8} (hlead : isContinuation lead = false)
    {continued : List UInt8} (hcontinued : ∀ b ∈ continued, isContinuation b = true) {seen : Nat}
    (hshort : continued.length + seen + 1 < expected lead) (before : List UInt8) :
    heldCount (continued ++ lead :: before) seen = continued.length + seen + 1 := by
  induction continued generalizing seen with
  | nil =>
    rw [List.length_nil, Nat.zero_add] at hshort
    simp [heldCount, hlead, hshort]
  | cons b continued ih =>
    have hle := expected_le lead
    rw [List.length_cons] at hshort
    rw [List.cons_append, heldCount, if_pos (hcontinued b (.head _)), if_neg (by omega),
      ih (fun c hc => hcontinued c (.tail _ hc)) (by omega), List.length_cons]
    omega

/-- Bytes of which none is held back end between two characters. -/
theorem after_complete {bytes : List UInt8} (h : heldCount bytes.reverse 0 = 0) :
    after .start bytes = .start := by
  cases hafter : after .start bytes with
  | start => rfl
  | inside bits owed low high =>
    obtain ⟨⟨⟨before, lead, continued, rfl, hlead, hcontinued, hexpected⟩, howed⟩, -, -⟩ :=
      after_within hafter
    rw [List.reverse_append, List.reverse_cons, List.append_assoc, List.singleton_append,
      heldCount_open hlead (by simpa using hcontinued) (by rw [List.length_reverse]; omega)] at h
    cases h

/-! ## In chunks -/

theorem heldCount_le (l : List UInt8) (seen : Nat) : heldCount l seen ≤ l.length + seen := by
  induction l generalizing seen with
  | nil => exact Nat.zero_le _
  | cons b rest ih =>
    have hrest := ih (seen + 1)
    rw [heldCount, List.length_cons]
    split
    · split <;> omega
    · split <;> omega

theorem heldCount_ne_zero {l : List UInt8} {seen : Nat} (h : heldCount l seen ≠ 0) :
    ∃ continued lead more, l = continued ++ lead :: more ∧ isContinuation lead = false ∧
      (∀ b ∈ continued, isContinuation b = true) ∧ continued.length + 1 + seen < expected lead ∧
      heldCount l seen = continued.length + 1 + seen := by
  induction l generalizing seen with
  | nil => exact absurd rfl h
  | cons b rest ih =>
    by_cases hb : isContinuation b = true
    · rw [heldCount, if_pos hb] at h ⊢
      split at h
      · exact absurd rfl h
      · rename_i hfew
        obtain ⟨continued, lead, more, rfl, hlead, hcontinued, hshort, hcount⟩ := ih h
        refine ⟨b :: continued, lead, more, rfl, hlead, ?_, ?_, ?_⟩
        · intro c hc
          rcases List.mem_cons.mp hc with rfl | hc
          · exact hb
          · exact hcontinued c hc
        · rw [List.length_cons]
          omega
        · rw [if_neg hfew, hcount, List.length_cons]
          omega
    · rw [heldCount, if_neg hb] at h ⊢
      split at h
      · rename_i hshort
        refine ⟨[], b, rest, rfl, Bool.eq_false_iff.mpr hb, by simp, ?_, ?_⟩
        · rw [List.length_nil]
          omega
        · rw [if_pos hshort, List.length_nil]
          omega
      · exact absurd rfl h

theorem complete_append_incomplete (bytes : List UInt8) :
    complete bytes ++ incomplete bytes = bytes := List.take_append_drop _ _

/-- The first bytes of a character, but not all of them. -/
inductive Begun : List UInt8 → Prop
  | intro {lead : UInt8} {continued : List UInt8} (hlead : isContinuation lead = false)
      (hcontinued : ∀ b ∈ continued, isContinuation b = true)
      (hshort : continued.length + 1 < expected lead) : Begun (lead :: continued)

theorem Begun.cons {bytes : List UInt8} (h : Begun bytes) :
    ∃ lead continued, isContinuation lead = false ∧ bytes = lead :: continued := by
  cases h with
  | intro hlead hcontinued hshort => exact ⟨_, _, hlead, rfl⟩

theorem incomplete_cases (bytes : List UInt8) :
    (heldCount bytes.reverse 0 = 0 ∧ complete bytes = bytes ∧ incomplete bytes = []) ∨
      Begun (incomplete bytes) := by
  by_cases hzero : heldCount bytes.reverse 0 = 0
  · refine .inl ⟨hzero, ?_, ?_⟩
    · rw [complete, completeLength, hzero]
      exact List.take_length
    · rw [incomplete, completeLength, hzero]
      exact List.drop_length
  · obtain ⟨continued, lead, more, hsplit, hlead, hcontinued, hshort, hcount⟩ :=
      heldCount_ne_zero hzero
    have hbytes : bytes = more.reverse ++ lead :: continued.reverse := by
      rw [← List.reverse_reverse bytes, hsplit]
      simp
    have hlength : completeLength bytes = more.reverse.length := by
      rw [completeLength, hcount, hbytes]
      simp only [List.length_append, List.length_cons, List.length_reverse]
      omega
    rw [incomplete, hlength, hbytes, List.drop_left]
    refine .inr (.intro hlead (by simpa using hcontinued) ?_)
    rw [List.length_reverse]
    exact hshort

theorem heldCount_append (bytes chunk : List UInt8) :
    heldCount (bytes ++ chunk).reverse 0 = heldCount (incomplete bytes ++ chunk).reverse 0 := by
  rcases incomplete_cases bytes with ⟨hzero, -, hnone⟩ | hbegun
  · rw [hnone, List.nil_append, List.reverse_append]
    exact heldCount_append_zero hzero _ _
  · have hsplit := complete_append_incomplete bytes
    obtain ⟨lead, continued, hlead, hheld⟩ := hbegun.cons
    rw [hheld] at hsplit ⊢
    have hrest : (lead :: continued ++ chunk).reverse =
        (continued ++ chunk).reverse ++ [lead] := by simp
    have hall : (complete bytes ++ lead :: continued ++ chunk).reverse =
        (continued ++ chunk).reverse ++ lead :: (complete bytes).reverse := by simp
    rw [hsplit] at hall
    rw [hall, hrest]
    exact heldCount_stop hlead _ _ _

theorem completeLength_append (bytes chunk : List UInt8) :
    completeLength (bytes ++ chunk) =
      (complete bytes).length + completeLength (incomplete bytes ++ chunk) := by
  have hlength := congrArg List.length (complete_append_incomplete bytes)
  have hle := heldCount_le (incomplete bytes ++ chunk).reverse 0
  simp only [List.length_append, List.length_reverse] at hlength hle
  rw [completeLength, completeLength, heldCount_append]
  simp only [List.length_append]
  omega

theorem complete_append (bytes chunk : List UInt8) :
    complete (bytes ++ chunk) = complete bytes ++ complete (incomplete bytes ++ chunk) := by
  have hsplit : bytes ++ chunk = complete bytes ++ (incomplete bytes ++ chunk) := by
    rw [← List.append_assoc, complete_append_incomplete]
  rw [complete, completeLength_append]
  conv_lhs => rw [hsplit]
  rw [List.take_length_add_append]
  rfl

theorem incomplete_append (bytes chunk : List UInt8) :
    incomplete (bytes ++ chunk) = incomplete (incomplete bytes ++ chunk) := by
  have hsplit : bytes ++ chunk = complete bytes ++ (incomplete bytes ++ chunk) := by
    rw [← List.append_assoc, complete_append_incomplete]
  rw [incomplete, completeLength_append]
  conv_lhs => rw [hsplit]
  rw [List.drop_length_add_append]
  rfl

/-! ## Texts in turn -/

/-- Between two characters, or in front of a first byte, the text can be cut. -/
theorem decodeLossy_append {a b : List UInt8} (h : after .start a = .start ∨
    b = [] ∨ ∃ lead rest, isContinuation lead = false ∧ b = lead :: rest) :
    decodeLossy (a ++ b) = decodeLossy a ++ decodeLossy b := by
  have hread : read .start (a ++ b) = read .start a ++ read .start b := by
    have hnil := read_append .start a []
    rw [List.append_nil] at hnil
    rw [read_append, hnil, List.append_assoc]
    refine congrArg _ ?_
    rcases h with hstart | rfl | ⟨lead, rest, hlead, rfl⟩
    · rw [hstart]
      rfl
    · exact (List.append_nil _).symm
    · cases hafter : after .start a with
      | start => rfl
      | inside bits owed low high =>
        obtain ⟨-, hlow, hhigh⟩ := after_within hafter
        rw [read_cons, read_cons, step_inside hlead bits owed hlow hhigh]
        rfl
  rw [decodeLossy, hread, List.map_append]
  rfl

theorem complete_prefix (bytes : List UInt8) : ∃ l, bytes = complete bytes ++ l :=
  ⟨_, (complete_append_incomplete bytes).symm⟩

/-- The text of the chunk goes behind that of the bytes before it. -/
theorem decode_complete_append (bytes chunk : List UInt8) :
    decodeLossy (complete (bytes ++ chunk)) =
      decodeLossy (complete bytes) ++ decodeLossy (complete (incomplete bytes ++ chunk)) := by
  rw [complete_append]
  refine decodeLossy_append ?_
  rcases incomplete_cases bytes with ⟨hzero, hcomplete, -⟩ | hbegun
  · rw [hcomplete]
    exact .inl (after_complete hzero)
  · obtain ⟨lead, continued, hlead, hheld⟩ := hbegun.cons
    refine .inr ?_
    obtain ⟨l, hl⟩ := complete_prefix (incomplete bytes ++ chunk)
    rw [hheld, List.cons_append] at hl
    cases hfirst : complete (incomplete bytes ++ chunk) with
    | nil => exact .inl rfl
    | cons b rest =>
      rw [hheld, List.cons_append] at hfirst
      rw [hfirst, List.cons_append] at hl
      exact .inr ⟨b, rest, (List.cons.inj hl).1 ▸ hlead, rfl⟩

/-- The text and what is kept at the end are the decoded bytes. -/
theorem decode_complete_incomplete (bytes : List UInt8) :
    decodeLossy (complete bytes) ++ decodeLossy (incomplete bytes) = decodeLossy bytes := by
  rw [← decodeLossy_append, complete_append_incomplete]
  rcases incomplete_cases bytes with ⟨hzero, hcomplete, -⟩ | hbegun
  · rw [hcomplete]
    exact .inl (after_complete hzero)
  · exact .inr (.inr hbegun.cons)

/-! ## What is kept is no character -/

theorem first_continuation {b : UInt8} (h : isContinuation b = true) : first b = (.start, [none]) := by
  simp only [isContinuation, Bool.and_eq_true, decide_eq_true_eq] at h
  rw [first, if_neg (by omega), if_pos (by omega)]

theorem read_continuations {l : List UInt8} (h : ∀ b ∈ l, isContinuation b = true) :
    ∀ c ∈ read .start l, c = none := by
  induction l with
  | nil => simp [Utf8.read]
  | cons b l ih =>
    intro c hc
    rw [read_cons, step, first_continuation (h b (.head _))] at hc
    rcases List.mem_cons.mp hc with rfl | hc
    · rfl
    · exact ih (fun b hb => h b (.tail _ hb)) c hc

theorem read_short {l : List UInt8} (h : ∀ b ∈ l, isContinuation b = true) {bits owed low high : Nat}
    (hshort : l.length < owed) : ∀ c ∈ read (.inside bits owed low high) l, c = none := by
  induction l generalizing bits owed low high with
  | nil => simp [Utf8.read]
  | cons b l ih =>
    have hl := fun b hb => h b (.tail _ hb)
    rw [List.length_cons] at hshort
    intro c hc
    rw [read_cons, step] at hc
    split at hc
    · rw [if_neg (by omega)] at hc
      exact ih hl (by omega) c hc
    · rw [first_continuation (h b (.head _))] at hc
      rcases List.mem_cons.mp hc with rfl | hc
      · rfl
      rcases List.mem_cons.mp hc with rfl | hc
      · rfl
      · exact read_continuations hl c hc

theorem first_lead {b : UInt8} (hexpected : 0 < expected b) :
    first b = (.start, [none]) ∨
      ∃ bits low high, first b = (.inside bits (expected b - 1) low high, []) := by
  rw [first]
  by_cases hone : b.toNat < 0xC0
  · rw [expected, if_pos hone] at hexpected
    cases hexpected
  rw [if_neg (by omega)]
  by_cases htwo : b.toNat < 0xE0
  · have htwo' : expected b = 2 := by rw [expected, if_neg hone, if_pos htwo]
    rw [if_pos htwo, htwo']
    split
    · exact .inl rfl
    · exact .inr ⟨_, _, _, rfl⟩
  rw [if_neg (by omega), if_neg htwo]
  by_cases hthree : b.toNat < 0xF0
  · have hthree' : expected b = 3 := by rw [expected, if_neg hone, if_neg htwo, if_pos hthree]
    rw [if_pos hthree, hthree']
    exact .inr ⟨_, _, _, rfl⟩
  rw [if_neg hthree]
  split
  · have hfour : expected b = 4 := by
      rw [expected, if_neg hone, if_neg htwo, if_neg hthree, if_pos (by omega)]
    rw [hfour]
    exact .inr ⟨_, _, _, rfl⟩
  · exact .inl rfl

theorem Begun.decode {bytes : List UInt8} (h : Begun bytes) :
    ∀ c ∈ decodeLossy bytes, c = replacement := by
  intro c hc
  obtain ⟨o, ho, rfl⟩ := List.mem_map.mp hc
  suffices hnone : o = none by rw [hnone]; rfl
  cases h with
  | @intro lead continued hlead hcontinued hshort =>
    rw [read_cons, step] at ho
    rcases first_lead (b := lead) (by omega) with hfirst | ⟨bits, low, high, hfirst⟩
    · rw [hfirst] at ho
      rcases List.mem_cons.mp ho with rfl | ho
      · rfl
      · exact read_continuations hcontinued o ho
    · rw [hfirst] at ho
      exact read_short hcontinued (by omega) o ho

theorem decode_incomplete (bytes : List UInt8) :
    ∀ c ∈ decodeLossy (incomplete bytes), c = replacement := by
  rcases incomplete_cases bytes with ⟨-, -, hnone⟩ | hbegun
  · rw [hnone]
    simp [decodeLossy, Utf8.read]
  · exact hbegun.decode

end SurfaceLoom.Lib.StringDecoder
