import Mathlib.Algebra.Order.Ring.Nat
import Mathlib.Tactic.Common
import Mathlib.Data.List.Basic
import Mathlib.Data.List.TakeWhile
import Mathlib.Order.Basic

/-! # Places in a text

A scanner reads a text from a place on: it has what is before the place, nearest first, and what
follows. Converting the line feeds of a text to CRLF converts its places. -/
namespace SurfaceLoom.Lib

structure Cursor where
  before : List Char
  rest : List Char

namespace Cursor

def start (text : List Char) : Cursor := ⟨[], text⟩

/-- `n` characters further, or the end. -/
def forward (p : Cursor) (n : Nat) : Cursor := ⟨(p.rest.take n).reverse ++ p.before, p.rest.drop n⟩

def toEnd (p : Cursor) : Cursor := p.forward p.rest.length

def startsWith (p : Cursor) (pattern : List Char) : Bool := pattern.isPrefixOf p.rest

def seekFrom (pattern : List Char) : List Char → List Char → Option Cursor
  | _, [] => none
  | before, c :: rest =>
    if pattern.isPrefixOf (c :: rest) then some ⟨before, c :: rest⟩
    else seekFrom pattern (c :: before) rest

/-- The first place from here on where the pattern stands. -/
def seek (p : Cursor) (pattern : List Char) : Option Cursor := seekFrom pattern p.before p.rest

/-- The length in UTF-16 code units. -/
def units (text : List Char) : Nat := (text.map fun c => if c.toNat < 0x10000 then 1 else 2).sum

def line (p : Cursor) : Nat := 1 + p.before.count '\n'

def column (p : Cursor) : Nat := 1 + units (p.before.takeWhile (· ≠ '\n'))

@[simp] theorem forward_cons (before : List Char) (c : Char) (rest : List Char) :
    (⟨before, c :: rest⟩ : Cursor).forward 1 = ⟨c :: before, rest⟩ := rfl

theorem forward_rest (p : Cursor) (n : Nat) : (p.forward n).rest = p.rest.drop n := rfl

@[simp] theorem forward_zero (p : Cursor) : p.forward 0 = p := rfl

theorem forward_add (p : Cursor) (m n : Nat) : (p.forward m).forward n = p.forward (m + n) := by
  show Cursor.mk _ _ = Cursor.mk _ _
  congr 1
  · rw [forward_rest, show (p.forward m).before = (p.rest.take m).reverse ++ p.before from rfl,
      ← List.append_assoc, ← List.reverse_append, ← List.take_add]
  · rw [forward_rest, List.drop_drop]

/-! ## Further on -/

/-- A place that is further on in the same text. -/
def Ahead (p q : Cursor) : Prop :=
  ∃ read, read ≠ [] ∧ p.rest = read ++ q.rest ∧ q.before = read.reverse ++ p.before

theorem Ahead.trans {p q r : Cursor} (hpq : Ahead p q) (hqr : Ahead q r) : Ahead p r := by
  obtain ⟨first, hfirst, hrest, hbefore⟩ := hpq
  obtain ⟨second, -, hrest', hbefore'⟩ := hqr
  refine ⟨first ++ second, by simp [hfirst], ?_, ?_⟩
  · rw [hrest, hrest', List.append_assoc]
  · rw [hbefore', hbefore, List.reverse_append, List.append_assoc]

theorem Ahead.length {p q : Cursor} (h : Ahead p q) : q.rest.length < p.rest.length := by
  obtain ⟨read, hread, hrest, -⟩ := h
  have hpos := List.length_pos_iff.mpr hread
  rw [hrest, List.length_append]
  omega

theorem ahead_cons (before : List Char) (c : Char) (rest : List Char) :
    Ahead ⟨before, c :: rest⟩ ⟨c :: before, rest⟩ := ⟨[c], by simp, rfl, rfl⟩

theorem ahead_forward {p : Cursor} (h : p.rest ≠ []) (n : Nat) : Ahead p (p.forward (n + 1)) := by
  refine ⟨p.rest.take (n + 1), ?_, (List.take_append_drop _ _).symm, rfl⟩
  cases hrest : p.rest with
  | nil => exact absurd hrest h
  | cons c rest => simp

theorem Ahead.forward {p q : Cursor} (h : Ahead p q) (n : Nat) : Ahead p (q.forward n) := by
  cases n with
  | zero => exact h
  | succ n =>
    by_cases hend : q.rest = []
    · have hstay : q.forward (n + 1) = q := by
        cases q
        cases hend
        simp [Cursor.forward]
      rw [hstay]
      exact h
    · exact h.trans (ahead_forward hend n)

theorem seekFrom_ahead {pattern : List Char} :
    ∀ {rest before : List Char} {q : Cursor}, seekFrom pattern before rest = some q →
      q = ⟨before, rest⟩ ∨ Ahead ⟨before, rest⟩ q := by
  intro rest
  induction rest with
  | nil => exact fun h => nomatch h
  | cons c rest ih =>
    intro before q h
    unfold seekFrom at h
    split at h
    · exact .inl (Option.some.inj h).symm
    · rcases ih h with rfl | hahead
      · exact .inr (ahead_cons before c rest)
      · exact .inr ((ahead_cons before c rest).trans hahead)

theorem seekFrom_startsWith {pattern : List Char} :
    ∀ {rest before : List Char} {q : Cursor}, seekFrom pattern before rest = some q →
      pattern.isPrefixOf q.rest = true := by
  intro rest
  induction rest with
  | nil => exact fun h => nomatch h
  | cons c rest ih =>
    intro before q h
    unfold seekFrom at h
    split at h
    · rename_i hlead
      cases h
      exact hlead
    · exact ih h

/-- A place that was sought is not before the place it was sought from. -/
theorem seek_forward {p q : Cursor} {pattern : List Char} (h : p.seek pattern = some q) :
    q = p ∨ Ahead p q := seekFrom_ahead h

theorem startsWith_ne_nil {p : Cursor} {pattern : List Char} (hpattern : pattern ≠ [])
    (h : p.startsWith pattern = true) : p.rest ≠ [] := by
  intro hrest
  rw [startsWith, hrest] at h
  cases pattern with
  | nil => exact hpattern rfl
  | cons c pattern => cases h

end Cursor

/-! ## CRLF -/

namespace Crlf

/-- `text.replaceAll("\n", "\r\n")` -/
def convert (text : List Char) : List Char :=
  text.flatMap fun c => if c = '\n' then ['\r', '\n'] else [c]

/-- The same, for what is before a place. -/
def convertBefore (before : List Char) : List Char :=
  before.flatMap fun c => if c = '\n' then ['\n', '\r'] else [c]

def place (p : Cursor) : Cursor := ⟨convertBefore p.before, convert p.rest⟩

@[simp] theorem convert_nil : convert [] = [] := rfl

@[simp] theorem convert_newline (rest : List Char) :
    convert ('\n' :: rest) = '\r' :: '\n' :: convert rest := rfl

@[simp] theorem convert_cons {c : Char} (hc : c ≠ '\n') (rest : List Char) :
    convert (c :: rest) = c :: convert rest := by
  rw [convert, List.flatMap_cons, if_neg hc]
  rfl

@[simp] theorem convertBefore_newline (before : List Char) :
    convertBefore ('\n' :: before) = '\n' :: '\r' :: convertBefore before := rfl

@[simp] theorem convertBefore_cons {c : Char} (hc : c ≠ '\n') (before : List Char) :
    convertBefore (c :: before) = c :: convertBefore before := by
  rw [convertBefore, List.flatMap_cons, if_neg hc]
  rfl

theorem convert_append (left right : List Char) :
    convert (left ++ right) = convert left ++ convert right := List.flatMap_append ..

theorem convertBefore_append (left right : List Char) :
    convertBefore (left ++ right) = convertBefore left ++ convertBefore right :=
  List.flatMap_append ..

theorem convert_reverse (text : List Char) : (convertBefore text).reverse = convert text.reverse := by
  induction text with
  | nil => rfl
  | cons c text ih =>
    rw [List.reverse_cons, convert_append, ← ih]
    by_cases hc : c = '\n'
    · subst hc
      simp [convert]
    · simp [hc]

theorem ahead_place {p q : Cursor} (h : Cursor.Ahead p q) : Cursor.Ahead (place p) (place q) := by
  obtain ⟨read, hread, hrest, hbefore⟩ := h
  refine ⟨convert read, ?_, ?_, ?_⟩
  · cases read with
    | nil => exact absurd rfl hread
    | cons c read =>
      by_cases hc : c = '\n'
      · subst hc
        simp
      · simp [hc]
  · rw [place, hrest, convert_append]
    rfl
  · rw [place, hbefore, convertBefore_append, ← List.reverse_reverse (convertBefore read.reverse),
      convert_reverse, List.reverse_reverse]
    rfl

theorem convert_plain {text : List Char} (h : '\n' ∉ text) : convert text = text := by
  induction text with
  | nil => rfl
  | cons c text ih =>
    rw [List.mem_cons, not_or] at h
    rw [convert_cons (Ne.symm h.1), ih h.2]

theorem convertBefore_plain {text : List Char} (h : '\n' ∉ text) : convertBefore text = text := by
  have hreverse := @convert_plain text.reverse (by rwa [List.mem_reverse])
  rw [← convert_reverse, List.reverse_inj] at hreverse
  exact hreverse

/-- A pattern without line ends stands in a text where it stood before the conversion. -/
theorem isPrefixOf_convert {pattern : List Char} (hlf : '\n' ∉ pattern) (hcr : '\r' ∉ pattern) :
    ∀ rest, pattern.isPrefixOf (convert rest) = pattern.isPrefixOf rest := by
  induction pattern with
  | nil => exact fun _ => rfl
  | cons d pattern ih =>
    rw [List.mem_cons, not_or] at hlf hcr
    intro rest
    cases rest with
    | nil => rfl
    | cons c rest =>
      by_cases hc : c = '\n'
      · subst hc
        rw [convert_newline, List.isPrefixOf_cons_cons, List.isPrefixOf_cons_cons,
          beq_eq_false_iff_ne.mpr (Ne.symm hlf.1), beq_eq_false_iff_ne.mpr (Ne.symm hcr.1)]
        rfl
      · rw [convert_cons hc, List.isPrefixOf_cons_cons, List.isPrefixOf_cons_cons, ih hlf.2 hcr.2]

theorem startsWith_place (p : Cursor) {pattern : List Char} (hlf : '\n' ∉ pattern)
    (hcr : '\r' ∉ pattern) : (place p).startsWith pattern = p.startsWith pattern :=
  isPrefixOf_convert hlf hcr p.rest

/-- Moving over a line without its end. -/
theorem forward_place (p : Cursor) {n : Nat} (h : '\n' ∉ p.rest.take n) :
    (place p).forward n = place (p.forward n) := by
  have hsplit : convert p.rest = p.rest.take n ++ convert (p.rest.drop n) := by
    conv_lhs => rw [← List.take_append_drop n p.rest]
    rw [convert_append, convert_plain h]
  by_cases hlength : n ≤ p.rest.length
  · have htake : (convert p.rest).take n = p.rest.take n := by
      rw [hsplit, List.take_append_of_le_length (by rw [List.length_take]; omega),
        List.take_of_length_le (by rw [List.length_take]; omega)]
    have hdrop : (convert p.rest).drop n = convert (p.rest.drop n) := by
      rw [hsplit, List.drop_append_of_le_length (by rw [List.length_take]; omega),
        List.drop_eq_nil_of_le (by rw [List.length_take]; omega), List.nil_append]
    show Cursor.mk _ _ = Cursor.mk _ _
    congr 1
    · rw [show (place p).rest = convert p.rest from rfl, htake, Cursor.forward,
        convertBefore_append, convertBefore_plain (by rwa [List.mem_reverse])]
      rfl
  · rw [List.take_of_length_le (by omega)] at h
    have hrest : (place p).rest = p.rest := convert_plain h
    show Cursor.mk _ _ = Cursor.mk _ _
    rw [hrest]
    congr 1
    · rw [Cursor.forward, convertBefore_append, convertBefore_plain (by
        rw [List.mem_reverse, List.take_of_length_le (by omega)]
        exact h)]
      rfl
    · rw [Cursor.forward, List.drop_eq_nil_of_le (by omega)]
      rfl

theorem takeWhile_convert {f : Char → Bool} (hlf : f '\n' = false) (hcr : f '\r' = false) :
    ∀ rest, (convert rest).takeWhile f = rest.takeWhile f := by
  intro rest
  induction rest with
  | nil => rfl
  | cons c rest ih =>
    by_cases hc : c = '\n'
    · subst hc
      rw [convert_newline, List.takeWhile_cons_of_neg (by simp [hcr]),
        List.takeWhile_cons_of_neg (by simp [hlf])]
    · rw [convert_cons hc, List.takeWhile_cons, List.takeWhile_cons, ih]

theorem takeWhile_convertBefore {f : Char → Bool} (hlf : f '\n' = false) :
    ∀ before, (convertBefore before).takeWhile f = before.takeWhile f := by
  intro before
  induction before with
  | nil => rfl
  | cons c before ih =>
    by_cases hc : c = '\n'
    · subst hc
      rw [convertBefore_newline, List.takeWhile_cons_of_neg (by simp [hlf]),
        List.takeWhile_cons_of_neg (by simp [hlf])]
    · rw [convertBefore_cons hc, List.takeWhile_cons, List.takeWhile_cons, ih]

theorem dropWhile_convertBefore {f : Char → Bool} (hlf : f '\n' = true) (hcr : f '\r' = true) :
    ∀ before, (convertBefore before).dropWhile f = convertBefore (before.dropWhile f) := by
  intro before
  induction before with
  | nil => rfl
  | cons c before ih =>
    by_cases hc : c = '\n'
    · subst hc
      rw [convertBefore_newline, List.dropWhile_cons_of_pos (by simp [hlf]),
        List.dropWhile_cons_of_pos (by simp [hcr]), List.dropWhile_cons_of_pos (by simp [hlf]), ih]
    · rw [convertBefore_cons hc, List.dropWhile_cons, List.dropWhile_cons, ih]
      split
      · rfl
      · rw [convertBefore_cons hc]

/-- Moving over characters that are no line ends. -/
theorem forward_while (p : Cursor) {f : Char → Bool} (hlf : f '\n' = false) :
    (place p).forward (p.rest.takeWhile f).length =
      place (p.forward (p.rest.takeWhile f).length) := by
  refine forward_place p ?_
  rw [← List.prefix_iff_eq_take.mp (List.takeWhile_prefix f)]
  intro hmem
  rw [List.mem_takeWhile_imp hmem] at hlf
  cases hlf

theorem seekFrom_convert {pattern : List Char} (hne : pattern ≠ []) (hlf : '\n' ∉ pattern)
    (hcr : '\r' ∉ pattern) : ∀ (rest before : List Char),
    Cursor.seekFrom pattern (convertBefore before) (convert rest) =
      (Cursor.seekFrom pattern before rest).map place := by
  intro rest
  induction rest with
  | nil => exact fun _ => rfl
  | cons c rest ih =>
    intro before
    have hlead := isPrefixOf_convert hlf hcr (c :: rest)
    by_cases hc : c = '\n'
    · subst hc
      have hnot : ∀ d rest', d = '\n' ∨ d = '\r' → pattern.isPrefixOf (d :: rest') = false := by
        intro d rest' hd
        cases pattern with
        | nil => exact absurd rfl hne
        | cons d' pattern =>
          rw [List.mem_cons, not_or] at hlf hcr
          rw [List.isPrefixOf_cons_cons]
          rcases hd with rfl | rfl
          · simp [Ne.symm hlf.1]
          · simp [Ne.symm hcr.1]
      rw [convert_newline, Cursor.seekFrom, hnot _ _ (.inr rfl), Cursor.seekFrom, hnot _ _ (.inl rfl),
        Cursor.seekFrom, hnot _ _ (.inl rfl)]
      exact ih ('\n' :: before)
    · rw [convert_cons hc] at hlead ⊢
      rw [Cursor.seekFrom, Cursor.seekFrom, hlead]
      split
      · simp [place, hc]
      · rw [← convertBefore_cons hc]
        exact ih (c :: before)

theorem seek_place (p : Cursor) {pattern : List Char} (hne : pattern ≠ []) (hlf : '\n' ∉ pattern)
    (hcr : '\r' ∉ pattern) : (place p).seek pattern = (p.seek pattern).map place :=
  seekFrom_convert hne hlf hcr p.rest p.before

/-- The place after the next line feed. -/
theorem seekFrom_newline : ∀ (rest before : List Char),
    (Cursor.seekFrom ['\n'] (convertBefore before) (convert rest)).map (Cursor.forward · 1) =
      ((Cursor.seekFrom ['\n'] before rest).map (Cursor.forward · 1)).map place := by
  intro rest
  induction rest with
  | nil => exact fun _ => rfl
  | cons c rest ih =>
    intro before
    by_cases hc : c = '\n'
    · subst hc
      simp [Cursor.seekFrom, place]
    · have hne : ¬ '\n' = c := Ne.symm hc
      simp only [convert_cons hc, Cursor.seekFrom, List.isPrefixOf_cons_cons, beq_iff_eq, hne,
        List.isPrefixOf_nil_left, Bool.and_true, if_false]
      rw [← convertBefore_cons hc]
      exact ih (c :: before)

theorem toEnd_eq (p : Cursor) : p.toEnd = ⟨p.rest.reverse ++ p.before, []⟩ := by
  show Cursor.mk _ _ = Cursor.mk _ _
  rw [List.take_of_length_le (Nat.le_refl _), List.drop_length]

theorem toEnd_place (p : Cursor) : (place p).toEnd = place p.toEnd := by
  rw [toEnd_eq, toEnd_eq]
  show Cursor.mk _ _ = Cursor.mk _ _
  congr 1
  rw [convertBefore_append, ← List.reverse_inj, List.reverse_append, List.reverse_append,
    convert_reverse, convert_reverse, List.reverse_reverse]
  rw [show (place p).rest = convert p.rest from rfl, List.reverse_reverse,
    show (place p).before = convertBefore p.before from rfl, convert_reverse]

end Crlf

end SurfaceLoom.Lib
