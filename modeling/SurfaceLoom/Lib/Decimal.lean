import Mathlib.Algebra.Order.Ring.Nat
import Mathlib.Data.List.Lex
import Mathlib.Tactic.Common

/-! # Decimal numbers as text

Reading back what `toString` writes, and the order of numbers written with leading
zeros at one width. -/
namespace SurfaceLoom.Lib.Decimal

/-- A nonempty run of digits. -/
def read? (chars : List Char) : Option Nat :=
  if chars ≠ [] ∧ chars.all Char.isDigit then some (Nat.ofDigitChars 10 chars 0) else none

theorem toList_toString (n : Nat) : (toString n).toList = Nat.toDigits 10 n := by
  rw [Nat.toString_eq_ofList_toDigits, String.toList_ofList]

theorem isDigit_toString {n : Nat} {c : Char} (h : c ∈ (toString n).toList) : c.isDigit = true := by
  rw [toList_toString] at h
  exact Nat.isDigit_of_mem_toDigits (by decide) (by decide) h

theorem read?_toString (n : Nat) : read? (toString n).toList = some n := by
  have hdigits : (toString n).toList.all Char.isDigit = true :=
    List.all_eq_true.mpr fun c hc => isDigit_toString hc
  have hne : (toString n).toList ≠ [] := by
    rw [toList_toString]
    exact Nat.toDigits_ne_nil
  rw [read?, if_pos ⟨hne, hdigits⟩, toList_toString, Nat.ofDigitChars_ten_toDigits]

theorem toString_injective {m n : Nat} (h : toString m = toString n) : m = n := by
  have hread := read?_toString m
  rw [h, read?_toString] at hread
  exact (Option.some.inj hread).symm

/-! ## One width -/

def padStart (width : Nat) (chars : List Char) : List Char :=
  List.replicate (width - chars.length) '0' ++ chars

def padded (width n : Nat) : List Char := padStart width (toString n).toList

theorem padded_length {width n : Nat} (hwidth : 0 < width) (h : n < 10 ^ width) :
    (padded width n).length = width := by
  have hlength : (Nat.toDigits 10 n).length ≤ width :=
    (Nat.length_toDigits_le_iff (by decide) hwidth).mpr h
  rw [padded, padStart, toList_toString, List.length_append, List.length_replicate]
  omega

theorem padded_digits {width n : Nat} {c : Char} (h : c ∈ padded width n) : c.isDigit = true := by
  rcases List.mem_append.mp h with hzero | hdigit
  · rw [List.eq_of_mem_replicate hzero]
    rfl
  · exact isDigit_toString hdigit

theorem padded_value (width n : Nat) : Nat.ofDigitChars 10 (padded width n) 0 = n := by
  rw [padded, padStart, toList_toString, Nat.ofDigitChars_append, Nat.ofDigitChars_replicate_zero,
    Nat.mul_zero, Nat.ofDigitChars_ten_toDigits]

theorem digit_value {c : Char} (h : c.isDigit = true) : '0'.toNat ≤ c.toNat ∧ c.toNat ≤ '0'.toNat + 9 := by
  simp only [Char.isDigit, Bool.and_eq_true, decide_eq_true_eq] at h
  exact ⟨UInt32.le_iff_toNat_le.mp h.1, UInt32.le_iff_toNat_le.mp h.2⟩

theorem value_lt {chars : List Char} (h : ∀ c ∈ chars, c.isDigit = true) :
    Nat.ofDigitChars 10 chars 0 < 10 ^ chars.length := by
  induction chars with
  | nil => exact Nat.one_pos
  | cons c rest ih =>
    have hrest := ih fun c hc => h c (List.mem_cons_of_mem _ hc)
    have hc := digit_value (h c List.mem_cons_self)
    rw [Nat.ofDigitChars_cons, Nat.ofDigitChars_eq_ofDigitChars_zero, List.length_cons, Nat.pow_succ]
    have hbound : 10 ^ rest.length * (10 * 0 + (c.toNat - '0'.toNat)) ≤ 10 ^ rest.length * 9 :=
      Nat.mul_le_mul_left _ (by omega)
    omega

/-- Among digits of one length the order of the characters is that of the numbers. -/
theorem lt_of_value_lt {a b : List Char} (hlength : a.length = b.length)
    (ha : ∀ c ∈ a, c.isDigit = true) (hb : ∀ c ∈ b, c.isDigit = true)
    (h : Nat.ofDigitChars 10 a 0 < Nat.ofDigitChars 10 b 0) : a < b := by
  induction a generalizing b with
  | nil =>
    rw [List.length_nil] at hlength
    rw [List.eq_nil_of_length_eq_zero hlength.symm] at h
    exact absurd h (Nat.lt_irrefl _)
  | cons c cs ih =>
    cases b with
    | nil => cases hlength
    | cons d ds =>
      have hcs : ∀ c ∈ cs, c.isDigit = true := fun c hc => ha c (List.mem_cons_of_mem _ hc)
      have hds : ∀ c ∈ ds, c.isDigit = true := fun c hc => hb c (List.mem_cons_of_mem _ hc)
      have hc := digit_value (ha c List.mem_cons_self)
      have hd := digit_value (hb d List.mem_cons_self)
      have hsame : cs.length = ds.length := Nat.succ.inj hlength
      rw [Nat.ofDigitChars_cons, Nat.ofDigitChars_eq_ofDigitChars_zero, Nat.ofDigitChars_cons,
        Nat.ofDigitChars_eq_ofDigitChars_zero (l := ds), hsame] at h
      rcases Nat.lt_trichotomy c.toNat d.toNat with hlt | heq | hgt
      · exact List.cons_lt_cons_iff.mpr (.inl hlt)
      · rw [heq] at h
        exact List.cons_lt_cons_iff.mpr (.inr ⟨Char.toNat_inj.mp heq, ih hsame hcs hds (by omega)⟩)
      · have hbound := value_lt hds
        have hmul : 10 ^ ds.length * (10 * 0 + (d.toNat - '0'.toNat)) + 10 ^ ds.length ≤
            10 ^ ds.length * (10 * 0 + (c.toNat - '0'.toNat)) := by
          rw [← Nat.mul_succ]
          exact Nat.mul_le_mul_left _ (by omega)
        omega

theorem append_lt_append {a b : List Char} (hlength : a.length = b.length) (h : a < b)
    (suffix : List Char) : a ++ suffix < b ++ suffix := by
  induction a generalizing b with
  | nil =>
    rw [List.eq_nil_of_length_eq_zero hlength.symm] at h
    exact absurd h (List.not_lt_nil _)
  | cons c cs ih =>
    cases b with
    | nil => cases hlength
    | cons d ds =>
      rcases List.cons_lt_cons_iff.mp h with hlt | ⟨rfl, hlt⟩
      · exact List.cons_lt_cons_iff.mpr (.inl hlt)
      · exact List.cons_lt_cons_iff.mpr (.inr ⟨rfl, ih (Nat.succ.inj hlength) hlt⟩)

theorem padded_lt {width m n : Nat} (hwidth : 0 < width) (h : m < n) (hn : n < 10 ^ width) :
    padded width m < padded width n := by
  refine lt_of_value_lt ?_ (fun c => padded_digits) (fun c => padded_digits) ?_
  · rw [padded_length hwidth (h.trans hn), padded_length hwidth hn]
  · rw [padded_value, padded_value]
    exact h

theorem padded_injective {width m n : Nat} (h : padded width m = padded width n) : m = n := by
  rw [← padded_value width m, h, padded_value]

end SurfaceLoom.Lib.Decimal
