import Mathlib.Data.List.GetD

/-! # Canonical Base64

The encoding of bytes in groups of three, and the strict decoder: full groups, padding
only in the last, and no bits under the padding. A text decodes to some bytes exactly
when it is their encoding. -/
namespace SurfaceLoom.Lib.Base64

def alphabet : List Char :=
  "ABCDEFGHIJKLMNOPQRSTUVWXYZabcdefghijklmnopqrstuvwxyz0123456789+/".toList

def pad : Char := '='

/-- The character of six bits. -/
def digit (n : Nat) : Char := alphabet.getD n pad

def value? (c : Char) : Option Nat := if c ∈ alphabet then some (alphabet.idxOf c) else none

def encode : List UInt8 → List Char
  | [] => []
  | [a] => [digit (a.toNat / 4), digit (a.toNat % 4 * 16), pad, pad]
  | [a, b] =>
    [digit (a.toNat / 4), digit (a.toNat % 4 * 16 + b.toNat / 16), digit (b.toNat % 16 * 4), pad]
  | a :: b :: c :: rest =>
    digit (a.toNat / 4) :: digit (a.toNat % 4 * 16 + b.toNat / 16) ::
      digit (b.toNat % 16 * 4 + c.toNat / 64) :: digit (c.toNat % 64) :: encode rest

/-- The bytes of the first, the second and the third eight bits of a group. -/
def firstByte (p q : Nat) : UInt8 := UInt8.ofNat (p * 4 + q / 16)

def secondByte (q r : Nat) : UInt8 := UInt8.ofNat (q % 16 * 16 + r / 4)

def thirdByte (r s : Nat) : UInt8 := UInt8.ofNat (r % 4 * 64 + s)

def decode : List Char → Option (List UInt8)
  | [] => some []
  | p :: q :: r :: s :: rest => do
    let p ← value? p
    let q ← value? q
    if s = pad then
      if rest ≠ [] then none
      else if r = pad then
        if q % 16 = 0 then some [firstByte p q] else none
      else
        let r ← value? r
        if r % 4 = 0 then some [firstByte p q, secondByte q r] else none
    else
      let r ← value? r
      let s ← value? s
      let bytes ← decode rest
      some (firstByte p q :: secondByte q r :: thirdByte r s :: bytes)
  | [_] | [_, _] | [_, _, _] => none

/-! ## Digits -/

theorem alphabet_nodup : alphabet.Nodup := by decide

theorem alphabet_length : alphabet.length = 64 := rfl

theorem pad_not_mem : pad ∉ alphabet := by decide

theorem digit_mem {n : Nat} (h : n < 64) : digit n ∈ alphabet := by
  rw [digit, List.getD_eq_getElem _ _ (by rw [alphabet_length]; exact h)]
  exact List.getElem_mem _

theorem digit_ne_pad {n : Nat} (h : n < 64) : digit n ≠ pad :=
  fun heq => pad_not_mem (heq ▸ digit_mem h)

theorem value?_digit {n : Nat} (h : n < 64) : value? (digit n) = some n := by
  have hlt : n < alphabet.length := by rw [alphabet_length]; exact h
  rw [value?, if_pos (digit_mem h), digit, List.getD_eq_getElem _ _ hlt,
    alphabet_nodup.idxOf_getElem]

theorem value?_eq_some {c : Char} {n : Nat} (h : value? c = some n) : n < 64 ∧ digit n = c := by
  unfold value? at h
  split at h
  · rename_i hmem
    cases h
    have hlt := List.idxOf_lt_length_of_mem hmem
    refine ⟨alphabet_length ▸ hlt, ?_⟩
    rw [digit, List.getD_eq_getElem _ _ hlt, List.getElem_idxOf]
  · cases h

theorem value?_pad : value? pad = none := if_neg pad_not_mem

/-! ## Groups -/

theorem ofNat_toNat (a : UInt8) {n : Nat} (h : n = a.toNat) : UInt8.ofNat n = a := by
  rw [h]
  exact UInt8.ofNat_toNat

theorem toNat_ofNat {n : Nat} (h : n < 256) : (UInt8.ofNat n).toNat = n := by
  rw [UInt8.toNat_ofNat']
  exact Nat.mod_eq_of_lt h

section Groups

variable (a b c : UInt8)

theorem toNat_lt : a.toNat < 256 := a.toNat_lt

theorem first_lt : a.toNat / 4 < 64 := by
  have ha := toNat_lt a
  omega

theorem second_lt : a.toNat % 4 * 16 + b.toNat / 16 < 64 := by
  have hb := toNat_lt b
  omega

theorem third_lt : b.toNat % 16 * 4 + c.toNat / 64 < 64 := by
  have hc := toNat_lt c
  omega

theorem firstByte_digits : firstByte (a.toNat / 4) (a.toNat % 4 * 16 + b.toNat / 16) = a := by
  have hb := toNat_lt b
  exact ofNat_toNat a (by omega)

theorem secondByte_digits : secondByte (a.toNat % 4 * 16 + b.toNat / 16)
    (b.toNat % 16 * 4 + c.toNat / 64) = b := by
  have hb := toNat_lt b
  have hc := toNat_lt c
  exact ofNat_toNat b (by omega)

theorem thirdByte_digits : thirdByte (b.toNat % 16 * 4 + c.toNat / 64) (c.toNat % 64) = c := by
  have hc := toNat_lt c
  exact ofNat_toNat c (by omega)

end Groups

theorem decode_encode (bytes : List UInt8) : decode (encode bytes) = some bytes := by
  induction bytes using encode.induct with
  | case1 => rfl
  | case2 a =>
    have hlow : a.toNat % 4 * 16 < 64 := by omega
    have hbyte : firstByte (a.toNat / 4) (a.toNat % 4 * 16) = a :=
      ofNat_toNat a (by omega)
    have hzero : a.toNat % 4 * 16 % 16 = 0 := by omega
    simp [encode, decode, value?_digit (first_lt a), value?_digit hlow, hzero, hbyte]
  | case3 a b =>
    have hlow : b.toNat % 16 * 4 < 64 := by omega
    have hb := toNat_lt b
    have hbyte : secondByte (a.toNat % 4 * 16 + b.toNat / 16) (b.toNat % 16 * 4) = b :=
      ofNat_toNat b (by omega)
    have hzero : b.toNat % 16 * 4 % 4 = 0 := by omega
    simp [encode, decode, value?_digit (first_lt a), value?_digit (second_lt a b),
      value?_digit hlow, digit_ne_pad hlow, hzero, hbyte, firstByte_digits]
  | case4 a b c rest ih =>
    have hlast : c.toNat % 64 < 64 := by omega
    simp [encode, decode, value?_digit (first_lt a), value?_digit (second_lt a b),
      value?_digit (third_lt b c), value?_digit hlast, digit_ne_pad hlast, ih,
      firstByte_digits, secondByte_digits, thirdByte_digits]

theorem encode_of_decode {chars : List Char} {bytes : List UInt8} (h : decode chars = some bytes) :
    encode bytes = chars := by
  induction chars using decode.induct generalizing bytes with
  | case1 =>
    cases h
    rfl
  | case2 p q r s rest ih =>
    simp only [decode, Option.bind_eq_bind, Option.bind_eq_some_iff] at h
    obtain ⟨np, hp, nq, hq, h⟩ := h
    obtain ⟨hpl, rfl⟩ := value?_eq_some hp
    obtain ⟨hql, rfl⟩ := value?_eq_some hq
    have hfirst : (firstByte np nq).toNat = np * 4 + nq / 16 := toNat_ofNat (by omega)
    have hp : (firstByte np nq).toNat / 4 = np := by omega
    by_cases hs : s = pad
    · rw [if_pos hs] at h
      by_cases hrest : rest = []
      · rw [if_neg (not_not.mpr hrest)] at h
        subst hrest
        by_cases hr : r = pad
        · rw [if_pos hr] at h
          split at h
          · cases h
            have hq : (firstByte np nq).toNat % 4 * 16 = nq := by omega
            rw [encode, hp, hq, hr, hs]
          · cases h
        · rw [if_neg hr] at h
          obtain ⟨nr, hr, hlast⟩ := Option.bind_eq_some_iff.mp h
          obtain ⟨hrl, rfl⟩ := value?_eq_some hr
          split at hlast
          · cases hlast
            have hsecond : (secondByte nq nr).toNat = nq % 16 * 16 + nr / 4 :=
              toNat_ofNat (by omega)
            have hq : (firstByte np nq).toNat % 4 * 16 + (secondByte nq nr).toNat / 16 = nq := by
              omega
            have hr : (secondByte nq nr).toNat % 16 * 4 = nr := by omega
            rw [encode, hp, hq, hr, hs]
          · cases hlast
      · rw [if_pos hrest] at h
        cases h
    · rw [if_neg hs] at h
      obtain ⟨nr, hr, hthen⟩ := Option.bind_eq_some_iff.mp h
      obtain ⟨ns, hns, hthen⟩ := Option.bind_eq_some_iff.mp hthen
      obtain ⟨rest', hrest, hlast⟩ := Option.bind_eq_some_iff.mp hthen
      obtain ⟨hrl, rfl⟩ := value?_eq_some hr
      obtain ⟨hsl, rfl⟩ := value?_eq_some hns
      cases hlast
      have hsecond : (secondByte nq nr).toNat = nq % 16 * 16 + nr / 4 := toNat_ofNat (by omega)
      have hthird : (thirdByte nr ns).toNat = nr % 4 * 64 + ns := toNat_ofNat (by omega)
      have hq : (firstByte np nq).toNat % 4 * 16 + (secondByte nq nr).toNat / 16 = nq := by omega
      have hr : (secondByte nq nr).toNat % 16 * 4 + (thirdByte nr ns).toNat / 64 = nr := by omega
      have hs : (thirdByte nr ns).toNat % 64 = ns := by omega
      rw [encode, hp, hq, hr, hs, ih hrest]
  | case3 => cases h
  | case4 => cases h
  | case5 => cases h

/-- A text decodes to the bytes it encodes, and to nothing else. -/
theorem decode_eq_some_iff {chars : List Char} {bytes : List UInt8} :
    decode chars = some bytes ↔ encode bytes = chars :=
  ⟨encode_of_decode, fun h => h ▸ decode_encode bytes⟩

/-! ## The encoding -/

theorem encode_length (bytes : List UInt8) : (encode bytes).length = 4 * ((bytes.length + 2) / 3) := by
  induction bytes using encode.induct with
  | case1 => rfl
  | case2 a => simp [encode]
  | case3 a b => simp [encode]
  | case4 a b c rest ih =>
    simp only [encode, List.length_cons, ih]
    omega

theorem encode_mem {bytes : List UInt8} {c : Char} (h : c ∈ encode bytes) :
    c ∈ alphabet ∨ c = pad := by
  induction bytes using encode.induct with
  | case1 => cases h
  | case2 a =>
    simp only [encode, List.mem_cons, List.not_mem_nil, or_false] at h
    rcases h with rfl | rfl | rfl | rfl
    · exact .inl (digit_mem (first_lt a))
    · exact .inl (digit_mem (by omega))
    · exact .inr rfl
    · exact .inr rfl
  | case3 a b =>
    simp only [encode, List.mem_cons, List.not_mem_nil, or_false] at h
    rcases h with rfl | rfl | rfl | rfl
    · exact .inl (digit_mem (first_lt a))
    · exact .inl (digit_mem (second_lt a b))
    · exact .inl (digit_mem (by omega))
    · exact .inr rfl
  | case4 a b c rest ih =>
    simp only [encode, List.mem_cons] at h
    rcases h with rfl | rfl | rfl | rfl | h
    · exact .inl (digit_mem (first_lt a))
    · exact .inl (digit_mem (second_lt a b))
    · exact .inl (digit_mem (third_lt b c))
    · exact .inl (digit_mem (by omega))
    · exact ih h

end SurfaceLoom.Lib.Base64
