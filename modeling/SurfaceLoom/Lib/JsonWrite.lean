import Mathlib.Algebra.Order.Ring.Nat
import SurfaceLoom.Lib.Decimal
import SurfaceLoom.Lib.JsonParse
import SurfaceLoom.Lib.Utf8

/-! # Writing JSON

A tree written without white space, and its strings and integers as
`JSON.stringify` writes them. What is written is in the grammar, so it is read
back. -/
namespace SurfaceLoom.Lib.JsonText

/-! ## Compact texts -/

namespace Tree

mutual

def write : Tree → List Nat
  | literal l => l.text
  | string k => quoted k []
  | array items => code '[' :: (writeItems items ++ [code ']'])
  | object members => code '{' :: (writeMembers members ++ [code '}'])

def writeItems : List Tree → List Nat
  | [] => []
  | [t] => write t
  | t :: rest => write t ++ code ',' :: writeItems rest

def writeMembers : List (Str × Tree) → List Nat
  | [] => []
  | [m] => quoted m.1 [] ++ code ':' :: write m.2
  | m :: rest => quoted m.1 [] ++ code ':' :: (write m.2 ++ code ',' :: writeMembers rest)

end

end Tree

theorem quoted_append (k : Str) (r : List Nat) : quoted k [] ++ r = quoted k r := by
  simp [quoted]

variable {blank : Nat → Bool}

mutual

/-- A tree spells itself. -/
theorem write_value (blank : Nat → Bool) : ∀ (t : Tree) (r : List Nat),
    Value blank t (t.write ++ r) r
  | .literal l, r => .literal l r
  | .string k, r => by
    rw [Tree.write, quoted_append]
    exact .string k r
  | .array [], r => .emptyArray (.refl blank _)
  | .array (t :: ts), r => by
    rw [Tree.write, List.cons_append, List.append_assoc]
    exact .array (write_items blank (t :: ts) r (List.cons_ne_nil t ts))
  | .object [], r => .emptyObject (.refl blank _)
  | .object (m :: ms), r => by
    rw [Tree.write, List.cons_append, List.append_assoc]
    exact .object (write_members blank (m :: ms) r (List.cons_ne_nil m ms))

theorem write_items (blank : Nat → Bool) : ∀ (ts : List Tree) (r : List Nat), ts ≠ [] →
    Items blank ts (Tree.writeItems ts ++ code ']' :: r) r
  | [], _, h => absurd rfl h
  | [t], r, _ => .last (.refl blank _) (write_value blank t _) (.refl blank _)
  | t :: t' :: ts, r, _ => by
    rw [Tree.writeItems, List.append_assoc, List.cons_append]
    · exact .more (.refl blank _) (write_value blank t _) (.refl blank _)
        (write_items blank (t' :: ts) r (List.cons_ne_nil t' ts))
    · nofun

theorem write_members (blank : Nat → Bool) : ∀ (ms : List (Str × Tree)) (r : List Nat), ms ≠ [] →
    Members blank ms (Tree.writeMembers ms ++ code '}' :: r) r
  | [], _, h => absurd rfl h
  | [(k, t)], r, _ => by
    rw [Tree.writeMembers, List.append_assoc, quoted_append, List.cons_append]
    exact .last (.refl blank _) (.refl blank _) (.refl blank _) (write_value blank t _)
      (.refl blank _)
  | (k, t) :: m :: ms, r, _ => by
    rw [Tree.writeMembers, List.append_assoc, quoted_append, List.cons_append, List.append_assoc,
      List.cons_append]
    · exact .more (.refl blank _) (.refl blank _) (.refl blank _) (write_value blank t _)
        (.refl blank _) (write_members blank (m :: ms) r (List.cons_ne_nil m ms))
    · nofun

end

/-- What is written is parsed to its value, with white space after it or without. -/
theorem parse_write {ν : Type} (number : NumberText → ν) (t : Tree) {space : List Nat}
    (h : ∀ c ∈ space, isWhite c = true) : parse number (t.write ++ space) = some (t.value number) :=
  parse_eq_some.mpr ⟨t, ⟨_, _, .refl _ _, write_value isWhite t space, space, h,
    (List.append_nil space).symm⟩, rfl⟩

/-! ## Strings -/

namespace Escape

/-- The escape `JSON.stringify` writes a character with, which is not that of `/`. -/
def ofMeaning? (c : Nat) : Option Escape :=
  [quote, backslash, backspace, formFeed, lineFeed, carriageReturn, tab].find? fun e => e.meaning = c

theorem ofMeaning?_eq_some {c : Nat} {e : Escape} (h : ofMeaning? c = some e) : e.meaning = c := by
  simpa using List.find?_some h

theorem ofMeaning?_eq_none {c : Nat} (h : ofMeaning? c = none) :
    c ≠ code '"' ∧ c ≠ code '\\' := by
  have hne := List.find?_eq_none.mp h
  constructor
  · rintro rfl
    exact hne .quote (by decide) (by decide)
  · rintro rfl
    exact hne .backslash (by decide) (by decide)

end Escape

/-- A hexadecimal digit in lower case. -/
def HexDigit.ofFin (n : Fin 16) : HexDigit :=
  ⟨if n.val < 10 then code '0' + n.val else code 'a' + (n.val - 10), by revert n; decide⟩

theorem HexDigit.value_ofFin : ∀ n : Fin 16, (HexDigit.ofFin n).value = n.val := by decide

/-- A character as `JSON.stringify` writes it. -/
def Item.ofChar (c : Char) : Item :=
  match h : Escape.ofMeaning? (code c) with
  | some e => .short e
  | none =>
    if hcontrol : code c < 0x20 then
      .unit (.ofFin 0) (.ofFin 0) (.ofFin (Fin.ofNat 16 (code c / 16))) (.ofFin (Fin.ofNat 16 (code c)))
    else .raw ⟨code c, (Escape.ofMeaning?_eq_none h).1, (Escape.ofMeaning?_eq_none h).2,
      Nat.not_lt.mp hcontrol⟩

def Str.ofString (s : String) : Str := s.toList.map Item.ofChar

/-- The three ways in which a character is written. -/
theorem Item.ofChar_cases (c : Char) :
    (∃ e, Item.ofChar c = .short e ∧ e.meaning = code c) ∨
      (∃ a b, Item.ofChar c = .unit (.ofFin 0) (.ofFin 0) (.ofFin a) (.ofFin b) ∧
        a.val * 16 + b.val = code c ∧ code c < 0x20) ∨
      ∃ p : Plain, Item.ofChar c = .raw p ∧ p.val = code c := by
  unfold Item.ofChar
  split
  · rename_i e h
    exact .inl ⟨e, rfl, Escape.ofMeaning?_eq_some h⟩
  · rename_i h
    split
    · rename_i hcontrol
      refine .inr (.inl ⟨_, _, rfl, ?_, hcontrol⟩)
      simp only [Fin.val_ofNat]
      omega
    · exact .inr (.inr ⟨_, rfl, rfl⟩)

theorem Item.ofChar_units (c : Char) : (Item.ofChar c).units = utf16 (code c) := by
  rcases Item.ofChar_cases c with ⟨e, h, hmeaning⟩ | ⟨a, b, h, hvalue, hcontrol⟩ | ⟨p, h, hp⟩
  · rw [h, ← hmeaning]
    cases e <;> rfl
  · have hunit : utf16 (code c) = [code c] := if_pos (by omega)
    rw [h, hunit]
    show [quadValue _ _ _ _] = _
    simp only [HexDigit.value_ofFin, quadValue]
    congr 1
    simpa using hvalue
  · rw [h, ← hp]
    rfl

theorem Str.ofString_units (s : String) :
    (Str.ofString s).units = s.toList.flatMap fun c => utf16 (code c) := by
  unfold Str.ofString Str.units
  rw [List.flatMap_map]
  exact congrArg (List.flatMap · s.toList) (funext Item.ofChar_units)

/-! ## Numbers -/

def digitOf (c : Char) : Digit := Fin.ofNat 10 (code c - code '0')

/-- The digits of a number without a sign. -/
def Whole.ofDigits : List Char → Whole
  | [] => .zero
  | c :: rest =>
    if c = '0' then .zero else .lead (Fin.ofNat 9 (code c - code '1')) (rest.map digitOf)

def NumberText.ofNat (n : Nat) : NumberText where
  minus := false
  whole := .ofDigits (toString n).toList
  fraction := none
  exponent := none

theorem digitOf_char {c : Char} (h : c.isDigit = true) : (digitOf c).char = code c := by
  have hbounds := Decimal.digit_value h
  unfold digitOf Digit.char
  rw [Fin.val_ofNat]
  have : code c = c.toNat := rfl
  have : code '0' = '0'.toNat := rfl
  omega

theorem toDigits_head {n : Nat} (hn : 0 < n) : ∃ c rest, Nat.toDigits 10 n = c :: rest ∧ c ≠ '0' := by
  induction n using Nat.strongRecOn with
  | ind n ih =>
    rw [Nat.toDigits_eq_if (by decide)]
    split
    · rename_i hlt
      have hdigit : ∀ d : Fin 10, 0 < d.val → Nat.digitChar d ≠ '0' := by decide
      exact ⟨_, [], rfl, hdigit ⟨n, hlt⟩ hn⟩
    · obtain ⟨c, rest, h, hc⟩ := ih (n / 10) (by omega) (by omega)
      exact ⟨c, rest ++ [Nat.digitChar (n % 10)], by rw [h]; rfl, hc⟩

/-- An integer is written in decimal digits. -/
theorem NumberText.ofNat_text (n : Nat) : (NumberText.ofNat n).text = (toString n).toList.map code := by
  show [] ++ (Whole.text (.ofDigits (toString n).toList) ++ ([] ++ [])) = _
  rw [List.nil_append, List.append_nil, List.append_nil]
  have hdigits : ∀ c ∈ (toString n).toList, c.isDigit = true := fun _ => Decimal.isDigit_toString
  rcases Nat.eq_zero_or_pos n with rfl | hn
  · rfl
  · obtain ⟨c, rest, heq, hc⟩ := toDigits_head hn
    rw [Decimal.toList_toString, heq] at hdigits ⊢
    obtain ⟨hfirst, hrest⟩ := List.forall_mem_cons.mp hdigits
    have hbounds := Decimal.digit_value hfirst
    have hne : code c ≠ code '0' := fun h => hc (Char.toNat_inj.mp h)
    rw [Whole.ofDigits, if_neg hc, Whole.text, List.map_cons, List.map_map]
    have : code c = c.toNat := rfl
    have : code '0' = '0'.toNat := rfl
    have : code '1' = '0'.toNat + 1 := rfl
    congr 1
    · rw [Fin.val_ofNat]
      omega
    · exact List.map_congr_left fun d hd => digitOf_char (hrest d hd)

theorem NumberText.ofNat_length {n k : Nat} (hk : 0 < k) (h : n < 10 ^ k) :
    (NumberText.ofNat n).text.length ≤ k := by
  rw [ofNat_text, List.length_map, Decimal.toList_toString]
  exact (Nat.length_toDigits_le_iff (by decide) hk).mpr h

/-! ## Code units and characters -/

/-- The text of a list of code units; half a pair of surrogates is written as U+FFFD. -/
def fromUnits : List Nat → List Char
  | [] => []
  | [c] => [if isHigh c || isLow c then Utf8.replacement else Char.ofNat c]
  | c :: d :: rest =>
    if isHigh c && isLow d then
      Char.ofNat (0x10000 + (c - 0xD800) * 0x400 + (d - 0xDC00)) :: fromUnits rest
    else (if isHigh c || isLow c then Utf8.replacement else Char.ofNat c) :: fromUnits (d :: rest)

theorem surrogate_bounds {c : Char} (h : 0x10000 ≤ code c) :
    (code c - 0x10000) / 0x400 < 0x400 := by
  have hvalid : code c < 0x110000 := by
    rcases c.valid with hlow | hhigh
    · exact Nat.lt_trans hlow (by decide)
    · exact hhigh.2
  omega

theorem not_surrogate (c : Char) : (isHigh (code c) || isLow (code c)) = false := by
  have hvalid : code c < 0xD800 ∨ 0xDFFF < code c := by
    rcases c.valid with hlow | hhigh
    · exact .inl hlow
    · exact .inr hhigh.1
  simp only [isHigh, isLow, Bool.or_eq_false_iff, Bool.and_eq_false_iff, decide_eq_false_iff_not]
  omega

theorem fromUnits_cons (c : Char) (units : List Nat) :
    fromUnits (utf16 (code c) ++ units) = c :: fromUnits units := by
  have hchar : Char.ofNat (code c) = c := Char.ofNat_toNat c
  unfold utf16
  split
  · obtain ⟨hhigh, hlow⟩ := Bool.or_eq_false_iff.mp (not_surrogate c)
    cases units with
    | nil =>
      simp only [List.append_nil, fromUnits, hhigh, hlow, hchar]
      rfl
    | cons d rest =>
      simp only [List.cons_append, List.nil_append, fromUnits, hhigh, hlow, hchar]
      rfl
  · rename_i hlarge
    have hbounds := surrogate_bounds (Nat.not_lt.mp hlarge)
    have hhigh : isHigh (0xD800 + (code c - 0x10000) / 0x400) = true := by
      simp only [isHigh, Bool.and_eq_true, decide_eq_true_eq]
      omega
    have hlow : isLow (0xDC00 + (code c - 0x10000) % 0x400) = true := by
      simp only [isLow, Bool.and_eq_true, decide_eq_true_eq]
      omega
    have hcode : 0x10000 + (0xD800 + (code c - 0x10000) / 0x400 - 0xD800) * 0x400 +
        (0xDC00 + (code c - 0x10000) % 0x400 - 0xDC00) = code c := by omega
    simp only [List.cons_append, List.nil_append, fromUnits, hhigh, hlow, Bool.and_self, if_true,
      hcode, hchar]

theorem fromUnits_utf16 (chars : List Char) :
    fromUnits (chars.flatMap fun c => utf16 (code c)) = chars := by
  induction chars with
  | nil => rfl
  | cons c chars ih => rw [List.flatMap_cons, fromUnits_cons, ih]

/-- The characters of a text. -/
def chars (text : List Nat) : List Char := text.map Char.ofNat

theorem chars_append (a b : List Nat) : chars (a ++ b) = chars a ++ chars b := List.map_append

/-- Every code is that of a character. -/
def Scalars (text : List Nat) : Prop := ∀ n ∈ text, n.isValidChar

theorem Scalars.append {a b : List Nat} (ha : Scalars a) (hb : Scalars b) : Scalars (a ++ b) := by
  intro n hn
  rcases List.mem_append.mp hn with hn | hn
  · exact ha n hn
  · exact hb n hn

theorem Scalars.map_code (cs : List Char) : Scalars (cs.map code) := by
  intro n hn
  obtain ⟨c, -, rfl⟩ := List.mem_map.mp hn
  exact c.valid

theorem code_chars {text : List Nat} (h : Scalars text) : (chars text).map code = text := by
  unfold chars
  rw [List.map_map]
  refine (List.map_congr_left fun n hn => ?_).trans (List.map_id text)
  have hvalid := h n hn
  show (Char.ofNat n).toNat = n
  unfold Char.ofNat
  rw [dif_pos hvalid]
  rfl

theorem length_encode (s : String) : (Utf8.encode s.toList).length = s.utf8ByteSize := by
  rw [← String.size_toByteArray, ← String.ofList_toList (s := s)]
  show _ = (List.utf8Encode _).size
  simp [List.utf8Encode, Utf8.encode]

theorem encode_append (a b : List Char) : Utf8.encode (a ++ b) = Utf8.encode a ++ Utf8.encode b :=
  List.flatMap_append

/-- How a character is written, and that it takes at most six times its bytes. -/
theorem Item.ofChar_text (c : Char) : Scalars (Item.ofChar c).text ∧
    (Utf8.encode (chars (Item.ofChar c).text)).length ≤ 6 * (String.utf8EncodeChar c).length := by
  have hpos : 0 < (String.utf8EncodeChar c).length := by
    rw [String.length_utf8EncodeChar]
    exact c.utf8Size_pos
  rcases Item.ofChar_cases c with ⟨e, h, -⟩ | ⟨a, b, h, -, -⟩ | ⟨p, h, hp⟩
  · have hshort : Scalars (Item.short e).text ∧
        (Utf8.encode (chars (Item.short e).text)).length = 2 := by
      unfold Scalars
      cases e <;> decide
    rw [h]
    refine ⟨hshort.1, ?_⟩
    rw [hshort.2]
    omega
  · have hunit : ∀ a b : Fin 16, Scalars (Item.unit (.ofFin 0) (.ofFin 0) (.ofFin a) (.ofFin b)).text ∧
        (Utf8.encode (chars (Item.unit (.ofFin 0) (.ofFin 0) (.ofFin a) (.ofFin b)).text)).length =
          6 := by
      unfold Scalars
      decide
    rw [h]
    refine ⟨(hunit a b).1, ?_⟩
    rw [(hunit a b).2]
    omega
  · have htext : (Item.raw p).text = [code c] := by rw [← hp]; rfl
    rw [h, htext]
    refine ⟨Scalars.map_code [c], ?_⟩
    have hchars : chars [code c] = [c] := congrArg (· :: []) (Char.ofNat_toNat c)
    rw [hchars, Utf8.encode, List.flatMap_singleton]
    omega

theorem Str.ofString_text (s : String) : Scalars (Str.ofString s).text ∧
    (Utf8.encode (chars (Str.ofString s).text)).length ≤ 6 * s.utf8ByteSize := by
  rw [← length_encode]
  unfold Str.ofString
  induction s.toList with
  | nil => exact ⟨nofun, Nat.le_refl 0⟩
  | cons c rest ih =>
    obtain ⟨hscalars, hlength⟩ := Item.ofChar_text c
    have hcons : Str.text ((c :: rest).map Item.ofChar) =
        (Item.ofChar c).text ++ Str.text (rest.map Item.ofChar) := rfl
    have hencode : Utf8.encode (c :: rest) = String.utf8EncodeChar c ++ Utf8.encode rest := rfl
    rw [hcons, hencode]
    refine ⟨hscalars.append ih.1, ?_⟩
    rw [chars_append, encode_append, List.length_append, List.length_append]
    have := ih.2
    omega

/-! ## Sizes -/

/-- The size of a text in UTF-8. -/
def byteLength (text : List Nat) : Nat := (Utf8.encode (chars text)).length

theorem byteLength_append (a b : List Nat) : byteLength (a ++ b) = byteLength a + byteLength b := by
  rw [byteLength, chars_append, encode_append, List.length_append]
  rfl

theorem byteLength_cons (n : Nat) (text : List Nat) :
    byteLength (n :: text) = byteLength [n] + byteLength text := byteLength_append [n] text

theorem quoted_scalars {k : Str} (h : Scalars k.text) : Scalars (quoted k []) := by
  have hquote : Scalars [code '"'] := Scalars.map_code ['"']
  exact hquote.append (h.append hquote)

theorem quoted_byteLength (k : Str) : byteLength (quoted k []) = byteLength k.text + 2 := by
  have hquote : byteLength [code '"'] = 1 := by decide
  rw [quoted, byteLength_cons, byteLength_append, hquote]
  omega

/-- The members of an object are made of characters where their names and values are. -/
theorem writeMembers_scalars : ∀ {ms : List (Str × Tree)},
    (∀ m ∈ ms, Scalars m.1.text ∧ Scalars m.2.write) → Scalars (Tree.writeMembers ms)
  | [], _ => nofun
  | [m], h => by
    have hcolon : Scalars [code ':'] := Scalars.map_code [':']
    obtain ⟨hname, hvalue⟩ := h m (List.mem_singleton.mpr rfl)
    rw [Tree.writeMembers]
    exact (quoted_scalars hname).append (hcolon.append hvalue)
  | m :: m' :: ms, h => by
    have hcolon : Scalars [code ':'] := Scalars.map_code [':']
    have hcomma : Scalars [code ','] := Scalars.map_code [',']
    obtain ⟨⟨hname, hvalue⟩, hrest⟩ := List.forall_mem_cons.mp h
    rw [Tree.writeMembers]
    · exact (quoted_scalars hname).append
        (hcolon.append (hvalue.append (hcomma.append (writeMembers_scalars hrest))))
    · nofun

theorem writeMembers_byteLength : ∀ ms : List (Str × Tree), byteLength (Tree.writeMembers ms) ≤
    (ms.map fun m => byteLength m.1.text + byteLength m.2.write + 4).sum
  | [] => Nat.le_refl 0
  | [m] => by
    have hcolon : byteLength [code ':'] = 1 := by decide
    rw [Tree.writeMembers, byteLength_append, quoted_byteLength, byteLength_cons, hcolon,
      List.map_singleton, List.sum_singleton]
    omega
  | m :: m' :: ms => by
    have hcolon : byteLength [code ':'] = 1 := by decide
    have hcomma : byteLength [code ','] = 1 := by decide
    have hrest := writeMembers_byteLength (m' :: ms)
    rw [Tree.writeMembers, byteLength_append, quoted_byteLength, byteLength_cons, hcolon,
      byteLength_append, byteLength_cons (code ','), hcomma, List.map_cons, List.sum_cons]
    · omega
    · nofun

end SurfaceLoom.Lib.JsonText
