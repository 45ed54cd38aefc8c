import Mathlib.Tactic.Common

/-! # The text of JSON

The grammar of RFC 8259 over characters that are given by their codes, so that it reads code
units and scalar values alike. A text spells a tree, whose strings keep how they are written:
`Value t s r` says that `s` begins with a spelling of `t` and goes on with `r`. -/
namespace SurfaceLoom.Lib.JsonText

def code (c : Char) : Nat := c.toNat

/-! ## Strings -/

/-- The value of a hexadecimal digit. -/
def hexValue? (c : Nat) : Option Nat :=
  if code '0' ≤ c ∧ c ≤ code '9' then some (c - code '0')
  else if code 'A' ≤ c ∧ c ≤ code 'F' then some (c - code 'A' + 10)
  else if code 'a' ≤ c ∧ c ≤ code 'f' then some (c - code 'a' + 10)
  else none

abbrev HexDigit := { c : Nat // (hexValue? c).isSome = true }

def HexDigit.value (d : HexDigit) : Nat := (hexValue? d.val).get d.property

theorem hexValue?_eq_some {c n : Nat} :
    hexValue? c = some n ↔ ∃ d : HexDigit, c = d.val ∧ n = d.value := by
  constructor
  · intro h
    refine ⟨⟨c, by rw [h]; rfl⟩, rfl, ?_⟩
    simp [HexDigit.value, h]
  · intro h
    obtain ⟨d, rfl, rfl⟩ := h
    exact (Option.some_get d.property).symm

def quadValue (a b c d : Nat) : Nat := ((a * 16 + b) * 16 + c) * 16 + d

inductive Escape
  | quote | backslash | slash | backspace | formFeed | lineFeed | carriageReturn | tab
  deriving DecidableEq

namespace Escape

def letter : Escape → Char
  | quote => '"'
  | backslash => '\\'
  | slash => '/'
  | backspace => 'b'
  | formFeed => 'f'
  | lineFeed => 'n'
  | carriageReturn => 'r'
  | tab => 't'

def meaning : Escape → Nat
  | quote => code '"'
  | backslash => code '\\'
  | slash => code '/'
  | backspace => 0x08
  | formFeed => 0x0C
  | lineFeed => 0x0A
  | carriageReturn => 0x0D
  | tab => 0x09

def all : List Escape :=
  [quote, backslash, slash, backspace, formFeed, lineFeed, carriageReturn, tab]

def ofLetter? (c : Nat) : Option Escape := all.find? fun e => code e.letter = c

theorem ofLetter?_eq_some {c : Nat} {e : Escape} :
    ofLetter? c = some e ↔ code e.letter = c := by
  constructor
  · intro h
    simpa using List.find?_some h
  · rintro rfl
    cases e <;> rfl

theorem letter_ne_u (e : Escape) : code e.letter ≠ code 'u' := by
  cases e <;> decide

end Escape

/-- A character that stands for itself. -/
abbrev Plain := { c : Nat // c ≠ code '"' ∧ c ≠ code '\\' ∧ 0x20 ≤ c }

/-- One character of a string as it is written. -/
inductive Item
  | raw (c : Plain)
  | short (e : Escape)
  | unit (a b c d : HexDigit)
  deriving DecidableEq

/-- A string as it is written. -/
abbrev Str := List Item

/-- The code units of one code point. -/
def utf16 (c : Nat) : List Nat :=
  if c < 0x10000 then [c] else [0xD800 + (c - 0x10000) / 0x400, 0xDC00 + (c - 0x10000) % 0x400]

namespace Item

def text : Item → List Nat
  | raw c => [c.val]
  | short e => [code '\\', code e.letter]
  | unit a b c d => [code '\\', code 'u', a.val, b.val, c.val, d.val]

/-- The code units an item stands for. -/
def units : Item → List Nat
  | raw c => utf16 c.val
  | short e => [e.meaning]
  | unit a b c d => [quadValue a.value b.value c.value d.value]

end Item

namespace Str

def text (k : Str) : List Nat := k.flatMap Item.text

def units (k : Str) : List Nat := k.flatMap Item.units

theorem text_append (k k' : Str) : text (k ++ k') = text k ++ text k' := List.flatMap_append

theorem units_append (k k' : Str) : units (k ++ k') = units k ++ units k' := List.flatMap_append

end Str

def isHigh (c : Nat) : Bool := 0xD800 ≤ c && c ≤ 0xDBFF

def isLow (c : Nat) : Bool := 0xDC00 ≤ c && c ≤ 0xDFFF

/-- Every surrogate is one of a pair that is written one way. -/
def paired : Str → Bool
  | [] => true
  | .raw c :: rest =>
    if isHigh c.val then
      match rest with
      | .raw d :: rest => isLow d.val && paired rest
      | _ => false
    else !isLow c.val && paired rest
  | .unit a b c d :: rest =>
    let first := quadValue a.value b.value c.value d.value
    if isHigh first then
      match rest with
      | .unit a b c d :: rest => isLow (quadValue a.value b.value c.value d.value) && paired rest
      | _ => false
    else !isLow first && paired rest
  | .short _ :: rest => paired rest

/-- As few items as stand for whole characters. -/
inductive Chunk : Str → Prop
  | raw {c : Plain} : isHigh c.val = false → isLow c.val = false → Chunk [.raw c]
  | rawPair {c d : Plain} : isHigh c.val = true → isLow d.val = true → Chunk [.raw c, .raw d]
  | short (e : Escape) : Chunk [.short e]
  | unit {a b c d : HexDigit} : isHigh (quadValue a.value b.value c.value d.value) = false →
      isLow (quadValue a.value b.value c.value d.value) = false → Chunk [.unit a b c d]
  | unitPair {a b c d a' b' c' d' : HexDigit} :
      isHigh (quadValue a.value b.value c.value d.value) = true →
      isLow (quadValue a'.value b'.value c'.value d'.value) = true →
      Chunk [.unit a b c d, .unit a' b' c' d']

theorem paired_raw {c : Plain} (h : isHigh c.val = false) (k : Str) :
    paired (.raw c :: k) = (!isLow c.val && paired k) := by
  rw [paired.eq_def]
  simp only [h, Bool.false_eq_true, if_false]

theorem paired_unit {a b c d : HexDigit}
    (h : isHigh (quadValue a.value b.value c.value d.value) = false) (k : Str) :
    paired (.unit a b c d :: k) =
      (!isLow (quadValue a.value b.value c.value d.value) && paired k) := by
  rw [paired.eq_def]
  simp only [h, Bool.false_eq_true, if_false]

theorem Chunk.paired_append {chunk : Str} (h : Chunk chunk) (k : Str) :
    paired (chunk ++ k) = paired k := by
  cases h with
  | raw hhigh hlow => simp [paired_raw hhigh, hlow]
  | rawPair hhigh hlow => simp [paired, hhigh, hlow]
  | short e => simp [paired]
  | unit hhigh hlow => simp [paired_unit hhigh, hlow]
  | unitPair hhigh hlow => simp [paired, hhigh, hlow]

/-- A paired string begins with a chunk. -/
theorem paired_cases {k : Str} (h : paired k = true) :
    k = [] ∨ ∃ chunk rest, Chunk chunk ∧ k = chunk ++ rest ∧ paired rest = true := by
  have hchunk : ∀ {chunk rest : Str}, Chunk chunk → k = chunk ++ rest →
      ∃ chunk rest, Chunk chunk ∧ k = chunk ++ rest ∧ paired rest = true := by
    intro chunk rest hchunk hk
    rw [hk, hchunk.paired_append] at h
    exact ⟨chunk, rest, hchunk, hk, h⟩
  cases k with
  | nil => exact .inl rfl
  | cons i rest =>
    refine .inr ?_
    cases i with
    | short e => exact hchunk (.short e) rfl
    | raw c =>
      cases hhigh : isHigh c.val with
      | false =>
        rw [paired_raw hhigh, Bool.and_eq_true, Bool.not_eq_true'] at h
        exact hchunk (.raw hhigh h.1) rfl
      | true =>
        match rest with
        | .raw d :: rest =>
          simp only [paired, hhigh, if_true, Bool.and_eq_true] at h
          exact hchunk (.rawPair hhigh h.1) rfl
        | [] | .short _ :: _ | .unit _ _ _ _ :: _ => simp [paired, hhigh] at h
    | unit a b c d =>
      cases hhigh : isHigh (quadValue a.value b.value c.value d.value) with
      | false =>
        rw [paired_unit hhigh, Bool.and_eq_true, Bool.not_eq_true'] at h
        exact hchunk (.unit hhigh h.1) rfl
      | true =>
        match rest with
        | .unit a b c d :: rest =>
          simp only [paired, hhigh, if_true, Bool.and_eq_true] at h
          exact hchunk (.unitPair hhigh h.1) rfl
        | [] | .short _ :: _ | .raw _ :: _ => simp [paired, hhigh] at h

/-! ## Numbers and the other literals -/

abbrev Digit := Fin 10

def Digit.char (d : Digit) : Nat := code '0' + d.val

/-- At least one digit. -/
abbrev Digits := Digit × List Digit

def Digits.text (ds : Digits) : List Nat := (ds.1 :: ds.2).map Digit.char

/-- No digit follows a leading zero. -/
inductive Whole
  | zero
  | lead (first : Fin 9) (rest : List Digit)
  deriving DecidableEq

def Whole.text : Whole → List Nat
  | zero => [code '0']
  | lead first rest => (code '1' + first.val) :: rest.map Digit.char

structure Exponent where
  capital : Bool
  /-- A sign that is written: is it a minus? -/
  sign : Option Bool
  digits : Digits
  deriving DecidableEq

def signText : Option Bool → List Nat
  | none => []
  | some false => [code '+']
  | some true => [code '-']

def Exponent.text (e : Exponent) : List Nat :=
  code (if e.capital then 'E' else 'e') :: (signText e.sign ++ e.digits.text)

structure NumberText where
  minus : Bool
  whole : Whole
  fraction : Option Digits
  exponent : Option Exponent
  deriving DecidableEq

namespace NumberText

def fractionText : Option Digits → List Nat
  | none => []
  | some digits => code '.' :: digits.text

def exponentText : Option Exponent → List Nat
  | none => []
  | some e => e.text

def text (n : NumberText) : List Nat :=
  (if n.minus then [code '-'] else []) ++
    (n.whole.text ++ (fractionText n.fraction ++ exponentText n.exponent))

end NumberText

inductive Literal
  | null
  | bool (b : Bool)
  | number (n : NumberText)
  deriving DecidableEq

/-- The codes of a word. -/
def codes (word : String) : List Nat := word.toList.map code

def Literal.text : Literal → List Nat
  | null => codes "null"
  | bool true => codes "true"
  | bool false => codes "false"
  | number n => n.text

/-! ## Trees and their spellings -/

inductive Tree
  | literal (l : Literal)
  | string (k : Str)
  | array (items : List Tree)
  | object (members : List (Str × Tree))

/-- `s` is insignificant white space, and then `r`. -/
def Blanks (blank : Nat → Bool) (s r : List Nat) : Prop :=
  ∃ w, (∀ c ∈ w, blank c = true) ∧ s = w ++ r

/-- A string between its quotation marks, and then `r`. -/
def quoted (k : Str) (r : List Nat) : List Nat :=
  code '"' :: (k.text ++ code '"' :: r)

mutual

inductive Value (blank : Nat → Bool) : Tree → List Nat → List Nat → Prop
  | literal (l : Literal) (r : List Nat) : Value blank (.literal l) (l.text ++ r) r
  | string (k : Str) (r : List Nat) : Value blank (.string k) (quoted k r) r
  | emptyArray {s r : List Nat} : Blanks blank s (code ']' :: r) →
      Value blank (.array []) (code '[' :: s) r
  | array {items : List Tree} {s r : List Nat} : Items blank items s r →
      Value blank (.array items) (code '[' :: s) r
  | emptyObject {s r : List Nat} : Blanks blank s (code '}' :: r) →
      Value blank (.object []) (code '{' :: s) r
  | object {members : List (Str × Tree)} {s r : List Nat} : Members blank members s r →
      Value blank (.object members) (code '{' :: s) r

/-- The values of an array up to its end. -/
inductive Items (blank : Nat → Bool) : List Tree → List Nat → List Nat → Prop
  | last {t : Tree} {s s₁ s₂ r : List Nat} : Blanks blank s s₁ → Value blank t s₁ s₂ →
      Blanks blank s₂ (code ']' :: r) → Items blank [t] s r
  | more {t : Tree} {ts : List Tree} {s s₁ s₂ s₃ r : List Nat} : Blanks blank s s₁ →
      Value blank t s₁ s₂ → Blanks blank s₂ (code ',' :: s₃) → Items blank ts s₃ r →
      Items blank (t :: ts) s r

/-- The members of an object up to its end. -/
inductive Members (blank : Nat → Bool) : List (Str × Tree) → List Nat → List Nat → Prop
  | last {k : Str} {t : Tree} {s s₁ s₂ s₃ s₄ r : List Nat} : Blanks blank s (quoted k s₁) →
      Blanks blank s₁ (code ':' :: s₂) → Blanks blank s₂ s₃ → Value blank t s₃ s₄ →
      Blanks blank s₄ (code '}' :: r) → Members blank [(k, t)] s r
  | more {k : Str} {t : Tree} {ms : List (Str × Tree)} {s s₁ s₂ s₃ s₄ s₅ r : List Nat} :
      Blanks blank s (quoted k s₁) → Blanks blank s₁ (code ':' :: s₂) → Blanks blank s₂ s₃ →
      Value blank t s₃ s₄ → Blanks blank s₄ (code ',' :: s₅) → Members blank ms s₅ r →
      Members blank ((k, t) :: ms) s r

end

/-- The whole of `s` spells `t`. -/
def Text (blank : Nat → Bool) (t : Tree) (s : List Nat) : Prop :=
  ∃ s₁ s₂, Blanks blank s s₁ ∧ Value blank t s₁ s₂ ∧ Blanks blank s₂ []

end SurfaceLoom.Lib.JsonText
