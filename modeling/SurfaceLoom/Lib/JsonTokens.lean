import SurfaceLoom.Lib.JsonText

/-! # Reading the tokens of JSON

A string is read up to its closing mark, a number as far as it goes; each reader returns what
is written and the rest, and finds what the grammar wrote. -/
namespace SurfaceLoom.Lib.JsonText

/-! ## Tokens -/

def expect (c : Char) (s : List Nat) : Option (List Nat) :=
  match s with
  | [] => none
  | x :: rest => if x = code c then some rest else none

theorem expect_eq_some {c : Char} {s r : List Nat} : expect c s = some r ↔ s = code c :: r := by
  cases s with
  | nil => simp [expect]
  | cons x rest => by_cases h : x = code c <;> simp [expect, h]

def hexDigit? (c : Nat) : Option HexDigit :=
  if h : (hexValue? c).isSome = true then some ⟨c, h⟩ else none

theorem hexDigit?_val (d : HexDigit) : hexDigit? d.val = some d := dif_pos d.property

theorem hexDigit?_eq_some {c : Nat} {d : HexDigit} : hexDigit? c = some d ↔ c = d.val := by
  constructor
  · intro h
    rw [hexDigit?] at h
    split at h
    · rw [← Option.some.inj h]
    · cases h
  · intro h
    rw [h, hexDigit?_val]

def readUnit : List Nat → Option (Item × List Nat)
  | a :: b :: c :: d :: rest => do
    let a ← hexDigit? a
    let b ← hexDigit? b
    let c ← hexDigit? c
    let d ← hexDigit? d
    return (.unit a b c d, rest)
  | _ => none

theorem readUnit_eq_some {s r : List Nat} {i : Item} :
    readUnit s = some (i, r) ↔ ∃ a b c d, i = .unit a b c d ∧
      s = a.val :: b.val :: c.val :: d.val :: r := by
  constructor
  · intro h
    unfold readUnit at h
    split at h
    · rename_i x y z w rest
      simp only [Option.bind_eq_bind, Option.bind_eq_some_iff, hexDigit?_eq_some,
        Option.pure_def, Option.some.injEq, Prod.mk.injEq] at h
      obtain ⟨a, rfl, b, rfl, c, rfl, d, rfl, rfl, rfl⟩ := h
      exact ⟨a, b, c, d, rfl, rfl⟩
    · cases h
  · intro h
    obtain ⟨a, b, c, d, rfl, rfl⟩ := h
    simp [readUnit, hexDigit?_val]

def readEscape : List Nat → Option (Item × List Nat)
  | [] => none
  | e :: rest =>
    if e = code 'u' then readUnit rest
    else (Escape.ofLetter? e).map fun e => (.short e, rest)

def readItem : List Nat → Option (Item × List Nat)
  | [] => none
  | c :: rest =>
    if c = code '\\' then readEscape rest
    else if h : c ≠ code '"' ∧ c ≠ code '\\' ∧ 0x20 ≤ c then some (.raw ⟨c, h⟩, rest)
    else none

theorem readEscape_eq_some {s r : List Nat} {i : Item} :
    readEscape s = some (i, r) ↔ code '\\' :: s = i.text ++ r ∧ ∀ c, i ≠ .raw c := by
  cases s with
  | nil =>
    refine ⟨nofun, fun h => ?_⟩
    cases i with
    | raw c => exact absurd rfl (h.2 c)
    | short e => simp [Item.text] at h
    | unit a b c d => simp [Item.text] at h
  | cons x rest =>
    by_cases hu : x = code 'u'
    · rw [readEscape, if_pos hu, readUnit_eq_some]
      constructor
      · intro h
        obtain ⟨a, b, c, d, rfl, rfl⟩ := h
        exact ⟨by rw [hu]; rfl, nofun⟩
      · intro h
        cases i with
        | raw c => exact absurd rfl (h.2 c)
        | short e =>
          have hletter := (List.cons.inj (List.cons.inj h.1).2).1
          exact absurd (hletter.symm.trans hu) e.letter_ne_u
        | unit a b c d => exact ⟨a, b, c, d, rfl, (List.cons.inj (List.cons.inj h.1).2).2⟩
    · rw [readEscape, if_neg hu, Option.map_eq_some_iff]
      constructor
      · intro h
        obtain ⟨e, he, heq⟩ := h
        obtain ⟨rfl, rfl⟩ := Prod.mk.inj heq
        rw [Escape.ofLetter?_eq_some] at he
        exact ⟨by rw [← he]; rfl, nofun⟩
      · intro h
        cases i with
        | raw c => exact absurd rfl (h.2 c)
        | short e =>
          obtain ⟨hletter, hrest⟩ := List.cons.inj (List.cons.inj h.1).2
          exact ⟨e, Escape.ofLetter?_eq_some.mpr hletter.symm, by rw [hrest]; rfl⟩
        | unit a b c d => exact absurd (List.cons.inj (List.cons.inj h.1).2).1 hu

theorem readItem_eq_some {s r : List Nat} {i : Item} :
    readItem s = some (i, r) ↔ s = i.text ++ r := by
  cases s with
  | nil =>
    refine ⟨nofun, fun h => ?_⟩
    cases i <;> simp [Item.text] at h
  | cons x rest =>
    by_cases hescape : x = code '\\'
    · rw [readItem, if_pos hescape, readEscape_eq_some, hescape]
      constructor
      · exact And.left
      · intro h
        refine ⟨h, fun c hc => ?_⟩
        rw [hc] at h
        exact c.property.2.1 (List.cons.inj h).1.symm
    · rw [readItem, if_neg hescape]
      constructor
      · intro h
        split at h
        · obtain ⟨rfl, rfl⟩ := Prod.mk.inj (Option.some.inj h)
          rfl
        · cases h
      · intro h
        cases i with
        | raw c =>
          obtain ⟨rfl, rfl⟩ := List.cons.inj h
          rw [dif_pos c.property]
        | short e => exact absurd (List.cons.inj h).1 hescape
        | unit a b c d => exact absurd (List.cons.inj h).1 hescape

/-- The characters of a string up to its closing mark. -/
def readItems : Nat → List Nat → Option (Str × List Nat)
  | 0, _ => none
  | fuel + 1, s =>
    match expect '"' s with
    | some rest => some ([], rest)
    | none => do
      let (i, rest) ← readItem s
      let (k, rest) ← readItems fuel rest
      return (i :: k, rest)

def readString (s : List Nat) : Option (Str × List Nat) := readItems s.length s

theorem Item.length_text (i : Item) : 0 < i.text.length := by
  cases i <;> exact Nat.zero_lt_succ _

theorem Item.text_ne_quote (i : Item) (s r : List Nat) : i.text ++ r ≠ code '"' :: s := by
  intro h
  cases i with
  | raw c => exact c.property.1 (List.cons.inj h).1
  | short e => exact absurd (List.cons.inj h).1 (by decide)
  | unit a b c d => exact absurd (List.cons.inj h).1 (by decide)

theorem readItems_eq_some {k : Str} : ∀ {fuel : Nat} {s r : List Nat}, s.length ≤ fuel →
    (readItems fuel s = some (k, r) ↔ s = Str.text k ++ code '"' :: r) := by
  induction k with
  | nil =>
    intro fuel s r hfuel
    cases fuel with
    | zero =>
      rw [List.length_eq_zero_iff.mp (Nat.le_zero.mp hfuel)]
      simp [readItems, Str.text]
    | succ fuel =>
      rw [readItems]
      cases hquote : expect '"' s with
      | some rest =>
        rw [expect_eq_some] at hquote
        simp [hquote, Str.text]
      | none =>
        have hne : ¬ s = code '"' :: r := fun h => by
          rw [expect_eq_some.mpr h] at hquote
          cases hquote
        simp [Str.text, hne, Option.bind_eq_some_iff]
  | cons i k ih =>
    intro fuel s r hfuel
    cases fuel with
    | zero =>
      rw [List.length_eq_zero_iff.mp (Nat.le_zero.mp hfuel)]
      refine ⟨nofun, fun h => ?_⟩
      cases i <;> simp [Str.text, Item.text] at h
    | succ fuel =>
      have htext : Str.text (i :: k) ++ code '"' :: r = i.text ++ (Str.text k ++ code '"' :: r) := by
        simp [Str.text]
      rw [readItems, htext]
      cases hquote : expect '"' s with
      | some rest =>
        rw [expect_eq_some] at hquote
        refine ⟨nofun, fun h => ?_⟩
        exact absurd (h.symm.trans hquote) (i.text_ne_quote _ _)
      | none =>
        simp only [Option.bind_eq_bind, Option.bind_eq_some_iff, Option.pure_def,
          Option.some.injEq, Prod.mk.injEq, Prod.exists, readItem_eq_some, List.cons.injEq]
        constructor
        · intro h
          obtain ⟨i', rest, hs, k', rest', hk, ⟨rfl, rfl⟩, rfl⟩ := h
          have hlen : rest.length ≤ fuel := by
            have hle := i'.length_text
            rw [hs, List.length_append] at hfuel
            omega
          rw [hs, (ih hlen).mp hk]
        · intro h
          have hlen : (Str.text k ++ code '"' :: r).length ≤ fuel := by
            have hle := i.length_text
            rw [h, List.length_append] at hfuel
            omega
          exact ⟨i, _, h, k, r, (ih hlen).mpr rfl, ⟨rfl, rfl⟩, rfl⟩

theorem readString_eq_some {k : Str} {s r : List Nat} :
    readString s = some (k, r) ↔ s = Str.text k ++ code '"' :: r :=
  readItems_eq_some Nat.le.refl

/-! ## Numbers -/

def digit? (c : Nat) : Option Digit :=
  if h : code '0' ≤ c ∧ c < code '0' + 10 then some ⟨c - code '0', by omega⟩ else none

theorem digit?_char (d : Digit) : digit? d.char = some d := by
  have hd := d.isLt
  rw [digit?, dif_pos ⟨Nat.le_add_right _ _, Nat.add_lt_add_left hd _⟩]
  exact congrArg some (Fin.ext (Nat.add_sub_cancel_left _ _))

theorem digit?_eq_some {c : Nat} {d : Digit} : digit? c = some d ↔ c = d.char := by
  constructor
  · intro h
    rw [digit?] at h
    split at h
    · rename_i hc
      rw [← Option.some.inj h, Digit.char]
      exact (Nat.add_sub_cancel' hc.1).symm
    · cases h
  · intro h
    rw [h, digit?_char]

/-- No digit comes next. -/
def NoDigit (s : List Nat) : Prop := ∀ c ∈ s.head?, digit? c = none

def readDigits : List Nat → List Digit × List Nat
  | [] => ([], [])
  | c :: rest =>
    match digit? c with
    | some d => (d :: (readDigits rest).1, (readDigits rest).2)
    | none => ([], c :: rest)

theorem readDigits_sound (s : List Nat) :
    s = (readDigits s).1.map Digit.char ++ (readDigits s).2 := by
  induction s with
  | nil => rfl
  | cons c rest ih =>
    rw [readDigits]
    cases hd : digit? c with
    | none => rfl
    | some d =>
      rw [digit?_eq_some] at hd
      simp only [List.map_cons, List.cons_append, ← ih, hd]

theorem readDigits_append (ds : List Digit) {r : List Nat} (hr : NoDigit r) :
    readDigits (ds.map Digit.char ++ r) = (ds, r) := by
  induction ds with
  | nil =>
    cases r with
    | nil => rfl
    | cons c rest =>
      have hc := hr c rfl
      simp [readDigits, hc]
  | cons d ds ih => simp [readDigits, digit?_char, ih]

/-- At least one digit. -/
def readSomeDigits : List Nat → Option (Digits × List Nat)
  | [] => none
  | c :: rest => (digit? c).map fun d => ((d, (readDigits rest).1), (readDigits rest).2)

theorem readSomeDigits_sound {s r : List Nat} {ds : Digits}
    (h : readSomeDigits s = some (ds, r)) : s = ds.text ++ r := by
  cases s with
  | nil => cases h
  | cons c rest =>
    obtain ⟨d, hd, heq⟩ := Option.map_eq_some_iff.mp h
    obtain ⟨rfl, rfl⟩ := Prod.mk.inj heq
    rw [digit?_eq_some] at hd
    simp only [Digits.text, List.map_cons, List.cons_append, ← readDigits_sound, hd]

theorem readSomeDigits_append (ds : Digits) {r : List Nat} (hr : NoDigit r) :
    readSomeDigits (ds.text ++ r) = some (ds, r) := by
  simp only [Digits.text, List.map_cons, List.cons_append, readSomeDigits, digit?_char,
    readDigits_append ds.2 hr, Option.map_some]

/-- A digit that may lead others. -/
def leadDigit? (c : Nat) : Option (Fin 9) :=
  if h : code '1' ≤ c ∧ c < code '1' + 9 then some ⟨c - code '1', by omega⟩ else none

theorem leadDigit?_add (d : Fin 9) : leadDigit? (code '1' + d.val) = some d := by
  have hd := d.isLt
  rw [leadDigit?, dif_pos ⟨Nat.le_add_right _ _, Nat.add_lt_add_left hd _⟩]
  exact congrArg some (Fin.ext (Nat.add_sub_cancel_left _ _))

theorem leadDigit?_eq_some {c : Nat} {d : Fin 9} :
    leadDigit? c = some d ↔ c = code '1' + d.val := by
  constructor
  · intro h
    rw [leadDigit?] at h
    split at h
    · rename_i hc
      rw [← Option.some.inj h]
      exact (Nat.add_sub_cancel' hc.1).symm
    · cases h
  · intro h
    rw [h, leadDigit?_add]

def readWhole : List Nat → Option (Whole × List Nat)
  | [] => none
  | c :: rest =>
    if c = code '0' then some (.zero, rest)
    else (leadDigit? c).map fun d => (.lead d (readDigits rest).1, (readDigits rest).2)

theorem readWhole_sound {s r : List Nat} {w : Whole} (h : readWhole s = some (w, r)) :
    s = w.text ++ r := by
  cases s with
  | nil => cases h
  | cons c rest =>
    rw [readWhole] at h
    split at h
    · rename_i hc
      obtain ⟨rfl, rfl⟩ := Prod.mk.inj (Option.some.inj h)
      rw [hc]
      rfl
    · obtain ⟨d, hd, heq⟩ := Option.map_eq_some_iff.mp h
      obtain ⟨rfl, rfl⟩ := Prod.mk.inj heq
      rw [leadDigit?_eq_some] at hd
      simp only [Whole.text, List.cons_append, ← readDigits_sound, hd]

theorem readWhole_append (w : Whole) {r : List Nat} (hr : NoDigit r) :
    readWhole (w.text ++ r) = some (w, r) := by
  cases w with
  | zero => rfl
  | lead d ds =>
    have hne : ¬ code '1' + d.val = code '0' := by
      have hlt : code '0' < code '1' := by decide
      omega
    simp only [Whole.text, List.cons_append, readWhole, if_neg hne, leadDigit?_add,
      readDigits_append ds hr, Option.map_some]

def readFraction : List Nat → Option (Digits × List Nat)
  | [] => none
  | c :: rest => if c = code '.' then readSomeDigits rest else none

def readSign : List Nat → Option Bool × List Nat
  | [] => (none, [])
  | c :: rest =>
    if c = code '+' then (some false, rest)
    else if c = code '-' then (some true, rest)
    else (none, c :: rest)

theorem readSign_sound (s : List Nat) : s = signText (readSign s).1 ++ (readSign s).2 := by
  cases s with
  | nil => rfl
  | cons c rest =>
    rw [readSign]
    split
    · rename_i hc
      rw [hc]
      rfl
    · split
      · rename_i hc
        rw [hc]
        rfl
      · rfl

theorem Digit.char_ne {c : Char} (hc : digit? (code c) = none) (d : Digit) : d.char ≠ code c := by
  intro h
  rw [← h, digit?_char] at hc
  cases hc

theorem readSign_append (sign : Option Bool) (ds : Digits) (r : List Nat) :
    readSign (signText sign ++ (ds.text ++ r)) = (sign, ds.text ++ r) := by
  cases sign with
  | none =>
    have hplus := Digit.char_ne (show digit? (code '+') = none from rfl) ds.1
    have hminus := Digit.char_ne (show digit? (code '-') = none from rfl) ds.1
    simp [signText, Digits.text, readSign, hplus, hminus]
  | some minus => cases minus <;> rfl

def readExponent : List Nat → Option (Exponent × List Nat)
  | [] => none
  | c :: rest =>
    if c = code 'e' ∨ c = code 'E' then
      (readSomeDigits (readSign rest).2).map fun read =>
        (⟨c = code 'E', (readSign rest).1, read.1⟩, read.2)
    else none

theorem readExponent_sound {s r : List Nat} {e : Exponent} (h : readExponent s = some (e, r)) :
    s = e.text ++ r := by
  cases s with
  | nil => cases h
  | cons c rest =>
    rw [readExponent] at h
    split at h
    · rename_i hc
      obtain ⟨⟨ds, r'⟩, hds, heq⟩ := Option.map_eq_some_iff.mp h
      obtain ⟨rfl, rfl⟩ := Prod.mk.inj heq
      have hrest := readSign_sound rest
      rw [readSomeDigits_sound hds] at hrest
      rw [Exponent.text, List.cons_append, List.append_assoc, ← hrest]
      rcases hc with hc | hc <;> rw [hc] <;> rfl
    · cases h

theorem readExponent_append (e : Exponent) {r : List Nat} (hr : NoDigit r) :
    readExponent (e.text ++ r) = some (e, r) := by
  obtain ⟨capital, sign, ds⟩ := e
  rw [Exponent.text, List.cons_append, List.append_assoc]
  cases capital <;>
    simp [readExponent, readSign_append, readSomeDigits_append ds hr, show code 'e' ≠ code 'E' by
      decide]

/-- A part that may be missing. -/
def optionally {α : Type} (part : List Nat → Option (α × List Nat)) (s : List Nat) :
    Option α × List Nat :=
  match part s with
  | some read => (some read.1, read.2)
  | none => (none, s)

/-- The longest number a text begins with. -/
def readUnsigned (minus : Bool) (s : List Nat) : Option (NumberText × List Nat) :=
  (readWhole s).map fun whole =>
    let fraction := optionally readFraction whole.2
    let exponent := optionally readExponent fraction.2
    (⟨minus, whole.1, fraction.1, exponent.1⟩, exponent.2)

def readNumber : List Nat → Option (NumberText × List Nat)
  | [] => none
  | c :: rest => if c = code '-' then readUnsigned true rest else readUnsigned false (c :: rest)

theorem optionally_fraction_sound (s : List Nat) : s =
    NumberText.fractionText (optionally readFraction s).1 ++ (optionally readFraction s).2 := by
  rw [optionally]
  cases h : readFraction s with
  | none => rfl
  | some read =>
    cases s with
    | nil => cases h
    | cons c rest =>
      rw [readFraction] at h
      split at h
      · rename_i hc
        rw [hc, readSomeDigits_sound h]
        rfl
      · cases h

theorem optionally_exponent_sound (s : List Nat) : s =
    NumberText.exponentText (optionally readExponent s).1 ++ (optionally readExponent s).2 := by
  rw [optionally]
  cases h : readExponent s with
  | none => rfl
  | some read => exact readExponent_sound h

theorem readUnsigned_sound {minus : Bool} {s r : List Nat} {n : NumberText}
    (h : readUnsigned minus s = some (n, r)) :
    (if minus then [code '-'] else []) ++ s = n.text ++ r := by
  obtain ⟨⟨whole, rest⟩, hwhole, heq⟩ := Option.map_eq_some_iff.mp h
  obtain ⟨rfl, rfl⟩ := Prod.mk.inj heq
  rw [NumberText.text, List.append_assoc, List.append_assoc, List.append_assoc,
    ← optionally_exponent_sound, ← optionally_fraction_sound, ← readWhole_sound hwhole]

theorem readNumber_sound {s r : List Nat} {n : NumberText} (h : readNumber s = some (n, r)) :
    s = n.text ++ r := by
  cases s with
  | nil => cases h
  | cons c rest =>
    rw [readNumber] at h
    split at h
    · rename_i hc
      rw [hc]
      exact readUnsigned_sound h
    · exact readUnsigned_sound h

/-- Nothing that comes next could belong to a number. -/
def Stops (r : List Nat) : Prop :=
  ∀ c ∈ r.head?, digit? c = none ∧ c ≠ code '.' ∧ c ≠ code 'e' ∧ c ≠ code 'E'

theorem Stops.noDigit {r : List Nat} (h : Stops r) : NoDigit r := fun c hc => (h c hc).1

theorem Stops.exponent {r : List Nat} (h : Stops r) (e : Option Exponent) :
    optionally readExponent (NumberText.exponentText e ++ r) = (e, r) := by
  cases e with
  | some e =>
    rw [optionally, NumberText.exponentText, readExponent_append e h.noDigit]
  | none =>
    cases r with
    | nil => rfl
    | cons c rest =>
      obtain ⟨-, -, hlower, hupper⟩ := h c rfl
      simp [optionally, NumberText.exponentText, readExponent, hlower, hupper]

theorem Stops.noDigit_exponent {r : List Nat} (h : Stops r) (e : Option Exponent) :
    NoDigit (NumberText.exponentText e ++ r) := by
  cases e with
  | none => exact h.noDigit
  | some e =>
    intro c hc
    rw [← Option.some.inj hc]
    cases e.capital <;> rfl

theorem Stops.fraction {r : List Nat} (h : Stops r) (f : Option Digits) (e : Option Exponent) :
    optionally readFraction (NumberText.fractionText f ++ (NumberText.exponentText e ++ r)) =
      (f, NumberText.exponentText e ++ r) := by
  cases f with
  | some ds =>
    simp only [optionally, NumberText.fractionText, List.cons_append, readFraction, if_true,
      readSomeDigits_append ds (h.noDigit_exponent e)]
  | none =>
    have hpoint : ∀ c ∈ (NumberText.exponentText e ++ r).head?, c ≠ code '.' := by
      cases e with
      | none => exact fun c hc => (h c hc).2.1
      | some e =>
        intro c hc
        rw [← Option.some.inj hc]
        cases e.capital <;> decide
    rw [optionally, NumberText.fractionText, List.nil_append]
    cases hr : NumberText.exponentText e ++ r with
    | nil => rfl
    | cons c rest =>
      rw [hr] at hpoint
      simp [readFraction, hpoint c rfl]

theorem Stops.noDigit_fraction {r : List Nat} (h : Stops r) (f : Option Digits)
    (e : Option Exponent) :
    NoDigit (NumberText.fractionText f ++ (NumberText.exponentText e ++ r)) := by
  cases f with
  | none => exact h.noDigit_exponent e
  | some ds =>
    intro c hc
    rw [← Option.some.inj hc]
    rfl

theorem readUnsigned_append (minus : Bool) (w : Whole) (f : Option Digits) (e : Option Exponent)
    {r : List Nat} (h : Stops r) :
    readUnsigned minus (w.text ++ (NumberText.fractionText f ++ (NumberText.exponentText e ++ r))) =
      some (⟨minus, w, f, e⟩, r) := by
  simp only [readUnsigned, readWhole_append w (h.noDigit_fraction f e), Option.map_some,
    h.fraction f e, h.exponent e]

theorem readNumber_append (n : NumberText) {r : List Nat} (h : Stops r) :
    readNumber (n.text ++ r) = some (n, r) := by
  obtain ⟨minus, w, f, e⟩ := n
  have hread := readUnsigned_append minus w f e h
  simp only [NumberText.text, List.append_assoc]
  cases minus with
  | true => exact hread
  | false =>
    cases w with
    | zero => exact hread
    | lead d ds =>
      have hne : ¬ code '1' + d.val = code '-' := by
        have hlt : code '-' < code '1' := by decide
        omega
      simpa only [Bool.false_eq_true, if_false, List.nil_append, Whole.text, List.cons_append,
        readNumber, if_neg hne] using hread

/-! ## Literals -/

def readWord (word : String) (s : List Nat) : Option (List Nat) :=
  if codes word <+: s then some (s.drop (codes word).length) else none

theorem readWord_eq_some {word : String} {s r : List Nat} :
    readWord word s = some r ↔ s = codes word ++ r := by
  constructor
  · intro h
    rw [readWord] at h
    split at h
    · rename_i hword
      obtain ⟨t, rfl⟩ := hword
      rw [← Option.some.inj h, List.drop_left]
    · cases h
  · intro h
    rw [h, readWord, if_pos (List.prefix_append _ _), List.drop_left]

theorem readWord_eq_none {word : String} {s : List Nat} (h : (codes word).head? ≠ s.head?)
    (hword : word ≠ "") : readWord word s = none := by
  cases hread : readWord word s with
  | none => rfl
  | some r =>
    rw [readWord_eq_some] at hread
    cases hcodes : codes word with
    | nil =>
      rw [codes, List.map_eq_nil_iff] at hcodes
      exact absurd (String.toList_eq_nil_iff.mp hcodes) hword
    | cons c rest =>
      rw [hread, hcodes] at h
      exact absurd rfl h

/-- The three words, and then the numbers. -/
def readLiteral (s : List Nat) : Option (Literal × List Nat) :=
  match readWord "true" s with
  | some rest => some (.bool true, rest)
  | none =>
    match readWord "false" s with
    | some rest => some (.bool false, rest)
    | none =>
      match readWord "null" s with
      | some rest => some (.null, rest)
      | none => (readNumber s).map fun read => (.number read.1, read.2)

theorem readLiteral_sound {s r : List Nat} {l : Literal} (h : readLiteral s = some (l, r)) :
    s = l.text ++ r := by
  rw [readLiteral] at h
  split at h
  · rename_i hword
    obtain ⟨rfl, rfl⟩ := Prod.mk.inj (Option.some.inj h)
    exact readWord_eq_some.mp hword
  · split at h
    · rename_i hword
      obtain ⟨rfl, rfl⟩ := Prod.mk.inj (Option.some.inj h)
      exact readWord_eq_some.mp hword
    · split at h
      · rename_i hword
        obtain ⟨rfl, rfl⟩ := Prod.mk.inj (Option.some.inj h)
        exact readWord_eq_some.mp hword
      · obtain ⟨⟨n, rest⟩, hn, heq⟩ := Option.map_eq_some_iff.mp h
        obtain ⟨rfl, rfl⟩ := Prod.mk.inj heq
        exact readNumber_sound hn

/-- A number begins with a minus or a digit. -/
theorem NumberText.head (n : NumberText) (r : List Nat) :
    ∃ c rest, n.text ++ r = c :: rest ∧ (c = code '-' ∨ code '0' ≤ c ∧ c ≤ code '9') := by
  obtain ⟨minus, w, f, e⟩ := n
  cases minus with
  | true => exact ⟨code '-', _, rfl, .inl rfl⟩
  | false =>
    cases w with
    | zero => exact ⟨code '0', _, rfl, .inr (by decide)⟩
    | lead d ds =>
      refine ⟨code '1' + d.val, _, rfl, .inr ?_⟩
      have hd := d.isLt
      have hzero : code '0' ≤ code '1' := by decide
      have hnine : code '1' + 9 = code '9' + 1 := rfl
      omega

theorem readLiteral_append (l : Literal) {r : List Nat} (h : Stops r) :
    readLiteral (l.text ++ r) = some (l, r) := by
  cases l with
  | null => rfl
  | bool b => cases b <;> rfl
  | number n =>
    obtain ⟨c, rest, htext, hc⟩ := n.head r
    have hne : ∀ word : String, word ≠ "" →
        (∀ d ∈ (codes word).head?, code '9' < d) → readWord word (n.text ++ r) = none := by
      intro word hword hhead
      refine readWord_eq_none (fun heq => ?_) hword
      rw [htext] at heq
      have hlt := hhead c heq
      have hminus : code '-' < code '9' := by decide
      omega
    rw [Literal.text, readLiteral, hne "true" (by decide) (by decide), hne "false" (by decide) (by decide),
      hne "null" (by decide) (by decide)]
    simp only [readNumber_append n h, Option.map_some]

end SurfaceLoom.Lib.JsonText
