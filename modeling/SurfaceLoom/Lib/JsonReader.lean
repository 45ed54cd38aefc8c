import Mathlib.Data.List.TakeWhile
import SurfaceLoom.Lib.JsonTokens

/-! # Reading JSON

A recursive-descent reader over what its callers differ in: the white space it skips, how deep
it opens containers, whether names may repeat, which strings it takes and how it finds the end
of a number. It returns a tree exactly where the text spells one that fits the policy. -/
namespace SurfaceLoom.Lib.JsonText

structure Policy where
  blank : Nat → Bool
  /-- A container may open inside this many others. -/
  room : Nat → Bool
  /-- Names may not repeat within an object. -/
  distinct : Bool
  allowed : Str → Bool
  literal : List Nat → Option (Literal × List Nat)
  blank_white : ∀ c, blank c = true → c = 0x09 ∨ c = 0x0A ∨ c = 0x0D ∨ c = 0x20
  literal_sound : ∀ {s r l}, literal s = some (l, r) → s = l.text ++ r
  literal_append : ∀ (l : Literal) {r}, Stops r → literal (l.text ++ r) = some (l, r)

/-- The names of members as they are written. -/
def names (members : List (Str × Tree)) : List (List Nat) := members.map fun m => m.1.units

namespace Policy

variable (p : Policy)

def skip (s : List Nat) : List Nat := s.dropWhile p.blank

/-- After an item: whether it was the last one, and the rest. -/
def closing (close : Char) (s : List Nat) : Option (Bool × List Nat) :=
  match expect close (p.skip s) with
  | some rest => some (true, rest)
  | none => (expect ',' (p.skip s)).map fun rest => (false, rest)

def string (s : List Nat) : Option (Str × List Nat) := do
  let rest ← expect '"' s
  let (k, rest) ← readString rest
  if p.allowed k then some (k, rest) else none

mutual

def value : Nat → Nat → List Nat → Option (Tree × List Nat)
  | 0, _, _ => none
  | fuel + 1, depth, s =>
    match p.skip s with
    | [] => none
    | c :: rest =>
      if c = code '{' then
        if p.room depth then
          match expect '}' (p.skip rest) with
          | some rest => some (.object [], rest)
          | none => do
            let (ms, rest) ← members fuel (depth + 1) [] (p.skip rest)
            return (.object ms, rest)
        else none
      else if c = code '[' then
        if p.room depth then
          match expect ']' (p.skip rest) with
          | some rest => some (.array [], rest)
          | none => do
            let (ts, rest) ← items fuel (depth + 1) (p.skip rest)
            return (.array ts, rest)
        else none
      else if c = code '"' then do
        let (k, rest) ← p.string (c :: rest)
        return (.string k, rest)
      else do
        let (l, rest) ← p.literal (c :: rest)
        return (.literal l, rest)

def items : Nat → Nat → List Nat → Option (List Tree × List Nat)
  | 0, _, _ => none
  | fuel + 1, depth, s => do
    let (t, rest) ← value fuel depth s
    let (last, rest) ← p.closing ']' rest
    if last then return ([t], rest)
    else do
      let (ts, rest) ← items fuel depth rest
      return (t :: ts, rest)

def members : Nat → Nat → List (List Nat) → List Nat → Option (List (Str × Tree) × List Nat)
  | 0, _, _, _ => none
  | fuel + 1, depth, seen, s => do
    let (k, rest) ← p.string s
    if p.distinct ∧ k.units ∈ seen then none
    else do
      let rest ← expect ':' (p.skip rest)
      let (t, rest) ← value fuel depth rest
      let (last, rest) ← p.closing '}' rest
      if last then return ([(k, t)], rest)
      else do
        let (ms, rest) ← members fuel depth (seen ++ [k.units]) (p.skip rest)
        return ((k, t) :: ms, rest)

end

def read (fuel : Nat) (s : List Nat) : Option Tree := do
  let (t, rest) ← p.value fuel 0 s
  if p.skip rest = [] then some t else none

mutual

/-- What a policy asks of a tree inside so many containers. -/
def Fits (depth : Nat) : Tree → Prop
  | .literal _ => True
  | .string k => p.allowed k = true
  | .array items => p.room depth = true ∧ FitsItems (depth + 1) items
  | .object members => p.room depth = true ∧ (p.distinct = true → (names members).Nodup) ∧
      FitsMembers (depth + 1) members

def FitsItems (depth : Nat) : List Tree → Prop
  | [] => True
  | t :: rest => Fits depth t ∧ FitsItems depth rest

def FitsMembers (depth : Nat) : List (Str × Tree) → Prop
  | [] => True
  | m :: rest => p.allowed m.1 = true ∧ Fits depth m.2 ∧ FitsMembers depth rest

end

end Policy

/-! ## White space -/

variable {p : Policy}

theorem Blanks.refl (blank : Nat → Bool) (s : List Nat) : Blanks blank s s := ⟨[], nofun, rfl⟩

theorem Blanks.trans {blank : Nat → Bool} {s t r : List Nat} (h : Blanks blank s t)
    (h' : Blanks blank t r) : Blanks blank s r := by
  obtain ⟨w, hw, rfl⟩ := h
  obtain ⟨w', hw', rfl⟩ := h'
  refine ⟨w ++ w', fun c hc => ?_, (List.append_assoc _ _ _).symm⟩
  rcases List.mem_append.mp hc with hc | hc
  · exact hw c hc
  · exact hw' c hc

theorem Blanks.length {blank : Nat → Bool} {s r : List Nat} (h : Blanks blank s r) :
    r.length ≤ s.length := by
  obtain ⟨w, -, rfl⟩ := h
  rw [List.length_append]
  exact Nat.le_add_left _ _

theorem blanks_skip (s : List Nat) : Blanks p.blank s (p.skip s) :=
  ⟨s.takeWhile p.blank, fun _ hc => List.mem_takeWhile_imp hc, List.takeWhile_append_dropWhile.symm⟩

theorem Blanks.skip {s r : List Nat} (h : Blanks p.blank s r) : p.skip s = p.skip r := by
  obtain ⟨w, hw, rfl⟩ := h
  exact List.dropWhile_append_of_pos hw

theorem skip_idem (s : List Nat) : p.skip (p.skip s) = p.skip s := (blanks_skip s).skip.symm

theorem skip_cons {c : Nat} {s : List Nat} (h : p.blank c = false) : p.skip (c :: s) = c :: s := by
  rw [Policy.skip, List.dropWhile_cons_of_neg (by simp [h])]

/-- A character that is none of the four is skipped by no policy. -/
theorem blank_eq_false {c : Nat} (h : c ≠ 0x09 ∧ c ≠ 0x0A ∧ c ≠ 0x0D ∧ c ≠ 0x20) :
    p.blank c = false := by
  cases hb : p.blank c with
  | false => rfl
  | true =>
    have hc := p.blank_white c hb
    omega

theorem Blanks.skip_cons {s r : List Nat} {c : Nat} (h : Blanks p.blank s (c :: r))
    (hc : c ≠ 0x09 ∧ c ≠ 0x0A ∧ c ≠ 0x0D ∧ c ≠ 0x20) : p.skip s = c :: r := by
  rw [h.skip, JsonText.skip_cons (blank_eq_false hc)]

/-- What follows a value ends it: white space or one of these. -/
theorem Blanks.stops {s r : List Nat} {c : Nat} (h : Blanks p.blank s (c :: r))
    (hc : Stops (c :: r)) : Stops s := by
  obtain ⟨w, hw, rfl⟩ := h
  cases w with
  | nil => exact hc
  | cons d w =>
    intro e he
    rw [← Option.some.inj he]
    rcases p.blank_white d (hw d List.mem_cons_self) with rfl | rfl | rfl | rfl <;> decide

theorem Blanks.skip_quoted {s r : List Nat} {k : Str} (h : Blanks p.blank s (quoted k r)) :
    p.skip s = quoted k r :=
  h.skip_cons (by decide)

/-- Only white space may follow at the end. -/
theorem Blanks.stops_nil {s : List Nat} (h : Blanks p.blank s []) : Stops s := by
  obtain ⟨w, hw, rfl⟩ := h
  cases w with
  | nil => exact nofun
  | cons d w =>
    intro e he
    rw [← Option.some.inj he]
    rcases p.blank_white d (hw d List.mem_cons_self) with rfl | rfl | rfl | rfl <;> decide

theorem stops_cons {c : Nat} {r : List Nat}
    (h : digit? c = none ∧ c ≠ code '.' ∧ c ≠ code 'e' ∧ c ≠ code 'E') : Stops (c :: r) := by
  intro d hd
  rw [← Option.some.inj hd]
  exact h

theorem closing_last {close : Char} {s r : List Nat} :
    p.closing close s = some (true, r) ↔ p.skip s = code close :: r := by
  rw [Policy.closing]
  cases hclosed : expect close (p.skip s) with
  | some rest =>
    rw [expect_eq_some] at hclosed
    simp [hclosed]
  | none =>
    have hne : p.skip s ≠ code close :: r := fun h => by
      rw [expect_eq_some.mpr h] at hclosed
      cases hclosed
    simp [hne]

theorem closing_more {close : Char} {s r : List Nat} (hclose : code close ≠ code ',') :
    p.closing close s = some (false, r) ↔ p.skip s = code ',' :: r := by
  rw [Policy.closing]
  cases hclosed : expect close (p.skip s) with
  | some rest =>
    rw [expect_eq_some] at hclosed
    simp [hclosed, hclose]
  | none => simp [expect_eq_some]

theorem string_eq_some {s r : List Nat} {k : Str} :
    p.string s = some (k, r) ↔ s = quoted k r ∧ p.allowed k = true := by
  simp only [Policy.string, Option.bind_eq_bind, Option.bind_eq_some_iff, expect_eq_some,
    Prod.exists, readString_eq_some, Option.ite_none_right_eq_some, Option.some.injEq,
    Prod.mk.injEq]
  constructor
  · intro h
    obtain ⟨_, rfl, _, _, rfl, hallowed, rfl, rfl⟩ := h
    exact ⟨rfl, hallowed⟩
  · intro h
    exact ⟨_, h.1, k, r, rfl, h.2, rfl, rfl⟩

theorem string_quoted {k : Str} (h : p.allowed k = true) (r : List Nat) :
    p.string (quoted k r) = some (k, r) := string_eq_some.mpr ⟨rfl, h⟩

/-! ## What is read is spelled -/

/-- The names are none of those seen before, and no two are equal. -/
def Fresh (p : Policy) (seen : List (List Nat)) (members : List (Str × Tree)) : Prop :=
  p.distinct = true → (names members).Nodup ∧ ∀ name ∈ names members, name ∉ seen

theorem fresh_cons {seen : List (List Nat)} {k : Str} {t : Tree} {ms : List (Str × Tree)} :
    Fresh p seen ((k, t) :: ms) ↔
      ¬ (p.distinct = true ∧ k.units ∈ seen) ∧ Fresh p (seen ++ [k.units]) ms := by
  cases hd : p.distinct with
  | false => simp [Fresh, hd]
  | true =>
    have hnames : names ((k, t) :: ms) = k.units :: names ms := rfl
    simp only [Fresh, hd, forall_const, true_and, hnames, List.nodup_cons, List.forall_mem_cons,
      List.mem_append, List.mem_singleton, not_or]
    constructor
    · intro h
      obtain ⟨⟨hk, hnodup⟩, hseen, hrest⟩ := h
      exact ⟨hseen, hnodup, fun name hname => ⟨hrest name hname, fun heq => hk (heq ▸ hname)⟩⟩
    · intro h
      obtain ⟨hseen, hnodup, hrest⟩ := h
      exact ⟨⟨fun hk => (hrest _ hk).2 rfl, hnodup⟩, hseen, fun name hname => (hrest name hname).1⟩

theorem Members.of_blanks {blank : Nat → Bool} {ms : List (Str × Tree)} {s s' r : List Nat}
    (hs : Blanks blank s s') (h : Members blank ms s' r) : Members blank ms s r := by
  cases h with
  | last hk hcolon hblank hvalue hclose => exact .last (hs.trans hk) hcolon hblank hvalue hclose
  | more hk hcolon hblank hvalue hcomma hrest =>
    exact .more (hs.trans hk) hcolon hblank hvalue hcomma hrest

theorem Items.of_blanks {blank : Nat → Bool} {ts : List Tree} {s s' r : List Nat}
    (hs : Blanks blank s s') (h : Items blank ts s' r) : Items blank ts s r := by
  cases h with
  | last hblank hvalue hclose => exact .last (hs.trans hblank) hvalue hclose
  | more hblank hvalue hcomma hrest => exact .more (hs.trans hblank) hvalue hcomma hrest

def ValueSound (p : Policy) (fuel : Nat) : Prop :=
  ∀ depth s t r, p.value fuel depth s = some (t, r) →
    (∃ s₁, Blanks p.blank s s₁ ∧ Value p.blank t s₁ r) ∧ p.Fits depth t

def ItemsSound (p : Policy) (fuel : Nat) : Prop :=
  ∀ depth s ts r, p.items fuel depth s = some (ts, r) →
    Items p.blank ts s r ∧ p.FitsItems depth ts

def MembersSound (p : Policy) (fuel : Nat) : Prop :=
  ∀ depth seen s ms r, p.members fuel depth seen s = some (ms, r) →
    Members p.blank ms s r ∧ p.FitsMembers depth ms ∧ Fresh p seen ms

theorem value_sound {fuel : Nat} (hitems : ItemsSound p fuel) (hmembers : MembersSound p fuel) :
    ValueSound p (fuel + 1) := by
  intro depth s t r h
  have hskip := blanks_skip (p := p) s
  rw [Policy.value] at h
  cases hs : p.skip s with
  | nil => simp [hs] at h
  | cons c rest =>
    rw [hs] at h hskip
    simp only at h
    split at h
    · rename_i hc
      split at h
      · rename_i hroom
        split at h
        · rename_i rest' hclose
          obtain ⟨rfl, rfl⟩ := Prod.mk.inj (Option.some.inj h)
          rw [expect_eq_some] at hclose
          refine ⟨⟨_, hskip, ?_⟩, hroom, fun _ => List.nodup_nil, trivial⟩
          rw [hc]
          exact .emptyObject (hclose ▸ blanks_skip rest)
        · obtain ⟨⟨ms, r'⟩, hread, heq⟩ := Option.bind_eq_some_iff.mp h
          obtain ⟨rfl, rfl⟩ := Prod.mk.inj (Option.some.inj heq)
          obtain ⟨hspelled, hfits, hfresh⟩ := hmembers _ _ _ _ _ hread
          refine ⟨⟨_, hskip, ?_⟩, hroom, fun hd => (hfresh hd).1, hfits⟩
          rw [hc]
          exact .object (hspelled.of_blanks (blanks_skip rest))
      · cases h
    · split at h
      · rename_i hc
        split at h
        · rename_i hroom
          split at h
          · rename_i rest' hclose
            obtain ⟨rfl, rfl⟩ := Prod.mk.inj (Option.some.inj h)
            rw [expect_eq_some] at hclose
            refine ⟨⟨_, hskip, ?_⟩, hroom, trivial⟩
            rw [hc]
            exact .emptyArray (hclose ▸ blanks_skip rest)
          · obtain ⟨⟨ts, r'⟩, hread, heq⟩ := Option.bind_eq_some_iff.mp h
            obtain ⟨rfl, rfl⟩ := Prod.mk.inj (Option.some.inj heq)
            obtain ⟨hspelled, hfits⟩ := hitems _ _ _ _ hread
            refine ⟨⟨_, hskip, ?_⟩, hroom, hfits⟩
            rw [hc]
            exact .array (hspelled.of_blanks (blanks_skip rest))
        · cases h
      · split at h
        · obtain ⟨⟨k, r'⟩, hread, heq⟩ := Option.bind_eq_some_iff.mp h
          obtain ⟨rfl, rfl⟩ := Prod.mk.inj (Option.some.inj heq)
          obtain ⟨hquoted, hallowed⟩ := string_eq_some.mp hread
          rw [hquoted] at hskip
          exact ⟨⟨_, hskip, .string k _⟩, hallowed⟩
        · obtain ⟨⟨l, r'⟩, hread, heq⟩ := Option.bind_eq_some_iff.mp h
          obtain ⟨rfl, rfl⟩ := Prod.mk.inj (Option.some.inj heq)
          rw [p.literal_sound hread] at hskip
          exact ⟨⟨_, hskip, .literal l _⟩, trivial⟩

theorem items_sound {fuel : Nat} (hvalue : ValueSound p fuel) (hitems : ItemsSound p fuel) :
    ItemsSound p (fuel + 1) := by
  intro depth s ts r h
  rw [Policy.items] at h
  obtain ⟨⟨t, s₂⟩, hread, h⟩ := Option.bind_eq_some_iff.mp h
  obtain ⟨⟨last, s₃⟩, hclosing, h⟩ := Option.bind_eq_some_iff.mp h
  obtain ⟨⟨s₁, hblank, hspelled⟩, hfits⟩ := hvalue _ _ _ _ hread
  have hskip := blanks_skip (p := p) s₂
  cases last with
  | true =>
    obtain ⟨rfl, rfl⟩ := Prod.mk.inj (Option.some.inj h)
    rw [closing_last.mp hclosing] at hskip
    exact ⟨.last hblank hspelled hskip, hfits, trivial⟩
  | false =>
    obtain ⟨⟨ts', r'⟩, hrest, heq⟩ := Option.bind_eq_some_iff.mp h
    obtain ⟨rfl, rfl⟩ := Prod.mk.inj (Option.some.inj heq)
    obtain ⟨hspelled', hfits'⟩ := hitems _ _ _ _ hrest
    rw [(closing_more (by decide)).mp hclosing] at hskip
    exact ⟨.more hblank hspelled hskip hspelled', hfits, hfits'⟩

theorem members_sound {fuel : Nat} (hvalue : ValueSound p fuel) (hmembers : MembersSound p fuel) :
    MembersSound p (fuel + 1) := by
  intro depth seen s ms r h
  rw [Policy.members] at h
  obtain ⟨⟨k, s₁⟩, hstring, h⟩ := Option.bind_eq_some_iff.mp h
  obtain ⟨hquoted, hallowed⟩ := string_eq_some.mp hstring
  simp only at h
  split at h
  · cases h
  · rename_i hunseen
    obtain ⟨s₂, hcolon, h⟩ := Option.bind_eq_some_iff.mp h
    obtain ⟨⟨t, s₄⟩, hread, h⟩ := Option.bind_eq_some_iff.mp h
    obtain ⟨⟨last, s₅⟩, hclosing, h⟩ := Option.bind_eq_some_iff.mp h
    obtain ⟨⟨s₃, hblank, hspelled⟩, hfits⟩ := hvalue _ _ _ _ hread
    have hskip₁ := blanks_skip (p := p) s₁
    have hskip₄ := blanks_skip (p := p) s₄
    rw [expect_eq_some.mp hcolon] at hskip₁
    have hkey : Blanks p.blank s (quoted k s₁) := hquoted ▸ Blanks.refl _ _
    cases last with
    | true =>
      obtain ⟨rfl, rfl⟩ := Prod.mk.inj (Option.some.inj h)
      rw [closing_last.mp hclosing] at hskip₄
      exact ⟨.last hkey hskip₁ hblank hspelled hskip₄, ⟨hallowed, hfits, trivial⟩,
        fresh_cons.mpr ⟨hunseen, fun _ => ⟨List.nodup_nil, nofun⟩⟩⟩
    | false =>
      obtain ⟨⟨ms', r'⟩, hrest, heq⟩ := Option.bind_eq_some_iff.mp h
      obtain ⟨rfl, rfl⟩ := Prod.mk.inj (Option.some.inj heq)
      obtain ⟨hspelled', hfits', hfresh⟩ := hmembers _ _ _ _ _ hrest
      rw [(closing_more (by decide)).mp hclosing] at hskip₄
      exact ⟨.more hkey hskip₁ hblank hspelled hskip₄ (hspelled'.of_blanks (blanks_skip s₅)),
        ⟨hallowed, hfits, hfits'⟩, fresh_cons.mpr ⟨hunseen, hfresh⟩⟩

theorem reads_sound (p : Policy) (fuel : Nat) :
    ValueSound p fuel ∧ ItemsSound p fuel ∧ MembersSound p fuel := by
  induction fuel with
  | zero => exact ⟨nofun, nofun, nofun⟩
  | succ fuel ih =>
    obtain ⟨hvalue, hitems, hmembers⟩ := ih
    exact ⟨value_sound hitems hmembers, items_sound hvalue hitems, members_sound hvalue hmembers⟩

/-! ## What is spelled is read -/

/-- A literal begins with none of the marks of another value. -/
theorem Literal.head (l : Literal) (r : List Nat) : ∃ c rest, l.text ++ r = c :: rest ∧
    (c ≠ 0x09 ∧ c ≠ 0x0A ∧ c ≠ 0x0D ∧ c ≠ 0x20) ∧
      c ≠ code '{' ∧ c ≠ code '[' ∧ c ≠ code '"' := by
  cases l with
  | null => exact ⟨code 'n', _, rfl, by decide⟩
  | bool b =>
    cases b with
    | true => exact ⟨code 't', _, rfl, by decide⟩
    | false => exact ⟨code 'f', _, rfl, by decide⟩
  | number n =>
    obtain ⟨c, rest, htext, hc⟩ := n.head r
    refine ⟨c, rest, htext, ?_⟩
    have hminus : code '-' = 45 := rfl
    have hzero : code '0' = 48 := rfl
    have hnine : code '9' = 57 := rfl
    have hbrace : code '{' = 123 := rfl
    have hbracket : code '[' = 91 := rfl
    have hquote : code '"' = 34 := rfl
    omega

theorem quoted_length (k : Str) (r : List Nat) : r.length + 2 ≤ (quoted k r).length := by
  simp [quoted, Str.text]

theorem Blanks.quoted_length {blank : Nat → Bool} {s r : List Nat} {k : Str}
    (h : Blanks blank s (quoted k r)) : r.length + 2 ≤ s.length :=
  (JsonText.quoted_length k r).trans h.length

mutual

theorem Value.length {blank : Nat → Bool} : ∀ {t : Tree} {s r : List Nat}, Value blank t s r →
    r.length < s.length
  | _, _, _, .literal l r => by
    obtain ⟨c, rest, htext, -⟩ := l.head []
    have hlen := congrArg List.length htext
    simp only [List.append_nil, List.length_cons] at hlen
    rw [List.length_append, hlen]
    omega
  | _, _, _, .string k r => by
    have hlen := quoted_length k r
    omega
  | _, _, _, .emptyArray h => by
    have hlen := h.length
    simp only [List.length_cons] at hlen ⊢
    omega
  | _, _, _, .array h => Nat.lt_succ_of_lt h.length
  | _, _, _, .emptyObject h => by
    have hlen := h.length
    simp only [List.length_cons] at hlen ⊢
    omega
  | _, _, _, .object h => Nat.lt_succ_of_lt h.length

theorem Items.length {blank : Nat → Bool} : ∀ {ts : List Tree} {s r : List Nat},
    Items blank ts s r → r.length < s.length
  | _, _, _, .last hblank hvalue hclose => by
    have h₁ := hblank.length
    have h₂ := hvalue.length
    have h₃ := hclose.length
    rw [List.length_cons] at h₃
    omega
  | _, _, _, .more hblank hvalue hcomma hrest => by
    have h₁ := hblank.length
    have h₂ := hvalue.length
    have h₃ := hcomma.length
    have h₄ := hrest.length
    rw [List.length_cons] at h₃
    omega

theorem Members.length {blank : Nat → Bool} : ∀ {ms : List (Str × Tree)} {s r : List Nat},
    Members blank ms s r → r.length < s.length
  | _, _, _, .last hkey hcolon hblank hvalue hclose => by
    have h₁ := hkey.quoted_length
    have h₃ := hcolon.length
    have h₄ := hblank.length
    have h₅ := hvalue.length
    have h₆ := hclose.length
    rw [List.length_cons] at h₃ h₆
    omega
  | _, _, _, .more hkey hcolon hblank hvalue hcomma hrest => by
    have h₁ := hkey.quoted_length
    have h₃ := hcolon.length
    have h₄ := hblank.length
    have h₅ := hvalue.length
    have h₆ := hcomma.length
    have h₇ := hrest.length
    rw [List.length_cons] at h₃ h₆
    omega

end

/-- No value begins with white space or with the end of a container. -/
theorem Value.head {blank : Nat → Bool} {t : Tree} {s r : List Nat} (h : Value blank t s r) :
    ∃ c rest, s = c :: rest ∧ c ≠ 0x09 ∧ c ≠ 0x0A ∧ c ≠ 0x0D ∧ c ≠ 0x20 := by
  cases h with
  | literal l r =>
    obtain ⟨c, rest, htext, hc, -⟩ := l.head r
    exact ⟨c, rest, htext, hc⟩
  | string => exact ⟨code '"', _, rfl, by decide⟩
  | emptyArray => exact ⟨code '[', _, rfl, by decide⟩
  | array => exact ⟨code '[', _, rfl, by decide⟩
  | emptyObject => exact ⟨code '{', _, rfl, by decide⟩
  | object => exact ⟨code '{', _, rfl, by decide⟩

theorem Value.skip {t : Tree} {s r : List Nat} (h : Value p.blank t s r) : p.skip s = s := by
  obtain ⟨c, rest, rfl, hc⟩ := h.head
  exact skip_cons (blank_eq_false hc)

/-- The values of an array do not begin with its end. -/
theorem Items.head {ts : List Tree} {s r : List Nat} (h : Items p.blank ts s r) :
    expect ']' (p.skip s) = none := by
  have hne : ∀ {t s₁ s₂}, Blanks p.blank s s₁ → Value p.blank t s₁ s₂ →
      expect ']' (p.skip s) = none := by
    intro t s₁ s₂ hblank hvalue
    rw [hblank.skip, hvalue.skip]
    cases hvalue with
    | literal l =>
      obtain ⟨c, rest, htext, -, -⟩ := l.head s₂
      have hc : c ≠ code ']' := by
        cases l with
        | null => rw [← (List.cons.inj htext).1]; decide
        | bool b => cases b <;> rw [← (List.cons.inj htext).1] <;> decide
        | number n =>
          obtain ⟨d, rest', hn, hd⟩ := n.head s₂
          have hcd : d = c := (List.cons.inj (hn.symm.trans htext)).1
          have hminus : code '-' = 45 := rfl
          have hnine : code '9' = 57 := rfl
          have hbracket : code ']' = 93 := rfl
          omega
      rw [htext, expect, if_neg hc]
    | _ => rfl
  cases h with
  | last hblank hvalue _ => exact hne hblank hvalue
  | more hblank hvalue _ _ => exact hne hblank hvalue

theorem Members.head {ms : List (Str × Tree)} {s r : List Nat} (h : Members p.blank ms s r) :
    ∃ s₁, p.skip s = s₁ ∧ expect '}' s₁ = none := by
  cases h with
  | last hkey _ _ _ _ => exact ⟨_, hkey.skip_quoted, rfl⟩
  | more hkey _ _ _ _ _ => exact ⟨_, hkey.skip_quoted, rfl⟩

theorem stops_close {c : Char} (h : c = ']' ∨ c = '}' ∨ c = ',') (r : List Nat) :
    Stops (code c :: r) := by
  rcases h with rfl | rfl | rfl <;> exact stops_cons (by decide)

mutual

theorem Value.read : ∀ {t : Tree} {s r : List Nat}, Value p.blank t s r → Stops r →
    ∀ {depth fuel : Nat}, p.Fits depth t → 2 * s.length < fuel →
      ∀ s₀ : List Nat, p.skip s₀ = p.skip s → p.value fuel depth s₀ = some (t, r)
  | _, _, _, .literal l r, hstops, depth, fuel + 1, _, _, s₀, hs₀ => by
    obtain ⟨c, rest, htext, -, hbrace, hbracket, hquote⟩ := l.head r
    have hread := p.literal_append l hstops
    rw [htext] at hread
    rw [Policy.value, hs₀, (Value.literal l r).skip, htext]
    simp only [if_neg hbrace, if_neg hbracket, if_neg hquote, hread]
    rfl
  | _, _, _, .string k r, _, depth, fuel + 1, hfits, _, s₀, hs₀ => by
    have hread := string_quoted hfits r
    rw [Policy.value, hs₀, (Value.string k r).skip, quoted]
    rw [quoted] at hread
    simp only [if_neg (show code '"' ≠ code '{' by decide),
      if_neg (show code '"' ≠ code '[' by decide), if_true, hread]
    rfl
  | _, _, _, .emptyArray hclose, _, depth, fuel + 1, hfits, _, s₀, hs₀ => by
    rw [Policy.value, hs₀, (Value.emptyArray hclose).skip]
    simp only [if_neg (show code '[' ≠ code '{' by decide), if_true, hfits.1,
      hclose.skip_cons (by decide), expect]
  | _, _, _, .array hitems, _, depth, fuel + 1, hfits, hfuel, s₀, hs₀ => by
    rw [List.length_cons] at hfuel
    have hread : p.items fuel (depth + 1) (p.skip _) = some _ :=
      hitems.read hfits.2 (by omega) _ (skip_idem _)
    rw [Policy.value, hs₀, (Value.array hitems).skip]
    simp only [if_neg (show code '[' ≠ code '{' by decide), if_true, hfits.1, hitems.head, hread]
    rfl
  | _, _, _, .emptyObject hclose, _, depth, fuel + 1, hfits, _, s₀, hs₀ => by
    rw [Policy.value, hs₀, (Value.emptyObject hclose).skip]
    simp only [if_true, hfits.1, hclose.skip_cons (by decide), expect]
  | _, _, _, .object hmembers, _, depth, fuel + 1, hfits, hfuel, s₀, hs₀ => by
    rw [List.length_cons] at hfuel
    have hread : p.members fuel (depth + 1) [] (p.skip _) = some _ :=
      hmembers.read hfits.2.2 (fun hd => ⟨hfits.2.1 hd, nofun⟩) (by omega)
    obtain ⟨s₁, hskip, hhead⟩ := hmembers.head
    rw [Policy.value, hs₀, (Value.object hmembers).skip]
    simp only [if_true, hfits.1, hread]
    rw [hskip, hhead]
    rfl

theorem Items.read : ∀ {ts : List Tree} {s r : List Nat}, Items p.blank ts s r →
    ∀ {depth fuel : Nat}, p.FitsItems depth ts → 2 * s.length + 1 < fuel →
      ∀ s₀ : List Nat, p.skip s₀ = p.skip s → p.items fuel depth s₀ = some (ts, r)
  | _, _, _, .last hblank hvalue hclose, depth, fuel + 1, hfits, hfuel, s₀, hs₀ => by
    have hlen := hblank.length
    have hread : p.value fuel depth s₀ = some _ :=
      hvalue.read (hclose.stops (stops_close (.inl rfl) _)) hfits.1 (by omega) _
        (hs₀.trans hblank.skip)
    have hclosing := closing_last.mpr (hclose.skip_cons (by decide))
    simp only [Policy.items, hread, hclosing, Option.bind_eq_bind, Option.bind_some, if_true]
    rfl
  | _, _, _, .more hblank hvalue hcomma hrest, depth, fuel + 1, hfits, hfuel, s₀, hs₀ => by
    have hlen := hblank.length
    have hlen₁ := hvalue.length
    have hlen₂ := hcomma.length
    rw [List.length_cons] at hlen₂
    have hread : p.value fuel depth s₀ = some _ :=
      hvalue.read (hcomma.stops (stops_close (.inr (.inr rfl)) _)) hfits.1 (by omega) _
        (hs₀.trans hblank.skip)
    have hclosing : p.closing ']' _ = some (false, _) :=
      (closing_more (by decide)).mpr (hcomma.skip_cons (by decide))
    have hmore : p.items fuel depth _ = some _ := hrest.read hfits.2 (by omega) _ rfl
    simp only [Policy.items, hread, hclosing, hmore, Option.bind_eq_bind, Option.bind_some,
      Bool.false_eq_true, if_false]
    rfl

theorem Members.read : ∀ {ms : List (Str × Tree)} {s r : List Nat}, Members p.blank ms s r →
    ∀ {depth fuel : Nat} {seen : List (List Nat)}, p.FitsMembers depth ms → Fresh p seen ms →
      2 * s.length + 1 < fuel → p.members fuel depth seen (p.skip s) = some (ms, r)
  | _, _, _, .last hkey hcolon hblank hvalue hclose, depth, fuel + 1, seen, hfits, hfresh,
      hfuel => by
    have hlen := hkey.quoted_length
    have hlen₁ := hcolon.length
    have hlen₂ := hblank.length
    rw [List.length_cons] at hlen₁
    have hstring := string_quoted hfits.1
    have hexpect := expect_eq_some.mpr (hcolon.skip_cons (by decide))
    have hread : p.value fuel depth _ = some _ :=
      hvalue.read (hclose.stops (stops_close (.inr (.inl rfl)) _)) hfits.2.1 (by omega) _
        hblank.skip
    have hclosing := closing_last.mpr (hclose.skip_cons (by decide))
    simp only [hkey.skip_quoted, Policy.members, hstring, hexpect, hread, hclosing,
      if_neg (fresh_cons.mp hfresh).1, Option.bind_eq_bind, Option.bind_some, if_true]
    rfl
  | _, _, _, .more hkey hcolon hblank hvalue hcomma hrest, depth, fuel + 1, seen, hfits, hfresh,
      hfuel => by
    have hlen := hkey.quoted_length
    have hlen₁ := hcolon.length
    have hlen₂ := hblank.length
    have hlen₃ := hvalue.length
    have hlen₄ := hcomma.length
    rw [List.length_cons] at hlen₁ hlen₄
    have hstring := string_quoted hfits.1
    have hexpect := expect_eq_some.mpr (hcolon.skip_cons (by decide))
    have hread : p.value fuel depth _ = some _ :=
      hvalue.read (hcomma.stops (stops_close (.inr (.inr rfl)) _)) hfits.2.1 (by omega) _
        hblank.skip
    have hclosing : p.closing '}' _ = some (false, _) :=
      (closing_more (by decide)).mpr (hcomma.skip_cons (by decide))
    have hmore : p.members fuel depth _ _ = some _ :=
      hrest.read hfits.2.2 (fresh_cons.mp hfresh).2 (by omega)
    simp only [hkey.skip_quoted, Policy.members, hstring, hexpect, hread, hclosing,
      hmore, if_neg (fresh_cons.mp hfresh).1, Option.bind_eq_bind, Option.bind_some,
      Bool.false_eq_true, if_false]
    rfl

end

/-- A reader with enough fuel returns a tree exactly if the text spells it and it fits. -/
theorem read_eq_some (p : Policy) {fuel : Nat} {s : List Nat} {t : Tree}
    (hfuel : 2 * s.length < fuel) :
    p.read fuel s = some t ↔ Text p.blank t s ∧ p.Fits 0 t := by
  constructor
  · intro h
    obtain ⟨⟨t', r⟩, hread, h⟩ := Option.bind_eq_some_iff.mp h
    obtain ⟨⟨s₁, hblank, hspelled⟩, hfits⟩ := (reads_sound p fuel).1 _ _ _ _ hread
    simp only at h
    split at h
    · rename_i hend
      rw [← Option.some.inj h]
      have hskip := blanks_skip (p := p) r
      rw [hend] at hskip
      exact ⟨⟨s₁, r, hblank, hspelled, hskip⟩, hfits⟩
    · cases h
  · intro h
    obtain ⟨⟨s₁, s₂, hblank, hspelled, hend⟩, hfits⟩ := h
    have hlen := hblank.length
    have hread : p.value fuel 0 s = some _ :=
      hspelled.read hend.stops_nil hfits (by omega) _ hblank.skip
    have hskip : p.skip s₂ = [] := hend.skip
    simp only [Policy.read, hread, Option.bind_eq_bind, Option.bind_some, hskip, if_true]

/-- A text spells at most one tree. -/
theorem Text.unique {p : Policy} {s : List Nat} {t u : Tree} (ht : Text p.blank t s)
    (hu : Text p.blank u s) (hft : p.Fits 0 t) (hfu : p.Fits 0 u) : t = u := by
  have hread := (read_eq_some p (Nat.lt_succ_self _)).mpr ⟨ht, hft⟩
  rw [(read_eq_some p (Nat.lt_succ_self _)).mpr ⟨hu, hfu⟩] at hread
  exact (Option.some.inj hread).symm

end SurfaceLoom.Lib.JsonText
