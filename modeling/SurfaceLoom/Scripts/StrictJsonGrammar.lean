import Mathlib.Algebra.Order.Ring.Rat
import Mathlib.Data.Nat.Cast.Order.Basic
import SurfaceLoom.Scripts.StrictJson

/-! # What the release tools' JSON parser accepts

The parser is the reader of a policy that asks for distinct names, with two conditions more:
how many containers a value stands inside of, and that its numbers are finite. -/
namespace SurfaceLoom.Scripts.StrictJson
open SurfaceLoom.Lib SurfaceLoom.Lib.JsonText

/-- The grammar, and names that do not repeat. -/
def once : Policy := { lenient with distinct := true }

theorem skip_eq (s : Text) : skip s = once.skip s := rfl

mutual

theorem fits_once : ∀ (t : Tree) (depth : Nat), once.Fits depth t ↔ t.Distinct
  | .literal _, _ => Iff.rfl
  | .string _, _ => ⟨fun _ => trivial, fun _ => rfl⟩
  | .array items, depth => (and_iff_right rfl).trans (fitsItems_once items (depth + 1))
  | .object members, depth => by
    refine (and_iff_right rfl).trans ?_
    rw [fitsMembers_once members (depth + 1)]
    exact and_congr_left fun _ => ⟨fun h => h rfl, fun h _ => h⟩

theorem fitsItems_once : ∀ (ts : List Tree) (depth : Nat),
    once.FitsItems depth ts ↔ Tree.DistinctItems ts
  | [], _ => Iff.rfl
  | t :: rest, depth => and_congr (fits_once t depth) (fitsItems_once rest depth)

theorem fitsMembers_once : ∀ (ms : List (Str × Tree)) (depth : Nat),
    once.FitsMembers depth ms ↔ Tree.DistinctMembers ms
  | [], _ => Iff.rfl
  | m :: rest, depth =>
    (and_iff_right rfl).trans (and_congr (fits_once m.2 depth) (fitsMembers_once rest depth))

end

theorem toOption_bind {α β : Type} (x : Parse α) (f : α → Parse β) :
    (x >>= f).toOption = x.toOption.bind fun a => (f a).toOption := by
  cases x <;> rfl

theorem toOption_map {α β : Type} (x : Parse α) (f : α → β) :
    (x.map f).toOption = x.toOption.map f := by
  cases x <;> rfl

/-! ## Strings -/

theorem escape_eq (s : Text) : (escape s).toOption = (readEscape s).map Prod.snd := by
  cases s with
  | nil => rfl
  | cons c rest =>
    rw [escape, readEscape]
    by_cases hu : c = code 'u'
    · rw [if_pos hu, if_pos hu]
      cases readUnit rest <;> rfl
    · rw [if_neg hu, if_neg hu]
      by_cases hc : c ∈ codes "\"\\/bfnrt"
      · rw [if_pos hc]
        cases hletter : Escape.ofLetter? c with
        | some e => rfl
        | none =>
          have hall : ∀ e : Escape, code e.letter ≠ c := by
            intro e he
            rw [Escape.ofLetter?_eq_some.mpr he] at hletter
            cases hletter
          have hin : ∃ e : Escape, code e.letter = c := by
            have hcodes : codes "\"\\/bfnrt" = Escape.all.map fun e => code e.letter := by decide
            rw [hcodes, List.mem_map] at hc
            obtain ⟨e, -, he⟩ := hc
            exact ⟨e, he⟩
          obtain ⟨e, he⟩ := hin
          exact absurd he (hall e)
      · rw [if_neg hc]
        cases hletter : Escape.ofLetter? c with
        | none => rfl
        | some e =>
          rw [Escape.ofLetter?_eq_some] at hletter
          have hin : ∀ e : Escape, code e.letter ∈ codes "\"\\/bfnrt" := by
            intro e
            cases e <;> decide
          exact absurd (hletter ▸ hin e) hc

theorem stringEnd_eq (fuel : Nat) : ∀ s : Text,
    (stringEnd fuel s).toOption = (readItems fuel s).map Prod.snd := by
  induction fuel with
  | zero => exact fun s => rfl
  | succ fuel ih =>
    intro s
    cases s with
    | nil => rfl
    | cons c rest =>
      rw [stringEnd, readItems, expect]
      by_cases hquote : c = code '"'
      · rw [if_pos hquote, if_pos hquote]
        rfl
      · rw [if_neg hquote, if_neg hquote, readItem]
        by_cases hescape : c = code '\\'
        · have hcontrol : ¬ c < 0x20 := by
            rw [hescape]
            decide
          rw [if_neg hcontrol, if_pos hescape, if_pos hescape, toOption_bind, escape_eq]
          cases readEscape rest with
          | none => rfl
          | some read =>
            simp only [Option.map_some, Option.bind_some, ih, Option.bind_eq_bind]
            cases readItems fuel read.2 <;> rfl
        · by_cases hcontrol : c < 0x20
          · rw [if_pos hcontrol, if_neg hescape, dif_neg fun h => absurd hcontrol (Nat.not_lt.mpr h.2.2)]
            rfl
          · rw [if_neg hcontrol, if_neg hescape, if_neg hescape,
              dif_pos ⟨hquote, hescape, Nat.not_lt.mp hcontrol⟩, ih]
            simp only [Option.bind_eq_bind, Option.bind_some]
            cases readItems fuel rest <;> rfl

/-- `JSON.parse` makes of a string's token what the string is. -/
theorem parseString_eq (s : Text) :
    (parseString s).toOption = (once.string s).map fun read => (read.1.units, read.2) := by
  rw [parseString, Policy.string]
  cases hquote : expect '"' s with
  | none => rfl
  | some rest =>
    rw [expect_eq_some] at hquote
    simp only [toOption_bind, stringEnd_eq, Option.bind_eq_bind, Option.bind_some]
    rw [show readItems rest.length rest = readString rest from rfl]
    cases hread : readString rest with
    | none => rfl
    | some read =>
      obtain ⟨k, left⟩ := read
      rw [readString_eq_some] at hread
      have hsplit : s = quoted k [] ++ left := by
        rw [hquote, hread]
        simp [quoted]
      have htoken : s.take (s.length - left.length) = quoted k [] := by
        rw [hsplit, List.length_append, Nat.add_sub_cancel, List.take_left]
      have hallowed : once.allowed k = true := rfl
      simp only [Option.map_some, Option.bind_some, htoken, decoded, parse_quoted, hallowed, if_true]
      rfl

/-! ## What the parser asks of a tree -/

section Conditions

variable {ν : Type} (number : NumberText → ν) (isFinite : ν → Bool) (maxDepth : Option ℚ)

theorem exceeds_max (depth m n : Nat) : exceeds maxDepth (depth + max m n) =
    (exceeds maxDepth (depth + m) || exceeds maxDepth (depth + n)) := by
  cases maxDepth with
  | none => rfl
  | some limit =>
    rw [Bool.eq_iff_iff, Bool.or_eq_true]
    simp only [exceeds, decide_eq_true_eq]
    rcases le_total m n with h | h
    · rw [max_eq_right h]
      have hle : ((depth + m : Nat) : ℚ) ≤ (depth + n : Nat) := Nat.cast_le.mpr (by omega)
      exact ⟨.inr, fun hor => hor.elim (fun hlt => hlt.trans_le hle) id⟩
    · rw [max_eq_left h]
      have hle : ((depth + n : Nat) : ℚ) ≤ (depth + m : Nat) := Nat.cast_le.mpr (by omega)
      exact ⟨.inl, fun hor => hor.elim id fun hlt => hlt.trans_le hle⟩

theorem exceeds_add {depth : Nat} (n : Nat) (h : exceeds maxDepth depth = true) :
    exceeds maxDepth (depth + n) = true := by
  have hmax := exceeds_max maxDepth depth 0 n
  rw [Nat.zero_max] at hmax
  rw [hmax, Nat.add_zero, h, Bool.true_or]

/-- A value inside so many containers: what stands in it is not too deep, its numbers are finite. -/
def Accepts (depth : Nat) (t : Tree) : Prop :=
  exceeds maxDepth (depth + t.reach) = false ∧ ∀ n ∈ t.numbers, isFinite (number n) = true

instance (depth : Nat) (t : Tree) : Decidable (Accepts number isFinite maxDepth depth t) :=
  inferInstanceAs (Decidable (_ ∧ _))

variable {number isFinite maxDepth}

theorem Accepts.shallow {depth : Nat} {t : Tree} (h : Accepts number isFinite maxDepth depth t) :
    exceeds maxDepth depth = false := by
  rw [Bool.eq_false_iff]
  intro hdeep
  rw [Accepts, exceeds_add maxDepth _ hdeep] at h
  cases h.1

theorem accepts_items (depth : Nat) : ∀ items : List Tree,
    (exceeds maxDepth (depth + Tree.itemsReach items) = false ∧
      ∀ n ∈ Tree.itemsNumbers items, isFinite (number n) = true) ↔
    exceeds maxDepth depth = false ∧ ∀ t ∈ items, Accepts number isFinite maxDepth (depth + 1) t
  | [] => by simp [Tree.itemsReach, Tree.itemsNumbers]
  | t :: rest => by
    have hrest := accepts_items depth rest
    have hdepth : depth + (t.reach + 1) = depth + 1 + t.reach := by omega
    simp only [Tree.itemsReach, Tree.itemsNumbers, exceeds_max, Bool.or_eq_false_iff,
      List.forall_mem_append, List.forall_mem_cons, hdepth]
    constructor
    · intro h
      obtain ⟨⟨hreach, hreach'⟩, hnumbers, hnumbers'⟩ := h
      obtain ⟨hshallow, hall⟩ := hrest.mp ⟨hreach', hnumbers'⟩
      exact ⟨hshallow, ⟨hreach, hnumbers⟩, hall⟩
    · intro h
      obtain ⟨hshallow, ⟨hreach, hnumbers⟩, hall⟩ := h
      obtain ⟨hreach', hnumbers'⟩ := hrest.mpr ⟨hshallow, hall⟩
      exact ⟨⟨hreach, hreach'⟩, hnumbers, hnumbers'⟩

theorem members_reach : ∀ members : List (Str × Tree),
    Tree.membersReach members = Tree.itemsReach (members.map Prod.snd)
  | [] => rfl
  | m :: rest => congrArg (max (m.2.reach + 1)) (members_reach rest)

theorem members_numbers : ∀ members : List (Str × Tree),
    Tree.membersNumbers members = Tree.itemsNumbers (members.map Prod.snd)
  | [] => rfl
  | m :: rest => congrArg (m.2.numbers ++ ·) (members_numbers rest)

theorem accepts_array {depth : Nat} {items : List Tree} :
    Accepts number isFinite maxDepth depth (.array items) ↔
      exceeds maxDepth depth = false ∧
        ∀ t ∈ items, Accepts number isFinite maxDepth (depth + 1) t :=
  accepts_items depth items

theorem accepts_object {depth : Nat} {members : List (Str × Tree)} :
    Accepts number isFinite maxDepth depth (.object members) ↔
      exceeds maxDepth depth = false ∧
        ∀ t ∈ members.map Prod.snd, Accepts number isFinite maxDepth (depth + 1) t := by
  rw [← accepts_items, ← members_reach, ← members_numbers]
  rfl

theorem accepts_leaf {depth : Nat} {t : Tree} (hreach : t.reach = 0) :
    Accepts number isFinite maxDepth depth t ↔
      exceeds maxDepth depth = false ∧ ∀ n ∈ t.numbers, isFinite (number n) = true := by
  rw [Accepts, hreach, Nat.add_zero]

end Conditions

/-! ## The parser is the reader -/

section Reading

variable {ν : Type} (number : NumberText → ν) (isFinite : ν → Bool) (maxDepth : Option ℚ)

theorem parseLiteral_eq (size : Nat) (s : Text) :
    (parseLiteral number isFinite size s).toOption = (readLiteral s).bind fun read =>
      if read.1.numbers.all (fun n => isFinite (number n)) then
        some (Tree.literalValue number read.1, read.2)
      else none := by
  rw [parseLiteral, literals, readLiteral, readWord, readWord, readWord]
  by_cases htrue : codes "true" <+: s
  · simp [htrue, Except.toOption, Literal.numbers, Tree.literalValue]
  · by_cases hfalse : codes "false" <+: s
    · simp [htrue, hfalse, Except.toOption, Literal.numbers, Tree.literalValue]
    · by_cases hnull : codes "null" <+: s
      · simp [htrue, hfalse, hnull, Except.toOption, Literal.numbers, Tree.literalValue]
      · simp only [List.find?_cons, htrue, hfalse, hnull, decide_false, List.find?_nil, if_false]
        cases readNumber s with
        | none => rfl
        | some read =>
          simp only [Option.map_some, Option.bind_some, Literal.numbers, List.all_cons, List.all_nil,
            Bool.and_true, Tree.literalValue]
          by_cases hfinite : isFinite (number read.1) = true
          · rw [if_pos hfinite, if_pos hfinite]
            rfl
          · rw [if_neg hfinite, if_neg hfinite]
            rfl

theorem separator_eq (close : Char) (errorCode message : String) (s : Text) :
    (separator close errorCode message s).toOption = once.closing close s := by
  rw [separator, Policy.closing, skip_eq]
  cases expect close (once.skip s) with
  | some rest => rfl
  | none => cases expect ',' (once.skip s) <;> rfl

theorem colon_eq (s : Text) : (colon s).toOption = expect ':' (once.skip s) := by
  rw [colon, skip_eq]
  cases expect ':' (once.skip s) <;> rfl

/-- The parser's functions are those of the reader, with the conditions on what was read. -/
structure Agrees (size fuel : Nat) : Prop where
  value : ∀ depth s, (parseValue number isFinite maxDepth size fuel depth s).toOption =
    (once.value fuel depth s).bind fun read =>
      if Accepts number isFinite maxDepth depth read.1 then some (read.1.plain number, read.2)
      else none
  members : ∀ depth output s,
    (parseMembers number isFinite maxDepth size fuel depth output s).toOption =
      (once.members fuel depth (output.map Prod.fst) (once.skip s)).bind fun read =>
        if ∀ t ∈ read.1.map Prod.snd, Accepts number isFinite maxDepth depth t then
          some (output ++ Tree.plainMembers number read.1, read.2)
        else none
  items : ∀ depth s, (parseItems number isFinite maxDepth size fuel depth s).toOption =
    (once.items fuel depth s).bind fun read =>
      if ∀ t ∈ read.1, Accepts number isFinite maxDepth depth t then
        some (Tree.plainItems number read.1, read.2)
      else none

variable {number isFinite maxDepth}

theorem Agrees.items_succ {size fuel : Nat} (h : Agrees number isFinite maxDepth size fuel)
    (depth : Nat) (s : Text) :
    (parseItems number isFinite maxDepth size (fuel + 1) depth s).toOption =
      (once.items (fuel + 1) depth s).bind fun read =>
        if ∀ t ∈ read.1, Accepts number isFinite maxDepth depth t then
          some (Tree.plainItems number read.1, read.2)
        else none := by
  rw [parseItems, Policy.items, toOption_bind, h.value]
  cases once.value fuel depth s with
  | none => rfl
  | some read =>
    obtain ⟨t, rest⟩ := read
    simp only [Option.bind_some, Option.bind_eq_bind]
    by_cases haccepts : Accepts number isFinite maxDepth depth t
    · simp only [if_pos haccepts, Option.bind_some, toOption_bind, separator_eq]
      cases once.closing ']' rest with
      | none => rfl
      | some closed =>
        obtain ⟨last, rest⟩ := closed
        cases last with
        | true => simp [Except.toOption, haccepts, Tree.plainItems]
        | false =>
          simp only [Option.bind_some, Bool.false_eq_true, if_false, toOption_bind, h.items]
          cases once.items fuel depth rest with
          | none => rfl
          | some read =>
            simp only [Option.bind_some, Option.pure_def, List.forall_mem_cons, haccepts, true_and,
              Tree.plainItems]
            by_cases hall : ∀ t ∈ read.1, Accepts number isFinite maxDepth depth t
            · rw [if_pos hall, if_pos hall]
              rfl
            · rw [if_neg hall, if_neg hall]
              rfl
    · rw [if_neg haccepts]
      cases once.closing ']' rest with
      | none => rfl
      | some closed =>
        obtain ⟨last, rest⟩ := closed
        cases last with
        | true => simp [haccepts]
        | false =>
          simp only [Option.bind_some, Bool.false_eq_true, if_false]
          cases once.items fuel depth rest <;> simp [haccepts]

theorem Agrees.members_succ {size fuel : Nat} (h : Agrees number isFinite maxDepth size fuel)
    (depth : Nat) (output : Properties ν) (s : Text) :
    (parseMembers number isFinite maxDepth size (fuel + 1) depth output s).toOption =
      (once.members (fuel + 1) depth (output.map Prod.fst) (once.skip s)).bind fun read =>
        if ∀ t ∈ read.1.map Prod.snd, Accepts number isFinite maxDepth depth t then
          some (output ++ Tree.plainMembers number read.1, read.2)
        else none := by
  rw [parseMembers, Policy.members, toOption_bind, skip_eq, parseString_eq]
  cases once.string (once.skip s) with
  | none => rfl
  | some read =>
    obtain ⟨k, rest⟩ := read
    have hdistinct : once.distinct = true := rfl
    simp only [Option.map_some, Option.bind_some, Option.bind_eq_bind, hdistinct, true_and]
    by_cases hseen : k.units ∈ output.map Prod.fst
    · rw [if_pos hseen, if_pos hseen]
      rfl
    · rw [if_neg hseen, if_neg hseen]
      simp only [toOption_bind, colon_eq]
      cases expect ':' (once.skip rest) with
      | none => rfl
      | some rest =>
        simp only [Option.bind_some, h.value]
        cases once.value fuel depth rest with
        | none => rfl
        | some read =>
          obtain ⟨t, rest⟩ := read
          simp only [Option.bind_some]
          by_cases haccepts : Accepts number isFinite maxDepth depth t
          · simp only [if_pos haccepts, Option.bind_some, separator_eq,
              OrderedMap.upsert_of_notMem hseen]
            cases once.closing '}' rest with
            | none => rfl
            | some closed =>
              obtain ⟨last, rest⟩ := closed
              cases last with
              | true => simp [Except.toOption, haccepts, Tree.plainMembers]
              | false =>
                simp only [Option.bind_some, Bool.false_eq_true, if_false, h.members,
                  List.map_append, List.map_cons, List.map_nil]
                cases once.members fuel depth (output.map Prod.fst ++ [k.units]) (once.skip rest) with
                | none => rfl
                | some read =>
                  simp only [Option.bind_some, Option.pure_def, List.map_cons,
                    List.forall_mem_cons, haccepts, true_and, Tree.plainMembers,
                    List.append_assoc, List.cons_append, List.nil_append]
          · rw [if_neg haccepts]
            cases once.closing '}' rest with
            | none => rfl
            | some closed =>
              obtain ⟨last, rest⟩ := closed
              cases last with
              | true => simp [haccepts]
              | false =>
                simp only [Option.bind_some, Bool.false_eq_true, if_false]
                cases once.members fuel depth (output.map Prod.fst ++ [k.units]) (once.skip rest) <;>
                  simp [haccepts]

theorem opened_eq {α : Type} {close : Char} {empty : α} {loop : Text → Parse (α × Text)} (s : Text) :
    (opened close empty loop s).toOption =
      match expect close (once.skip s) with
      | some rest => some (empty, rest)
      | none => (loop (once.skip s)).toOption := by
  rw [opened, skip_eq]
  cases expect close (once.skip s) <;> rfl

theorem Agrees.value_succ {size fuel : Nat} (h : Agrees number isFinite maxDepth size fuel)
    (depth : Nat) (s : Text) :
    (parseValue number isFinite maxDepth size (fuel + 1) depth s).toOption =
      (once.value (fuel + 1) depth s).bind fun read =>
        if Accepts number isFinite maxDepth depth read.1 then some (read.1.plain number, read.2)
        else none := by
  rw [parseValue]
  by_cases hdeep : exceeds maxDepth depth = true
  · have hnone : ∀ t, ¬ Accepts number isFinite maxDepth depth t := by
      intro t haccepts
      rw [haccepts.shallow] at hdeep
      cases hdeep
    rw [if_pos hdeep]
    simp only [hnone, if_false, Option.bind_fun_none]
    rfl
  · have hshallow := Bool.eq_false_iff.mpr hdeep
    rw [if_neg hdeep, Policy.value, skip_eq]
    cases once.skip s with
    | nil =>
      simp only [parseLiteral_eq]
      rfl
    | cons c rest =>
      have hroom : once.room depth = true := rfl
      simp only [hroom, if_true]
      by_cases hquote : c = code '"'
      · have hbrace : c ≠ code '{' := hquote ▸ by decide
        have hbracket : c ≠ code '[' := hquote ▸ by decide
        rw [if_pos hquote, if_neg hbrace, if_neg hbracket, if_pos hquote, toOption_map, parseString_eq]
        cases once.string (c :: rest) with
        | none => rfl
        | some read =>
          have haccepts : Accepts number isFinite maxDepth depth (.string read.1) :=
            (accepts_leaf rfl).mpr ⟨hshallow, fun _ hmem => absurd hmem List.not_mem_nil⟩
          simp only [Option.map_some, Option.bind_eq_bind, Option.bind_some, Option.pure_def,
            if_pos haccepts]
          rfl
      · rw [if_neg hquote, if_neg hquote]
        by_cases hbrace : c = code '{'
        · rw [if_pos hbrace, if_pos hbrace, toOption_map, opened_eq]
          cases expect '}' (once.skip rest) with
          | some rest =>
            have haccepts : Accepts number isFinite maxDepth depth (.object []) :=
              accepts_object.mpr ⟨hshallow, fun _ hmem => absurd hmem List.not_mem_nil⟩
            simp only [Option.map_some, Option.bind_some, if_pos haccepts]
            rfl
          | none =>
            simp only [h.members, List.map_nil, skip_idem]
            cases once.members fuel (depth + 1) [] (once.skip rest) with
            | none => rfl
            | some read =>
              simp only [Option.bind_some, Option.bind_eq_bind, Option.pure_def, accepts_object,
                hshallow, true_and, List.nil_append]
              by_cases hall : ∀ t ∈ read.1.map Prod.snd,
                  Accepts number isFinite maxDepth (depth + 1) t
              · rw [if_pos hall, if_pos hall]
                rfl
              · rw [if_neg hall, if_neg hall]
                rfl
        · rw [if_neg hbrace, if_neg hbrace]
          by_cases hbracket : c = code '['
          · rw [if_pos hbracket, if_pos hbracket, toOption_map, opened_eq]
            cases expect ']' (once.skip rest) with
            | some rest =>
              have haccepts : Accepts number isFinite maxDepth depth (.array []) :=
                accepts_array.mpr ⟨hshallow, fun _ hmem => absurd hmem List.not_mem_nil⟩
              simp only [Option.map_some, Option.bind_some, if_pos haccepts]
              rfl
            | none =>
              simp only [h.items]
              cases once.items fuel (depth + 1) (once.skip rest) with
              | none => rfl
              | some read =>
                simp only [Option.bind_some, Option.bind_eq_bind, Option.pure_def, accepts_array,
                  hshallow, true_and]
                by_cases hall : ∀ t ∈ read.1, Accepts number isFinite maxDepth (depth + 1) t
                · rw [if_pos hall, if_pos hall]
                  rfl
                · rw [if_neg hall, if_neg hall]
                  rfl
          · rw [if_neg hbracket, if_neg hbracket, parseLiteral_eq]
            have hliteral : once.literal (c :: rest) = readLiteral (c :: rest) := rfl
            rw [hliteral]
            cases readLiteral (c :: rest) with
            | none => rfl
            | some read =>
              have haccepts : Accepts number isFinite maxDepth depth (.literal read.1) ↔
                  (read.1.numbers.all fun n => isFinite (number n)) = true := by
                rw [accepts_leaf rfl, and_iff_right hshallow, List.all_eq_true]
                rfl
              simp only [Option.bind_some, Option.bind_eq_bind, Option.pure_def, haccepts]
              rfl

theorem agrees (size fuel : Nat) : Agrees number isFinite maxDepth size fuel := by
  induction fuel with
  | zero => exact ⟨fun _ _ => rfl, fun _ _ _ => rfl, fun _ _ => rfl⟩
  | succ fuel ih => exact ⟨ih.value_succ, ih.members_succ, ih.items_succ⟩

end Reading

/-! ## Texts -/

section Texts

variable {ν : Type} (number : NumberText → ν) (isFinite : ν → Bool)

/-- A strict text, read so that no value stands inside more than `maxDepth` containers. -/
def StrictText (maxDepth : Option ℚ) (text : Text) (t : Tree) : Prop :=
  JsonText.Text isWhite t text ∧ t.Distinct ∧ (∀ n ∈ t.numbers, isFinite (number n) = true) ∧
    exceeds maxDepth t.reach = false

theorem parseStrictJson_ok {text : Text} {maxDepth : Option ℚ} {v : JsValue ν} :
    parseStrictJson number isFinite text maxDepth = .ok v ↔
      ∃ t, StrictText number isFinite maxDepth text t ∧ t.plain number = v := by
  have hread : ∀ t : Tree, once.read (2 * text.length + 1) text = some t ↔
      JsonText.Text isWhite t text ∧ t.Distinct := by
    intro t
    rw [read_eq_some once (Nat.lt_succ_self _), fits_once]
    rfl
  have hparse : (parseStrictJson number isFinite text maxDepth).toOption =
      (once.read (2 * text.length + 1) text).bind fun t =>
        if Accepts number isFinite maxDepth 0 t then some (t.plain number) else none := by
    rw [parseStrictJson, toOption_bind, (agrees _ _).value, Policy.read]
    cases once.value (2 * text.length + 1) 0 text with
    | none => rfl
    | some read =>
      simp only [Option.bind_some, Option.bind_eq_bind, skip_eq]
      by_cases haccepts : Accepts number isFinite maxDepth 0 read.1
      · by_cases hend : once.skip read.2 = []
        · simp [haccepts, hend, Except.toOption]
        · simp [haccepts, hend, Except.toOption, fail]
      · by_cases hend : once.skip read.2 = [] <;> simp [haccepts, hend]
  have hok : parseStrictJson number isFinite text maxDepth = .ok v ↔
      (parseStrictJson number isFinite text maxDepth).toOption = some v := by
    cases parseStrictJson number isFinite text maxDepth <;> simp [Except.toOption]
  rw [hok, hparse, Option.bind_eq_some_iff]
  refine exists_congr fun t => ?_
  rw [hread, Option.ite_none_right_eq_some, Option.some.injEq, Accepts, Nat.zero_add]
  constructor
  · intro h
    obtain ⟨⟨htext, hdistinct⟩, ⟨hreach, hfinite⟩, hvalue⟩ := h
    exact ⟨⟨htext, hdistinct, hfinite, hreach⟩, hvalue⟩
  · intro h
    obtain ⟨⟨htext, hdistinct, hfinite, hreach⟩, hvalue⟩ := h
    exact ⟨⟨htext, hdistinct⟩, ⟨hreach, hfinite⟩, hvalue⟩

/-- The parser returns exactly on strict texts, and what `JSON.parse` returns. -/
theorem parseStrictJson_exact (text : Text) (maxDepth : Option ℚ) :
    ((∃ v, parseStrictJson number isFinite text maxDepth = .ok v) ↔
      ∃ t, StrictText number isFinite maxDepth text t) ∧
    ∀ v, parseStrictJson number isFinite text maxDepth = .ok v →
      JsonText.parse number text = some v := by
  constructor
  · constructor
    · intro h
      obtain ⟨v, hv⟩ := h
      obtain ⟨t, ht, -⟩ := (parseStrictJson_ok number isFinite).mp hv
      exact ⟨t, ht⟩
    · intro h
      obtain ⟨t, ht⟩ := h
      exact ⟨_, (parseStrictJson_ok number isFinite).mpr ⟨t, ht, rfl⟩⟩
  · intro v hv
    obtain ⟨t, ht, rfl⟩ := (parseStrictJson_ok number isFinite).mp hv
    exact parse_eq_some.mpr ⟨t, ht.1, value_of_distinct number ht.2.1⟩

end Texts

/-- An empty container may open inside `maxDepth` others. -/
theorem parseStrictJson_emptyContainer : ¬ ∀ (text : Text) (maxDepth : Option ℚ),
    (∃ v, parseStrictJson (fun _ => ()) (fun _ => true) text maxDepth = .ok v) ↔
      ∃ t : Tree, JsonText.Text isWhite t text ∧ t.Distinct ∧
        exceeds maxDepth t.height = false := by
  intro h
  have hread : once.read (2 * (codes "[[]]").length + 1) (codes "[[]]") =
      some (.array [.array []]) := by rfl
  have hreturns : ∃ v, parseStrictJson (fun _ => ()) (fun _ => true) (codes "[[]]") (some 1) =
      .ok v := by
    refine ⟨.array [.array []], (parseStrictJson_ok _ _).mpr ⟨.array [.array []], ?_, rfl⟩⟩
    rw [read_eq_some once (Nat.lt_succ_self _), fits_once] at hread
    exact ⟨hread.1, hread.2, fun _ _ => rfl, by decide⟩
  obtain ⟨t, htext, hdistinct, hheight⟩ := (h _ _).mp hreturns
  have hsame := (read_eq_some once (Nat.lt_succ_self _)).mpr ⟨htext, (fits_once t 0).mpr hdistinct⟩
  rw [hread] at hsame
  rw [← Option.some.inj hsame] at hheight
  exact absurd hheight (by decide)

end SurfaceLoom.Scripts.StrictJson
