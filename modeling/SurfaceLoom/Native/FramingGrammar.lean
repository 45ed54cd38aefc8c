import SurfaceLoom.Lib.Checked
import SurfaceLoom.Native.Framing

/-! # The scanner accepts strict JSON

Each part of the scanner is the part of the reader of one policy, and the reader is exact. -/
namespace SurfaceLoom.Native.Framing
open SurfaceLoom.Lib SurfaceLoom.Lib.JsonText

/-! ## Literals -/

theorem isDigit_iff {c : Nat} : isDigit c = (digit? c).isSome := by
  have hnine : code '9' + 1 = code '0' + 10 := rfl
  rw [isDigit, digit?]
  split
  · rename_i h
    simp [h.1, show c ≤ code '9' by omega]
  · rename_i h
    by_cases hc : code '0' ≤ c
    · simp [hc, show ¬ c ≤ code '9' by omega]
    · simp [hc]

theorem dropWhile_isDigit (s : List CodeUnit) : s.dropWhile isDigit = (readDigits s).2 := by
  induction s with
  | nil => rfl
  | cons c rest ih =>
    rw [List.dropWhile_cons, isDigit_iff, readDigits]
    cases digit? c with
    | none => rfl
    | some d => exact ih

theorem digits_eq (s : List CodeUnit) : digits s = (readSomeDigits s).map Prod.snd := by
  cases s with
  | nil => rfl
  | cons c rest =>
    rw [digits, readSomeDigits, isDigit_iff, dropWhile_isDigit]
    cases digit? c <;> rfl

theorem integerPart_eq (s : List Nat) : integerPart s = (readWhole s).map Prod.snd := by
  cases s with
  | nil => rfl
  | cons c rest =>
    rw [integerPart, readWhole]
    split
    · rfl
    · have hnine : code '9' + 1 = code '1' + 9 := rfl
      rw [leadDigit?, dropWhile_isDigit]
      by_cases hc : code '1' ≤ c ∧ c ≤ code '9'
      · rw [if_pos hc, dif_pos ⟨hc.1, by omega⟩]
        rfl
      · rw [if_neg hc, dif_neg fun h => hc ⟨h.1, by omega⟩]
        rfl

theorem fractionPart_eq (s : List CodeUnit) : fractionPart s = (optionally readFraction s).2 := by
  cases s with
  | nil => rfl
  | cons c rest =>
    rw [fractionPart, optionally, readFraction]
    split
    · rw [digits_eq]
      cases readSomeDigits rest <;> rfl
    · rfl

theorem signPart_eq (s : List CodeUnit) : signPart s = (readSign s).2 := by
  cases s with
  | nil => rfl
  | cons c rest =>
    rw [signPart, readSign]
    by_cases hplus : c = code '+'
    · rw [if_pos (.inl hplus), if_pos hplus]
    · by_cases hminus : c = code '-'
      · rw [if_pos (.inr hminus), if_neg hplus, if_pos hminus]
      · rw [if_neg (fun h => h.elim hplus hminus), if_neg hplus, if_neg hminus]

theorem exponentPart_eq (s : List CodeUnit) : exponentPart s = (optionally readExponent s).2 := by
  cases s with
  | nil => rfl
  | cons c rest =>
    rw [exponentPart, optionally, readExponent]
    split
    · rw [digits_eq, signPart_eq]
      cases readSomeDigits (readSign rest).2 <;> rfl
    · rfl

theorem readUnsigned_rest (minus : Bool) (s : List CodeUnit) :
    (readUnsigned minus s).map Prod.snd =
      (integerPart s).map fun rest => exponentPart (fractionPart rest) := by
  rw [readUnsigned, integerPart_eq]
  cases readWhole s with
  | none => rfl
  | some whole => simp [exponentPart_eq, fractionPart_eq]

theorem numberPattern_eq (s : List CodeUnit) : numberPattern s = (readNumber s).map Prod.snd := by
  cases s with
  | nil => rfl
  | cons c rest =>
    rw [numberPattern, readNumber]
    by_cases hminus : c = code '-'
    · simp only [if_pos hminus, readUnsigned_rest]
    · simp only [if_neg hminus, readUnsigned_rest]

theorem literalPattern_eq (s : List CodeUnit) :
    literalPattern s = (readLiteral s).map Prod.snd := by
  rw [literalPattern, readLiteral, readWord, readWord, readWord]
  split
  · rfl
  · split
    · rfl
    · split
      · rfl
      · rw [numberPattern_eq]
        cases readNumber s <;> rfl

/-! ## Strings -/

theorem hexDigits_quad (a b c d : HexDigit) (r : List CodeUnit) :
    hexDigits (a.val :: b.val :: c.val :: d.val :: r) =
      some (quadValue a.value b.value c.value d.value, r) := by
  have hvalue : ∀ e : HexDigit, hexValue? e.val = some e.value :=
    fun e => hexValue?_eq_some.mpr ⟨e, rfl, rfl⟩
  simp [hexDigits, hvalue]

theorem hexDigits_eq_some {s r : List CodeUnit} {n : Nat} :
    hexDigits s = some (n, r) ↔ ∃ a b c d : HexDigit,
      s = a.val :: b.val :: c.val :: d.val :: r ∧ n = quadValue a.value b.value c.value d.value := by
  constructor
  · intro h
    unfold hexDigits at h
    split at h
    · simp only [Option.bind_eq_bind, Option.bind_eq_some_iff, hexValue?_eq_some,
        Option.pure_def, Option.some.injEq, Prod.mk.injEq] at h
      obtain ⟨_, ⟨a, rfl, rfl⟩, _, ⟨b, rfl, rfl⟩, _, ⟨c, rfl, rfl⟩, _, ⟨d, rfl, rfl⟩, rfl, rfl⟩ := h
      exact ⟨a, b, c, d, rfl, rfl⟩
    · cases h
  · intro h
    obtain ⟨a, b, c, d, rfl, rfl⟩ := h
    exact hexDigits_quad a b c d r

theorem unicodeEscape_ok {s r : List CodeUnit} : unicodeEscape s = .ok r ↔
    ∃ chunk, Chunk chunk ∧ code '\\' :: code 'u' :: s = Str.text chunk ++ r := by
  constructor
  · intro h
    unfold unicodeEscape at h
    split at h
    · cases h
    · rename_i first rest hfirst
      obtain ⟨a, b, c, d, rfl, rfl⟩ := hexDigits_eq_some.mp hfirst
      cases hhigh : isHigh (quadValue a.value b.value c.value d.value) with
      | true =>
        simp only [hhigh, if_true] at h
        split at h
        · rename_i backslash u digits
          split at h
          · cases h
          · rename_i hmarks
            obtain ⟨rfl, rfl⟩ : backslash = code '\\' ∧ u = code 'u' := by
              simpa [not_or] using hmarks
            split at h
            · cases h
            · rename_i second rest' hsecond
              obtain ⟨a', b', c', d', rfl, rfl⟩ := hexDigits_eq_some.mp hsecond
              split at h
              · rename_i hlow
                cases h
                exact ⟨_, .unitPair hhigh hlow, rfl⟩
              · cases h
        · cases h
      | false =>
        cases hlow : isLow (quadValue a.value b.value c.value d.value) with
        | true => simp [hhigh, hlow, invalidJson] at h
        | false =>
          simp only [hhigh, hlow, Bool.false_eq_true, if_false] at h
          cases h
          exact ⟨_, .unit hhigh hlow, rfl⟩
  · intro h
    obtain ⟨chunk, hchunk, htext⟩ := h
    cases hchunk with
    | @raw c _ _ => exact absurd (List.cons.inj htext).1.symm c.property.2.1
    | @rawPair c _ _ _ => exact absurd (List.cons.inj htext).1.symm c.property.2.1
    | short e => exact absurd (List.cons.inj (List.cons.inj htext).2).1.symm e.letter_ne_u
    | unit hhigh hlow =>
      obtain rfl : s = _ :: _ :: _ :: _ :: r := by simpa [Str.text, Item.text] using htext
      simp [unicodeEscape, hexDigits_quad, hhigh, hlow]
    | unitPair hhigh hlow =>
      obtain rfl : s = _ :: _ :: _ :: _ :: code '\\' :: code 'u' :: _ :: _ :: _ :: _ :: r := by
        simpa [Str.text, Item.text] using htext
      simp [unicodeEscape, hexDigits_quad, hhigh, hlow]

theorem letter_mem {c : CodeUnit} : c ∈ codes "\"\\/bfnrt" ↔ ∃ e : Escape, code e.letter = c := by
  have hletters : codes "\"\\/bfnrt" = Escape.all.map fun e => code e.letter := rfl
  have hall : ∀ e : Escape, e ∈ Escape.all := by
    intro e
    cases e <;> decide
  simp [hletters, hall]

theorem escape_ok {s r : List CodeUnit} : escape s = .ok r ↔
    ∃ chunk, Chunk chunk ∧ code '\\' :: s = Str.text chunk ++ r := by
  cases s with
  | nil =>
    refine ⟨nofun, fun h => ?_⟩
    obtain ⟨chunk, hchunk, htext⟩ := h
    cases hchunk with
    | @raw c _ _ => exact absurd (List.cons.inj htext).1.symm c.property.2.1
    | @rawPair c _ _ _ => exact absurd (List.cons.inj htext).1.symm c.property.2.1
    | short e => cases htext
    | unit => cases htext
    | unitPair => cases htext
  | cons c rest =>
    rw [escape]
    by_cases hu : c = code 'u'
    · rw [if_pos hu, unicodeEscape_ok, hu]
    · rw [if_neg hu]
      constructor
      · intro h
        split at h
        · rename_i hletter
          obtain ⟨e, rfl⟩ := letter_mem.mp hletter
          cases h
          exact ⟨_, .short e, rfl⟩
        · cases h
      · intro h
        obtain ⟨chunk, hchunk, htext⟩ := h
        cases hchunk with
        | @raw c _ _ => exact absurd (List.cons.inj htext).1.symm c.property.2.1
        | @rawPair c _ _ _ => exact absurd (List.cons.inj htext).1.symm c.property.2.1
        | short e =>
          obtain ⟨rfl, rfl⟩ := List.cons.inj (List.cons.inj htext).2
          rw [if_pos (letter_mem.mpr ⟨e, rfl⟩)]
        | unit => exact absurd (List.cons.inj (List.cons.inj htext).2).1 hu
        | unitPair => exact absurd (List.cons.inj (List.cons.inj htext).2).1 hu

theorem low_plain {c : Nat} (h : isLow c = true) :
    c ≠ code '"' ∧ c ≠ code '\\' ∧ 0x20 ≤ c := by
  have hquote : code '"' = 34 := rfl
  have hescape : code '\\' = 92 := rfl
  simp only [isLow, Bool.and_eq_true, decide_eq_true_eq] at h
  omega

theorem plainCharacter_ok {c : CodeUnit} {s r : List CodeUnit} (hquote : c ≠ code '"')
    (hescape : c ≠ code '\\') : plainCharacter c s = .ok r ↔
      ∃ chunk, Chunk chunk ∧ c :: s = Str.text chunk ++ r := by
  constructor
  · intro h
    rw [plainCharacter.eq_def] at h
    split at h
    · cases h
    · rename_i hcontrol
      have hplain : c ≠ code '"' ∧ c ≠ code '\\' ∧ 0x20 ≤ c :=
        ⟨hquote, hescape, Nat.not_lt.mp hcontrol⟩
      split at h
      · rename_i hhigh
        split at h
        · cases h
        · rename_i second rest
          split at h
          · rename_i hlow
            cases h
            exact ⟨_, .rawPair (c := ⟨c, hplain⟩) (d := ⟨second, low_plain hlow⟩) hhigh hlow, rfl⟩
          · cases h
      · rename_i hhigh
        split at h
        · cases h
        · rename_i hlow
          cases h
          exact ⟨_, .raw (c := ⟨c, hplain⟩) (Bool.not_eq_true _ ▸ hhigh)
            (Bool.not_eq_true _ ▸ hlow), rfl⟩
  · intro h
    obtain ⟨chunk, hchunk, htext⟩ := h
    cases hchunk with
    | @raw d hhigh hlow =>
      obtain ⟨rfl, rfl⟩ := List.cons.inj htext
      simp [plainCharacter, Nat.not_lt.mpr d.property.2.2, hhigh, hlow]
    | @rawPair d e hhigh hlow =>
      obtain ⟨rfl, hrest⟩ := List.cons.inj htext
      obtain rfl : s = e.val :: r := hrest
      simp [plainCharacter, Nat.not_lt.mpr d.property.2.2, hhigh, hlow]
    | short e => exact absurd (List.cons.inj htext).1 hescape
    | unit => exact absurd (List.cons.inj htext).1 hescape
    | unitPair => exact absurd (List.cons.inj htext).1 hescape

theorem chunk_length {chunk : Str} (h : Chunk chunk) : 0 < (Str.text chunk).length := by
  cases h <;> simp [Str.text, Item.text]

/-- No chunk begins with a quotation mark. -/
theorem chunk_head {chunk : Str} (h : Chunk chunk) (s r : List CodeUnit) :
    Str.text chunk ++ r ≠ code '"' :: s := by
  intro heq
  cases h with
  | @raw c _ _ => exact c.property.1 (List.cons.inj heq).1
  | @rawPair c _ _ _ => exact c.property.1 (List.cons.inj heq).1
  | short e => exact absurd (List.cons.inj heq).1 (by decide)
  | unit => exact absurd (List.cons.inj heq).1 (by decide)
  | unitPair => exact absurd (List.cons.inj heq).1 (by decide)

theorem stringStep_ok {c : CodeUnit} {s r : List CodeUnit} (hquote : c ≠ code '"') :
    stringStep c s = .ok r ↔ ∃ chunk, Chunk chunk ∧ c :: s = Str.text chunk ++ r := by
  rw [stringStep]
  split
  · rename_i hescape
    rw [escape_ok, hescape]
  · rename_i hescape
    exact plainCharacter_ok hquote hescape

/-- The loop ends after the characters of a paired string. -/
theorem stringCharacters_ok : ∀ {fuel : Nat} {s r : List CodeUnit}, s.length ≤ fuel →
    (stringCharacters fuel s = .ok r ↔
      ∃ k : Str, paired k = true ∧ s = Str.text k ++ code '"' :: r) := by
  intro fuel
  induction fuel with
  | zero =>
    intro s r hfuel
    rw [List.length_eq_zero_iff.mp (Nat.le_zero.mp hfuel)]
    refine ⟨nofun, fun h => ?_⟩
    obtain ⟨k, -, htext⟩ := h
    simp at htext
  | succ fuel ih =>
    intro s r hfuel
    cases s with
    | nil =>
      refine ⟨nofun, fun h => ?_⟩
      obtain ⟨k, -, htext⟩ := h
      simp at htext
    | cons c rest =>
      rw [stringCharacters]
      by_cases hquote : c = code '"'
      · rw [if_pos hquote]
        constructor
        · intro h
          cases h
          exact ⟨[], rfl, by rw [hquote]; rfl⟩
        · intro h
          obtain ⟨k, hk, htext⟩ := h
          rcases paired_cases hk with rfl | ⟨chunk, k', hchunk, rfl, -⟩
          · rw [(List.cons.inj htext).2]
          · rw [hquote, Str.text_append, List.append_assoc] at htext
            exact absurd htext.symm (chunk_head hchunk _ _)
      · rw [if_neg hquote]
        rw [Checked.bind_ok]
        constructor
        · intro h
          obtain ⟨rest', hstep, hloop⟩ := h
          obtain ⟨chunk, hchunk, htext⟩ := (stringStep_ok hquote).mp hstep
          have hlen := congrArg List.length htext
          have hpos := chunk_length hchunk
          rw [List.length_append, List.length_cons] at hlen
          rw [List.length_cons] at hfuel
          obtain ⟨k, hk, rfl⟩ := (ih (by omega)).mp hloop
          refine ⟨chunk ++ k, (hchunk.paired_append k).trans hk, ?_⟩
          rw [htext, Str.text_append, List.append_assoc]
        · intro h
          obtain ⟨k, hk, htext⟩ := h
          rcases paired_cases hk with rfl | ⟨chunk, k', hchunk, rfl, hk'⟩
          · exact absurd (List.cons.inj htext).1 hquote
          · rw [Str.text_append, List.append_assoc] at htext
            have hlen := congrArg List.length htext
            have hpos := chunk_length hchunk
            rw [List.length_append, List.length_cons] at hlen
            rw [List.length_cons] at hfuel
            exact ⟨_, (stringStep_ok hquote).mpr ⟨chunk, hchunk, htext⟩,
              (ih (by omega)).mpr ⟨k', hk', rfl⟩⟩

/-- `JSON.parse` makes of a token the string it spells. -/
theorem parseToken_quoted (k : Str) : parseToken (quoted k []) = .ok k.units := by
  rw [parseToken, JsonText.parse_quoted]

theorem stringToken_ok {s r key : List CodeUnit} : stringToken s = .ok (key, r) ↔
    ∃ k : Str, paired k = true ∧ s = quoted k r ∧ key = k.units := by
  cases s with
  | nil =>
    refine ⟨nofun, fun h => ?_⟩
    obtain ⟨k, -, htext, -⟩ := h
    cases htext
  | cons quote characters =>
    have htoken : ∀ k : Str, (quoted k r).take ((quoted k r).length - r.length) = quoted k [] := by
      intro k
      have hsplit : quoted k r = quoted k [] ++ r := by simp [quoted]
      rw [hsplit, List.length_append, Nat.add_sub_cancel, List.take_left]
    rw [stringToken]
    by_cases hquote : quote = code '"'
    · rw [if_neg (not_not.mpr hquote), Checked.bind_ok]
      constructor
      · intro h
        obtain ⟨rest, hloop, h⟩ := h
        obtain ⟨key', hkey, heq⟩ := Checked.bind_ok.mp h
        obtain ⟨rfl, rfl⟩ := Prod.mk.inj (Except.ok.inj heq)
        obtain ⟨k, hk, rfl⟩ := (stringCharacters_ok Nat.le.refl).mp hloop
        have hs : quote :: (Str.text k ++ code '"' :: rest) = quoted k rest := by
          rw [hquote]
          rfl
        rw [hs, htoken, parseToken_quoted] at hkey
        exact ⟨k, hk, hs, (Except.ok.inj hkey).symm⟩
      · intro h
        obtain ⟨k, hk, hs, rfl⟩ := h
        refine ⟨r, (stringCharacters_ok Nat.le.refl).mpr ⟨k, hk, (List.cons.inj hs).2⟩, ?_⟩
        rw [hs, htoken, parseToken_quoted]
        rfl
    · rw [if_pos hquote]
      refine ⟨nofun, fun h => ?_⟩
      obtain ⟨k, -, htext, -⟩ := h
      exact absurd (List.cons.inj htext).1 hquote

/-! ## Values -/

def isBlank (c : CodeUnit) : Bool := c = 0x09 ∨ c = 0x20

/-- What the scanner asks of a text. -/
def strict : Policy where
  blank := isBlank
  room depth := depth < 64
  distinct := true
  allowed := paired
  literal := readLiteral
  blank_white c h := by
    rcases of_decide_eq_true h with h | h
    · exact .inl h
    · exact .inr (.inr (.inr h))
  literal_sound := readLiteral_sound
  literal_append := readLiteral_append

theorem strict_isStrict : strict.Strict 64 := ⟨fun _ => rfl, rfl, fun _ => rfl⟩

theorem whitespace_eq (s : List CodeUnit) : whitespace s = strict.skip s := rfl

theorem stringToken_eq (s : List CodeUnit) :
    (stringToken s).toOption = (strict.string s).map fun read => (read.1.units, read.2) := by
  cases hread : strict.string s with
  | some read =>
    obtain ⟨hs, hpaired⟩ := string_eq_some.mp hread
    rw [stringToken_ok.mpr ⟨read.1, hpaired, hs, rfl⟩]
    rfl
  | none =>
    cases htoken : stringToken s with
    | error e => rfl
    | ok result =>
      obtain ⟨k, hpaired, hs, -⟩ := stringToken_ok.mp htoken
      rw [string_eq_some.mpr ⟨hs, hpaired⟩] at hread
      cases hread

theorem separator_eq (close : Char) (s : List CodeUnit) :
    (separator close s).toOption = strict.closing close s := by
  rw [separator, whitespace_eq, Policy.closing]
  cases strict.skip s with
  | nil => rfl
  | cons c rest =>
    by_cases hclose : c = code close
    · simp [expect, hclose, Except.toOption]
    · by_cases hcomma : c = code ','
      · have hne : code ',' ≠ code close := hcomma ▸ hclose
        simp [expect, hcomma, hne, Except.toOption]
      · simp [expect, hclose, hcomma, Except.toOption, invalidJson]

theorem colon_eq (s : List CodeUnit) : (colon s).toOption = expect ':' (strict.skip s) := by
  rw [colon, whitespace_eq]
  cases strict.skip s with
  | nil => rfl
  | cons c rest =>
    by_cases hcolon : c = code ':'
    · simp [expect, hcolon, Except.toOption]
    · simp [expect, hcolon, Except.toOption, invalidJson]

theorem opened_eq {close : Char} {s : List CodeUnit} {loop : List CodeUnit → Scan (List CodeUnit)}
    (hnil : (loop []).toOption = none) : (opened close s loop).toOption =
      match expect close (strict.skip s) with
      | some rest => some rest
      | none => (loop (strict.skip s)).toOption := by
  rw [opened, whitespace_eq]
  cases strict.skip s with
  | nil => exact hnil.symm
  | cons c rest =>
    by_cases hclose : c = code close
    · simp [expect, hclose, Except.toOption]
    · simp [expect, hclose]

/-- The scanner's functions are those of the reader, with the trees forgotten. -/
structure Agrees (fuel : Nat) : Prop where
  value : ∀ depth s, (value fuel depth s).toOption = (strict.value fuel depth s).map Prod.snd
  object : ∀ depth keys s,
    (object fuel depth keys s).toOption = (strict.members fuel depth keys s).map Prod.snd
  array : ∀ depth s, (array fuel depth s).toOption = (strict.items fuel depth s).map Prod.snd

theorem toOption_bind {α β : Type} (x : Scan α) (f : α → Scan β) :
    (x >>= f).toOption = x.toOption.bind fun a => (f a).toOption := by
  cases x <;> rfl

theorem object_nil (fuel depth : Nat) (keys : List (List CodeUnit)) :
    (object fuel depth keys []).toOption = none := by
  cases fuel <;> rfl

theorem array_nil (fuel depth : Nat) : (array fuel depth []).toOption = none := by
  cases fuel with
  | zero => rfl
  | succ fuel => cases fuel <;> rfl

theorem Agrees.value_succ {fuel : Nat} (h : Agrees fuel) (depth : Nat) (s : List CodeUnit) :
    (Framing.value (fuel + 1) depth s).toOption =
      (strict.value (fuel + 1) depth s).map Prod.snd := by
  rw [Framing.value, Policy.value, whitespace_eq]
  cases strict.skip s with
  | nil => rfl
  | cons c rest =>
    simp only
    have hroom : strict.room depth = decide (depth < 64) := rfl
    by_cases hbrace : c = code '{'
    · rw [if_pos hbrace, if_pos hbrace, hroom]
      by_cases hdepth : depth < 64
      · rw [if_neg (Nat.not_le.mpr hdepth), decide_eq_true hdepth, if_pos rfl,
          opened_eq (object_nil _ _ _), h.object]
        cases expect '}' (strict.skip rest) with
        | some rest => rfl
        | none => cases strict.members fuel (depth + 1) [] (strict.skip rest) <;> rfl
      · rw [if_pos (Nat.not_lt.mp hdepth), decide_eq_false hdepth]
        rfl
    · rw [if_neg hbrace, if_neg hbrace]
      by_cases hbracket : c = code '['
      · rw [if_pos hbracket, if_pos hbracket, hroom]
        by_cases hdepth : depth < 64
        · rw [if_neg (Nat.not_le.mpr hdepth), decide_eq_true hdepth, if_pos rfl,
            opened_eq (array_nil _ _), h.array]
          cases expect ']' (strict.skip rest) with
          | some rest => rfl
          | none => cases strict.items fuel (depth + 1) (strict.skip rest) <;> rfl
        · rw [if_pos (Nat.not_lt.mp hdepth), decide_eq_false hdepth]
          rfl
      · rw [if_neg hbracket, if_neg hbracket]
        by_cases hquote : c = code '"'
        · rw [if_pos hquote, if_pos hquote]
          have htoken := stringToken_eq (c :: rest)
          cases hread : strict.string (c :: rest) with
          | some read =>
            rw [hread] at htoken
            cases hstring : stringToken (c :: rest) with
            | error e => simp [hstring, Except.toOption] at htoken
            | ok result =>
              rw [hstring] at htoken
              have hrest := congrArg (Option.map Prod.snd) htoken
              simpa [Except.map, Except.toOption] using hrest
          | none =>
            rw [hread] at htoken
            cases hstring : stringToken (c :: rest) with
            | error e => rfl
            | ok result => simp [hstring, Except.toOption] at htoken
        · rw [if_neg hquote, if_neg hquote, literalPattern_eq]
          have hliteral : strict.literal (c :: rest) = readLiteral (c :: rest) := rfl
          rw [hliteral]
          cases readLiteral (c :: rest) <;> rfl

theorem Agrees.array_succ {fuel : Nat} (h : Agrees fuel) (depth : Nat) (s : List CodeUnit) :
    (Framing.array (fuel + 1) depth s).toOption =
      (strict.items (fuel + 1) depth s).map Prod.snd := by
  rw [Framing.array, Policy.items, toOption_bind, h.value]
  cases strict.value fuel depth s with
  | none => rfl
  | some read =>
    simp only [Option.map_some, Option.bind_some, toOption_bind, separator_eq,
      Option.bind_eq_bind]
    cases strict.closing ']' read.2 with
    | none => rfl
    | some closed =>
      obtain ⟨last, rest⟩ := closed
      cases last with
      | true => rfl
      | false =>
        simp only [Option.bind_some, Bool.false_eq_true, if_false, h.array]
        cases strict.items fuel depth rest <;> rfl

theorem Agrees.object_succ {fuel : Nat} (h : Agrees fuel) (depth : Nat)
    (keys : List (List CodeUnit)) (s : List CodeUnit) :
    (Framing.object (fuel + 1) depth keys s).toOption =
      (strict.members (fuel + 1) depth keys s).map Prod.snd := by
  rw [Framing.object, Policy.members, toOption_bind, stringToken_eq]
  cases strict.string s with
  | none => rfl
  | some read =>
    have hdistinct : strict.distinct = true := rfl
    simp only [Option.map_some, Option.bind_some, Option.bind_eq_bind, hdistinct, true_and]
    by_cases hseen : read.1.units ∈ keys
    · rw [if_pos hseen, if_pos hseen]
      rfl
    · rw [if_neg hseen, if_neg hseen]
      simp only [toOption_bind, colon_eq]
      cases expect ':' (strict.skip read.2) with
      | none => rfl
      | some rest =>
        simp only [Option.bind_some, h.value]
        cases strict.value fuel depth rest with
        | none => rfl
        | some read' =>
          simp only [Option.map_some, Option.bind_some, separator_eq]
          cases strict.closing '}' read'.2 with
          | none => rfl
          | some closed =>
            obtain ⟨last, rest⟩ := closed
            cases last with
            | true => rfl
            | false =>
              simp only [Option.bind_some, Bool.false_eq_true, if_false, h.object, whitespace_eq]
              cases strict.members fuel depth (keys ++ [read.1.units]) (strict.skip rest) <;> rfl

theorem agrees (fuel : Nat) : Agrees fuel := by
  induction fuel with
  | zero => exact ⟨fun _ _ => rfl, fun _ _ _ => rfl, fun _ _ => rfl⟩
  | succ fuel ih => exact ⟨ih.value_succ, ih.object_succ, ih.array_succ⟩

theorem rejectDuplicateObjectKeys_eq (body : List CodeUnit) :
    (rejectDuplicateObjectKeys body).toOption =
      (strict.read (2 * body.length + 1) body).map fun _ => () := by
  rw [rejectDuplicateObjectKeys, toOption_bind, (agrees _).value, Policy.read]
  cases strict.value (2 * body.length + 1) 0 body with
  | none => rfl
  | some read =>
    simp only [Option.map_some, Option.bind_some, Option.bind_eq_bind, whitespace_eq]
    by_cases hend : strict.skip read.2 = []
    · simp [hend, Except.toOption]
    · simp [hend, Except.toOption, invalidJson]

/-! ## What the scanner accepts -/

/-- The text of strict JSON: white space is spaces and tabs, no object repeats a name, every
surrogate has its other half and at most 64 containers are open at a point. -/
def StrictJson (t : Tree) (body : List CodeUnit) : Prop :=
  Text isBlank t body ∧ t.Distinct ∧ t.Paired ∧ t.height ≤ 64

theorem scanner_ok {body : List CodeUnit} :
    rejectDuplicateObjectKeys body = .ok () ↔ ∃ t, StrictJson t body := by
  have hok : rejectDuplicateObjectKeys body = .ok () ↔
      (rejectDuplicateObjectKeys body).toOption = some () := by
    cases rejectDuplicateObjectKeys body <;> simp [Except.toOption]
  rw [hok, rejectDuplicateObjectKeys_eq, Option.map_eq_some_iff]
  refine exists_congr fun t => ?_
  rw [and_iff_left rfl, read_eq_some strict (Nat.lt_succ_self _),
    strict_isStrict.fits t (Nat.zero_le _), Nat.zero_add]
  constructor
  · intro h
    obtain ⟨htext, hheight, hdistinct, hpaired⟩ := h
    exact ⟨htext, hdistinct, hpaired, hheight⟩
  · intro h
    obtain ⟨htext, hdistinct, hpaired, hheight⟩ := h
    exact ⟨htext, hheight, hdistinct, hpaired⟩

theorem StrictJson.parse {t : Tree} {body : List CodeUnit} (h : StrictJson t body) {ν : Type}
    (number : NumberText → ν) : JsonText.parse number body = some (t.plain number) := by
  obtain ⟨htext, hdistinct, -, -⟩ := h
  refine parse_eq_some.mpr ⟨t, htext.change fun c _ hc => ?_, value_of_distinct number hdistinct⟩
  rcases of_decide_eq_true hc with h | h
  · exact decide_eq_true (.inl h)
  · exact decide_eq_true (.inr (.inr (.inr h)))

/-- The scanner accepts strict JSON and nothing else, and `JSON.parse` keeps all of it. -/
theorem scanner_exact {ν : Type} (number : NumberText → ν) (body : List CodeUnit) :
    (rejectDuplicateObjectKeys body = .ok () ↔ ∃ t, StrictJson t body) ∧
      ∀ t, StrictJson t body → JsonText.parse number body = some (t.plain number) :=
  ⟨scanner_ok, fun _ ht => ht.parse number⟩

end SurfaceLoom.Native.Framing
