import SurfaceLoom.Scripts.SourceText

/-! # Comments and literals of Swift

`skipSwiftOpaque` goes over the comment, string or regex literal that begins at a place.
Literals and their interpolations go over each other, on fuel of which there is enough. -/
namespace SurfaceLoom.Scripts.SwiftLexical
open SurfaceLoom.Core (isSpace)
open SurfaceLoom.Lib SurfaceLoom.Lib.Cursor SurfaceLoom.Scripts.StaticBoolean
open SurfaceLoom.Scripts.SourceText

def skipLineComment (p : Cursor) : Cursor := afterLine p

/-- The loop of `skipBlockComment`: comments nest. -/
def skipBlockCommentFrom (opening : Cursor) : Nat → List Char → List Char → Evaluated Cursor
  | 0, before, rest => .ok ⟨before, rest⟩
  | _ + 1, _, [] =>
    .error (sourceError opening "Swift source contains an unterminated block comment.")
  | _ + 1, _, [_] =>
    .error (sourceError opening "Swift source contains an unterminated block comment.")
  | depth + 1, before, c :: d :: rest =>
    if c = '/' ∧ d = '*' then skipBlockCommentFrom opening (depth + 2) (d :: c :: before) rest
    else if c = '*' ∧ d = '/' then skipBlockCommentFrom opening depth (d :: c :: before) rest
    else skipBlockCommentFrom opening (depth + 1) (c :: before) (d :: rest)

def skipBlockComment (p : Cursor) : Evaluated Cursor :=
  skipBlockCommentFrom p 1 (p.forward 2).before (p.forward 2).rest

def hashesAt (p : Cursor) : Nat := (p.rest.takeWhile (· = '#')).length

structure LiteralPrefix where
  start : Cursor
  /-- The quote of a string, the slash of a regex. -/
  delimiter : Cursor
  hashCount : Nat

def swiftStringPrefix (p : Cursor) : Option LiteralPrefix :=
  let quote := p.forward (hashesAt p)
  if quote.startsWith ['"'] then some ⟨p, quote, hashesAt p⟩ else none

/-- The characters after which a slash begins a regex. -/
def regexOpeners : List Char :=
  ['=', '(', '[', '{', ',', ':', ';', '!', '?', '&', '|', '+', '-', '*', '%', '^', '~', '<', '>']

def regexKeywords : List (List Char) :=
  ["return".toList, "throw".toList, "case".toList, "in".toList, "where".toList, "try".toList,
    "await".toList]

def canStartBareRegex (p : Cursor) : Bool :=
  match p.before.dropWhile isSpace with
  | [] => true
  | c :: before =>
    c ∈ regexOpeners || ((c :: before).takeWhile isIdentifierPart).reverse ∈ regexKeywords

def swiftRegexPrefix (p : Cursor) : Option LiteralPrefix :=
  let slash := p.forward (hashesAt p)
  if !slash.startsWith ['/'] || slash.startsWith ['/', '/'] || slash.startsWith ['/', '*'] then none
  else if hashesAt p = 0 ∧ ¬ canStartBareRegex p then none
  else some ⟨p, slash, hashesAt p⟩

/-- The place of the escaped character. -/
def activeSwiftEscape (p : Cursor) (hashCount : Nat) : Option Cursor :=
  if p.startsWith ('\\' :: List.replicate hashCount '#') then some (p.forward (1 + hashCount))
  else none

def isTriple (literal : LiteralPrefix) : Bool := literal.delimiter.startsWith ['"', '"', '"']

def quoteWidth (literal : LiteralPrefix) : Nat := if isTriple literal then 3 else 1

def closingOf (literal : LiteralPrefix) : List Char :=
  List.replicate (quoteWidth literal) '"' ++ List.replicate literal.hashCount '#'

def regexClosing (literal : LiteralPrefix) : List Char :=
  '/' :: List.replicate literal.hashCount '#'

/-- A line ends here. -/
def atLineEnd (p : Cursor) : Bool := p.startsWith ['\n'] || p.startsWith ['\r']

mutual

def skipSwiftOpaque : Nat → Cursor → Evaluated (Option Cursor)
  | 0, _ => .error .outOfFuel
  | fuel + 1, p =>
    if p.startsWith ['/', '/'] then .ok (some (skipLineComment (p.forward 2)))
    else if p.startsWith ['/', '*'] then (skipBlockComment p).map some
    else
      match swiftStringPrefix p with
      | some literal =>
        (skipSwiftString fuel literal (literal.delimiter.forward (quoteWidth literal))).map some
      | none =>
        match swiftRegexPrefix p with
        | some literal => (skipSwiftRegex fuel literal false (literal.delimiter.forward 1)).map some
        | none => .ok none

/-- The loop of `skipSwiftString`. -/
def skipSwiftString : Nat → LiteralPrefix → Cursor → Evaluated Cursor
  | 0, _, _ => .error .outOfFuel
  | fuel + 1, literal, p =>
    if p.rest = [] then
      .error (sourceError literal.start "Swift source contains an unterminated string literal.")
    else if p.startsWith (closingOf literal) then .ok (p.forward (closingOf literal).length)
    else if ¬ isTriple literal ∧ atLineEnd p then
      .error (sourceError literal.start "Swift source contains an unterminated string literal.")
    else
      match activeSwiftEscape p literal.hashCount with
      | some escape =>
        if escape.startsWith ['('] then do
          let after ← skipInterpolation fuel escape 1 (escape.forward 1)
          skipSwiftString fuel literal after
        else skipSwiftString fuel literal (escape.forward 1)
      | none => skipSwiftString fuel literal (p.forward 1)

/-- The loop of `skipSwiftRegex`. -/
def skipSwiftRegex : Nat → LiteralPrefix → Bool → Cursor → Evaluated Cursor
  | 0, _, _, _ => .error .outOfFuel
  | fuel + 1, literal, inCharacterClass, p =>
    if p.rest = [] ∨ atLineEnd p then
      .error (sourceError literal.start "Swift source contains an unterminated regex literal.")
    else
      match activeSwiftEscape p literal.hashCount with
      | some escape =>
        if escape.startsWith ['('] then do
          let after ← skipInterpolation fuel escape 1 (escape.forward 1)
          skipSwiftRegex fuel literal inCharacterClass after
        else skipSwiftRegex fuel literal inCharacterClass (escape.forward 1)
      | none =>
        if p.startsWith ['['] then skipSwiftRegex fuel literal true (p.forward 1)
        else if p.startsWith [']'] then skipSwiftRegex fuel literal false (p.forward 1)
        else if ¬ inCharacterClass ∧ p.startsWith (regexClosing literal) then
          .ok (p.forward (regexClosing literal).length)
        else skipSwiftRegex fuel literal inCharacterClass (p.forward 1)

/-- The loop of `skipInterpolation`. -/
def skipInterpolation : Nat → Cursor → Nat → Cursor → Evaluated Cursor
  | 0, _, _, _ => .error .outOfFuel
  | fuel + 1, openingParenthesis, depth, p =>
    if p.rest = [] then .error (sourceError openingParenthesis "Swift interpolation is unterminated.")
    else do
      match ← skipSwiftOpaque fuel p with
      | some opaqueEnd => skipInterpolation fuel openingParenthesis depth opaqueEnd
      | none =>
        if p.startsWith ['('] then skipInterpolation fuel openingParenthesis (depth + 1) (p.forward 1)
        else if p.startsWith [')'] then
          if depth = 1 then .ok (p.forward 1)
          else skipInterpolation fuel openingParenthesis (depth - 1) (p.forward 1)
        else skipInterpolation fuel openingParenthesis depth (p.forward 1)

end

/-- Enough fuel for the text that is left. -/
def fuelFor (p : Cursor) : Nat := 2 * p.rest.length + 2

/-! ## Going ahead -/

theorem blockCommentFrom_advances (opening : Cursor) (depth : Nat) (before rest : List Char) :
    skipBlockCommentFrom opening depth before rest ≠ .error .outOfFuel ∧
      ∀ q, skipBlockCommentFrom opening depth before rest = .ok q →
        q = ⟨before, rest⟩ ∨ Ahead ⟨before, rest⟩ q := by
  fun_induction skipBlockCommentFrom opening depth before rest with
  | case1 => exact ⟨nofun, fun q hq => .inl (Except.ok.inj hq).symm⟩
  | case2 => exact ⟨nofun, nofun⟩
  | case3 => exact ⟨nofun, nofun⟩
  | case4 depth before c d rest _ ih =>
    refine ⟨ih.1, fun q hq => .inr ?_⟩
    rcases ih.2 q hq with rfl | hahead
    · exact (ahead_cons _ _ _).trans (ahead_cons _ _ _)
    · exact ((ahead_cons _ _ _).trans (ahead_cons _ _ _)).trans hahead
  | case5 depth before c d rest _ _ ih =>
    refine ⟨ih.1, fun q hq => .inr ?_⟩
    rcases ih.2 q hq with rfl | hahead
    · exact (ahead_cons _ _ _).trans (ahead_cons _ _ _)
    · exact ((ahead_cons _ _ _).trans (ahead_cons _ _ _)).trans hahead
  | case6 depth before c d rest _ _ ih =>
    refine ⟨ih.1, fun q hq => .inr ?_⟩
    rcases ih.2 q hq with rfl | hahead
    · exact ahead_cons _ _ _
    · exact (ahead_cons _ _ _).trans hahead

theorem blockComment_advances {p : Cursor} (h : Ahead p (p.forward 2)) :
    Advances p (skipBlockComment p) := by
  obtain ⟨hfuelled, hahead⟩ :=
    blockCommentFrom_advances p 1 (p.forward 2).before (p.forward 2).rest
  refine ⟨hfuelled, fun q hq => ?_⟩
  rcases hahead q hq with rfl | hfurther
  · exact h
  · exact h.trans hfurther

/-- The delimiter of a literal is where the literal begins, or further on. -/
theorem hashes_ahead {p : Cursor} {c : Char} {pattern : List Char}
    (h : (p.forward (hashesAt p)).startsWith (c :: pattern) = true) (n : Nat) :
    Ahead p ((p.forward (hashesAt p)).forward (n + 1)) := by
  by_cases hnone : hashesAt p = 0
  · rw [hnone, forward_zero] at h ⊢
    exact ahead_pattern h n
  · obtain ⟨k, hk⟩ : ∃ k, hashesAt p = k + 1 := ⟨hashesAt p - 1, by omega⟩
    rw [hk]
    refine (ahead_forward (fun hrest => hnone ?_) k).forward _
    rw [hashesAt, hrest]
    rfl

theorem stringPrefix_ahead {p : Cursor} {literal : LiteralPrefix}
    (h : swiftStringPrefix p = some literal) :
    Ahead p (literal.delimiter.forward (quoteWidth literal)) := by
  unfold swiftStringPrefix at h
  simp only at h
  split at h
  · rename_i hquote
    cases h
    unfold quoteWidth
    split
    · exact hashes_ahead hquote 2
    · exact hashes_ahead hquote 0
  · cases h

theorem regexPrefix_slash {p : Cursor} {literal : LiteralPrefix}
    (h : swiftRegexPrefix p = some literal) : literal.delimiter.startsWith ['/'] = true ∧
      literal.delimiter = p.forward (hashesAt p) := by
  unfold swiftRegexPrefix at h
  simp only at h
  split at h
  · cases h
  · rename_i hslash
    split at h
    · cases h
    · cases h
      simp only [Bool.or_eq_true, Bool.not_eq_true', not_or, Bool.not_eq_false] at hslash
      exact ⟨hslash.1.1, rfl⟩

theorem regexPrefix_ahead {p : Cursor} {literal : LiteralPrefix}
    (h : swiftRegexPrefix p = some literal) : Ahead p (literal.delimiter.forward 1) := by
  obtain ⟨hslash, hdelimiter⟩ := regexPrefix_slash h
  rw [hdelimiter] at hslash ⊢
  exact hashes_ahead hslash 0

theorem escape_ahead {p escape : Cursor} {hashCount : Nat}
    (h : activeSwiftEscape p hashCount = some escape) : Ahead p escape := by
  unfold activeSwiftEscape at h
  split at h
  · rename_i hpattern
    cases h
    rw [Nat.add_comm]
    exact ahead_pattern hpattern hashCount
  · cases h

theorem closing_length (literal : LiteralPrefix) :
    (closingOf literal).length = quoteWidth literal - 1 + literal.hashCount + 1 := by
  rw [closingOf, List.length_append, List.length_replicate, List.length_replicate]
  unfold quoteWidth
  split <;> omega

/-- What enough fuel is, for each scanner. -/
structure Fuelled (fuel : Nat) : Prop where
  opaques : ∀ p, 2 * p.rest.length + 1 ≤ fuel → MayAdvance p (skipSwiftOpaque fuel p)
  string : ∀ literal p, 2 * p.rest.length + 1 ≤ fuel → Advances p (skipSwiftString fuel literal p)
  regex : ∀ literal inCharacterClass p, 2 * p.rest.length + 1 ≤ fuel →
    Advances p (skipSwiftRegex fuel literal inCharacterClass p)
  interpolation : ∀ openingParenthesis depth p, 2 * p.rest.length + 2 ≤ fuel →
    Advances p (skipInterpolation fuel openingParenthesis depth p)

section Fuel

variable {fuel : Nat} {p q : Cursor} {literal : LiteralPrefix} {inCharacterClass : Bool}

theorem Fuelled.string_from (ih : Fuelled fuel) (h : Ahead p q)
    (hfuel : 2 * p.rest.length + 1 ≤ fuel + 1) :
    Advances p (skipSwiftString fuel literal q) := by
  have hlength := h.length
  exact .from h (ih.string literal q (by omega))

theorem Fuelled.regex_from (ih : Fuelled fuel) (h : Ahead p q)
    (hfuel : 2 * p.rest.length + 1 ≤ fuel + 1) :
    Advances p (skipSwiftRegex fuel literal inCharacterClass q) := by
  have hlength := h.length
  exact .from h (ih.regex literal inCharacterClass q (by omega))

theorem Fuelled.interpolation_from (ih : Fuelled fuel) (openingParenthesis : Cursor) (h : Ahead p q)
    (hfuel : 2 * p.rest.length + 1 ≤ fuel + 1) :
    Advances p (skipInterpolation fuel openingParenthesis 1 q) := by
  have hlength := h.length
  exact .from h (ih.interpolation openingParenthesis 1 q (by omega))

theorem Fuelled.string_succ (ih : Fuelled fuel) (hfuel : 2 * p.rest.length + 1 ≤ fuel + 1) :
    Advances p (skipSwiftString (fuel + 1) literal p) := by
  unfold skipSwiftString
  split
  · exact .refused
  · rename_i hrest
    split
    · rw [closing_length]
      exact .ok (ahead_forward hrest _)
    split
    · exact .refused
    · split
      · rename_i escape hescape
        have hahead := escape_ahead hescape
        split
        · refine .bind (ih.interpolation_from escape (hahead.forward 1) hfuel) fun q hq => ?_
          have hlength := hq.length
          exact ih.string literal q (by omega)
        · exact ih.string_from (hahead.forward 1) hfuel
      · exact ih.string_from (ahead_forward hrest 0) hfuel

theorem Fuelled.regex_succ (ih : Fuelled fuel) (hfuel : 2 * p.rest.length + 1 ≤ fuel + 1) :
    Advances p (skipSwiftRegex (fuel + 1) literal inCharacterClass p) := by
  unfold skipSwiftRegex
  split
  · exact .refused
  · rename_i hnot
    have hrest : p.rest ≠ [] := fun hnil => hnot (.inl hnil)
    split
    · rename_i escape hescape
      have hahead := escape_ahead hescape
      split
      · refine .bind (ih.interpolation_from escape (hahead.forward 1) hfuel) fun q hq => ?_
        have hlength := hq.length
        exact ih.regex literal inCharacterClass q (by omega)
      · exact ih.regex_from (hahead.forward 1) hfuel
    · split
      · exact ih.regex_from (ahead_forward hrest 0) hfuel
      split
      · exact ih.regex_from (ahead_forward hrest 0) hfuel
      split
      · exact .ok (ahead_forward hrest _)
      · exact ih.regex_from (ahead_forward hrest 0) hfuel

theorem Fuelled.interpolation_succ (ih : Fuelled fuel) {openingParenthesis : Cursor} {depth : Nat}
    (hfuel : 2 * p.rest.length + 2 ≤ fuel + 1) :
    Advances p (skipInterpolation (fuel + 1) openingParenthesis depth p) := by
  have hfurther : ∀ {q : Cursor} (d : Nat), Ahead p q →
      Advances p (skipInterpolation fuel openingParenthesis d q) := by
    intro q d hq
    have hlength := hq.length
    exact .from hq (ih.interpolation openingParenthesis d q (by omega))
  unfold skipInterpolation
  split
  · exact .refused
  · rename_i hrest
    have hskipped := ih.opaques p (by omega)
    cases hresult : skipSwiftOpaque fuel p with
    | error e =>
      refine ⟨fun hout => ?_, nofun⟩
      exact hskipped.fuelled (hresult.trans (congrArg Except.error (Except.error.inj hout)))
    | ok found =>
      cases found with
      | some opaqueEnd => exact hfurther depth (hskipped.ahead _ hresult)
      | none =>
        show Advances p (if p.startsWith ['('] = true then _ else _)
        split
        · exact hfurther _ (ahead_forward hrest 0)
        split
        · split
          · exact .ok (ahead_forward hrest 0)
          · exact hfurther _ (ahead_forward hrest 0)
        · exact hfurther _ (ahead_forward hrest 0)

end Fuel

theorem fuelled (fuel : Nat) : Fuelled fuel := by
  induction fuel with
  | zero =>
    refine ⟨fun _ h => ?_, fun _ _ h => ?_, fun _ _ _ h => ?_, fun _ _ _ h => ?_⟩
    all_goals omega
  | succ fuel ih =>
    refine ⟨fun p hfuel => ?_, fun _ _ => ih.string_succ, fun _ _ _ => ih.regex_succ,
      fun _ _ _ => ih.interpolation_succ⟩
    unfold skipSwiftOpaque
    split
    · rename_i hline
      refine ⟨nofun, fun q hq => ?_⟩
      cases hq
      exact afterLine_ahead (ahead_pattern hline 1)
    split
    · rename_i hblock
      exact .some (blockComment_advances (ahead_pattern hblock 1))
    · split
      · rename_i literal hliteral
        exact .some (ih.string_from (stringPrefix_ahead hliteral) hfuel)
      · split
        · rename_i literal hliteral
          exact .some (ih.regex_from (regexPrefix_ahead hliteral) hfuel)
        · exact .none

end SurfaceLoom.Scripts.SwiftLexical
