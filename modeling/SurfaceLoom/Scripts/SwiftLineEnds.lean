import SurfaceLoom.Scripts.SwiftLexical

/-! # The line ends of Swift

A text is read the same with CRLF for its line feeds, unless a literal of one line escapes a
line feed: the escape goes over one character, and over half of a CRLF. -/
namespace SurfaceLoom.Scripts.SwiftLexical
open SurfaceLoom.Core (isSpace)
open SurfaceLoom.Lib SurfaceLoom.Lib.Cursor SurfaceLoom.Scripts.StaticBoolean
open SurfaceLoom.Scripts.SourceText

/-! ## Escaped line feeds -/

mutual

/-- Whether a literal of one line that is gone over from here escapes a line feed. -/
def opaqueEscapes : Nat → Cursor → Bool
  | 0, _ => false
  | fuel + 1, p =>
    if p.startsWith ['/', '/'] ∨ p.startsWith ['/', '*'] then false
    else
      match swiftStringPrefix p with
      | some literal =>
        stringEscapes fuel literal (literal.delimiter.forward (quoteWidth literal))
      | none =>
        match swiftRegexPrefix p with
        | some literal => regexEscapes fuel literal false (literal.delimiter.forward 1)
        | none => false

def stringEscapes : Nat → LiteralPrefix → Cursor → Bool
  | 0, _, _ => false
  | fuel + 1, literal, p =>
    if p.rest = [] ∨ p.startsWith (closingOf literal) ∨ ¬ isTriple literal ∧ atLineEnd p then false
    else
      match activeSwiftEscape p literal.hashCount with
      | some escape =>
        if escape.startsWith ['('] then
          interpolationEscapes fuel 1 (escape.forward 1) ||
            match skipInterpolation fuel escape 1 (escape.forward 1) with
            | .ok after => stringEscapes fuel literal after
            | .error _ => false
        else
          !isTriple literal && escape.startsWith ['\n'] ||
            stringEscapes fuel literal (escape.forward 1)
      | none => stringEscapes fuel literal (p.forward 1)

def regexEscapes : Nat → LiteralPrefix → Bool → Cursor → Bool
  | 0, _, _, _ => false
  | fuel + 1, literal, inCharacterClass, p =>
    if p.rest = [] ∨ atLineEnd p then false
    else
      match activeSwiftEscape p literal.hashCount with
      | some escape =>
        if escape.startsWith ['('] then
          interpolationEscapes fuel 1 (escape.forward 1) ||
            match skipInterpolation fuel escape 1 (escape.forward 1) with
            | .ok after => regexEscapes fuel literal inCharacterClass after
            | .error _ => false
        else
          escape.startsWith ['\n'] || regexEscapes fuel literal inCharacterClass (escape.forward 1)
      | none =>
        if p.startsWith ['['] then regexEscapes fuel literal true (p.forward 1)
        else if p.startsWith [']'] then regexEscapes fuel literal false (p.forward 1)
        else if ¬ inCharacterClass ∧ p.startsWith (regexClosing literal) then false
        else regexEscapes fuel literal inCharacterClass (p.forward 1)

def interpolationEscapes : Nat → Nat → Cursor → Bool
  | 0, _, _ => false
  | fuel + 1, depth, p =>
    if p.rest = [] then false
    else
      opaqueEscapes fuel p ||
        match skipSwiftOpaque fuel p with
        | .error _ => false
        | .ok (some opaqueEnd) => interpolationEscapes fuel depth opaqueEnd
        | .ok none =>
          if p.startsWith ['('] then interpolationEscapes fuel (depth + 1) (p.forward 1)
          else if p.startsWith [')'] then
            if depth = 1 then false else interpolationEscapes fuel (depth - 1) (p.forward 1)
          else interpolationEscapes fuel depth (p.forward 1)

end

/-! ## Where a literal begins -/

theorem blockCommentFrom_same (opening opening' : Cursor) (depth : Nat) (before rest : List Char) :
    Same (skipBlockCommentFrom opening' depth (Crlf.convertBefore before) (Crlf.convert rest))
      (skipBlockCommentFrom opening depth before rest) := by
  -- a character that neither opens nor closes a comment
  have hplain : ∀ (d : Nat) (c : Char) (b r : List Char), r ≠ [] →
      ¬ (c = '/' ∧ r.head? = some '*') → ¬ (c = '*' ∧ r.head? = some '/') →
      skipBlockCommentFrom opening' (d + 1) b (c :: r) =
        skipBlockCommentFrom opening' (d + 1) (c :: b) r := by
    intro d c b r hr hopen hclose
    cases r with
    | nil => exact absurd rfl hr
    | cons e r =>
      rw [skipBlockCommentFrom, if_neg fun h => hopen ⟨h.1, by rw [h.2]; rfl⟩,
        if_neg fun h => hclose ⟨h.1, by rw [h.2]; rfl⟩]
  fun_induction skipBlockCommentFrom opening depth before rest with
  | case1 before rest =>
    rw [skipBlockCommentFrom]
    exact .ok ⟨before, rest⟩
  | case2 => exact .error ..
  | case3 depth before c =>
    by_cases hc : c = '\n'
    · subst hc
      rw [Crlf.convert_newline, hplain _ _ _ _ (by simp) (by simp) (by simp)]
      exact .error ..
    · rw [Crlf.convert_cons hc]
      exact .error ..
  | case4 depth before c d rest h ih =>
    obtain ⟨rfl, rfl⟩ := h
    rw [Crlf.convert_cons (by decide), Crlf.convert_cons (by decide), skipBlockCommentFrom,
      if_pos ⟨rfl, rfl⟩]
    exact ih
  | case5 depth before c d rest _ h ih =>
    obtain ⟨rfl, rfl⟩ := h
    rw [Crlf.convert_cons (by decide), Crlf.convert_cons (by decide), skipBlockCommentFrom,
      if_neg (by decide), if_pos ⟨rfl, rfl⟩]
    exact ih
  | case6 depth before c d rest hopen hclose ih =>
    have hne : Crlf.convert (d :: rest) ≠ [] := by
      by_cases hd : d = '\n'
      · subst hd
        simp
      · simp [hd]
    have hhead : ∀ e : Char, e ≠ '\r' → (Crlf.convert (d :: rest)).head? = some e → d = e := by
      intro e he hfirst
      by_cases hd : d = '\n'
      · subst hd
        exact absurd (Option.some.inj hfirst).symm he
      · rw [Crlf.convert_cons hd] at hfirst
        exact Option.some.inj hfirst
    by_cases hc : c = '\n'
    · subst hc
      rw [Crlf.convert_newline, hplain _ _ _ _ (by simp) (by simp) (by simp),
        hplain _ _ _ _ hne (by simp) (by simp)]
      exact ih
    · rw [Crlf.convert_cons hc, hplain _ _ _ _ hne
        (fun h => hopen ⟨h.1, hhead _ (by decide) h.2⟩)
        (fun h => hclose ⟨h.1, hhead _ (by decide) h.2⟩), ← Crlf.convertBefore_cons hc]
      exact ih

theorem blockComment_same {p : Cursor} (h : p.startsWith ['/', '*'] = true) :
    Same (skipBlockComment (Crlf.place p)) (skipBlockComment p) := by
  unfold skipBlockComment
  rw [forward_pattern 2 h (by decide) rfl]
  exact blockCommentFrom_same ..

/-- The same literal in the converted text. -/
def convertPrefix (literal : LiteralPrefix) : LiteralPrefix :=
  ⟨Crlf.place literal.start, Crlf.place literal.delimiter, literal.hashCount⟩

theorem hashesAt_place (p : Cursor) : hashesAt (Crlf.place p) = hashesAt p :=
  congrArg List.length (Crlf.takeWhile_convert (by decide) (by decide) p.rest)

theorem hashes_place (p : Cursor) :
    (Crlf.place p).forward (hashesAt p) = Crlf.place (p.forward (hashesAt p)) :=
  Crlf.forward_while p (by decide)

theorem stringPrefix_place (p : Cursor) :
    swiftStringPrefix (Crlf.place p) = (swiftStringPrefix p).map convertPrefix := by
  unfold swiftStringPrefix
  simp only [hashesAt_place, hashes_place]
  rw [Crlf.startsWith_place _ (by decide) (by decide)]
  split <;> rfl

theorem canStart_place (p : Cursor) : canStartBareRegex (Crlf.place p) = canStartBareRegex p := by
  unfold canStartBareRegex
  rw [show (Crlf.place p).before = Crlf.convertBefore p.before from rfl,
    Crlf.dropWhile_convertBefore (by decide) (by decide)]
  have hkept : ∀ c rest, p.before.dropWhile isSpace = c :: rest → isSpace c = false := by
    intro c rest hdrop
    have hhead := List.head?_dropWhile_not isSpace p.before
    rw [hdrop] at hhead
    simpa using hhead
  cases hdrop : p.before.dropWhile isSpace with
  | nil => rfl
  | cons c rest =>
    have hc : c ≠ '\n' := by
      intro hnewline
      have hspace := hkept c rest hdrop
      rw [hnewline] at hspace
      exact absurd hspace (by decide)
    rw [Crlf.convertBefore_cons hc]
    show (_ || decide (((c :: Crlf.convertBefore rest).takeWhile isIdentifierPart).reverse ∈ _)) = _
    rw [← Crlf.convertBefore_cons hc, Crlf.takeWhile_convertBefore (by decide)]

theorem regexPrefix_place (p : Cursor) :
    swiftRegexPrefix (Crlf.place p) = (swiftRegexPrefix p).map convertPrefix := by
  unfold swiftRegexPrefix
  simp only [hashesAt_place, hashes_place, canStart_place]
  rw [Crlf.startsWith_place _ (by decide) (by decide),
    Crlf.startsWith_place _ (by decide) (by decide), Crlf.startsWith_place _ (by decide) (by decide)]
  split
  · rfl
  · split <;> rfl

theorem escape_place (p : Cursor) (hashCount : Nat) : activeSwiftEscape (Crlf.place p) hashCount =
    (activeSwiftEscape p hashCount).map Crlf.place := by
  unfold activeSwiftEscape
  rw [Crlf.startsWith_place _ (by simp) (by simp)]
  split
  · rename_i hpattern
    rw [forward_pattern (1 + hashCount) hpattern (by simp) (by simp [Nat.add_comm])]
    rfl
  · rfl

theorem isTriple_place (literal : LiteralPrefix) :
    isTriple (convertPrefix literal) = isTriple literal :=
  Crlf.startsWith_place literal.delimiter (by decide) (by decide)

theorem closingOf_place (literal : LiteralPrefix) :
    closingOf (convertPrefix literal) = closingOf literal := by
  unfold closingOf quoteWidth
  rw [isTriple_place]
  rfl

theorem closing_plain (literal : LiteralPrefix) :
    '\n' ∉ closingOf literal ∧ '\r' ∉ closingOf literal := by
  unfold closingOf
  simp

/-- The quotes that open a string are gone over in both texts. -/
theorem stringPrefix_width {p : Cursor} {literal : LiteralPrefix}
    (h : swiftStringPrefix p = some literal) :
    (Crlf.place literal.delimiter).forward (quoteWidth literal) =
      Crlf.place (literal.delimiter.forward (quoteWidth literal)) := by
  unfold swiftStringPrefix at h
  simp only at h
  split at h
  · rename_i hquote
    cases h
    unfold quoteWidth
    split
    · rename_i htriple
      exact forward_pattern 3 htriple (by decide) rfl
    · exact forward_pattern 1 hquote (by decide) rfl
  · cases h

/-! ## At a line end -/

theorem escape_lineEnd {c : Char} (hc : LineEnd c) (hashCount : Nat) (before rest : List Char) :
    activeSwiftEscape ⟨before, c :: rest⟩ hashCount = none := by
  rcases hc with rfl | rfl
  · simp [activeSwiftEscape, startsWith]
  · simp [activeSwiftEscape, startsWith]

theorem opaque_lineEnd {c : Char} (hc : LineEnd c) (fuel : Nat) (before rest : List Char) :
    skipSwiftOpaque (fuel + 1) ⟨before, c :: rest⟩ = .ok none := by
  rcases hc with rfl | rfl
  · simp [skipSwiftOpaque, swiftStringPrefix, swiftRegexPrefix, hashesAt, startsWith,
      List.isPrefixOf_cons_cons]
  · simp [skipSwiftOpaque, swiftStringPrefix, swiftRegexPrefix, hashesAt, startsWith,
      List.isPrefixOf_cons_cons]

theorem closing_lineEnd {c : Char} (hc : LineEnd c) (literal : LiteralPrefix)
    (before rest : List Char) : startsWith ⟨before, c :: rest⟩ (closingOf literal) = false := by
  unfold closingOf quoteWidth
  rcases hc with rfl | rfl
  · split <;> simp [startsWith, List.replicate, List.isPrefixOf_cons_cons]
  · split <;> simp [startsWith, List.replicate, List.isPrefixOf_cons_cons]

theorem atLineEnd_iff {c : Char} {before rest : List Char} :
    atLineEnd ⟨before, c :: rest⟩ = true ↔ LineEnd c := by
  have hone : ∀ d : Char, startsWith ⟨before, c :: rest⟩ [d] = true ↔ c = d := by
    intro d
    rw [startsWith, List.isPrefixOf_cons_cons, Bool.and_eq_true, beq_iff_eq, eq_comm]
    exact and_iff_left (List.isPrefixOf_nil_left ..)
  rw [atLineEnd, Bool.or_eq_true, hone, hone]
  rfl

theorem string_lineEnd {c : Char} (hc : LineEnd c) (fuel : Nat) {literal : LiteralPrefix}
    (htriple : isTriple literal = true) (before rest : List Char) :
    skipSwiftString (fuel + 1) literal ⟨before, c :: rest⟩ =
      skipSwiftString fuel literal ⟨c :: before, rest⟩ := by
  rw [skipSwiftString, if_neg (List.cons_ne_nil c rest), closing_lineEnd hc, if_neg (by decide),
    if_neg (by simp [htriple]), escape_lineEnd hc]
  rfl

/-- A string of one line does not go over a line end. -/
theorem string_broken {c : Char} (hc : LineEnd c) (fuel : Nat) {literal : LiteralPrefix}
    (htriple : ¬ isTriple literal = true) (before rest : List Char) :
    skipSwiftString (fuel + 1) literal ⟨before, c :: rest⟩ =
      .error (sourceError literal.start "Swift source contains an unterminated string literal.") := by
  rw [skipSwiftString, if_neg (List.cons_ne_nil c rest), closing_lineEnd hc, if_neg (by decide),
    if_pos ⟨htriple, atLineEnd_iff.mpr hc⟩]

theorem stringEscapes_lineEnd {c : Char} (hc : LineEnd c) (fuel : Nat) {literal : LiteralPrefix}
    (htriple : isTriple literal = true) (before rest : List Char) :
    stringEscapes (fuel + 1) literal ⟨before, c :: rest⟩ =
      stringEscapes fuel literal ⟨c :: before, rest⟩ := by
  rw [stringEscapes, closing_lineEnd hc, if_neg (by simp [htriple]), escape_lineEnd hc]
  rfl

theorem regex_broken {c : Char} (hc : LineEnd c) (fuel : Nat) (literal : LiteralPrefix)
    (inCharacterClass : Bool) (before rest : List Char) :
    skipSwiftRegex (fuel + 1) literal inCharacterClass ⟨before, c :: rest⟩ =
      .error (sourceError literal.start "Swift source contains an unterminated regex literal.") := by
  rw [skipSwiftRegex, if_pos (.inr (atLineEnd_iff.mpr hc))]

theorem interpolationEscapes_lineEnd {c : Char} (hc : LineEnd c) (fuel depth : Nat)
    (before rest : List Char) : interpolationEscapes (fuel + 2) depth ⟨before, c :: rest⟩ = false →
      interpolationEscapes (fuel + 1) depth ⟨c :: before, rest⟩ = false := by
  rw [interpolationEscapes, opaque_lineEnd hc, if_neg (List.cons_ne_nil c rest),
    Bool.or_eq_false_iff]
  intro h
  rcases hc with rfl | rfl
  · exact h.2
  · exact h.2

theorem interpolation_lineEnd {c : Char} (hc : LineEnd c) (fuel : Nat) (openingParenthesis : Cursor)
    (depth : Nat) (before rest : List Char) :
    skipInterpolation (fuel + 2) openingParenthesis depth ⟨before, c :: rest⟩ =
      skipInterpolation (fuel + 1) openingParenthesis depth ⟨c :: before, rest⟩ := by
  rw [skipInterpolation, opaque_lineEnd hc, if_neg (List.cons_ne_nil c rest)]
  rcases hc with rfl | rfl
  · rfl
  · rfl

/-! ## Both texts -/

/-- Enough fuel for a text and for the converted text. -/
structure Converts (fuel : Nat) : Prop where
  opaques : ∀ p fuel', 2 * p.rest.length + 1 ≤ fuel →
    2 * (Crlf.place p).rest.length + 1 ≤ fuel' → opaqueEscapes fuel p = false →
    SameOption (skipSwiftOpaque fuel' (Crlf.place p)) (skipSwiftOpaque fuel p)
  string : ∀ literal p fuel', 2 * p.rest.length + 1 ≤ fuel →
    2 * (Crlf.place p).rest.length + 1 ≤ fuel' → stringEscapes fuel literal p = false →
    Same (skipSwiftString fuel' (convertPrefix literal) (Crlf.place p))
      (skipSwiftString fuel literal p)
  regex : ∀ literal inCharacterClass p fuel', 2 * p.rest.length + 1 ≤ fuel →
    2 * (Crlf.place p).rest.length + 1 ≤ fuel' →
    regexEscapes fuel literal inCharacterClass p = false →
    Same (skipSwiftRegex fuel' (convertPrefix literal) inCharacterClass (Crlf.place p))
      (skipSwiftRegex fuel literal inCharacterClass p)
  interpolation : ∀ opening opening' depth p fuel', 2 * p.rest.length + 2 ≤ fuel →
    2 * (Crlf.place p).rest.length + 2 ≤ fuel' → interpolationEscapes fuel depth p = false →
    Same (skipInterpolation fuel' opening' depth (Crlf.place p))
      (skipInterpolation fuel opening depth p)

section Converted

variable {fuel fuel' : Nat} {p q escape opening opening' : Cursor} {literal : LiteralPrefix}
  {inCharacterClass : Bool} {depth : Nat}

theorem Converts.string_from (ih : Converts fuel) (h : Ahead p q)
    (hfuel : 2 * p.rest.length + 1 ≤ fuel + 1)
    (hfuel' : 2 * (Crlf.place p).rest.length + 1 ≤ fuel' + 1)
    (hescapes : stringEscapes fuel literal q = false) :
    Same (skipSwiftString fuel' (convertPrefix literal) (Crlf.place q))
      (skipSwiftString fuel literal q) := by
  have hlength := h.length
  have hlength' := (Crlf.ahead_place h).length
  exact ih.string literal q fuel' (by omega) (by omega) hescapes

theorem Converts.regex_from (ih : Converts fuel) (h : Ahead p q)
    (hfuel : 2 * p.rest.length + 1 ≤ fuel + 1)
    (hfuel' : 2 * (Crlf.place p).rest.length + 1 ≤ fuel' + 1)
    (hescapes : regexEscapes fuel literal inCharacterClass q = false) :
    Same (skipSwiftRegex fuel' (convertPrefix literal) inCharacterClass (Crlf.place q))
      (skipSwiftRegex fuel literal inCharacterClass q) := by
  have hlength := h.length
  have hlength' := (Crlf.ahead_place h).length
  exact ih.regex literal inCharacterClass q fuel' (by omega) (by omega) hescapes

/-- An escaped parenthesis: the interpolation is gone over, and the literal goes on. -/
theorem Converts.interpolated (ih : Converts fuel) (h : Ahead p escape)
    (hparenthesis : escape.startsWith ['('] = true)
    (hfuel : 2 * p.rest.length + 1 ≤ fuel + 1)
    (hfuel' : 2 * (Crlf.place p).rest.length + 1 ≤ fuel' + 1)
    (hescapes : interpolationEscapes fuel 1 (escape.forward 1) = false)
    {next' next : Cursor → Evaluated Cursor}
    (hnext : ∀ q, Ahead p q → skipInterpolation fuel escape 1 (escape.forward 1) = .ok q →
      Same (next' (Crlf.place q)) (next q)) :
    Same (skipInterpolation fuel' (Crlf.place escape) 1 ((Crlf.place escape).forward 1) >>= next')
      (skipInterpolation fuel escape 1 (escape.forward 1) >>= next) := by
  rw [forward_pattern 1 hparenthesis (by decide) rfl]
  have hahead : Ahead p (escape.forward 1) := h.forward 1
  have hlength := hahead.length
  have hlength' := (Crlf.ahead_place hahead).length
  refine .bind (ih.interpolation _ _ 1 _ _ (by omega) (by omega) hescapes) fun q hq => ?_
  exact hnext q (hahead.trans (((fuelled fuel).interpolation _ 1 _ (by omega)).ahead q hq)) hq

/-- The character at a place is gone over in both texts. -/
theorem one_place {before rest : List Char} {c : Char} (hc : c ≠ '\n') :
    (Crlf.place ⟨before, c :: rest⟩).forward 1 =
      Crlf.place ((⟨before, c :: rest⟩ : Cursor).forward 1) :=
  Crlf.forward_place _ (by simpa using Ne.symm hc)

/-- An escaped character that is no line feed is gone over in both texts. -/
theorem escaped_place (h : escape.startsWith ['\n'] = false) :
    (Crlf.place escape).forward 1 = Crlf.place (escape.forward 1) := by
  obtain ⟨before, rest⟩ := escape
  cases rest with
  | nil => rfl
  | cons c rest =>
    refine one_place fun hc => ?_
    rw [hc] at h
    simp [startsWith] at h

/-- A string of more lines goes on after an escaped line feed. -/
theorem Converts.string_continued (ih : Converts fuel) (h : Ahead p escape)
    (hnewline : escape.startsWith ['\n'] = true) (htriple : isTriple literal = true)
    (hfuel : 2 * p.rest.length + 1 ≤ fuel + 1)
    (hfuel' : 2 * (Crlf.place p).rest.length + 1 ≤ fuel' + 1)
    (hescapes : stringEscapes fuel literal (escape.forward 1) = false) :
    Same (skipSwiftString fuel' (convertPrefix literal) ((Crlf.place escape).forward 1))
      (skipSwiftString fuel literal (escape.forward 1)) := by
  have hlength := (Crlf.ahead_place h).length
  have hlength' := h.length
  obtain ⟨before, rest⟩ := escape
  obtain ⟨rest, rfl⟩ := List.isPrefixOf_iff_prefix.mp hnewline
  have hsize : (Crlf.place ⟨before, ['\n'] ++ rest⟩).rest.length =
      (Crlf.convert rest).length + 2 := rfl
  have hplace : (Crlf.place ⟨before, ['\n'] ++ rest⟩).forward 1 =
      ⟨'\r' :: Crlf.convertBefore before, '\n' :: Crlf.convert rest⟩ := rfl
  obtain ⟨fuel', rfl⟩ : ∃ f, fuel' = f + 1 := ⟨fuel' - 1, by omega⟩
  rw [hplace, string_lineEnd (.inl rfl) _ (by rwa [isTriple_place])]
  refine ih.string literal ⟨'\n' :: before, rest⟩ fuel' ?_ ?_ hescapes
  · simp only [List.length_append, List.length_singleton] at hlength' ⊢
    omega
  · show 2 * (Crlf.convert rest).length + 1 ≤ fuel'
    omega

theorem Converts.string_succ (ih : Converts fuel) (hfuel : 2 * p.rest.length + 1 ≤ fuel + 1)
    (hfuel' : 2 * (Crlf.place p).rest.length + 1 ≤ fuel' + 1)
    (hescapes : stringEscapes (fuel + 1) literal p = false) :
    Same (skipSwiftString (fuel' + 1) (convertPrefix literal) (Crlf.place p))
      (skipSwiftString (fuel + 1) literal p) := by
  obtain ⟨before, rest⟩ := p
  cases rest with
  | nil =>
    have hnil : (Crlf.place ⟨before, []⟩).rest = [] := rfl
    rw [skipSwiftString, if_pos hnil, skipSwiftString, if_pos rfl]
    exact .error ..
  | cons c rest =>
    by_cases hc : c = '\n'
    · subst hc
      have hlength : (Crlf.place ⟨before, '\n' :: rest⟩).rest.length =
          (Crlf.convert rest).length + 2 := rfl
      have hplace : Crlf.place ⟨before, '\n' :: rest⟩ =
          ⟨Crlf.convertBefore before, '\r' :: '\n' :: Crlf.convert rest⟩ := rfl
      by_cases htriple : isTriple literal = true
      · have htriple' : isTriple (convertPrefix literal) = true := by rwa [isTriple_place]
        rw [stringEscapes_lineEnd (.inl rfl) _ htriple] at hescapes
        obtain ⟨fuel', rfl⟩ : ∃ f, fuel' = f + 1 := ⟨fuel' - 1, by omega⟩
        rw [hplace, string_lineEnd (.inr rfl) _ htriple', string_lineEnd (.inl rfl) _ htriple',
          string_lineEnd (.inl rfl) _ htriple]
        refine ih.string literal ⟨'\n' :: before, rest⟩ fuel' ?_ ?_ hescapes
        · simp only [List.length_cons] at hfuel ⊢
          omega
        · show 2 * (Crlf.convert rest).length + 1 ≤ fuel'
          omega
      · rw [hplace, string_broken (.inr rfl) _ (by rwa [isTriple_place]),
          string_broken (.inl rfl) _ htriple]
        exact .error ..
    · set p : Cursor := ⟨before, c :: rest⟩ with hp
      have hrest : p.rest ≠ [] := List.cons_ne_nil c rest
      have hrest' : (Crlf.place p).rest ≠ [] := by
        rw [hp, Crlf.place, Crlf.convert_cons hc]
        exact List.cons_ne_nil _ _
      have hone : (Crlf.place p).forward 1 = Crlf.place (p.forward 1) := one_place hc
      have hends : atLineEnd (Crlf.place p) = atLineEnd p := by
        rw [hp, Crlf.place, Crlf.convert_cons hc, Bool.eq_iff_iff, atLineEnd_iff, atLineEnd_iff]
      rw [stringEscapes] at hescapes
      rw [skipSwiftString, if_neg hrest', skipSwiftString, if_neg hrest, closingOf_place,
        Crlf.startsWith_place p (closing_plain literal).1 (closing_plain literal).2, isTriple_place,
        hends, escape_place]
      split
      · rename_i hclosing
        rw [forward_pattern _ hclosing (closing_plain literal).1 rfl]
        exact .ok _
      split
      · exact .error ..
      · rename_i hopen hline
        rw [if_neg (by simp only [not_or]; exact ⟨hrest, hopen, hline⟩)] at hescapes
        show Same (match (activeSwiftEscape p literal.hashCount).map Crlf.place with
          | some escape => _
          | none => _) _
        cases hescape : activeSwiftEscape p literal.hashCount with
        | none =>
          rw [hescape] at hescapes
          simp only [Option.map_none]
          rw [hone]
          exact ih.string_from (ahead_forward hrest 0) hfuel hfuel' hescapes
        | some escape =>
          rw [hescape] at hescapes
          have hahead := escape_ahead hescape
          simp only [Option.map_some]
          rw [Crlf.startsWith_place escape (by decide) (by decide)]
          simp only at hescapes
          split
          · rename_i hparenthesis
            rw [if_pos hparenthesis, Bool.or_eq_false_iff] at hescapes
            refine ih.interpolated hahead hparenthesis hfuel hfuel' hescapes.1 fun q hq hresult => ?_
            rw [hresult] at hescapes
            exact ih.string_from hq hfuel hfuel' hescapes.2
          · rename_i hparenthesis
            rw [if_neg hparenthesis, Bool.or_eq_false_iff] at hescapes
            obtain ⟨hnewline, hescapes⟩ := hescapes
            cases hlf : escape.startsWith ['\n'] with
            | false =>
              rw [escaped_place hlf]
              exact ih.string_from (hahead.forward 1) hfuel hfuel' hescapes
            | true =>
              rw [hlf, Bool.and_true, Bool.not_eq_false'] at hnewline
              exact ih.string_continued hahead hlf hnewline hfuel hfuel' hescapes

theorem Converts.regex_succ (ih : Converts fuel) (hfuel : 2 * p.rest.length + 1 ≤ fuel + 1)
    (hfuel' : 2 * (Crlf.place p).rest.length + 1 ≤ fuel' + 1)
    (hescapes : regexEscapes (fuel + 1) literal inCharacterClass p = false) :
    Same (skipSwiftRegex (fuel' + 1) (convertPrefix literal) inCharacterClass (Crlf.place p))
      (skipSwiftRegex (fuel + 1) literal inCharacterClass p) := by
  obtain ⟨before, rest⟩ := p
  cases rest with
  | nil =>
    have hnil : (Crlf.place ⟨before, []⟩).rest = [] := rfl
    rw [skipSwiftRegex, if_pos (.inl hnil), skipSwiftRegex, if_pos (.inl rfl)]
    exact .error ..
  | cons c rest =>
    by_cases hc : LineEnd c
    · rw [regex_broken hc]
      by_cases hlf : c = '\n'
      · subst hlf
        rw [show Crlf.place ⟨before, '\n' :: rest⟩ =
          ⟨Crlf.convertBefore before, '\r' :: '\n' :: Crlf.convert rest⟩ from rfl,
          regex_broken (.inr rfl)]
        exact .error ..
      · rw [Crlf.place, Crlf.convert_cons hlf, regex_broken hc]
        exact .error ..
    · have hlf : c ≠ '\n' := fun h => hc (.inl h)
      set p : Cursor := ⟨before, c :: rest⟩ with hp
      have hrest : p.rest ≠ [] := List.cons_ne_nil c rest
      have hgoes : ¬ (p.rest = [] ∨ atLineEnd p = true) := by
        rw [hp, atLineEnd_iff]
        exact fun h => h.elim (List.cons_ne_nil c rest) hc
      have hgoes' : ¬ ((Crlf.place p).rest = [] ∨ atLineEnd (Crlf.place p) = true) := by
        rw [hp, Crlf.place, Crlf.convert_cons hlf, atLineEnd_iff]
        exact fun h => h.elim (List.cons_ne_nil c _) hc
      have hone : (Crlf.place p).forward 1 = Crlf.place (p.forward 1) := one_place hlf
      have hstarts : ∀ pattern : List Char, '\n' ∉ pattern → '\r' ∉ pattern →
          (Crlf.place p).startsWith pattern = p.startsWith pattern :=
        fun _ => Crlf.startsWith_place p
      rw [regexEscapes, if_neg hgoes] at hescapes
      rw [skipSwiftRegex, if_neg hgoes', skipSwiftRegex, if_neg hgoes]
      show Same (match activeSwiftEscape (Crlf.place p) literal.hashCount with
        | some escape => _
        | none => _) _
      rw [escape_place]
      cases hescape : activeSwiftEscape p literal.hashCount with
      | none =>
        rw [hescape] at hescapes
        simp only [Option.map_none] at hescapes ⊢
        rw [hstarts ['['] (by decide) (by decide), hstarts [']'] (by decide) (by decide), hone,
          show regexClosing (convertPrefix literal) = regexClosing literal from rfl,
          hstarts (regexClosing literal) (by simp [regexClosing]) (by simp [regexClosing])]
        split
        · rename_i hopen
          rw [if_pos hopen] at hescapes
          exact ih.regex_from (ahead_forward hrest 0) hfuel hfuel' hescapes
        rename_i hopen
        rw [if_neg hopen] at hescapes
        split
        · rename_i hclose
          rw [if_pos hclose] at hescapes
          exact ih.regex_from (ahead_forward hrest 0) hfuel hfuel' hescapes
        rename_i hclose
        rw [if_neg hclose] at hescapes
        split
        · rename_i hend
          rw [forward_pattern _ hend.2 (by simp [regexClosing]) rfl]
          exact .ok _
        · rename_i hend
          rw [if_neg hend] at hescapes
          exact ih.regex_from (ahead_forward hrest 0) hfuel hfuel' hescapes
      | some escape =>
        rw [hescape] at hescapes
        have hahead := escape_ahead hescape
        simp only [Option.map_some] at hescapes ⊢
        rw [Crlf.startsWith_place escape (by decide) (by decide)]
        split
        · rename_i hparenthesis
          rw [if_pos hparenthesis, Bool.or_eq_false_iff] at hescapes
          refine ih.interpolated hahead hparenthesis hfuel hfuel' hescapes.1 fun q hq hresult => ?_
          rw [hresult] at hescapes
          exact ih.regex_from hq hfuel hfuel' hescapes.2
        · rename_i hparenthesis
          rw [if_neg hparenthesis, Bool.or_eq_false_iff] at hescapes
          rw [escaped_place hescapes.1]
          exact ih.regex_from (hahead.forward 1) hfuel hfuel' hescapes.2

theorem Converts.interpolation_succ (ih : Converts fuel)
    (hfuel : 2 * p.rest.length + 2 ≤ fuel + 1)
    (hfuel' : 2 * (Crlf.place p).rest.length + 2 ≤ fuel' + 1)
    (hescapes : interpolationEscapes (fuel + 1) depth p = false) :
    Same (skipInterpolation (fuel' + 1) opening' depth (Crlf.place p))
      (skipInterpolation (fuel + 1) opening depth p) := by
  have hfurther : ∀ {q : Cursor} (d : Nat), Ahead p q → interpolationEscapes fuel d q = false →
      Same (skipInterpolation fuel' opening' d (Crlf.place q))
        (skipInterpolation fuel opening d q) := by
    intro q d h hnone
    have hlength := h.length
    have hlength' := (Crlf.ahead_place h).length
    exact ih.interpolation opening opening' d q fuel' (by omega) (by omega) hnone
  obtain ⟨before, rest⟩ := p
  cases rest with
  | nil =>
    have hnil : (Crlf.place ⟨before, []⟩).rest = [] := rfl
    rw [skipInterpolation, if_pos hnil, skipInterpolation, if_pos rfl]
    exact .error ..
  | cons c rest =>
    by_cases hc : c = '\n'
    · subst hc
      have hlength : (Crlf.place ⟨before, '\n' :: rest⟩).rest.length =
          (Crlf.convert rest).length + 2 := rfl
      simp only [List.length_cons] at hfuel
      obtain ⟨fuel', rfl⟩ : ∃ f, fuel' = f + 2 := ⟨fuel' - 2, by omega⟩
      obtain ⟨fuel, rfl⟩ : ∃ f, fuel = f + 1 := ⟨fuel - 1, by omega⟩
      have hplace : Crlf.place ⟨before, '\n' :: rest⟩ =
          ⟨Crlf.convertBefore before, '\r' :: '\n' :: Crlf.convert rest⟩ := rfl
      rw [hplace, interpolation_lineEnd (.inr rfl), interpolation_lineEnd (.inl rfl),
        interpolation_lineEnd (.inl rfl)]
      refine ih.interpolation opening opening' depth ⟨'\n' :: before, rest⟩ _ ?_ ?_
        (interpolationEscapes_lineEnd (.inl rfl) _ _ _ _ hescapes)
      · show 2 * rest.length + 2 ≤ fuel + 1
        omega
      · show 2 * (Crlf.convert rest).length + 2 ≤ fuel' + 1
        omega
    · set p : Cursor := ⟨before, c :: rest⟩ with hp
      have hrest : p.rest ≠ [] := List.cons_ne_nil c rest
      have hrest' : (Crlf.place p).rest ≠ [] := by
        rw [hp, Crlf.place, Crlf.convert_cons hc]
        exact List.cons_ne_nil _ _
      have hone : (Crlf.place p).forward 1 = Crlf.place (p.forward 1) := one_place hc
      rw [interpolationEscapes, if_neg hrest, Bool.or_eq_false_iff] at hescapes
      have hskipped := ih.opaques p fuel' (by omega) (by omega) hescapes.1
      rw [skipInterpolation, if_neg hrest', skipInterpolation, if_neg hrest]
      cases hresult : skipSwiftOpaque fuel p with
      | error e =>
        rw [hresult] at hskipped
        cases hconverted : skipSwiftOpaque fuel' (Crlf.place p) with
        | error e' => exact .error ..
        | ok found =>
          rw [hconverted] at hskipped
          cases hskipped
      | ok found =>
        rw [hresult] at hskipped hescapes
        cases hconverted : skipSwiftOpaque fuel' (Crlf.place p) with
        | error e' =>
          rw [hconverted] at hskipped
          cases hskipped
        | ok found' =>
          rw [hconverted] at hskipped
          cases hskipped
          cases found with
          | some q =>
            exact hfurther depth (((fuelled fuel).opaques p (by omega)).ahead q hresult) hescapes.2
          | none =>
            have hafter := hescapes.2
            simp only at hafter
            show Same (if (Crlf.place p).startsWith ['('] = true then _ else _)
              (if p.startsWith ['('] = true then _ else _)
            rw [Crlf.startsWith_place p (by decide) (by decide),
              Crlf.startsWith_place p (by decide) (by decide), hone]
            split
            · rename_i hopen
              rw [if_pos hopen] at hafter
              exact hfurther _ (ahead_forward hrest 0) hafter
            rename_i hopen
            rw [if_neg hopen] at hafter
            split
            · rename_i hclose
              rw [if_pos hclose] at hafter
              split
              · exact .ok _
              · rename_i hdepth
                rw [if_neg hdepth] at hafter
                exact hfurther _ (ahead_forward hrest 0) hafter
            · rename_i hclose
              rw [if_neg hclose] at hafter
              exact hfurther _ (ahead_forward hrest 0) hafter

end Converted

theorem converts (fuel : Nat) : Converts fuel := by
  induction fuel with
  | zero =>
    refine ⟨fun _ _ h => ?_, fun _ _ _ h => ?_, fun _ _ _ _ h => ?_, fun _ _ _ _ _ h => ?_⟩
    all_goals omega
  | succ fuel ih =>
    refine ⟨fun p fuel' hfuel hfuel' hescapes => ?_, fun _ p fuel' hfuel hfuel' hescapes => ?_,
      fun _ _ p fuel' hfuel hfuel' hescapes => ?_, fun _ _ _ p fuel' hfuel hfuel' hescapes => ?_⟩
    all_goals obtain ⟨fuel', rfl⟩ : ∃ f, fuel' = f + 1 := ⟨fuel' - 1, by omega⟩
    · rw [opaqueEscapes] at hescapes
      rw [skipSwiftOpaque, skipSwiftOpaque, Crlf.startsWith_place p (by decide) (by decide),
        Crlf.startsWith_place p (by decide) (by decide), stringPrefix_place, regexPrefix_place]
      split
      · rename_i hline
        rw [forward_pattern 2 hline (by decide) rfl, skipLineComment, afterLine_place]
        rfl
      rename_i hline
      split
      · rename_i hblock
        exact .some (blockComment_same hblock)
      rename_i hblock
      rw [if_neg fun h => h.elim hline hblock] at hescapes
      cases hstring : swiftStringPrefix p with
      | some literal =>
        rw [hstring] at hescapes
        have hwidth := stringPrefix_width hstring
        simp only [Option.map_some] at hescapes ⊢
        rw [show quoteWidth (convertPrefix literal) = quoteWidth literal by
          rw [quoteWidth, quoteWidth, isTriple_place],
          show (convertPrefix literal).delimiter = Crlf.place literal.delimiter from rfl, hwidth]
        exact .some (ih.string_from (stringPrefix_ahead hstring) hfuel hfuel' hescapes)
      | none =>
        rw [hstring] at hescapes
        cases hregex : swiftRegexPrefix p with
        | some literal =>
          rw [hregex] at hescapes
          have hslash := (regexPrefix_slash hregex).1
          simp only [Option.map_some, Option.map_none] at hescapes ⊢
          rw [show (convertPrefix literal).delimiter = Crlf.place literal.delimiter from rfl,
            forward_pattern 1 hslash (by decide) rfl]
          exact .some (ih.regex_from (regexPrefix_ahead hregex) hfuel hfuel' hescapes)
        | none => exact .none
    · exact ih.string_succ hfuel hfuel' hescapes
    · exact ih.regex_succ hfuel hfuel' hescapes
    · exact ih.interpolation_succ hfuel hfuel' hescapes

end SurfaceLoom.Scripts.SwiftLexical
