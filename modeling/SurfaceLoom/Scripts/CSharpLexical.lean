import SurfaceLoom.Scripts.SourceText

/-! # Comments and literals of C#

`skipCSharpOpaque` goes over the comment or literal that begins at a place. Interpolated
strings and their interpolations go over each other, on fuel of which there is enough. -/
namespace SurfaceLoom.Scripts.CSharpLexical
open SurfaceLoom.Lib SurfaceLoom.Lib.Cursor SurfaceLoom.Scripts.StaticBoolean
open SurfaceLoom.Scripts.SourceText

def skipCSharpLineComment (p : Cursor) : Cursor := afterLine p

def skipCSharpBlockComment (p : Cursor) : Evaluated Cursor :=
  match (p.forward 2).seek ['*', '/'] with
  | none => .error (sourceError p "C# source contains an unterminated block comment.")
  | some closing => .ok (closing.forward 2)

/-- `opening` is the place of the quote. -/
def skipQuotedFrom (opening : Cursor) (quote : Char) (verbatim : Bool) :
    List Char → List Char → Evaluated Cursor
  | _, [] =>
    .error (sourceError opening "C# source contains an unterminated string or character literal.")
  | before, [c] =>
    if c = quote then .ok ⟨c :: before, []⟩
    else
      .error (sourceError opening "C# source contains an unterminated string or character literal.")
  | before, c :: d :: rest =>
    if c = quote then
      if verbatim ∧ d = quote then skipQuotedFrom opening quote verbatim (d :: c :: before) rest
      else .ok ⟨c :: before, d :: rest⟩
    else if ¬ verbatim ∧ c = '\\' then
      skipQuotedFrom opening quote verbatim (d :: c :: before) rest
    else skipQuotedFrom opening quote verbatim (c :: before) (d :: rest)

def skipQuoted (opening : Cursor) (quote : Char) (verbatim : Bool) : Evaluated Cursor :=
  skipQuotedFrom opening quote verbatim (opening.forward 1).before (opening.forward 1).rest

def countQuotes (p : Cursor) : Nat := (p.rest.takeWhile (· = '"')).length

def skipRawString (p : Cursor) : Evaluated Cursor :=
  let width := countQuotes p
  match (p.forward width).seek (List.replicate width '"') with
  | none => .error (sourceError p "C# source contains an unterminated raw string literal.")
  | some closing => .ok (closing.forward width)

mutual

def skipCSharpOpaque : Nat → Cursor → Evaluated (Option Cursor)
  | 0, _ => .error .outOfFuel
  | fuel + 1, p =>
    if p.startsWith ['/', '/'] then .ok (some (skipCSharpLineComment (p.forward 2)))
    else if p.startsWith ['/', '*'] then (skipCSharpBlockComment p).map some
    else skipUnrelatedCSharpLiteral fuel p

def skipUnrelatedCSharpLiteral : Nat → Cursor → Evaluated (Option Cursor)
  | 0, _ => .error .outOfFuel
  | fuel + 1, p =>
    let dollars := (p.rest.takeWhile (· = '$')).length
    let cursor := p.forward dollars
    if p.startsWith ['\''] then (skipQuoted p '\'' false).map some
    else if dollars ≥ 1 ∧ countQuotes cursor ≥ 3 then (skipRawString cursor).map some
    else if dollars = 1 ∧ cursor.startsWith ['@', '"'] then
      (skipInterpolatedQuoted fuel (cursor.forward 1) true (cursor.forward 2)).map some
    else if dollars = 1 ∧ cursor.startsWith ['"'] then
      (skipInterpolatedQuoted fuel cursor false (cursor.forward 1)).map some
    else if p.startsWith ['@', '$', '"'] then
      (skipInterpolatedQuoted fuel (p.forward 2) true (p.forward 3)).map some
    else if p.startsWith ['@', '"'] then (skipQuoted (p.forward 1) '"' true).map some
    else if countQuotes p ≥ 3 then (skipRawString p).map some
    else if p.startsWith ['"'] then (skipQuoted p '"' false).map some
    else .ok none

/-- The loop of `skipInterpolatedQuoted`. -/
def skipInterpolatedQuoted : Nat → Cursor → Bool → Cursor → Evaluated Cursor
  | 0, _, _, _ => .error .outOfFuel
  | fuel + 1, opening, verbatim, p =>
    if p.rest = [] then
      .error (sourceError opening
        "C# source contains an unterminated interpolated string literal.")
    else if p.startsWith ['"'] then
      if verbatim ∧ p.startsWith ['"', '"'] then
        skipInterpolatedQuoted fuel opening verbatim (p.forward 2)
      else .ok (p.forward 1)
    else if ¬ verbatim ∧ p.startsWith ['\\'] then
      skipInterpolatedQuoted fuel opening verbatim (p.forward 2)
    else if p.startsWith ['{', '{'] then
      skipInterpolatedQuoted fuel opening verbatim (p.forward 2)
    else if p.startsWith ['{'] then do
      let after ← skipInterpolation fuel p 1 (p.forward 1)
      skipInterpolatedQuoted fuel opening verbatim after
    else if p.startsWith ['}', '}'] then
      skipInterpolatedQuoted fuel opening verbatim (p.forward 2)
    else skipInterpolatedQuoted fuel opening verbatim (p.forward 1)

/-- The loop of `skipInterpolation`. -/
def skipInterpolation : Nat → Cursor → Nat → Cursor → Evaluated Cursor
  | 0, _, _, _ => .error .outOfFuel
  | fuel + 1, openingBrace, depth, p =>
    if p.rest = [] then .error (sourceError openingBrace "C# interpolation is unterminated.")
    else do
      match ← skipCSharpOpaque fuel p with
      | some opaqueEnd => skipInterpolation fuel openingBrace depth opaqueEnd
      | none =>
        if p.startsWith ['{'] then skipInterpolation fuel openingBrace (depth + 1) (p.forward 1)
        else if p.startsWith ['}'] then
          if depth = 1 then .ok (p.forward 1)
          else skipInterpolation fuel openingBrace (depth - 1) (p.forward 1)
        else skipInterpolation fuel openingBrace depth (p.forward 1)

end

/-- Enough fuel for the text that is left. -/
def fuelFor (p : Cursor) : Nat := 3 * p.rest.length + 3

/-! ## Going ahead -/

theorem blockComment_advances {p : Cursor} (h : Ahead p (p.forward 2)) :
    Advances p (skipCSharpBlockComment p) := by
  unfold skipCSharpBlockComment
  split
  · exact .refused
  · rename_i closing hseek
    refine .ok ?_
    rcases seek_forward hseek with rfl | hahead
    · exact h.forward 2
    · exact (h.trans hahead).forward 2

theorem quotedFrom_advances (opening : Cursor) (quote : Char) (verbatim : Bool)
    (before rest : List Char) :
    Advances ⟨before, rest⟩ (skipQuotedFrom opening quote verbatim before rest) := by
  fun_induction skipQuotedFrom opening quote verbatim before rest with
  | case1 => exact .refused
  | case2 before => exact .ok (ahead_cons before _ [])
  | case3 => exact .refused
  | case4 before d rest _ ih => exact .from ((ahead_cons _ _ _).trans (ahead_cons _ _ _)) ih
  | case5 before d rest _ => exact .ok (ahead_cons before _ _)
  | case6 before c d rest _ _ ih => exact .from ((ahead_cons _ _ _).trans (ahead_cons _ _ _)) ih
  | case7 before c d rest _ _ ih => exact .from (ahead_cons _ _ _) ih

theorem quoted_advances {p opening : Cursor} (quote : Char) (verbatim : Bool)
    (h : Ahead p (opening.forward 1)) : Advances p (skipQuoted opening quote verbatim) :=
  .from h (quotedFrom_advances opening quote verbatim _ _)

theorem countQuotes_pos {p : Cursor} (h : 0 < countQuotes p) : p.rest ≠ [] := by
  intro hrest
  rw [countQuotes, hrest] at h
  exact Nat.lt_irrefl 0 h

theorem rawString_advances {p : Cursor} (h : 3 ≤ countQuotes p) : Advances p (skipRawString p) := by
  unfold skipRawString
  have hahead : Ahead p (p.forward (countQuotes p)) := by
    obtain ⟨n, hn⟩ : ∃ n, countQuotes p = n + 1 := ⟨countQuotes p - 1, by omega⟩
    rw [hn]
    exact ahead_forward (countQuotes_pos (by omega)) n
  simp only
  split
  · exact .refused
  · rename_i closing hseek
    refine .ok ?_
    rcases seek_forward hseek with rfl | hfurther
    · exact hahead.forward _
    · exact (hahead.trans hfurther).forward _

/-- What enough fuel is, for each scanner. -/
structure Fuelled (fuel : Nat) : Prop where
  opaques : ∀ p, 3 * p.rest.length + 2 ≤ fuel → MayAdvance p (skipCSharpOpaque fuel p)
  literal : ∀ p, 3 * p.rest.length + 1 ≤ fuel → MayAdvance p (skipUnrelatedCSharpLiteral fuel p)
  quoted : ∀ opening verbatim p, 3 * p.rest.length + 1 ≤ fuel →
    Advances p (skipInterpolatedQuoted fuel opening verbatim p)
  interpolation : ∀ openingBrace depth p, 3 * p.rest.length + 3 ≤ fuel →
    Advances p (skipInterpolation fuel openingBrace depth p)

/-- An interpolated string further on. -/
theorem Fuelled.quoted_from {fuel : Nat} (ih : Fuelled fuel) {opening p q : Cursor} {verbatim : Bool}
    (h : Ahead p q) (hfuel : 3 * p.rest.length + 1 ≤ fuel + 1) :
    Advances p (skipInterpolatedQuoted fuel opening verbatim q) := by
  have hlength := h.length
  exact .from h (ih.quoted opening verbatim q (by omega))

theorem Fuelled.literal_succ {fuel : Nat} (ih : Fuelled fuel) {p : Cursor}
    (hfuel : 3 * p.rest.length + 1 ≤ fuel + 1) :
    MayAdvance p (skipUnrelatedCSharpLiteral (fuel + 1) p) := by
  unfold skipUnrelatedCSharpLiteral
  simp only
  generalize hdollars : (p.rest.takeWhile (· = '$')).length = dollars
  have hcursor : ∀ n, dollars ≥ 1 → Ahead p ((p.forward dollars).forward n) := by
    intro n hone
    obtain ⟨d, rfl⟩ : ∃ d, dollars = d + 1 := ⟨dollars - 1, by omega⟩
    refine (ahead_forward (fun hrest => ?_) d).forward n
    rw [hrest] at hdollars
    cases hdollars
  split
  · rename_i hquote
    exact .some (quoted_advances _ _ (ahead_pattern hquote 0))
  split
  · rename_i hraw
    exact .some (.from (hcursor 0 hraw.1) (rawString_advances hraw.2))
  split
  · rename_i hverbatim
    exact .some (ih.quoted_from (hcursor 2 hverbatim.1.ge) hfuel)
  split
  · rename_i hinterpolated
    exact .some (ih.quoted_from (hcursor 1 hinterpolated.1.ge) hfuel)
  split
  · rename_i hverbatim
    exact .some (ih.quoted_from (ahead_pattern hverbatim 2) hfuel)
  split
  · rename_i hverbatim
    exact .some (quoted_advances _ _ ((ahead_pattern hverbatim 0).forward 1))
  split
  · rename_i hraw
    exact .some (rawString_advances hraw)
  split
  · rename_i hquote
    exact .some (quoted_advances _ _ (ahead_pattern hquote 0))
  · exact .none

theorem Fuelled.quoted_succ {fuel : Nat} (ih : Fuelled fuel) {opening p : Cursor} {verbatim : Bool}
    (hfuel : 3 * p.rest.length + 1 ≤ fuel + 1) :
    Advances p (skipInterpolatedQuoted (fuel + 1) opening verbatim p) := by
  unfold skipInterpolatedQuoted
  split
  · exact .refused
  · rename_i hrest
    have hnext : ∀ n, Ahead p (p.forward (n + 1)) := ahead_forward hrest
    split
    · split
      · exact ih.quoted_from (hnext 1) hfuel
      · exact .ok (hnext 0)
    split
    · exact ih.quoted_from (hnext 1) hfuel
    split
    · exact ih.quoted_from (hnext 1) hfuel
    split
    · have hlength := (hnext 0).length
      refine .bind (.from (hnext 0) (ih.interpolation p 1 _ (by omega))) fun q hq => ?_
      have hlength' := hq.length
      exact ih.quoted opening verbatim q (by omega)
    split
    · exact ih.quoted_from (hnext 1) hfuel
    · exact ih.quoted_from (hnext 0) hfuel

theorem Fuelled.interpolation_succ {fuel : Nat} (ih : Fuelled fuel) {openingBrace p : Cursor}
    {depth : Nat} (hfuel : 3 * p.rest.length + 3 ≤ fuel + 1) :
    Advances p (skipInterpolation (fuel + 1) openingBrace depth p) := by
  have hfurther : ∀ {q : Cursor} (d : Nat), Ahead p q →
      Advances p (skipInterpolation fuel openingBrace d q) := by
    intro q d hq
    have hlength := hq.length
    exact .from hq (ih.interpolation openingBrace d q (by omega))
  unfold skipInterpolation
  split
  · exact .refused
  · rename_i hrest
    have hskipped := ih.opaques p (by omega)
    cases hresult : skipCSharpOpaque fuel p with
    | error e =>
      refine ⟨fun hout => ?_, nofun⟩
      exact hskipped.fuelled (hresult.trans (congrArg Except.error (Except.error.inj hout)))
    | ok found =>
      cases found with
      | some opaqueEnd => exact hfurther depth (hskipped.ahead _ hresult)
      | none =>
        show Advances p (if p.startsWith ['{'] = true then _ else _)
        split
        · exact hfurther _ (ahead_forward hrest 0)
        split
        · split
          · exact .ok (ahead_forward hrest 0)
          · exact hfurther _ (ahead_forward hrest 0)
        · exact hfurther _ (ahead_forward hrest 0)

theorem fuelled (fuel : Nat) : Fuelled fuel := by
  induction fuel with
  | zero =>
    refine ⟨fun _ h => ?_, fun _ h => ?_, fun _ _ _ h => ?_, fun _ _ _ h => ?_⟩
    all_goals omega
  | succ fuel ih =>
    refine ⟨fun p hfuel => ?_, fun _ => ih.literal_succ, fun _ _ _ => ih.quoted_succ,
      fun _ _ _ => ih.interpolation_succ⟩
    unfold skipCSharpOpaque
    split
    · rename_i hline
      refine ⟨nofun, fun q hq => ?_⟩
      cases hq
      exact afterLine_ahead (ahead_pattern hline 1)
    split
    · rename_i hblock
      exact .some (blockComment_advances (ahead_pattern hblock 1))
    · exact ih.literal p (by omega)

/-! ## Line ends -/

theorem blockComment_same {p : Cursor} (h : p.startsWith ['/', '*'] = true) :
    Same (skipCSharpBlockComment (Crlf.place p)) (skipCSharpBlockComment p) := by
  unfold skipCSharpBlockComment
  rw [forward_pattern 2 h (by decide) rfl,
    Crlf.seek_place _ (by simp) (by decide) (by decide)]
  cases hseek : (p.forward 2).seek ['*', '/'] with
  | none =>
    exact .error ..
  | some closing =>
    show Same (.ok ((Crlf.place closing).forward 2)) (.ok (closing.forward 2))
    rw [forward_pattern 2 (seekFrom_startsWith hseek) (by decide) rfl]
    exact .ok _

section Quoted

variable {opening : Cursor} {quote : Char} {verbatim : Bool} {before rest : List Char}

theorem quoted_plain {c : Char} (hc : c ≠ quote) (hescape : verbatim = false → c ≠ '\\') :
    skipQuotedFrom opening quote verbatim before (c :: rest) =
      skipQuotedFrom opening quote verbatim (c :: before) rest := by
  cases rest with
  | nil => simp [skipQuotedFrom, hc]
  | cons d rest =>
    rw [skipQuotedFrom, if_neg hc, if_neg]
    rintro ⟨hverbatim, hslash⟩
    exact hescape (by simpa using hverbatim) hslash

theorem quoted_escape {d : Char} (hquote : quote ≠ '\\') :
    skipQuotedFrom opening quote false before ('\\' :: d :: rest) =
      skipQuotedFrom opening quote false (d :: '\\' :: before) rest := by
  rw [skipQuotedFrom, if_neg (Ne.symm hquote), if_pos ⟨by simp, rfl⟩]

theorem quoted_closing (h : verbatim = true → rest.head? ≠ some quote) :
    skipQuotedFrom opening quote verbatim before (quote :: rest) = .ok ⟨quote :: before, rest⟩ := by
  cases rest with
  | nil => simp [skipQuotedFrom]
  | cons d rest =>
    rw [skipQuotedFrom, if_pos rfl, if_neg]
    rintro ⟨hverbatim, rfl⟩
    exact h hverbatim rfl

theorem quotedFrom_same (opening' : Cursor) (hlf : quote ≠ '\n') (hcr : quote ≠ '\r')
    (hslash : quote ≠ '\\') :
    Same (skipQuotedFrom opening' quote verbatim (Crlf.convertBefore before) (Crlf.convert rest))
      (skipQuotedFrom opening quote verbatim before rest) := by
  have hends : ∀ (b r : List Char),
      skipQuotedFrom opening' quote verbatim b ('\r' :: '\n' :: r) =
        skipQuotedFrom opening' quote verbatim ('\n' :: '\r' :: b) r := by
    intro b r
    rw [quoted_plain (Ne.symm hcr) (fun _ => by decide),
      quoted_plain (Ne.symm hlf) (fun _ => by decide)]
  -- a character that is only gone over
  have hplain : ∀ (c : Char) (b r : List Char), c ≠ quote → (verbatim = false → c ≠ '\\') →
      skipQuotedFrom opening' quote verbatim (Crlf.convertBefore b) (Crlf.convert (c :: r)) =
        skipQuotedFrom opening' quote verbatim (Crlf.convertBefore (c :: b)) (Crlf.convert r) := by
    intro c b r hc hescape
    by_cases hnewline : c = '\n'
    · subst hnewline
      exact hends _ _
    · rw [Crlf.convert_cons hnewline, Crlf.convertBefore_cons hnewline]
      exact quoted_plain hc hescape
  fun_induction skipQuotedFrom opening quote verbatim before rest with
  | case1 => exact .error ..
  | case2 before =>
    rw [Crlf.convert_cons hlf, quoted_closing (fun _ => by simp), ← Crlf.convertBefore_cons hlf]
    exact .ok ⟨quote :: before, []⟩
  | case3 before c hc =>
    by_cases hescape : verbatim = false → c ≠ '\\'
    · rw [hplain c before [] hc hescape]
      exact .error ..
    · simp only [Classical.not_imp, not_not] at hescape
      obtain ⟨rfl, rfl⟩ := hescape
      rw [Crlf.convert_cons (by decide)]
      show Same (skipQuotedFrom _ _ _ _ ['\\']) _
      rw [skipQuotedFrom, if_neg hc]
      exact .error ..
  | case4 before d rest hdoubled ih =>
    obtain ⟨hverbatim, rfl⟩ := hdoubled
    rw [Crlf.convert_cons hlf, Crlf.convert_cons hlf, skipQuotedFrom, if_pos rfl,
      if_pos ⟨hverbatim, rfl⟩, ← Crlf.convertBefore_cons hlf, ← Crlf.convertBefore_cons hlf]
    exact ih
  | case5 before d rest hdoubled =>
    rw [Crlf.convert_cons hlf, quoted_closing, ← Crlf.convertBefore_cons hlf]
    · exact .ok ⟨quote :: before, d :: rest⟩
    · intro hverbatim hhead
      by_cases hd : d = '\n'
      · subst hd
        exact hcr (Option.some.inj hhead).symm
      · rw [Crlf.convert_cons hd] at hhead
        exact hdoubled ⟨hverbatim, Option.some.inj hhead⟩
  | case6 before c d rest hc hescape ih =>
    obtain ⟨hverbatim, rfl⟩ := hescape
    obtain rfl : verbatim = false := by simpa using hverbatim
    rw [Crlf.convert_cons (by decide)]
    by_cases hd : d = '\n'
    · subst hd
      rw [Crlf.convert_newline, quoted_escape hslash,
        quoted_plain (Ne.symm hlf) (fun _ => by decide)]
      exact ih
    · rw [Crlf.convert_cons hd, quoted_escape hslash]
      rw [Crlf.convertBefore_cons hd, Crlf.convertBefore_cons (by decide)] at ih
      exact ih
  | case7 before c d rest hc hescape ih =>
    have hnot : verbatim = false → c ≠ '\\' := by
      intro hverbatim hslash'
      exact hescape ⟨by simp [hverbatim], hslash'⟩
    rw [hplain c before (d :: rest) hc hnot]
    exact ih

end Quoted

theorem quoted_same {p : Cursor} {quote : Char} {verbatim : Bool} (h : p.startsWith [quote] = true)
    (hlf : quote ≠ '\n') (hcr : quote ≠ '\r') (hslash : quote ≠ '\\') :
    Same (skipQuoted (Crlf.place p) quote verbatim) (skipQuoted p quote verbatim) := by
  unfold skipQuoted
  rw [forward_pattern 1 h (by simpa using Ne.symm hlf) rfl]
  exact quotedFrom_same _ hlf hcr hslash

theorem countQuotes_place (p : Cursor) : countQuotes (Crlf.place p) = countQuotes p :=
  congrArg List.length (Crlf.takeWhile_convert (by decide) (by decide) p.rest)

theorem rawString_same {p : Cursor} (h : 3 ≤ countQuotes p) :
    Same (skipRawString (Crlf.place p)) (skipRawString p) := by
  unfold skipRawString
  simp only [countQuotes_place]
  have hwidth : (Crlf.place p).forward (countQuotes p) = Crlf.place (p.forward (countQuotes p)) :=
    Crlf.forward_while p (by decide)
  have hne : List.replicate (countQuotes p) '"' ≠ [] := by
    intro hnil
    rw [List.replicate_eq_nil_iff] at hnil
    omega
  have hlf : '\n' ∉ List.replicate (countQuotes p) '"' := by simp
  rw [hwidth, Crlf.seek_place _ hne hlf (by simp)]
  cases hseek : (p.forward (countQuotes p)).seek (List.replicate (countQuotes p) '"') with
  | none =>
    exact .error ..
  | some closing =>
    show Same (.ok ((Crlf.place closing).forward _)) (.ok (closing.forward _))
    rw [forward_pattern _ (seekFrom_startsWith hseek) hlf List.length_replicate]
    exact .ok _

theorem opaque_lineEnd {c : Char} (hc : LineEnd c) (fuel : Nat) (before rest : List Char) :
    skipCSharpOpaque (fuel + 2) ⟨before, c :: rest⟩ = .ok none := by
  rcases hc with rfl | rfl
  · simp [skipCSharpOpaque, skipUnrelatedCSharpLiteral, startsWith, countQuotes]
  · simp [skipCSharpOpaque, skipUnrelatedCSharpLiteral, startsWith, countQuotes]

theorem interpolated_lineEnd {c : Char} (hc : LineEnd c) (fuel : Nat) (opening : Cursor)
    (verbatim : Bool) (before rest : List Char) :
    skipInterpolatedQuoted (fuel + 1) opening verbatim ⟨before, c :: rest⟩ =
      skipInterpolatedQuoted fuel opening verbatim ⟨c :: before, rest⟩ := by
  rcases hc with rfl | rfl
  · simp [skipInterpolatedQuoted, startsWith]
  · simp [skipInterpolatedQuoted, startsWith]

theorem interpolation_lineEnd {c : Char} (hc : LineEnd c) (fuel : Nat) (openingBrace : Cursor)
    (depth : Nat) (before rest : List Char) :
    skipInterpolation (fuel + 3) openingBrace depth ⟨before, c :: rest⟩ =
      skipInterpolation (fuel + 2) openingBrace depth ⟨c :: before, rest⟩ := by
  rw [skipInterpolation, opaque_lineEnd hc, if_neg (List.cons_ne_nil c rest)]
  rcases hc with rfl | rfl
  · rfl
  · rfl

/-- Enough fuel for a text and for the converted text. -/
structure Converts (fuel : Nat) : Prop where
  opaques : ∀ p fuel', 3 * p.rest.length + 2 ≤ fuel →
    3 * (Crlf.place p).rest.length + 2 ≤ fuel' →
    SameOption (skipCSharpOpaque fuel' (Crlf.place p)) (skipCSharpOpaque fuel p)
  literal : ∀ p fuel', 3 * p.rest.length + 1 ≤ fuel →
    3 * (Crlf.place p).rest.length + 1 ≤ fuel' →
    SameOption (skipUnrelatedCSharpLiteral fuel' (Crlf.place p)) (skipUnrelatedCSharpLiteral fuel p)
  quoted : ∀ opening opening' verbatim p fuel', 3 * p.rest.length + 1 ≤ fuel →
    3 * (Crlf.place p).rest.length + 1 ≤ fuel' →
    Same (skipInterpolatedQuoted fuel' opening' verbatim (Crlf.place p))
      (skipInterpolatedQuoted fuel opening verbatim p)
  interpolation : ∀ openingBrace openingBrace' depth p fuel', 3 * p.rest.length + 3 ≤ fuel →
    3 * (Crlf.place p).rest.length + 3 ≤ fuel' →
    Same (skipInterpolation fuel' openingBrace' depth (Crlf.place p))
      (skipInterpolation fuel openingBrace depth p)

section Converted

variable {fuel fuel' : Nat} {p q opening opening' : Cursor} {verbatim : Bool} {depth : Nat}

theorem Converts.quoted_from (ih : Converts fuel) (h : Ahead p q)
    (hfuel : 3 * p.rest.length + 1 ≤ fuel + 1)
    (hfuel' : 3 * (Crlf.place p).rest.length + 1 ≤ fuel' + 1) :
    Same (skipInterpolatedQuoted fuel' opening' verbatim (Crlf.place q))
      (skipInterpolatedQuoted fuel opening verbatim q) := by
  have hlength := h.length
  have hlength' := (Crlf.ahead_place h).length
  exact ih.quoted opening opening' verbatim q fuel' (by omega) (by omega)

theorem Converts.literal_succ (ih : Converts fuel) (hfuel : 3 * p.rest.length + 1 ≤ fuel + 1)
    (hfuel' : 3 * (Crlf.place p).rest.length + 1 ≤ fuel' + 1) :
    SameOption (skipUnrelatedCSharpLiteral (fuel' + 1) (Crlf.place p))
      (skipUnrelatedCSharpLiteral (fuel + 1) p) := by
  unfold skipUnrelatedCSharpLiteral
  have hcount : ((Crlf.place p).rest.takeWhile (· = '$')).length =
      (p.rest.takeWhile (· = '$')).length :=
    congrArg List.length (Crlf.takeWhile_convert (by decide) (by decide) p.rest)
  have hplace := Crlf.forward_while p (f := (· = '$')) (by decide)
  simp only [hcount]
  generalize hdollars : (p.rest.takeWhile (· = '$')).length = dollars at hplace ⊢
  rw [hplace]
  have hcursor : ∀ n, dollars ≥ 1 → Ahead p ((p.forward dollars).forward n) := by
    intro n hone
    obtain ⟨d, rfl⟩ : ∃ d, dollars = d + 1 := ⟨dollars - 1, by omega⟩
    refine (ahead_forward (fun hrest => ?_) d).forward n
    rw [hrest] at hdollars
    cases hdollars
  generalize p.forward dollars = cursor at hcursor ⊢
  have hstarts : ∀ (q : Cursor) (pattern : List Char), '\n' ∉ pattern → '\r' ∉ pattern →
      (Crlf.place q).startsWith pattern = q.startsWith pattern := fun q _ => Crlf.startsWith_place q
  rw [hstarts p ['\''] (by decide) (by decide), hstarts cursor ['@', '"'] (by decide) (by decide),
    hstarts cursor ['"'] (by decide) (by decide), hstarts p ['@', '$', '"'] (by decide) (by decide),
    hstarts p ['@', '"'] (by decide) (by decide), hstarts p ['"'] (by decide) (by decide),
    countQuotes_place, countQuotes_place]
  split
  · rename_i hquote
    exact .some (quoted_same hquote (by decide) (by decide) (by decide))
  split
  · rename_i hraw
    exact .some (rawString_same hraw.2)
  split
  · rename_i hverbatim
    rw [forward_pattern 2 hverbatim.2 (by decide) rfl]
    exact .some (ih.quoted_from (hcursor 2 hverbatim.1.ge) hfuel hfuel')
  split
  · rename_i hinterpolated
    rw [forward_pattern 1 hinterpolated.2 (by decide) rfl]
    exact .some (ih.quoted_from (hcursor 1 hinterpolated.1.ge) hfuel hfuel')
  split
  · rename_i hverbatim
    rw [forward_pattern 3 hverbatim (by decide) rfl]
    exact .some (ih.quoted_from (ahead_pattern hverbatim 2) hfuel hfuel')
  split
  · rename_i hverbatim
    have hlead : p.startsWith ['@'] = true ∧ (p.forward 1).startsWith ['"'] = true := by
      obtain ⟨rest, hrest⟩ := List.isPrefixOf_iff_prefix.mp hverbatim
      refine ⟨List.isPrefixOf_iff_prefix.mpr ⟨'"' :: rest, hrest⟩, ?_⟩
      refine List.isPrefixOf_iff_prefix.mpr ⟨rest, ?_⟩
      rw [forward_rest, ← hrest]
      rfl
    rw [forward_pattern 1 hlead.1 (by decide) rfl]
    exact .some (quoted_same hlead.2 (by decide) (by decide) (by decide))
  split
  · rename_i hraw
    exact .some (rawString_same hraw)
  split
  · rename_i hquote
    exact .some (quoted_same hquote (by decide) (by decide) (by decide))
  · exact .none

/-- The character after a backslash is gone over. -/
theorem Converts.escaped (ih : Converts fuel) (h : p.startsWith ['\\'] = true)
    (hfuel : 3 * p.rest.length + 1 ≤ fuel + 1)
    (hfuel' : 3 * (Crlf.place p).rest.length + 1 ≤ fuel' + 1) :
    Same (skipInterpolatedQuoted fuel' opening' verbatim ((Crlf.place p).forward 2))
      (skipInterpolatedQuoted fuel opening verbatim (p.forward 2)) := by
  rcases escaped_cases p h with ⟨before, rest, rfl⟩ | hforward
  · have hplace : (Crlf.place ⟨before, '\\' :: '\n' :: rest⟩).forward 2 =
        ⟨'\r' :: '\\' :: Crlf.convertBefore before, '\n' :: Crlf.convert rest⟩ := rfl
    have hlength : (Crlf.place ⟨before, '\\' :: '\n' :: rest⟩).rest.length =
        (Crlf.convert rest).length + 3 := rfl
    obtain ⟨fuel', rfl⟩ : ∃ f, fuel' = f + 1 := ⟨fuel' - 1, by omega⟩
    rw [hplace, interpolated_lineEnd (.inl rfl)]
    refine ih.quoted opening opening' verbatim ⟨'\n' :: '\\' :: before, rest⟩ fuel' ?_ ?_
    · simp only [List.length_cons] at hfuel ⊢
      omega
    · show 3 * (Crlf.convert rest).length + 1 ≤ fuel'
      omega
  · rw [hforward]
    exact ih.quoted_from (ahead_pattern h 1) hfuel hfuel'

theorem Converts.quoted_succ (ih : Converts fuel) (hfuel : 3 * p.rest.length + 1 ≤ fuel + 1)
    (hfuel' : 3 * (Crlf.place p).rest.length + 1 ≤ fuel' + 1) :
    Same (skipInterpolatedQuoted (fuel' + 1) opening' verbatim (Crlf.place p))
      (skipInterpolatedQuoted (fuel + 1) opening verbatim p) := by
  obtain ⟨before, rest⟩ := p
  cases rest with
  | nil =>
    have hnil : (Crlf.place ⟨before, []⟩).rest = [] := rfl
    rw [skipInterpolatedQuoted, if_pos hnil, skipInterpolatedQuoted, if_pos rfl]
    exact .error ..
  | cons c rest =>
    by_cases hc : c = '\n'
    · subst hc
      have hlength : (Crlf.place ⟨before, '\n' :: rest⟩).rest.length =
          (Crlf.convert rest).length + 2 := rfl
      obtain ⟨fuel', rfl⟩ : ∃ f, fuel' = f + 1 := ⟨fuel' - 1, by omega⟩
      have hplace : Crlf.place ⟨before, '\n' :: rest⟩ =
          ⟨Crlf.convertBefore before, '\r' :: '\n' :: Crlf.convert rest⟩ := rfl
      rw [hplace, interpolated_lineEnd (.inr rfl), interpolated_lineEnd (.inl rfl),
        interpolated_lineEnd (.inl rfl)]
      refine ih.quoted opening opening' verbatim ⟨'\n' :: before, rest⟩ fuel' ?_ ?_
      · simp only [List.length_cons] at hfuel ⊢
        omega
      · show 3 * (Crlf.convert rest).length + 1 ≤ fuel'
        omega
    · set p : Cursor := ⟨before, c :: rest⟩ with hp
      have hrest : p.rest ≠ [] := List.cons_ne_nil c rest
      have hrest' : (Crlf.place p).rest ≠ [] := by
        rw [hp, Crlf.place, Crlf.convert_cons hc]
        exact List.cons_ne_nil _ _
      have hone : (Crlf.place p).forward 1 = Crlf.place (p.forward 1) :=
        Crlf.forward_place p (by simpa [hp] using Ne.symm hc)
      have hnext : ∀ n, Ahead p (p.forward (n + 1)) := ahead_forward hrest
      have hstarts : ∀ pattern : List Char, '\n' ∉ pattern → '\r' ∉ pattern →
          (Crlf.place p).startsWith pattern = p.startsWith pattern :=
        fun _ => Crlf.startsWith_place p
      rw [skipInterpolatedQuoted, if_neg hrest', skipInterpolatedQuoted, if_neg hrest,
        hstarts ['"'] (by decide) (by decide), hstarts ['"', '"'] (by decide) (by decide),
        hstarts ['\\'] (by decide) (by decide), hstarts ['{', '{'] (by decide) (by decide),
        hstarts ['{'] (by decide) (by decide), hstarts ['}', '}'] (by decide) (by decide)]
      split
      · split
        · rename_i hdoubled
          rw [forward_pattern 2 hdoubled.2 (by decide) rfl]
          exact ih.quoted_from (hnext 1) hfuel hfuel'
        · rw [hone]
          exact .ok _
      split
      · rename_i hescape
        exact ih.escaped hescape.2 hfuel hfuel'
      split
      · rename_i hdoubled
        rw [forward_pattern 2 hdoubled (by decide) rfl]
        exact ih.quoted_from (hnext 1) hfuel hfuel'
      split
      · rw [hone]
        have hfirst : Ahead p (p.forward 1) := hnext 0
        have hlength := hfirst.length
        have hlength' := (Crlf.ahead_place hfirst).length
        refine .bind (ih.interpolation _ _ 1 _ _ (by omega) (by omega)) fun q hq => ?_
        have hahead := ((fuelled fuel).interpolation _ 1 _ (by omega)).ahead q hq
        exact ih.quoted_from (hfirst.trans hahead) hfuel hfuel'
      split
      · rename_i hdoubled
        rw [forward_pattern 2 hdoubled (by decide) rfl]
        exact ih.quoted_from (hnext 1) hfuel hfuel'
      · rw [hone]
        exact ih.quoted_from (hnext 0) hfuel hfuel'

theorem Converts.interpolation_succ (ih : Converts fuel) (hfuel : 3 * p.rest.length + 3 ≤ fuel + 1)
    (hfuel' : 3 * (Crlf.place p).rest.length + 3 ≤ fuel' + 1) :
    Same (skipInterpolation (fuel' + 1) opening' depth (Crlf.place p))
      (skipInterpolation (fuel + 1) opening depth p) := by
  have hfurther : ∀ {q : Cursor} (d : Nat), Ahead p q →
      Same (skipInterpolation fuel' opening' d (Crlf.place q))
        (skipInterpolation fuel opening d q) := by
    intro q d h
    have hlength := h.length
    have hlength' := (Crlf.ahead_place h).length
    exact ih.interpolation opening opening' d q fuel' (by omega) (by omega)
  obtain ⟨before, rest⟩ := p
  cases rest with
  | nil =>
    have hnil : (Crlf.place ⟨before, []⟩).rest = [] := rfl
    rw [skipInterpolation, if_pos hnil, skipInterpolation, if_pos rfl]
    exact .error ..
  | cons c rest =>
    by_cases hc : c = '\n'
    · subst hc
      have hlength : (Crlf.place ⟨before, '\n' :: rest⟩).rest.length =
          (Crlf.convert rest).length + 2 := rfl
      simp only [List.length_cons] at hfuel
      obtain ⟨fuel', rfl⟩ : ∃ f, fuel' = f + 3 := ⟨fuel' - 3, by omega⟩
      obtain ⟨fuel, rfl⟩ : ∃ f, fuel = f + 2 := ⟨fuel - 2, by omega⟩
      have hplace : Crlf.place ⟨before, '\n' :: rest⟩ =
          ⟨Crlf.convertBefore before, '\r' :: '\n' :: Crlf.convert rest⟩ := rfl
      rw [hplace, interpolation_lineEnd (.inr rfl), interpolation_lineEnd (.inl rfl),
        interpolation_lineEnd (.inl rfl)]
      refine ih.interpolation opening opening' depth ⟨'\n' :: before, rest⟩ _ ?_ ?_
      · show 3 * rest.length + 3 ≤ fuel + 2
        omega
      · show 3 * (Crlf.convert rest).length + 3 ≤ fuel' + 2
        omega
    · set p : Cursor := ⟨before, c :: rest⟩ with hp
      have hrest : p.rest ≠ [] := List.cons_ne_nil c rest
      have hrest' : (Crlf.place p).rest ≠ [] := by
        rw [hp, Crlf.place, Crlf.convert_cons hc]
        exact List.cons_ne_nil _ _
      have hone : (Crlf.place p).forward 1 = Crlf.place (p.forward 1) :=
        Crlf.forward_place p (by simpa [hp] using Ne.symm hc)
      have hskipped := ih.opaques p fuel' (by omega) (by omega)
      rw [skipInterpolation, if_neg hrest', skipInterpolation, if_neg hrest]
      cases hresult : skipCSharpOpaque fuel p with
      | error e =>
        rw [hresult] at hskipped
        cases hconverted : skipCSharpOpaque fuel' (Crlf.place p) with
        | error e' => exact .error ..
        | ok found =>
          rw [hconverted] at hskipped
          cases hskipped
      | ok found =>
        rw [hresult] at hskipped
        cases hconverted : skipCSharpOpaque fuel' (Crlf.place p) with
        | error e' =>
          rw [hconverted] at hskipped
          cases hskipped
        | ok found' =>
          rw [hconverted] at hskipped
          cases hskipped
          cases found with
          | some q => exact hfurther depth (((fuelled fuel).opaques p (by omega)).ahead q hresult)
          | none =>
            show Same (if (Crlf.place p).startsWith ['{'] = true then _ else _)
              (if p.startsWith ['{'] = true then _ else _)
            rw [Crlf.startsWith_place p (by decide) (by decide),
              Crlf.startsWith_place p (by decide) (by decide), hone]
            split
            · exact hfurther _ (ahead_forward hrest 0)
            split
            · split
              · exact .ok _
              · exact hfurther _ (ahead_forward hrest 0)
            · exact hfurther _ (ahead_forward hrest 0)

end Converted

theorem converts (fuel : Nat) : Converts fuel := by
  induction fuel with
  | zero =>
    refine ⟨fun _ _ h => ?_, fun _ _ h => ?_, fun _ _ _ _ _ h => ?_, fun _ _ _ _ _ h => ?_⟩
    all_goals omega
  | succ fuel ih =>
    refine ⟨fun p fuel' hfuel hfuel' => ?_, fun p fuel' hfuel hfuel' => ?_,
      fun _ _ _ p fuel' hfuel hfuel' => ?_, fun _ _ _ p fuel' hfuel hfuel' => ?_⟩
    all_goals obtain ⟨fuel', rfl⟩ : ∃ f, fuel' = f + 1 := ⟨fuel' - 1, by omega⟩
    · rw [skipCSharpOpaque, skipCSharpOpaque, Crlf.startsWith_place p (by decide) (by decide),
        Crlf.startsWith_place p (by decide) (by decide)]
      split
      · rename_i hline
        rw [forward_pattern 2 hline (by decide) rfl, skipCSharpLineComment, afterLine_place]
        rfl
      split
      · rename_i hblock
        exact .some (blockComment_same hblock)
      · exact ih.literal p fuel' (by omega) (by omega)
    · exact ih.literal_succ hfuel hfuel'
    · exact ih.quoted_succ hfuel hfuel'
    · exact ih.interpolation_succ hfuel hfuel'

end SurfaceLoom.Scripts.CSharpLexical
