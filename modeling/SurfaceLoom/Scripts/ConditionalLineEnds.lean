import SurfaceLoom.Scripts.ConditionalBlocks

/-! # Conditional compilation and line ends

The mask of a source and of the source with CRLF for its line feeds. The mask sees a directive
line that ends in LF and not one that ends in CRLF, so the two agree where the source has no
directive line but its last, and no literal of one line that escapes a line feed. -/
namespace SurfaceLoom.Scripts.ConditionalCompilation
open SurfaceLoom.Lib SurfaceLoom.Lib.Cursor SurfaceLoom.Scripts.StaticBoolean
open SurfaceLoom.Scripts.SourceText

/-- Whether a literal of one line that begins here, or one in it, escapes a line feed. -/
def Language.escapes : Language → Cursor → Bool
  | csharp, _ => false
  | swift, p => SwiftLexical.opaqueEscapes (SwiftLexical.fuelFor p) p

/-- Where the line ends matter: a directive line that is not the last, an escaped line feed. -/
def breaks (language : Language) (s : State) : Bool :=
  match directiveAt s.place with
  | some d => !(s.place.forward d.text.length).rest.isEmpty
  | none => s.active && language.escapes s.place

/-- The mask of the converted source is the converted mask, and throws where the mask does. -/
def NewlineBlind (language : Language) (source : List Char) : Prop :=
  (maskConditionalCompilation language (Crlf.convert source)).toOption =
    (maskConditionalCompilation language source).toOption.map Crlf.convert

/-! ## Scanners -/

theorem Language.skipOpaque_place {language : Language} {p : Cursor}
    (h : language.escapes p = false) :
    SameOption (language.skipOpaque (Crlf.place p)) (language.skipOpaque p) := by
  cases language with
  | csharp =>
    refine (CSharpLexical.converts _).opaques p _ ?_ ?_
    · unfold CSharpLexical.fuelFor
      omega
    · unfold CSharpLexical.fuelFor
      omega
  | swift =>
    refine (SwiftLexical.converts _).opaques p _ ?_ ?_ h
    · unfold SwiftLexical.fuelFor
      omega
    · unfold SwiftLexical.fuelFor
      omega

theorem Language.skipOpaque_lineEnd (language : Language) {c : Char} (hc : LineEnd c)
    (before rest : List Char) : language.skipOpaque ⟨before, c :: rest⟩ = .ok none := by
  cases language with
  | csharp => exact CSharpLexical.opaque_lineEnd hc _ before rest
  | swift => exact SwiftLexical.opaque_lineEnd hc _ before rest

theorem between_place {p q : Cursor} (h : Ahead p q) :
    between (Crlf.place p) (Crlf.place q) = Crlf.convert (between p q) := by
  have hrest := between_rest h
  have hrest' := between_rest (Crlf.ahead_place h)
  have hconvert : Crlf.convert p.rest = Crlf.convert (between p q) ++ Crlf.convert q.rest := by
    conv_lhs => rw [hrest]
    exact Crlf.convert_append _ _
  exact List.append_cancel_right (hrest'.symm.trans hconvert)

/-! ## Directives -/

theorem lineText_place (p : Cursor) : lineText (Crlf.place p) = lineText p ∧ '\n' ∉ p.rest ∨
    lineText (Crlf.place p) = lineText p ++ ['\r'] := by
  obtain ⟨before, rest⟩ := p
  show (Crlf.convert rest).takeWhile (· ≠ '\n') = rest.takeWhile (· ≠ '\n') ∧ _ ∨
    (Crlf.convert rest).takeWhile (· ≠ '\n') = rest.takeWhile (· ≠ '\n') ++ ['\r']
  induction rest with
  | nil => exact .inl ⟨rfl, by simp⟩
  | cons c rest ih =>
    by_cases hc : c = '\n'
    · subst hc
      exact .inr rfl
    · rw [Crlf.convert_cons hc, List.takeWhile_cons_of_pos (by simpa using hc),
        List.takeWhile_cons_of_pos (by simpa using hc)]
      rcases ih with ⟨hline, hlast⟩ | hline
      · exact .inl ⟨by rw [hline], by simpa using ⟨Ne.symm hc, hlast⟩⟩
      · exact .inr (by rw [hline, List.cons_append])

theorem firstToken_place (p : Cursor) :
    isFirstTokenOnLine (Crlf.place p) = isFirstTokenOnLine p := by
  unfold isFirstTokenOnLine
  rw [show (Crlf.place p).before = Crlf.convertBefore p.before from rfl,
    Crlf.takeWhile_convertBefore (by decide)]

/-- A place without a directive has none in the converted source. -/
theorem directiveAt_none {p : Cursor} (h : directiveAt p = none) :
    directiveAt (Crlf.place p) = none := by
  unfold directiveAt readDirective at *
  rw [firstToken_place, Crlf.startsWith_place p (by decide) (by decide)]
  split
  · rename_i hplace
    rw [if_pos hplace] at h
    rcases lineText_place p with ⟨hline, -⟩ | hline
    · rw [hline, h]
    · rw [hline, parseDirective_cr]
  · rfl

/-- A directive in the last line. -/
theorem directiveAt_last {p : Cursor} {d : Directive} (h : directiveAt p = some d)
    (hlast : '\n' ∉ p.rest) : directiveAt (Crlf.place p) = some d := by
  have hrest : (Crlf.place p).rest = p.rest := Crlf.convert_plain hlast
  unfold directiveAt readDirective lineText at *
  rw [firstToken_place, Crlf.startsWith_place p (by decide) (by decide), hrest]
  exact h

theorem last_rest {p : Cursor} {d : Directive} (h : directiveAt p = some d)
    (hlast : (p.forward d.text.length).rest = []) : '\n' ∉ p.rest := by
  rw [directiveAt_text h, forward_rest] at hlast
  unfold lineText at hlast
  have hwhole : p.rest = p.rest.takeWhile (· ≠ '\n') := by
    have hsplit := List.takeWhile_append_dropWhile (p := (· ≠ '\n')) (l := p.rest)
    rw [List.drop_eq_nil_iff] at hlast
    have hlead := List.takeWhile_prefix (· ≠ '\n') (l := p.rest)
    exact (hlead.eq_of_length_le hlast).symm
  intro hmem
  rw [hwhole] at hmem
  simpa using List.mem_takeWhile_imp hmem

/-- A block that is opened in the last line is not closed, and no other directive may stand
there. -/
theorem last_refused (language : Language) {p : Cursor} {d : Directive}
    (h : directiveAt p = some d) (hlast : (p.forward d.text.length).rest = []) (fuel : Nat)
    (masked : List Char) : (maskLoop language fuel ⟨p, masked, [], true⟩).toOption = none := by
  cases fuel with
  | zero => rfl
  | succ fuel =>
    have hrest : p.rest ≠ [] := by
      intro hnil
      unfold directiveAt startsWith at h
      rw [hnil] at h
      cases h
    rw [maskLoop, if_neg hrest]
    have hround : State.round language ⟨p, masked, [], true⟩ =
        State.direct language ⟨p, masked, [], true⟩ d := by
      unfold State.round
      rw [show directiveAt (State.mk p masked [] true).place = some d from h]
    rw [hround]
    cases hdirect : State.direct language ⟨p, masked, [], true⟩ d with
    | error e => rfl
    | ok t =>
      obtain ⟨-, active, stack, happly, rfl⟩ := direct_ok hdirect
      unfold applyDirective at happly
      split at happly
      · obtain ⟨frame, -, heq⟩ := Checked.map_ok.mp happly
        cases heq
        cases fuel with
        | zero => rfl
        | succ fuel =>
          show (maskLoop language (fuel + 1) _).toOption = none
          rw [maskLoop, if_pos hlast]
          rfl
      · cases happly

/-! ## The loop -/

/-- The state of the loop over the converted source. -/
def State.convert (s : State) : State :=
  ⟨Crlf.place s.place, Crlf.convert s.masked, [], true⟩

/-- A line end is gone over as it is. -/
theorem round_lineEnd (language : Language) {c : Char} (hc : LineEnd c)
    (before rest masked : List Char) :
    State.round language ⟨⟨before, c :: rest⟩, masked, [], true⟩ =
      .ok ⟨⟨c :: before, rest⟩, masked ++ [c], [], true⟩ := by
  have hnone : directiveAt ⟨before, c :: rest⟩ = none := by
    unfold directiveAt
    rw [if_neg]
    rcases hc with rfl | rfl
    · simp [startsWith]
    · simp [startsWith]
  unfold State.round
  rw [show directiveAt (State.mk ⟨before, c :: rest⟩ masked [] true).place = none from hnone]
  unfold State.read
  simp only [if_true, language.skipOpaque_lineEnd hc]
  rfl

theorem loop_lineEnd (language : Language) {c : Char} (hc : LineEnd c) (fuel : Nat)
    (before rest masked : List Char) :
    maskLoop language (fuel + 1) ⟨⟨before, c :: rest⟩, masked, [], true⟩ =
      maskLoop language fuel ⟨⟨c :: before, rest⟩, masked ++ [c], [], true⟩ := by
  rw [maskLoop, if_neg (List.cons_ne_nil c rest), round_lineEnd language hc]
  rfl

/-- How the loop goes on where no directive begins. -/
theorem round_plain (language : Language) {p : Cursor} (masked : List Char)
    (hdirective : directiveAt p = none) : State.round language ⟨p, masked, [], true⟩ =
      (language.skipOpaque p).map fun
        | some opaqueEnd => ⟨opaqueEnd, masked ++ between p opaqueEnd, [], true⟩
        | none => ⟨p.forward 1, masked ++ p.rest.take 1, [], true⟩ := by
  unfold State.round
  rw [show directiveAt (State.mk p masked [] true).place = none from hdirective]
  rfl

theorem loop_plain (language : Language) {p : Cursor} (masked : List Char) (hrest : p.rest ≠ [])
    (hdirective : directiveAt p = none) (fuel : Nat) :
    maskLoop language (fuel + 1) ⟨p, masked, [], true⟩ =
      ((language.skipOpaque p).map fun
        | some opaqueEnd => ⟨opaqueEnd, masked ++ between p opaqueEnd, [], true⟩
        | none => ⟨p.forward 1, masked ++ p.rest.take 1, [], true⟩) >>= maskLoop language fuel := by
  rw [maskLoop, if_neg hrest, round_plain language masked hdirective]

theorem loop_converted (language : Language) : ∀ (fuel fuel' : Nat) (s : State), s.stack = [] →
    s.active = true → s.place.rest.length < fuel → (Crlf.convert s.place.rest).length < fuel' →
    reaches language (breaks language) fuel s = false →
    (maskLoop language fuel' s.convert).toOption =
      (maskLoop language fuel s).toOption.map Crlf.convert := by
  intro fuel
  induction fuel with
  | zero => exact fun _ s _ _ hfuel => absurd hfuel (Nat.not_lt_zero _)
  | succ fuel ih =>
    intro fuel' s hstack hactive hfuel hfuel' hfine
    obtain ⟨fuel', rfl⟩ : ∃ f, fuel' = f + 1 := ⟨fuel' - 1, by omega⟩
    obtain ⟨⟨before, rest⟩, masked, stack, active⟩ := s
    cases (show stack = [] from hstack)
    cases (show active = true from hactive)
    cases rest with
    | nil => rfl
    | cons c rest =>
      rw [reaches, if_neg (List.cons_ne_nil c rest), Bool.or_eq_false_iff] at hfine
      obtain ⟨hbreaks, hfine⟩ := hfine
      by_cases hc : c = '\n'
      · subst hc
        rw [round_lineEnd language (.inl rfl)] at hfine
        have hsize : (Crlf.convert ('\n' :: rest)).length = (Crlf.convert rest).length + 2 := rfl
        simp only [hsize] at hfuel'
        simp only [List.length_cons] at hfuel
        obtain ⟨fuel', rfl⟩ : ∃ f, fuel' = f + 1 := ⟨fuel' - 1, by omega⟩
        have hstate : State.convert ⟨⟨before, '\n' :: rest⟩, masked, [], true⟩ =
            ⟨⟨Crlf.convertBefore before, '\r' :: '\n' :: Crlf.convert rest⟩, Crlf.convert masked, [],
              true⟩ := rfl
        have hlater := ih fuel' ⟨⟨'\n' :: before, rest⟩, masked ++ ['\n'], [], true⟩ rfl rfl
          (by simpa using hfuel) (by simp only; omega) hfine
        unfold State.convert at hlater
        rw [Crlf.convert_append] at hlater
        rw [hstate, loop_lineEnd language (.inr rfl), loop_lineEnd language (.inl rfl),
          loop_lineEnd language (.inl rfl), List.append_assoc]
        exact hlater
      · set p : Cursor := ⟨before, c :: rest⟩ with hp
        have hrest : p.rest ≠ [] := List.cons_ne_nil c rest
        have hplace : (Crlf.place p).rest = c :: Crlf.convert rest := Crlf.convert_cons hc rest
        have hrest' : (Crlf.place p).rest ≠ [] := by
          rw [hplace]
          exact List.cons_ne_nil _ _
        cases hdirective : directiveAt p with
        | some d =>
          have hlast : (p.forward d.text.length).rest = [] := by
            unfold breaks at hbreaks
            rw [show directiveAt (State.mk p masked [] true).place = some d from hdirective] at hbreaks
            simpa using hbreaks
          have hplain := last_rest hdirective hlast
          have hlast' : ((Crlf.place p).forward d.text.length).rest = [] := by
            rw [forward_rest] at hlast ⊢
            rw [show (Crlf.place p).rest = p.rest from Crlf.convert_plain hplain]
            exact hlast
          rw [last_refused language hdirective hlast]
          exact last_refused language (directiveAt_last hdirective hplain) hlast' _ _
        | none =>
          have hescapes : language.escapes p = false := by
            unfold breaks at hbreaks
            rw [show directiveAt (State.mk p masked [] true).place = none from hdirective] at hbreaks
            exact hbreaks
          have hsame := Language.skipOpaque_place hescapes
          rw [round_plain language masked hdirective] at hfine
          show (maskLoop language (fuel' + 1) ⟨Crlf.place p, Crlf.convert masked, [], true⟩).toOption =
            (maskLoop language (fuel + 1) ⟨p, masked, [], true⟩).toOption.map Crlf.convert
          rw [loop_plain language _ hrest' (directiveAt_none hdirective),
            loop_plain language _ hrest hdirective]
          cases hskipped : language.skipOpaque p with
          | error e =>
            rw [hskipped] at hsame
            cases hconverted : language.skipOpaque (Crlf.place p) with
            | error e' => rfl
            | ok found =>
              rw [hconverted] at hsame
              cases hsame
          | ok found =>
            rw [hskipped] at hsame hfine
            cases hconverted : language.skipOpaque (Crlf.place p) with
            | error e' =>
              rw [hconverted] at hsame
              cases hsame
            | ok found' =>
              rw [hconverted] at hsame
              cases hsame
              cases found with
              | none =>
                have hone : (Crlf.place p).forward 1 = Crlf.place (p.forward 1) :=
                  SwiftLexical.one_place hc
                have htake : (Crlf.place p).rest.take 1 = Crlf.convert (p.rest.take 1) := by
                  rw [hplace, hp]
                  exact (Crlf.convert_cons hc []).symm
                have hlater := ih fuel' ⟨p.forward 1, masked ++ p.rest.take 1, [], true⟩ rfl rfl
                  ?_ ?_ hfine
                · unfold State.convert at hlater
                  rw [Crlf.convert_append] at hlater
                  show (maskLoop language fuel' ⟨(Crlf.place p).forward 1, _, [], true⟩).toOption = _
                  rw [hone, htake]
                  exact hlater
                · simp only [hp, forward_cons, List.length_cons] at hfuel ⊢
                  omega
                · simp only [hp, forward_cons]
                  rw [show (State.mk p masked [] true).place.rest = c :: rest from rfl,
                    Crlf.convert_cons hc, List.length_cons] at hfuel'
                  omega
              | some q =>
                have hahead := Language.ahead hskipped
                have hlength := hahead.length
                have hlength' := (Crlf.ahead_place hahead).length
                have hlater := ih fuel' ⟨q, masked ++ between p q, [], true⟩ rfl rfl
                  (Nat.lt_of_lt_of_le hlength (Nat.le_of_lt_succ hfuel))
                  (Nat.lt_of_lt_of_le hlength' (Nat.le_of_lt_succ hfuel')) hfine
                unfold State.convert at hlater
                rw [Crlf.convert_append, ← between_place hahead] at hlater
                exact hlater

/-! ## Both conventions -/

/-- The loop comes to no directive line that ends in CRLF; and where there is no CR yet, to none
that ends in LF, and to no literal of one line that escapes a line feed. -/
def Untouched (language : Language) (source : List Char) : Prop :=
  reaches language misses (source.length + 1) (begin source) = false ∧
    ('\r' ∉ source → reaches language (breaks language) (source.length + 1) (begin source) = false)

/-- The mask is exact, and the same for both conventions. -/
def MaskExact (language : Language) (source : List Char) : Prop :=
  (∀ out, maskConditionalCompilation language source = .ok out → Exact language source out) ∧
    ('\r' ∉ source → NewlineBlind language source)

theorem untouched_exact (language : Language) (source : List Char)
    (h : Untouched language source) : MaskExact language source := by
  refine ⟨fun out hout => mask_ok h.1 hout, fun hcr => ?_⟩
  exact loop_converted language _ _ (begin source) rfl rfl (Nat.lt_succ_self _)
    (Nat.lt_succ_self _) (h.2 hcr)

theorem untouched_exact_literals : MaskExact .swift "let a = \"#if\"\n// x".toList :=
  untouched_exact .swift _ ⟨by decide +kernel, fun _ => by decide +kernel⟩

/-- With CRLF for its line feeds no directive of this source is seen, and nothing is masked. -/
theorem directives_missed : ¬ MaskExact .csharp "#if false\nx\n#endif\n".toList := by
  intro h
  have hblind := h.2 (by decide)
  unfold NewlineBlind at hblind
  have hmask : (maskConditionalCompilation .csharp "#if false\nx\n#endif\n".toList).toOption =
      some "         \n \n      \n".toList := by decide +kernel
  have hmissed : (maskConditionalCompilation .csharp
      (Crlf.convert "#if false\nx\n#endif\n".toList)).toOption =
        some "#if false\r\nx\r\n#endif\r\n".toList := by decide +kernel
  rw [hmask, hmissed] at hblind
  exact absurd hblind (by decide)

end SurfaceLoom.Scripts.ConditionalCompilation
