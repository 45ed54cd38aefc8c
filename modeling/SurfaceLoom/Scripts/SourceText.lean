import SurfaceLoom.Lib.Cursor
import SurfaceLoom.Scripts.StaticBoolean

/-! # Scanning a source text

What the scanners of C# and Swift share: an error at a place of the source, a scanner that goes
ahead, and one that reads a text the same whatever its line ends are. -/
namespace SurfaceLoom.Scripts.SourceText
open SurfaceLoom.Lib SurfaceLoom.Lib.Cursor SurfaceLoom.Scripts.StaticBoolean

/-- `csharpSourceError`, `swiftSourceError` -/
def sourceError (p : Cursor) (message : String) : Failure :=
  .error (message ++ " (" ++ toString p.line ++ ":" ++ toString p.column ++ ")")

/-- The end of a line comment: after the next line feed, or the end of the source. -/
def afterLine (p : Cursor) : Cursor :=
  match p.seek ['\n'] with
  | none => p.toEnd
  | some newline => newline.forward 1

/-- A scanner that has enough fuel and ends further on. -/
structure Advances (p : Cursor) (result : Evaluated Cursor) : Prop where
  fuelled : result ≠ .error .outOfFuel
  ahead : ∀ q, result = .ok q → Ahead p q

/-- The same of one that may have nothing to go over. -/
structure MayAdvance (p : Cursor) (result : Evaluated (Option Cursor)) : Prop where
  fuelled : result ≠ .error .outOfFuel
  ahead : ∀ q, result = .ok (some q) → Ahead p q

theorem Advances.ok {p q : Cursor} (h : Ahead p q) : Advances p (.ok q) :=
  ⟨nofun, fun _ hq => by cases hq; exact h⟩

theorem Advances.refused {p opening : Cursor} {message : String} :
    Advances p (.error (sourceError opening message)) := ⟨nofun, nofun⟩

theorem Advances.from {p q : Cursor} {result : Evaluated Cursor} (hpq : Ahead p q)
    (h : Advances q result) : Advances p result :=
  ⟨h.fuelled, fun r hr => hpq.trans (h.ahead r hr)⟩

theorem Advances.bind {p : Cursor} {first : Evaluated Cursor} {next : Cursor → Evaluated Cursor}
    (hfirst : Advances p first) (hnext : ∀ q, Ahead p q → Advances q (next q)) :
    Advances p (first >>= next) := by
  cases hresult : first with
  | error e =>
    refine ⟨?_, nofun⟩
    intro hout
    exact hfirst.fuelled (hresult.trans (congrArg Except.error (Except.error.inj hout)))
  | ok q =>
    have hahead := hfirst.ahead q hresult
    exact (hnext q hahead).from hahead

theorem MayAdvance.some {p : Cursor} {result : Evaluated Cursor} (h : Advances p result) :
    MayAdvance p (result.map Option.some) := by
  cases hresult : result with
  | error e =>
    refine ⟨?_, nofun⟩
    intro hout
    exact h.fuelled (hresult.trans (congrArg Except.error (Except.error.inj hout)))
  | ok q =>
    refine ⟨nofun, fun r hr => ?_⟩
    cases hr
    exact h.ahead q hresult

theorem MayAdvance.none {p : Cursor} : MayAdvance p (.ok .none) := ⟨nofun, nofun⟩

/-- A pattern is gone over. -/
theorem ahead_pattern {p : Cursor} {c : Char} {pattern : List Char}
    (h : p.startsWith (c :: pattern) = true) (n : Nat) : Ahead p (p.forward (n + 1)) :=
  ahead_forward (startsWith_ne_nil (List.cons_ne_nil c pattern) h) n

theorem afterLine_ahead {p q : Cursor} (h : Ahead p q) : Ahead p (afterLine q) := by
  unfold afterLine
  split
  · exact h.forward _
  · rename_i newline hseek
    rcases seek_forward hseek with rfl | hahead
    · exact h.forward 1
    · exact (h.trans hahead).forward 1

/-! ## Line ends -/

/-- Reading the converted text ends where reading the text does, and throws where it does. -/
def Same (converted result : Evaluated Cursor) : Prop :=
  converted.toOption = result.toOption.map Crlf.place

def SameOption (converted result : Evaluated (Option Cursor)) : Prop :=
  converted.toOption = result.toOption.map (Option.map Crlf.place)

theorem Same.ok (p : Cursor) : Same (.ok (Crlf.place p)) (.ok p) := rfl

theorem Same.error (e e' : Failure) : Same (.error e) (.error e') := rfl

theorem SameOption.some {converted result : Evaluated Cursor} (h : Same converted result) :
    SameOption (converted.map Option.some) (result.map Option.some) := by
  cases result with
  | error e =>
    cases converted with
    | error e' => rfl
    | ok q => cases h
  | ok p =>
    cases converted with
    | error e' => cases h
    | ok q =>
      rw [Same] at h
      cases h
      rfl

theorem SameOption.none : SameOption (.ok .none) (.ok .none) := rfl

theorem Same.bind {converted result : Evaluated Cursor} {next' next : Cursor → Evaluated Cursor}
    (h : Same converted result)
    (hnext : ∀ q, result = .ok q → Same (next' (Crlf.place q)) (next q)) :
    Same (converted >>= next') (result >>= next) := by
  cases hresult : result with
  | error e =>
    rw [hresult] at h
    cases hconverted : converted with
    | error e' => rfl
    | ok q =>
      rw [hconverted] at h
      cases h
  | ok p =>
    rw [hresult] at h
    cases hconverted : converted with
    | error e' =>
      rw [hconverted] at h
      cases h
    | ok q =>
      rw [hconverted] at h
      cases h
      exact hnext p hresult

/-- A character that ends a line. -/
def LineEnd (c : Char) : Prop := c = '\n' ∨ c = '\r'

theorem afterLine_place (p : Cursor) :
    afterLine (Crlf.place p) = Crlf.place (afterLine p) := by
  have hnewline := Crlf.seekFrom_newline p.rest p.before
  unfold afterLine seek
  cases hseek : seekFrom ['\n'] p.before p.rest with
  | none =>
    rw [hseek, Option.map_none, Option.map_none, Option.map_eq_none_iff] at hnewline
    rw [show seekFrom ['\n'] (Crlf.place p).before (Crlf.place p).rest = none from hnewline]
    exact Crlf.toEnd_place p
  | some newline =>
    rw [hseek, Option.map_some, Option.map_some, Option.map_eq_some_iff] at hnewline
    obtain ⟨newline', hseek', hforward⟩ := hnewline
    rw [show seekFrom ['\n'] (Crlf.place p).before (Crlf.place p).rest = some newline' from hseek']
    exact hforward

/-- Going over a pattern without line ends. -/
theorem forward_pattern {p : Cursor} {pattern : List Char} (n : Nat)
    (h : p.startsWith pattern = true) (hlf : '\n' ∉ pattern) (hlength : pattern.length = n) :
    (Crlf.place p).forward n = Crlf.place (p.forward n) := by
  subst hlength
  refine Crlf.forward_place p ?_
  obtain ⟨rest, hrest⟩ := List.isPrefixOf_iff_prefix.mp h
  rw [← hrest, List.take_left]
  exact hlf

/-- An escaped character is a line feed or is gone over as it is. -/
theorem escaped_cases (p : Cursor) (h : p.startsWith ['\\'] = true) :
    (∃ before rest, p = ⟨before, '\\' :: '\n' :: rest⟩) ∨
      (Crlf.place p).forward 2 = Crlf.place (p.forward 2) := by
  obtain ⟨before, rest⟩ := p
  obtain ⟨rest, rfl⟩ := List.isPrefixOf_iff_prefix.mp h
  cases rest with
  | nil => exact .inr (Crlf.forward_place _ (by simp))
  | cons d rest =>
    by_cases hd : d = '\n'
    · subst hd
      exact .inl ⟨before, rest, rfl⟩
    · exact .inr (Crlf.forward_place _ (by simpa using Ne.symm hd))

end SurfaceLoom.Scripts.SourceText
