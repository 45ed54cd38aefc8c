import SurfaceLoom.Scripts.ConditionalCompilation
import SurfaceLoom.Scripts.StaticBooleanGrammar

/-! # Blocks of conditional compilation

What conditional compilation means: a source is text, literals and blocks of branches, and the
branch of a block that is compiled is the first one whose condition holds. A directive line may
end in LF or in CRLF. What the mask writes is what this says, where no directive line that it
comes to ends in CRLF. -/
namespace SurfaceLoom.Scripts.ConditionalCompilation
open SurfaceLoom.Core (isSpace)
open SurfaceLoom.Lib SurfaceLoom.Lib.Cursor SurfaceLoom.Scripts.StaticBoolean
open SurfaceLoom.Scripts.SourceText

/-! ## Blocks -/

mutual

inductive Items
  | nil
  | text (c : Char) (rest : Items)
  | literal (chars : List Char) (rest : Items)
  | block (branches : Branches) (closing : Directive) (rest : Items)

inductive Branches
  | nil
  | branch (line : Directive) (body : Items) (rest : Branches)

end

/-- Whether the condition of a branch holds. -/
def holds (d : Directive) : Bool :=
  d.keyword = .elseBranch ||
    (evaluateStaticBooleanExpression d.expression).toOption = some (some true)

/-- The characters of a text, and whether they are masked. -/
abbrev Marks := List (Char × Bool)

def marked (masked : Bool) (text : List Char) : Marks := text.map fun c => (c, masked)

mutual

/-- In a source that is compiled or not, directive lines and branches that are not compiled are
masked; `taken` says that an earlier branch of the block is the compiled one. -/
def Items.marks (active : Bool) : Items → Marks
  | .nil => []
  | .text c rest => (c, !active) :: rest.marks active
  | .literal chars rest => marked (!active) chars ++ rest.marks active
  | .block branches closing rest =>
    branches.marks active false ++ (marked true closing.text ++ rest.marks active)

def Branches.marks (active taken : Bool) : Branches → Marks
  | .nil => []
  | .branch line body rest =>
    marked true line.text ++ (body.marks (active && (!taken && holds line)) ++
      rest.marks active (taken || active && holds line))

end

def Marks.source (marks : Marks) : List Char := marks.map Prod.fst

def Marks.result (marks : Marks) : List Char :=
  marks.flatMap fun m => if m.2 then blank m.1 else [m.1]

/-! ## Reading a source -/

/-- A directive line in either convention: its text ends before the CR of a CRLF. -/
def lineDirective (p : Cursor) : Option Directive :=
  if p.startsWith ['#'] && isFirstTokenOnLine p then
    if (lineText p).getLast? = some '\r' then parseDirective (lineText p).dropLast
    else parseDirective (lineText p)
  else none

/-- Where a block is: before its `#if`, after a branch with a condition, after its `#else`. -/
inductive Phase
  | opening
  | middle
  | last

def Phase.follows (language : Language) : Phase → Keyword → Option Phase
  | .opening, .ifBlock => some .middle
  | .middle, .elseBranch => some .last
  | .middle, keyword => if keyword = language.elseifKeyword then some .middle else none
  | _, _ => none

/-- A condition is known where it decides; `#else` has none. -/
def Known (d : Directive) (decides : Bool) : Prop :=
  if d.keyword = .elseBranch then d.expression = []
  else decides = true →
    ∃ value, evaluateStaticBooleanExpression d.expression = .ok (some value)

mutual

/-- From one place to another a source has these items. -/
inductive Reads (language : Language) : Bool → Cursor → Items → Cursor → Prop
  | nil {active : Bool} {p : Cursor} : Reads language active p .nil p
  | text {active : Bool} {p q : Cursor} {c : Char} {rest : List Char} {items : Items} :
      p.rest = c :: rest → lineDirective p = none →
      (active = true → language.skipOpaque p = .ok none) →
      Reads language active (p.forward 1) items q → Reads language active p (.text c items) q
  | literal {p opaqueEnd q : Cursor} {items : Items} : lineDirective p = none →
      language.skipOpaque p = .ok (some opaqueEnd) → Reads language true opaqueEnd items q →
      Reads language true p (.literal (between p opaqueEnd) items) q
  | block {active : Bool} {p q r : Cursor} {branches : Branches} {closing : Directive}
      {items : Items} : ReadsBranches language active false .opening p branches q →
      lineDirective q = some closing → closing.keyword = .endif → closing.expression = [] →
      Reads language active (q.forward closing.text.length) items r →
      Reads language active p (.block branches closing items) r

/-- The branches of a block, up to its `#endif`. -/
inductive ReadsBranches (language : Language) : Bool → Bool → Phase → Cursor → Branches → Cursor →
    Prop
  | nil {active taken : Bool} {phase : Phase} {p : Cursor} :
      ReadsBranches language active taken phase p .nil p
  | branch {active taken : Bool} {phase phase' : Phase} {p q r : Cursor} {line : Directive}
      {body : Items} {branches : Branches} : lineDirective p = some line →
      phase.follows language line.keyword = some phase' → Known line (active && !taken) →
      Reads language (active && (!taken && holds line)) (p.forward line.text.length) body q →
      ReadsBranches language active (taken || active && holds line) phase' q branches r →
      ReadsBranches language active taken phase p (.branch line body branches) r

end

/-! ## Directives at a place -/

theorem parseDirective_text {line : List Char} {d : Directive} (h : parseDirective line = some d) :
    d.text = line := by
  unfold parseDirective at h
  split at h
  · simp only at h
    split at h
    · split at h
      · cases h
      · rw [← Option.some.inj h]
    · cases h
  · cases h

/-- A line that ends in CR has no directive for the mask. -/
theorem parseDirective_cr (line : List Char) : parseDirective (line ++ ['\r']) = none := by
  cases line with
  | nil => decide
  | cons c line =>
    by_cases hc : c = '#'
    · subst hc
      rw [List.cons_append]
      unfold parseDirective
      simp only
      by_cases hall : ∀ d ∈ line, isSpace d = true
      · have hdrop : (line ++ ['\r']).dropWhile isSpace = [] := by
          rw [List.dropWhile_eq_nil_iff]
          intro d hd
          rcases List.mem_append.mp hd with hline | hlast
          · exact hall d hline
          · rw [List.mem_singleton.mp hlast]
            decide
        rw [hdrop]
        rfl
      · have hdrop : (line ++ ['\r']).dropWhile isSpace = line.dropWhile isSpace ++ ['\r'] := by
          rw [List.dropWhile_append, if_neg]
          intro hempty
          rw [List.isEmpty_iff, List.dropWhile_eq_nil_iff] at hempty
          exact hall hempty
        have htail : '\r' ∈ ((line ++ ['\r']).dropWhile isSpace).dropWhile isIdentifierPart := by
          rw [hdrop, List.dropWhile_append]
          split
          · decide
          · exact List.mem_append_right _ (List.mem_singleton_self _)
        split
        · rw [if_pos (.inl htail)]
        · rfl
    · rw [List.cons_append]
      unfold parseDirective
      split
      · rename_i heq
        exact absurd (List.cons.inj heq).1 hc
      · rfl

/-- A directive line that the mask does not see. -/
def misses (s : State) : Bool := (lineDirective s.place).isSome && (directiveAt s.place).isNone

theorem directiveAt_eq {s : State} (h : misses s = false) :
    directiveAt s.place = lineDirective s.place := by
  unfold misses at h
  unfold directiveAt lineDirective readDirective at *
  split at h
  · rename_i hplace
    rw [if_pos hplace, if_pos hplace]
    split at h
    · rename_i hlast
      obtain ⟨line, hline⟩ := List.getLast?_eq_some_iff.mp hlast
      rw [if_pos hlast]
      rw [hline, List.dropLast_concat, parseDirective_cr] at h
      rw [hline, List.dropLast_concat, parseDirective_cr]
      cases hparse : parseDirective line with
      | none => rfl
      | some d =>
        rw [hparse] at h
        cases h
    · rename_i hlast
      rw [if_neg hlast]
  · rename_i hplace
    rw [if_neg hplace, if_neg hplace]

theorem directiveAt_text {p : Cursor} {d : Directive} (h : directiveAt p = some d) :
    d.text = lineText p := by
  unfold directiveAt at h
  split at h
  · exact parseDirective_text h
  · cases h

/-! ## The mask of a source -/

section

variable {language : Language} {fuel : Nat} {s t : State} {out : List Char}

/-- The loop went on to this state, with its result still to come. -/
structure Leads (language : Language) (fuel : Nat) (out : List Char) (t : State) : Prop where
  intro ::
  later : ∃ fuel' < fuel, maskLoop language fuel' t = .ok out ∧
    reaches language misses fuel' t = false

theorem Leads.mono {fuel' : Nat} (h : Leads language fuel out t) (hle : fuel ≤ fuel') :
    Leads language fuel' out t := by
  obtain ⟨f, hf, hrest⟩ := h.later
  exact ⟨f, by omega, hrest⟩

/-- A round of a loop that has a result. -/
theorem round_ok (hloop : maskLoop language fuel s = .ok out)
    (hfound : reaches language misses fuel s = false) (hrest : s.place.rest ≠ []) :
    misses s = false ∧ ∃ t, s.round language = .ok t ∧ Leads language fuel out t := by
  cases fuel with
  | zero => cases hloop
  | succ fuel =>
    rw [maskLoop, if_neg hrest] at hloop
    rw [reaches, if_neg hrest, Bool.or_eq_false_iff] at hfound
    refine ⟨hfound.1, ?_⟩
    cases hround : s.round language with
    | error e =>
      rw [hround] at hloop
      cases hloop
    | ok t =>
      rw [hround] at hloop hfound
      exact ⟨t, rfl, ⟨fuel, Nat.lt_succ_self fuel, hloop, hfound.2⟩⟩

/-- The items of a source end at its end, and in a block at the next branch. -/
def Stops (p : Cursor) : Prop :=
  p.rest = [] ∨ ∃ d, lineDirective p = some d ∧ d.keyword ≠ .ifBlock

/-- The state after some more of the source. -/
def State.after (s : State) (p : Cursor) (marks : Marks) : State :=
  { s with place := p, masked := s.masked ++ marks.result }

theorem Marks.result_append (left right : Marks) :
    Marks.result (left ++ right) = left.result ++ right.result := List.flatMap_append

theorem result_marked (masked : Bool) (text : List Char) :
    (marked masked text).result = if masked then maskRange text else text := by
  induction text with
  | nil => cases masked <;> rfl
  | cons c text ih =>
    have hcons : (marked masked (c :: text)).result =
        (if masked then blank c else [c]) ++ (marked masked text).result := rfl
    rw [hcons, ih]
    cases masked <;> rfl

theorem State.after_after (s : State) (p q : Cursor) (marks marks' : Marks) :
    (s.after p marks).after q marks' = s.after q (marks ++ marks') := by
  unfold State.after
  rw [Marks.result_append, List.append_assoc]

theorem State.after_nil (s : State) : s.after s.place [] = s := by
  unfold State.after Marks.result
  rw [List.flatMap_nil, List.append_nil]

/-- The loop reads items up to where they stop. -/
def ItemsRead (language : Language) (fuel : Nat) : Prop :=
  ∀ (s : State) (out : List Char), maskLoop language fuel s = .ok out →
    reaches language misses fuel s = false → ∃ items q, Reads language s.active s.place items q ∧
      Stops q ∧ Leads language (fuel + 1) out (s.after q (items.marks s.active))

def Frame.phase (frame : Frame) : Phase := if frame.sawElse then .last else .middle

/-- The loop reads the other branches of an open block, and its end. -/
def BranchesRead (language : Language) (fuel : Nat) : Prop :=
  ∀ (s : State) (frame : Frame) (stack : List Frame) (out : List Char),
    s.stack = frame :: stack → Stops s.place → maskLoop language fuel s = .ok out →
    reaches language misses fuel s = false → ∃ branches q closing,
      ReadsBranches language frame.parentActive frame.branchTaken frame.phase s.place branches q ∧
      lineDirective q = some closing ∧ closing.keyword = .endif ∧ closing.expression = [] ∧
      Leads language (fuel + 1) out ⟨q.forward closing.text.length,
        s.masked ++ (branches.marks frame.parentActive frame.branchTaken).result ++
          maskRange closing.text, stack, frame.parentActive⟩

/-! ### What a directive does -/

theorem requireKnownCondition_ok {p : Cursor} {expression : List Char} {value : Bool}
    (h : requireKnownCondition language p expression = .ok value) :
    evaluateStaticBooleanExpression expression = .ok (some value) := by
  unfold requireKnownCondition at h
  split at h
  · cases h
  · split at h
    · cases h
    · cases h
    · cases h
    · rename_i hvalue
      rw [hvalue, Except.ok.inj h]

theorem requireEmptyExpression_ok {p : Cursor} {d : Directive}
    (h : requireEmptyExpression language p d = .ok ()) : d.expression = [] := by
  unfold requireEmptyExpression at h
  split at h
  · assumption
  · cases h

theorem holds_of_value {d : Directive} (hkeyword : d.keyword ≠ .elseBranch) {value : Bool}
    (h : evaluateStaticBooleanExpression d.expression = .ok (some value)) : holds d = value := by
  unfold holds
  rw [decide_eq_false hkeyword, Bool.false_or, h]
  cases value <;> rfl

theorem known_of_value {d : Directive} {decides : Bool} (hkeyword : d.keyword ≠ .elseBranch)
    (h : decides = true →
      ∃ value, evaluateStaticBooleanExpression d.expression = .ok (some value)) :
    Known d decides := by
  unfold Known
  rw [if_neg hkeyword]
  exact h

theorem openBlock_ok {p : Cursor} {d : Directive} {active : Bool} {frame : Frame}
    (hkeyword : d.keyword = .ifBlock) (h : openBlock language p d active = .ok frame) :
    Known d active ∧ frame = ⟨p, active, active && holds d, active && holds d, false⟩ := by
  have helse : d.keyword ≠ .elseBranch := by rw [hkeyword]; decide
  unfold openBlock at h
  obtain ⟨condition, hcondition, rfl⟩ := Checked.map_ok.mp h
  cases active with
  | false =>
    cases hcondition
    exact ⟨known_of_value helse nofun, rfl⟩
  | true =>
    have hvalue := requireKnownCondition_ok hcondition
    exact ⟨known_of_value helse fun _ => ⟨condition, hvalue⟩, by rw [holds_of_value helse hvalue]⟩

/-- A branch after the first one. -/
theorem nextBranch_ok {p : Cursor} {d : Directive} {frame frame' : Frame}
    (h : nextBranch language p d frame = .ok frame') :
    Known d (frame.parentActive && !frame.branchTaken) ∧
      frame'.active = (frame.parentActive && (!frame.branchTaken && holds d)) ∧
      frame'.branchTaken = (frame.branchTaken || frame.parentActive && holds d) ∧
      frame'.parentActive = frame.parentActive ∧
      frame'.sawElse = (frame.sawElse || decide (d.keyword = .elseBranch)) := by
  unfold nextBranch at h
  split at h
  · rename_i helse
    obtain ⟨⟨⟩, hempty, rfl⟩ := Checked.map_ok.mp h
    have hholds : holds d = true := by rw [holds, decide_eq_true helse, Bool.true_or]
    rw [hholds, decide_eq_true helse]
    refine ⟨?_, by simp, ?_, rfl, by simp⟩
    · unfold Known
      rw [if_pos helse]
      exact requireEmptyExpression_ok hempty
    · cases frame.parentActive <;> cases frame.branchTaken <;> rfl
  · rename_i helse
    rw [decide_eq_false helse, Bool.or_false]
    split at h
    · rename_i hdecided
      cases h
      refine ⟨known_of_value helse fun hopen => ?_, ?_, ?_, rfl, rfl⟩
      · cases hparent : frame.parentActive <;> cases htaken : frame.branchTaken <;>
          simp [hparent, htaken] at hdecided hopen
      · cases hparent : frame.parentActive <;> cases htaken : frame.branchTaken <;>
          simp [hparent, htaken] at hdecided ⊢
      · cases hparent : frame.parentActive <;> cases htaken : frame.branchTaken <;>
          simp [hparent, htaken] at hdecided ⊢
    · rename_i hopen
      obtain ⟨active, hactive, rfl⟩ := Checked.map_ok.mp h
      have hvalue := requireKnownCondition_ok hactive
      simp only [Bool.or_eq_true, Bool.not_eq_true', not_or, Bool.not_eq_false,
        Bool.not_eq_true] at hopen
      rw [hopen.1, hopen.2, holds_of_value helse hvalue]
      exact ⟨known_of_value helse fun _ => ⟨active, hvalue⟩, rfl, rfl, hopen.1.symm ▸ rfl, rfl⟩

theorem direct_ok {d : Directive} (h : s.direct language d = .ok t) :
    ((d.keyword = .elseif ∨ d.keyword = .elif) → d.keyword = language.elseifKeyword) ∧
      ∃ active stack, applyDirective language s.place d s.stack s.active = .ok (active, stack) ∧
        t = ⟨s.place.forward d.text.length, s.masked ++ maskRange d.text, stack, active⟩ := by
  unfold State.direct at h
  split at h
  · cases h
  · rename_i hkeyword
    obtain ⟨⟨active, stack⟩, happly, rfl⟩ := Checked.map_ok.mp h
    refine ⟨fun hother => ?_, active, stack, happly, rfl⟩
    by_contra hne
    exact hkeyword ⟨hother, hne⟩

theorem read_ok {c : Char} {rest : List Char} (hplace : s.place.rest = c :: rest)
    (h : s.read language = .ok t) :
    (t = s.after (s.place.forward 1) [(c, !s.active)] ∧
        (s.active = true → language.skipOpaque s.place = .ok none)) ∨
      (s.active = true ∧ ∃ q, language.skipOpaque s.place = .ok (some q) ∧
        t = s.after q (marked false (between s.place q))) := by
  have htake : s.place.rest.take 1 = [c] := by rw [hplace]; rfl
  unfold State.read at h
  simp only [htake] at h
  split at h
  · rename_i hactive
    obtain ⟨found, hfound, rfl⟩ := Checked.map_ok.mp h
    cases found with
    | some q =>
      refine .inr ⟨hactive, q, hfound, ?_⟩
      unfold State.after
      rw [result_marked]
      rfl
    | none =>
      have hresult : Marks.result [(c, !s.active)] = [c] := by rw [hactive]; rfl
      refine .inl ⟨?_, fun _ => hfound⟩
      unfold State.after
      rw [hresult]
  · rename_i hactive
    have hresult : Marks.result [(c, !s.active)] = maskRange [c] := by
      rw [eq_false_of_ne_true hactive]
      rfl
    refine .inl ⟨?_, fun h' => absurd h' hactive⟩
    unfold State.after
    rw [← Except.ok.inj h, hresult]

/-- A directive that opens no block stops the items before it. -/
theorem stopped (hloop : maskLoop language fuel s = .ok out)
    (hfound : reaches language misses fuel s = false) (hstops : Stops s.place) :
    ∃ items q, Reads language s.active s.place items q ∧ Stops q ∧
      Leads language (fuel + 1) out (s.after q (items.marks s.active)) := by
  refine ⟨.nil, s.place, .nil, hstops, ⟨fuel, Nat.lt_succ_self fuel, ?_⟩⟩
  rw [Items.marks, State.after_nil]
  exact ⟨hloop, hfound⟩

/-- More items after the first one. -/
theorem ItemsRead.cons {p : Cursor} {marks : Marks} {fuel' : Nat}
    (ih : ItemsRead language fuel') (hle : fuel' < fuel)
    (hloop : maskLoop language fuel' (s.after p marks) = .ok out)
    (hfound : reaches language misses fuel' (s.after p marks) = false)
    (hitem : ∀ rest q, Reads language s.active p rest q → ∃ items,
      Reads language s.active s.place items q ∧
        items.marks s.active = marks ++ rest.marks s.active) :
    ∃ items q, Reads language s.active s.place items q ∧ Stops q ∧
      Leads language (fuel + 1) out (s.after q (items.marks s.active)) := by
  obtain ⟨rest, q, hreads, hstops, hleads⟩ := ih _ _ hloop hfound
  obtain ⟨items, hitems, hmarks⟩ := hitem rest q hreads
  refine ⟨items, q, hitems, hstops, ?_⟩
  rw [State.after_after] at hleads
  rw [hmarks]
  exact hleads.mono (by omega)

/-- A block: its `#if`, its branches and its `#endif`, and what follows. -/
theorem blockRead (ih : ∀ fuel' < fuel, ItemsRead language fuel' ∧ BranchesRead language fuel')
    {d : Directive} (hline : lineDirective s.place = some d) (hkeyword : d.keyword = .ifBlock)
    (hdirect : s.direct language d = .ok t) (hleads : Leads language fuel out t) :
    ∃ items q, Reads language s.active s.place items q ∧ Stops q ∧
      Leads language (fuel + 1) out (s.after q (items.marks s.active)) := by
  obtain ⟨-, active, stack, happly, rfl⟩ := direct_ok hdirect
  unfold applyDirective at happly
  rw [if_pos hkeyword] at happly
  obtain ⟨frame, hframe, heq⟩ := Checked.map_ok.mp happly
  obtain ⟨hknown, rfl⟩ := openBlock_ok hkeyword hframe
  cases heq
  obtain ⟨f₁, hf₁, hloop₁, hfound₁⟩ := hleads.later
  obtain ⟨body, q₁, hbody, hstops₁, hleads₁⟩ := (ih f₁ hf₁).1 _ _ hloop₁ hfound₁
  obtain ⟨f₂, hf₂, hloop₂, hfound₂⟩ := hleads₁.later
  obtain ⟨branches, q₂, closing, hbranches, hclosing, hendif, hempty, hleads₂⟩ :=
    (ih f₂ (by omega)).2 _ _ _ _ rfl hstops₁ hloop₂ hfound₂
  have hblock : ReadsBranches language s.active false .opening s.place (.branch d body branches)
      q₂ := by
    have hfollows : Phase.opening.follows language d.keyword = some .middle := by
      rw [hkeyword]
      rfl
    have hknown' : Known d (s.active && !false) := by
      rw [Bool.not_false, Bool.and_true]
      exact hknown
    exact .branch hline hfollows hknown' hbody hbranches
  set marks : Marks := (Branches.branch d body branches).marks s.active false ++
    marked true closing.text with hmarks
  have hleads₃ : Leads language (f₂ + 1) out
      (s.after (q₂.forward closing.text.length) marks) := by
    have hresult : marks.result = maskRange d.text ++ ((body.marks (s.active && holds d)).result ++
        (branches.marks s.active (s.active && holds d)).result) ++ maskRange closing.text := by
      rw [hmarks, Branches.marks, Marks.result_append, Marks.result_append, Marks.result_append,
        result_marked, result_marked]
      rfl
    unfold State.after
    rw [hresult]
    simp only [← List.append_assoc]
    exact hleads₂
  obtain ⟨f₃, hf₃, hloop₃, hfound₃⟩ := hleads₃.later
  refine (ih f₃ (by omega)).1.cons (by omega) hloop₃ hfound₃ fun rest q hrest => ?_
  refine ⟨.block (.branch d body branches) closing rest,
    .block hblock hclosing hendif hempty hrest, ?_⟩
  rw [Items.marks, hmarks, List.append_assoc]

theorem itemsRead (ih : ∀ fuel' < fuel, ItemsRead language fuel' ∧ BranchesRead language fuel') :
    ItemsRead language fuel := by
  intro s out hloop hfound
  by_cases hrest : s.place.rest = []
  · exact stopped hloop hfound (.inl hrest)
  obtain ⟨hseen, t, hround, hleads⟩ := round_ok hloop hfound hrest
  rw [State.round, directiveAt_eq hseen] at hround
  cases hline : lineDirective s.place with
  | some d =>
    by_cases hkeyword : d.keyword = .ifBlock
    · rw [hline] at hround
      exact blockRead ih hline hkeyword hround hleads
    · exact stopped hloop hfound (.inr ⟨d, hline, hkeyword⟩)
  | none =>
    rw [hline] at hround
    obtain ⟨c, rest, hplace⟩ := List.exists_cons_of_ne_nil hrest
    obtain ⟨f, hf, hloop', hfound'⟩ := hleads.later
    rcases read_ok hplace hround with ⟨rfl, hplain⟩ | ⟨hactive, q, hskipped, rfl⟩
    · refine (ih f hf).1.cons hf hloop' hfound' fun items q hitems => ?_
      exact ⟨.text c items, .text hplace hline hplain hitems, rfl⟩
    · refine (ih f hf).1.cons hf hloop' hfound' fun items r hitems => ?_
      rw [hactive] at hitems ⊢
      exact ⟨.literal (between s.place q) items, .literal hline hskipped hitems, rfl⟩

theorem branchesRead
    (ih : ∀ fuel' < fuel, ItemsRead language fuel' ∧ BranchesRead language fuel') :
    BranchesRead language fuel := by
  intro s frame stack out hstack hstops hloop hfound
  rcases hstops with hend | ⟨d, hline, hkeyword⟩
  · -- the source ends in an open block
    cases fuel with
    | zero => cases hloop
    | succ fuel =>
      rw [maskLoop, if_pos hend, hstack] at hloop
      cases hloop
  have hrest : s.place.rest ≠ [] := by
    intro hnil
    unfold lineDirective startsWith at hline
    rw [hnil] at hline
    cases hline
  obtain ⟨hseen, t, hround, hleads⟩ := round_ok hloop hfound hrest
  rw [State.round, directiveAt_eq hseen, hline] at hround
  obtain ⟨helseif, active, stack', happly, rfl⟩ := direct_ok hround
  unfold applyDirective at happly
  rw [if_neg hkeyword, hstack] at happly
  simp only at happly
  split at happly
  · rename_i hendif
    obtain ⟨⟨⟩, hempty, heq⟩ := Checked.map_ok.mp happly
    cases heq
    refine ⟨.nil, s.place, d, .nil, hline, hendif, requireEmptyExpression_ok hempty, ?_⟩
    rw [Branches.marks, show Marks.result [] = [] from rfl, List.append_nil]
    exact hleads.mono (Nat.le_succ fuel)
  · rename_i hendif
    split at happly
    · cases happly
    · rename_i helse
      obtain ⟨frame', hframe, heq⟩ := Checked.map_ok.mp happly
      cases heq
      obtain ⟨hknown, hactive, htaken, hparent, hsaw⟩ := nextBranch_ok hframe
      obtain ⟨f₁, hf₁, hloop₁, hfound₁⟩ := hleads.later
      obtain ⟨body, q₁, hbody, hstops₁, hleads₁⟩ := (ih f₁ hf₁).1 _ _ hloop₁ hfound₁
      obtain ⟨f₂, hf₂, hloop₂, hfound₂⟩ := hleads₁.later
      obtain ⟨branches, q₂, closing, hbranches, hclosing, hendif', hempty, hleads₂⟩ :=
        (ih f₂ (by omega)).2 _ _ _ _ rfl hstops₁ hloop₂ hfound₂
      have hphase : frame.phase.follows language d.keyword = some frame'.phase := by
        unfold Frame.phase
        rw [hsaw, eq_false_of_ne_true helse, Bool.false_or]
        cases hd : d.keyword with
        | ifBlock => exact absurd hd hkeyword
        | endif => exact absurd hd hendif
        | elseBranch => rfl
        | elseif =>
          have hsame := helseif (.inl hd)
          rw [hd] at hsame
          simp [Phase.follows, ← hsame]
        | elif =>
          have hsame := helseif (.inr hd)
          rw [hd] at hsame
          simp [Phase.follows, ← hsame]
      rw [hactive] at hbody
      rw [htaken, hparent] at hbranches
      refine ⟨.branch d body branches, q₂, closing, .branch hline hphase hknown hbody hbranches,
        hclosing, hendif', hempty, ?_⟩
      · have hmarks : (Branches.marks frame.parentActive frame.branchTaken
            (.branch d body branches)).result = maskRange d.text ++
              ((body.marks frame'.active).result ++
                (branches.marks frame'.parentActive frame'.branchTaken).result) := by
          rw [Branches.marks, Marks.result_append, Marks.result_append, result_marked, hparent,
            htaken, hactive]
          rfl
        rw [hmarks, ← hparent]
        simp only [← List.append_assoc]
        exact hleads₂.mono (by omega)

theorem reads (language : Language) (fuel : Nat) :
    ItemsRead language fuel ∧ BranchesRead language fuel := by
  induction fuel using Nat.strong_induction_on with
  | h fuel ih => exact ⟨itemsRead ih, branchesRead ih⟩

end

/-! ## What a mask keeps -/

theorem marked_source (masked : Bool) (text : List Char) : (marked masked text).source = text := by
  unfold marked Marks.source
  rw [List.map_map]
  exact List.map_id text

theorem Marks.source_append (left right : Marks) :
    Marks.source (left ++ right) = left.source ++ right.source := List.map_append

/-- A directive's text is where it stands. -/
theorem lineDirective_rest {p : Cursor} {d : Directive} (h : lineDirective p = some d) :
    p.rest = d.text ++ (p.forward d.text.length).rest := by
  have hlead : d.text <+: p.rest := by
    unfold lineDirective at h
    split at h
    · split at h
      · rw [parseDirective_text h]
        exact (List.dropLast_prefix _).trans (List.takeWhile_prefix _)
      · rw [parseDirective_text h]
        exact List.takeWhile_prefix _
    · cases h
  obtain ⟨rest, hrest⟩ := hlead
  rw [forward_rest, ← hrest, List.drop_left]

theorem Language.ahead {language : Language} {p q : Cursor}
    (h : language.skipOpaque p = .ok (some q)) : Ahead p q := by
  cases language with
  | csharp =>
    have hfuelled := (CSharpLexical.fuelled (CSharpLexical.fuelFor p)).opaques p
      (by unfold CSharpLexical.fuelFor; omega)
    exact hfuelled.ahead q h
  | swift =>
    have hfuelled := (SwiftLexical.fuelled (SwiftLexical.fuelFor p)).opaques p
      (by unfold SwiftLexical.fuelFor; omega)
    exact hfuelled.ahead q h

theorem Language.skipOpaque_fuelled (language : Language) (p : Cursor) :
    language.skipOpaque p ≠ .error .outOfFuel := by
  cases language with
  | csharp =>
    exact ((CSharpLexical.fuelled (CSharpLexical.fuelFor p)).opaques p
      (by unfold CSharpLexical.fuelFor; omega)).fuelled
  | swift =>
    exact ((SwiftLexical.fuelled (SwiftLexical.fuelFor p)).opaques p
      (by unfold SwiftLexical.fuelFor; omega)).fuelled

theorem between_rest {p q : Cursor} (h : Ahead p q) : p.rest = between p q ++ q.rest := by
  obtain ⟨read, -, hrest, -⟩ := h
  unfold between
  rw [hrest, List.length_append, Nat.add_sub_cancel, List.take_left]

mutual

/-- The items of a source are the source. -/
theorem Reads.source {language : Language} : ∀ {items : Items} {active : Bool} {p q : Cursor},
    Reads language active p items q → p.rest = (items.marks active).source ++ q.rest
  | .nil, active, p, q, h => by
    cases h
    rfl
  | .text c rest, active, p, q, h => by
    cases h with
    | text hplace _ _ hrest =>
      have hafter := hrest.source
      rw [forward_rest, hplace] at hafter
      rw [hplace, Items.marks]
      exact congrArg (c :: ·) hafter
  | .literal chars rest, active, p, q, h => by
    cases h with
    | literal _ hskipped hrest =>
      have hafter := hrest.source
      rw [between_rest (Language.ahead hskipped), hafter, Items.marks, Marks.source_append,
        marked_source, List.append_assoc]
  | .block branches closing rest, active, p, q, h => by
    cases h with
    | block hbranches hclosing _ _ hrest =>
      have hinside := hbranches.source
      have hafter := hrest.source
      rw [Items.marks, Marks.source_append, Marks.source_append, marked_source, hinside,
        lineDirective_rest hclosing, hafter, List.append_assoc, List.append_assoc]

theorem ReadsBranches.source {language : Language} : ∀ {branches : Branches}
    {active taken : Bool} {phase : Phase} {p q : Cursor},
    ReadsBranches language active taken phase p branches q →
      p.rest = (branches.marks active taken).source ++ q.rest
  | .nil, active, taken, phase, p, q, h => by
    cases h
    rfl
  | .branch line body rest, active, taken, phase, p, q, h => by
    cases h with
    | branch hline _ _ hbody hrest =>
      have hinside := hbody.source
      have hafter := hrest.source
      rw [Branches.marks, Marks.source_append, Marks.source_append, marked_source,
        lineDirective_rest hline, hinside, hafter, List.append_assoc, List.append_assoc]

end

/-- Where the lines of a text end, in code units. -/
def lineEnds : Nat → List Char → List (Nat × Char)
  | _, [] => []
  | offset, c :: rest =>
    if c = '\n' ∨ c = '\r' then (offset, c) :: lineEnds (offset + 1) rest
    else lineEnds (offset + units [c]) rest

theorem units_append (left right : List Char) : units (left ++ right) = units left + units right := by
  unfold units
  rw [List.map_append, List.sum_append]

theorem units_spaces (n : Nat) : units (List.replicate n ' ') = n := by
  induction n with
  | zero => rfl
  | succ n ih =>
    rw [List.replicate_succ, ← List.singleton_append, units_append, ih, Nat.add_comm]
    rfl

theorem units_blank (c : Char) : units (blank c) = units [c] := by
  unfold blank
  split
  · rfl
  · exact units_spaces _

theorem lineEnds_spaces (n offset : Nat) (rest : List Char) :
    lineEnds offset (List.replicate n ' ' ++ rest) = lineEnds (offset + n) rest := by
  induction n generalizing offset with
  | zero => rfl
  | succ n ih =>
    rw [List.replicate_succ, List.cons_append, lineEnds, if_neg (by decide), ih]
    congr 1
    show offset + 1 + n = offset + (n + 1)
    omega

/-- The result is as long as the source. -/
theorem Marks.units_result (marks : Marks) : units marks.result = units marks.source := by
  induction marks with
  | nil => rfl
  | cons m marks ih =>
    have hresult : Marks.result (m :: marks) =
        (if m.2 then blank m.1 else [m.1]) ++ Marks.result marks := rfl
    have hsource : Marks.source (m :: marks) = [m.1] ++ Marks.source marks := rfl
    rw [hresult, hsource, units_append, units_append, ih]
    split
    · rw [units_blank]
    · rfl

/-- Its lines end where those of the source do. -/
theorem Marks.lineEnds_result (marks : Marks) :
    ∀ offset, lineEnds offset marks.result = lineEnds offset marks.source := by
  induction marks with
  | nil => exact fun _ => rfl
  | cons m marks ih =>
    intro offset
    have hresult : Marks.result (m :: marks) =
        (if m.2 then blank m.1 else [m.1]) ++ Marks.result marks := rfl
    have hsource : Marks.source (m :: marks) = m.1 :: Marks.source marks := rfl
    rw [hresult, hsource]
    by_cases hend : m.1 = '\n' ∨ m.1 = '\r'
    · have hkept : (if m.2 then blank m.1 else [m.1]) = [m.1] := by
        split
        · exact if_pos hend
        · rfl
      rw [hkept, List.singleton_append, lineEnds, if_pos hend, lineEnds, if_pos hend, ih]
    · rw [lineEnds, if_neg hend]
      split
      · unfold blank
        rw [if_neg hend, lineEnds_spaces, ih]
      · rw [List.singleton_append, lineEnds, if_neg hend, ih]

/-! ## Exactness -/

/-- A mask is the source with exactly its directive lines and the branches that are not
compiled masked, is as long, and has its line ends where the source has them. -/
structure Exact (language : Language) (source out : List Char) : Prop where
  intro ::
  blocks : ∃ items q, Reads language true (start source) items q ∧ q.rest = [] ∧
    (items.marks true).source = source ∧ out = (items.marks true).result
  length : units out = units source
  lines : lineEnds 0 out = lineEnds 0 source

/-- What the mask of a source is, where the loop sees every directive line it comes to. -/
theorem mask_ok {language : Language} {source out : List Char}
    (hseen : reaches language misses (source.length + 1) (begin source) = false)
    (h : maskConditionalCompilation language source = .ok out) : Exact language source out := by
  obtain ⟨items, q, hreads, hstops, hleads⟩ :=
    (reads language (source.length + 1)).1 _ _ h hseen
  obtain ⟨fuel, -, hloop, hseen'⟩ := hleads.later
  generalize hu : (begin source).after q (items.marks (begin source).active) = u at hloop hseen'
  have hplace : u.place = q := by rw [← hu]; rfl
  have hstack : u.stack = [] := by rw [← hu]; rfl
  have hend : q.rest = [] := by
    rcases hstops with hend | ⟨d, hline, hkeyword⟩
    · exact hend
    · -- a directive outside of every block
      by_contra hrest
      obtain ⟨hseen, t, hround, -⟩ := round_ok hloop hseen' (by rwa [hplace])
      rw [State.round, directiveAt_eq hseen, hplace, hline] at hround
      obtain ⟨-, active, stack, happly, -⟩ := direct_ok hround
      unfold applyDirective at happly
      rw [if_neg hkeyword, hstack] at happly
      cases happly
  have hsource : (items.marks true).source = source := by
    have hitems := hreads.source
    rw [hend, List.append_nil] at hitems
    exact hitems.symm
  have hout : out = (items.marks true).result := by
    cases fuel with
    | zero => cases hloop
    | succ fuel =>
      rw [maskLoop, if_pos (by rwa [hplace]), hstack] at hloop
      rw [← Except.ok.inj hloop, ← hu]
      rfl
  refine ⟨⟨items, q, hreads, hend, hsource, hout⟩, ?_, ?_⟩
  · rw [hout, Marks.units_result, hsource]
  · rw [hout, Marks.lineEnds_result, hsource]

end SurfaceLoom.Scripts.ConditionalCompilation
