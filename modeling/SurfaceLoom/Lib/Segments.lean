import Mathlib.Data.List.TakeWhile

/-! # Segments of a list

A list is cut behind each delimiter. What is cut has one delimiter each, at its end; only
what is left behind the last one has none. -/
namespace SurfaceLoom.Lib.Segments

variable {α : Type} [DecidableEq α] {d : α}

def cut (d : α) : List α → List (List α)
  | [] => []
  | a :: rest =>
    if a = d then [a] :: cut d rest
    else
      match cut d rest with
      | [] => [[a]]
      | s :: more => (a :: s) :: more

/-- Whether a segment ends in the delimiter. -/
def closed (d : α) (s : List α) : Bool := s.getLast? = some d

/-- What the pieces of a cut list look like. -/
inductive Segmented (d : α) : List (List α) → Prop
  | nil : Segmented d []
  | last {q : List α} (hq : d ∉ q) (hne : q ≠ []) : Segmented d [q]
  | cons {q : List α} {rest : List (List α)} (hq : d ∉ q) (hrest : Segmented d rest) :
      Segmented d ((q ++ [d]) :: rest)

/-- A piece has no delimiter but for one at its end. -/
def IsSegment (d : α) (s : List α) : Prop := (∃ q, d ∉ q ∧ s = q ++ [d]) ∨ d ∉ s ∧ s ≠ []

theorem cut_append {q : List α} (hq : d ∉ q) (rest : List α) :
    cut d (q ++ d :: rest) = (q ++ [d]) :: cut d rest := by
  induction q with
  | nil => exact if_pos rfl
  | cons a q ih =>
    rw [List.mem_cons, not_or] at hq
    rw [List.cons_append, cut, if_neg fun h => hq.1 h.symm, ih hq.2]
    rfl

theorem cut_open {q : List α} (hq : d ∉ q) (hne : q ≠ []) : cut d q = [q] := by
  induction q with
  | nil => exact absurd rfl hne
  | cons a q ih =>
    rw [List.mem_cons, not_or] at hq
    rw [cut, if_neg fun h => hq.1 h.symm]
    by_cases hempty : q = []
    · rw [hempty]
      rfl
    · rw [ih hq.2 hempty]

/-- A list has no delimiter, or it has a first one. -/
theorem first_delimiter (d : α) (l : List α) :
    d ∉ l ∨ ∃ q rest, d ∉ q ∧ l = q ++ d :: rest := by
  by_cases hmem : d ∈ l
  · obtain ⟨q, rest, hl, hq⟩ := List.eq_append_cons_of_mem hmem
    exact .inr ⟨q, rest, hq, hl⟩
  · exact .inl hmem

/-- Induction on the delimiters. -/
theorem segment_induction {P : List α → Prop} (free : ∀ q, d ∉ q → P q)
    (cons : ∀ q rest, d ∉ q → P rest → P (q ++ d :: rest)) (l : List α) : P l := by
  rcases first_delimiter d l with hfree | ⟨q, rest, hq, hl⟩
  · exact free l hfree
  · have hshorter : rest.length < l.length := by
      rw [hl, List.length_append, List.length_cons]
      omega
    rw [hl]
    exact cons q rest hq (segment_induction free cons rest)
termination_by l.length

theorem segmented_cut (d : α) (l : List α) : Segmented d (cut d l) := by
  induction l using segment_induction (d := d) with
  | free q hq =>
    by_cases hempty : q = []
    · rw [hempty]
      exact .nil
    · rw [cut_open hq hempty]
      exact .last hq hempty
  | cons q rest hq ih =>
    rw [cut_append hq]
    exact .cons hq ih

omit [DecidableEq α] in
theorem Segmented.tail {s : List α} {rest : List (List α)} (h : Segmented d (s :: rest)) :
    Segmented d rest := by
  cases h with
  | last hq hne => exact .nil
  | cons hq hrest => exact hrest

omit [DecidableEq α] in
theorem Segmented.mem {segments : List (List α)} (h : Segmented d segments) {s : List α}
    (hs : s ∈ segments) : IsSegment d s := by
  induction h with
  | nil => cases hs
  | last hq hne =>
    rw [List.mem_singleton.mp hs]
    exact .inr ⟨hq, hne⟩
  | cons hq hrest ih =>
    rcases List.mem_cons.mp hs with rfl | hmem
    · exact .inl ⟨_, hq, rfl⟩
    · exact ih hmem

theorem Segmented.cut_flatten {segments : List (List α)} (h : Segmented d segments) :
    cut d segments.flatten = segments := by
  induction h with
  | nil => rfl
  | last hq hne =>
    rw [List.flatten_singleton]
    exact cut_open hq hne
  | cons hq hrest ih =>
    rw [List.flatten_cons, List.append_assoc, List.singleton_append, cut_append hq, ih]

theorem flatten_cut (d : α) (l : List α) : (cut d l).flatten = l := by
  induction l using segment_induction (d := d) with
  | free q hq =>
    by_cases hempty : q = []
    · rw [hempty]
      rfl
    · rw [cut_open hq hempty, List.flatten_singleton]
  | cons q rest hq ih =>
    rw [cut_append hq, List.flatten_cons, ih, List.append_assoc, List.singleton_append]

theorem closed_append (q : List α) : closed d (q ++ [d]) = true := by
  simp [closed]

theorem closed_eq_false {q : List α} (hq : d ∉ q) : closed d q = false := by
  rw [closed, decide_eq_false_iff_not]
  exact fun h => hq (List.mem_of_getLast? h)

/-- What is behind the last delimiter. -/
def behind (d : α) (l : List α) : List α := (l.reverse.takeWhile (· ≠ d)).reverse

theorem takeWhile_free {q : List α} (hq : d ∉ q) : q.takeWhile (· ≠ d) = q := by
  rw [List.takeWhile_eq_self_iff]
  intro a ha
  exact decide_eq_true fun heq => hq (heq ▸ ha)

/-- A text of whole segments and a piece without a delimiter. -/
theorem behind_append {segments : List (List α)} (h : ∀ s ∈ segments, ∃ q, d ∉ q ∧ s = q ++ [d])
    {q : List α} (hq : d ∉ q) : behind d (segments.flatten ++ q) = q := by
  have hreverse : d ∉ q.reverse := by simpa using hq
  rcases List.eq_nil_or_concat segments with rfl | ⟨before, s, rfl⟩
  · rw [behind, List.flatten_nil, List.nil_append, takeWhile_free hreverse, List.reverse_reverse]
  · obtain ⟨p, -, rfl⟩ := h s (by simp)
    have hsplit : ((before.concat (p ++ [d])).flatten ++ q).reverse =
        q.reverse ++ d :: (before.flatten ++ p).reverse := by simp
    have hother : ∀ a ∈ q.reverse, decide (a ≠ d) = true := by
      intro a ha
      exact decide_eq_true fun heq => hreverse (heq ▸ ha)
    rw [behind, hsplit, List.takeWhile_append_of_pos hother, List.takeWhile_cons_of_neg (by simp),
      List.append_nil, List.reverse_reverse]

theorem cut_segments {segments : List (List α)} (h : ∀ s ∈ segments, ∃ q, d ∉ q ∧ s = q ++ [d])
    {q : List α} (hq : d ∉ q) :
    cut d (segments.flatten ++ q) = if q = [] then segments else segments ++ [q] := by
  induction segments with
  | nil =>
    rw [List.flatten_nil, List.nil_append, List.nil_append]
    split
    · rename_i hempty
      rw [hempty]
      rfl
    · rename_i hne
      exact cut_open hq hne
  | cons s segments ih =>
    obtain ⟨p, hp, rfl⟩ := h s (.head _)
    rw [List.flatten_cons, List.append_assoc, List.append_assoc, List.singleton_append,
      cut_append hp, ih fun s hs => h s (.tail _ hs)]
    split <;> rfl

theorem exists_segments (d : α) (l : List α) : ∃ (segments : List (List α)) (q : List α),
    (∀ s ∈ segments, ∃ p, d ∉ p ∧ s = p ++ [d]) ∧ d ∉ q ∧ l = segments.flatten ++ q := by
  induction l using segment_induction (d := d) with
  | free q hq => exact ⟨[], q, by simp, hq, rfl⟩
  | cons p rest hp ih =>
    obtain ⟨segments, q, hsegments, hq, rfl⟩ := ih
    refine ⟨(p ++ [d]) :: segments, q, fun s hs => ?_, hq, by simp⟩
    rcases List.mem_cons.mp hs with rfl | hs
    · exact ⟨p, hp, rfl⟩
    · exact hsegments s hs

theorem filter_closed {segments : List (List α)} (h : ∀ s ∈ segments, ∃ q, d ∉ q ∧ s = q ++ [d])
    {q : List α} (hq : d ∉ q) : (cut d (segments.flatten ++ q)).filter (closed d) = segments := by
  have hall : segments.filter (closed d) = segments := by
    rw [List.filter_eq_self]
    intro s hs
    obtain ⟨p, -, rfl⟩ := h s hs
    exact closed_append p
  rw [cut_segments h hq]
  split
  · exact hall
  · rw [List.filter_append, hall]
    simp [closed_eq_false hq]

end SurfaceLoom.Lib.Segments
