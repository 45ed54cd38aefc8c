import Mathlib.Data.List.Dedup
import Mathlib.Data.List.Sort
import SurfaceLoom.Lib.Decimal

/-! # The text of a set of indices

`formatRanges` writes runs of consecutive indices, `readRanges?` says what such a text
denotes. -/
namespace SurfaceLoom.Clipboard.Ranges
open SurfaceLoom.Lib

/-- The runs of an ascending list, the first of which is `start` to `stop` so far. -/
def collect (start stop : Nat) : List Nat → List (Nat × Nat)
  | [] => [(start, stop)]
  | index :: rest =>
    if index = stop + 1 then collect start index rest
    else (start, stop) :: collect index index rest

def rangeText (range : Nat × Nat) : String :=
  if range.1 = range.2 then toString range.1 else toString range.1 ++ "-" ++ toString range.2

def formatRanges (indices : List Nat) : String :=
  match indices.dedup.insertionSort (· ≤ ·) with
  | [] => "none"
  | first :: rest => ",".intercalate ((collect first first rest).map rangeText)

/-! ## What a text denotes -/

def readRange? (chars : List Char) : Option (Nat × Nat) :=
  match chars.splitOn '-' with
  | [index] => (Decimal.read? index).map fun n => (n, n)
  | [start, stop] => (Decimal.read? start).bind fun n => (Decimal.read? stop).map fun k => (n, k)
  | _ => none

def readRanges? (text : String) : Option (List (Nat × Nat)) :=
  if text = "none" then some [] else (text.toList.splitOn ',').mapM readRange?

/-- The text is one of ranges that hold these indices and no others. -/
def Denotes (text : String) (indices : Nat → Prop) : Prop :=
  ∃ ranges, readRanges? text = some ranges ∧
    ∀ i, indices i ↔ ∃ range ∈ ranges, range.1 ≤ i ∧ i ≤ range.2

theorem mem_collect {start stop : Nat} (h : start ≤ stop) (rest : List Nat) (i : Nat) :
    (∃ range ∈ collect start stop rest, range.1 ≤ i ∧ i ≤ range.2) ↔
      (start ≤ i ∧ i ≤ stop) ∨ i ∈ rest := by
  induction rest generalizing start stop with
  | nil => simp [collect]
  | cons index rest ih =>
    unfold collect
    by_cases hnext : index = stop + 1
    · rw [if_pos hnext, ih (by omega), List.mem_cons]
      by_cases hmem : i ∈ rest
      · simp [hmem]
      · simp only [hmem, or_false]
        omega
    · rw [if_neg hnext]
      simp only [List.mem_cons, exists_eq_or_imp, ih (Nat.le_refl index)]
      by_cases hmem : i ∈ rest
      · simp [hmem]
      · simp only [hmem, or_false]
        omega

theorem mem_rangeText {range : Nat × Nat} {c : Char} (h : c ∈ (rangeText range).toList) :
    c.isDigit = true ∨ c = '-' := by
  unfold rangeText at h
  split at h
  · exact .inl (Decimal.isDigit_toString h)
  · simp only [String.toList_append, List.mem_append] at h
    rcases h with (hstart | hdash) | hstop
    · exact .inl (Decimal.isDigit_toString hstart)
    · exact .inr (List.mem_singleton.mp hdash)
    · exact .inl (Decimal.isDigit_toString hstop)

theorem not_mem_toString {n : Nat} {c : Char} (hc : c.isDigit = false) :
    c ∉ (toString n).toList := by
  intro h
  rw [Decimal.isDigit_toString h] at hc
  cases hc

theorem readRange?_rangeText (range : Nat × Nat) :
    readRange? (rangeText range).toList = some range := by
  obtain ⟨start, stop⟩ := range
  have hstart : '-' ∉ (toString start).toList := not_mem_toString rfl
  have hstop : '-' ∉ (toString stop).toList := not_mem_toString rfl
  unfold rangeText readRange?
  by_cases heq : start = stop
  · subst heq
    rw [if_pos rfl, List.splitOn_eq_singleton hstart]
    show (Decimal.read? (toString start).toList).map _ = _
    rw [Decimal.read?_toString]
    rfl
  · rw [if_neg heq]
    have hsplit : ((toString start ++ "-" ++ toString stop).toList).splitOn '-' =
        [(toString start).toList, (toString stop).toList] := by
      rw [String.toList_append, String.toList_append, List.append_assoc]
      show ((toString start).toList ++ '-' :: (toString stop).toList).splitOn '-' = _
      rw [List.splitOn_append_cons_self_of_not_mem hstart, List.splitOn_eq_singleton hstop]
    rw [hsplit]
    show ((Decimal.read? (toString start).toList).bind fun n =>
      (Decimal.read? (toString stop).toList).map fun k => (n, k)) = _
    rw [Decimal.read?_toString, Decimal.read?_toString]
    rfl

theorem mapM_readRange? (ranges : List (Nat × Nat)) :
    ((ranges.map rangeText).map String.toList).mapM readRange? = some ranges := by
  induction ranges with
  | nil => rfl
  | cons range rest ih =>
    rw [List.map_cons, List.map_cons, List.mapM_cons, readRange?_rangeText, ih]
    rfl

theorem collect_ne_nil (start stop : Nat) (rest : List Nat) : collect start stop rest ≠ [] := by
  induction rest generalizing start stop with
  | nil => exact nofun
  | cons index rest ih =>
    unfold collect
    split
    · exact ih start index
    · exact nofun

theorem readRanges?_text {ranges : List (Nat × Nat)} (h : ranges ≠ []) :
    readRanges? (",".intercalate (ranges.map rangeText)) = some ranges := by
  have hchars : (",".intercalate (ranges.map rangeText)).toList =
      [','].intercalate ((ranges.map rangeText).map String.toList) := String.toList_intercalate
  have hcomma : ∀ part ∈ (ranges.map rangeText).map String.toList, ',' ∉ part := by
    intro part hpart hmem
    obtain ⟨text, htext, rfl⟩ := List.mem_map.mp hpart
    obtain ⟨range, -, rfl⟩ := List.mem_map.mp htext
    rcases mem_rangeText hmem with hdigit | hdash
    · cases hdigit
    · cases hdash
  have hsplit : (",".intercalate (ranges.map rangeText)).toList.splitOn ',' =
      (ranges.map rangeText).map String.toList := by
    rw [hchars, List.splitOn_intercalate ',' hcomma]
    simpa using h
  unfold readRanges?
  rw [hsplit, mapM_readRange?]
  split
  · rename_i hnone
    -- No run is written with an `n`.
    rw [hnone] at hsplit
    cases ranges with
    | nil => exact absurd rfl h
    | cons range rest =>
      have hfirst : "none".toList = (rangeText range).toList := (List.cons.inj hsplit).1
      have hmem : 'n' ∈ (rangeText range).toList := hfirst ▸ List.mem_cons_self
      rcases mem_rangeText hmem with hdigit | hdash
      · cases hdigit
      · cases hdash
  · rfl

/-- The text denotes exactly the indices it was made from. -/
theorem formatRanges_denotes (indices : List Nat) :
    Denotes (formatRanges indices) (· ∈ indices) := by
  have hsorted : ∀ i, i ∈ indices.dedup.insertionSort (· ≤ ·) ↔ i ∈ indices := fun i => by
    rw [List.mem_insertionSort, List.mem_dedup]
  unfold formatRanges
  cases hcase : indices.dedup.insertionSort (· ≤ ·) with
  | nil =>
    refine ⟨[], rfl, fun i => ?_⟩
    show i ∈ indices ↔ _
    rw [← hsorted i, hcase]
    simp
  | cons first rest =>
    refine ⟨_, readRanges?_text (collect_ne_nil first first rest), fun i => ?_⟩
    show i ∈ indices ↔ _
    rw [← hsorted i, hcase, mem_collect (Nat.le_refl first), List.mem_cons]
    exact or_congr_left ⟨fun h => ⟨h.ge, h.le⟩, fun h => Nat.le_antisymm h.2 h.1⟩

example : formatRanges [5, 0, 3, 2] = "0,2-3,5" := by decide +kernel

end SurfaceLoom.Clipboard.Ranges
