import Mathlib.Data.List.Nodup
import Mathlib.Data.List.Pairwise

/-! # Breadth-first order

The places below a root are the ways down to them. They are listed level by level; a queue
to which the children of its own nodes are appended in turn lists the same nodes. -/
namespace SurfaceLoom.Lib.Breadth

variable {N : Type}

/-- The node at the end of a way down: which child is taken at each step. -/
inductive At (children : N → List N) (root : N) : List Nat → N → Prop
  | root : At children root [] root
  | child {p : List Nat} {n c : N} {i : Nat} (hp : At children root p n)
      (hc : (children n)[i]? = some c) : At children root (p ++ [i]) c

variable (children : N → List N) (root : N)

def descend (place : List Nat × N) : List (List Nat × N) :=
  (children place.2).zipIdx.map fun child => (place.1 ++ [child.2], child.1)

def level : Nat → List (List Nat × N)
  | 0 => [([], root)]
  | k + 1 => (level k).flatMap (descend children)

/-- The first levels, one after the other. -/
def upTo : Nat → List (List Nat × N)
  | 0 => []
  | k + 1 => upTo k ++ level children root k

/-- The nodes of the first levels in breadth-first order. -/
def nodes (k : Nat) : List N := (upTo children root k).map Prod.snd

variable {children root}

theorem upTo_succ (k : Nat) : upTo children root (k + 1) =
    ([], root) :: (upTo children root k).flatMap (descend children) := by
  induction k with
  | zero => rfl
  | succ k ih =>
    calc
      upTo children root (k + 2) = upTo children root (k + 1) ++ level children root (k + 1) := rfl
      _ = ([], root) :: ((upTo children root k).flatMap (descend children) ++
          (level children root k).flatMap (descend children)) := by
        rw [ih]
        rfl
      _ = ([], root) :: (upTo children root (k + 1)).flatMap (descend children) := by
        rw [← List.flatMap_append]
        rfl

theorem map_descend (place : List Nat × N) :
    (descend children place).map Prod.snd = children place.2 := by
  rw [descend, List.map_map]
  exact List.zipIdx_map_fst 0 (children place.2)

theorem nodes_succ (k : Nat) :
    nodes children root (k + 1) = root :: (nodes children root k).flatMap children := by
  rw [nodes, upTo_succ, List.map_cons, List.map_flatMap, nodes, List.flatMap_map]
  simp only [map_descend]

theorem mem_descend {place : List Nat × N} {p : List Nat} {c : N} :
    (p, c) ∈ descend children place ↔
      ∃ i, (children place.2)[i]? = some c ∧ p = place.1 ++ [i] := by
  rw [descend, List.mem_map]
  constructor
  · intro h
    obtain ⟨⟨c, i⟩, hmem, heq⟩ := h
    obtain ⟨rfl, rfl⟩ := Prod.mk.inj heq
    exact ⟨i, List.mk_mem_zipIdx_iff_getElem?.mp hmem, rfl⟩
  · intro h
    obtain ⟨i, hc, rfl⟩ := h
    exact ⟨(c, i), List.mk_mem_zipIdx_iff_getElem?.mpr hc, rfl⟩

theorem at_of_mem_level {k : Nat} {p : List Nat} {n : N} (h : (p, n) ∈ level children root k) :
    At children root p n ∧ p.length = k := by
  induction k generalizing p n with
  | zero =>
    obtain ⟨rfl, rfl⟩ := Prod.mk.inj (List.mem_singleton.mp h)
    exact ⟨.root, rfl⟩
  | succ k ih =>
    obtain ⟨⟨q, m⟩, hq, hmem⟩ := List.mem_flatMap.mp h
    obtain ⟨i, hc, rfl⟩ := mem_descend.mp hmem
    obtain ⟨hat, hlength⟩ := ih hq
    exact ⟨.child hat hc, by simp [hlength]⟩

theorem mem_level_of_at {p : List Nat} {n : N} (h : At children root p n) :
    (p, n) ∈ level children root p.length := by
  induction h with
  | root => exact List.mem_singleton_self _
  | @child p n c i hp hc ih =>
    rw [List.length_append, List.length_singleton]
    exact List.mem_flatMap.mpr ⟨(p, n), ih, mem_descend.mpr ⟨i, hc, rfl⟩⟩

theorem mem_upTo {k : Nat} {p : List Nat} {n : N} :
    (p, n) ∈ upTo children root k ↔ At children root p n ∧ p.length < k := by
  induction k with
  | zero => simp [upTo]
  | succ k ih =>
    rw [upTo, List.mem_append, ih]
    constructor
    · intro h
      rcases h with ⟨hat, hlt⟩ | hmem
      · exact ⟨hat, by omega⟩
      · obtain ⟨hat, hlength⟩ := at_of_mem_level hmem
        exact ⟨hat, by omega⟩
    · intro h
      obtain ⟨hat, hlt⟩ := h
      by_cases hlast : p.length = k
      · exact .inr (hlast ▸ mem_level_of_at hat)
      · exact .inl ⟨hat, by omega⟩

theorem mem_nodes {k : Nat} {n : N} (h : n ∈ nodes children root k) :
    ∃ p, At children root p n := by
  obtain ⟨⟨p, m⟩, hmem, rfl⟩ := List.mem_map.mp h
  exact ⟨p, (mem_upTo.mp hmem).1⟩

theorem At.mem_nodes {p : List Nat} {n : N} (h : At children root p n) :
    n ∈ nodes children root (p.length + 1) :=
  List.mem_map.mpr ⟨(p, n), mem_upTo.mpr ⟨h, Nat.lt_succ_self _⟩, rfl⟩

/-! ## No place twice -/

theorem descend_nodup (place : List Nat × N) :
    ((descend children place).map Prod.fst).Nodup := by
  have hplaces : (descend children place).map Prod.fst =
      (List.range (children place.2).length).map fun i => place.1 ++ [i] := by
    rw [List.range_eq_range', ← List.zipIdx_map_snd 0 (children place.2), descend, List.map_map,
      List.map_map]
    rfl
  rw [hplaces]
  refine List.Nodup.map (fun i j h => ?_) List.nodup_range
  have hlast := List.append_cancel_left h
  exact (List.cons.inj hlast).1

theorem level_nodup (k : Nat) : ((level children root k).map Prod.fst).Nodup := by
  induction k with
  | zero => exact List.nodup_singleton _
  | succ k ih =>
    rw [level, List.map_flatMap]
    refine List.nodup_flatMap.mpr ⟨fun place _ => descend_nodup place, ?_⟩
    refine (List.pairwise_map.mp ih).imp fun hne => ?_
    intro p hp hq
    obtain ⟨⟨p', c⟩, hc, rfl⟩ := List.mem_map.mp hp
    obtain ⟨⟨q', c'⟩, hc', heq⟩ := List.mem_map.mp hq
    obtain ⟨i, -, hi⟩ := mem_descend.mp hc
    obtain ⟨j, -, hj⟩ := mem_descend.mp hc'
    have happend : _ ++ [j] = _ ++ [i] := hj.symm.trans (heq.trans hi)
    exact hne (List.append_inj' happend rfl).1.symm

theorem upTo_nodup (k : Nat) : ((upTo children root k).map Prod.fst).Nodup := by
  induction k with
  | zero => exact List.nodup_nil
  | succ k ih =>
    rw [upTo, List.map_append]
    refine List.nodup_append.mpr ⟨ih, level_nodup k, ?_⟩
    intro p hp q hq heq
    obtain ⟨⟨p', n⟩, hmem, rfl⟩ := List.mem_map.mp hp
    obtain ⟨⟨q', m⟩, hlevel, rfl⟩ := List.mem_map.mp hq
    have hlt := (mem_upTo.mp hmem).2
    have hlength := (at_of_mem_level hlevel).2
    have hsame : p' = q' := heq
    rw [hsame, hlength] at hlt
    exact Nat.lt_irrefl _ hlt

/-! ## Trees -/

/-- Nodes at different places are different, by the given equality. -/
def IsTree (children : N → List N) (root : N) (same : N → N → Prop) : Prop :=
  ∀ p q a b, At children root p a → At children root q b → same a b → p = q

variable {same : N → N → Prop}

theorem IsTree.pairwise (h : IsTree children root same) (k : Nat) :
    (nodes children root k).Pairwise fun a b => ¬ same a b := by
  rw [nodes, List.pairwise_map]
  refine (List.pairwise_map.mp (upTo_nodup k)).imp_of_mem fun ha hb hne hsame => ?_
  exact hne (h _ _ _ _ (mem_upTo.mp ha).1 (mem_upTo.mp hb).1 hsame)

theorem isTree_of_pairwise (hsymm : ∀ {a b}, same a b → same b a)
    (h : ∀ k, (nodes children root k).Pairwise fun a b => ¬ same a b) :
    IsTree children root same := by
  intro p q a b hp hq hsame
  by_contra hne
  have hpairwise := List.pairwise_map.mp (h (p.length + q.length + 1))
  have : Std.Symm fun x y : List Nat × N => ¬ same x.2 y.2 := ⟨fun _ _ hxy hyx => hxy (hsymm hyx)⟩
  have hpa : (p, a) ∈ upTo children root (p.length + q.length + 1) := mem_upTo.mpr ⟨hp, by omega⟩
  have hqb : (q, b) ∈ upTo children root (p.length + q.length + 1) := mem_upTo.mpr ⟨hq, by omega⟩
  exact hpairwise.forall hpa hqb (fun heq => hne (Prod.mk.inj heq).1) hsame

/-! ## The queue -/

theorem prefix_flatMap {M : Type} {a b : List N} (h : a <+: b) (f : N → List M) :
    a.flatMap f <+: b.flatMap f := by
  obtain ⟨t, rfl⟩ := h
  rw [List.flatMap_append]
  exact List.prefix_append _ _

/-- What the nodes at the front of the queue append is in breadth-first order. -/
theorem queue_prefix {front : List N} {k : Nat} (h : front <+: nodes children root k) :
    root :: front.flatMap children <+: nodes children root (k + 1) := by
  rw [nodes_succ]
  exact List.cons_prefix_cons.mpr ⟨rfl, prefix_flatMap h children⟩

/-- A queue whose nodes have all appended their children has every level. -/
theorem nodes_prefix {queue : List N} (h : queue = root :: queue.flatMap children) (k : Nat) :
    nodes children root k <+: queue := by
  induction k with
  | zero => exact List.nil_prefix
  | succ k ih =>
    rw [nodes_succ, h]
    exact List.cons_prefix_cons.mpr ⟨rfl, prefix_flatMap ih children⟩

end SurfaceLoom.Lib.Breadth
