import Mathlib.Data.Finset.Card
import Mathlib.Order.WellFoundedSet
import SurfaceLoom.Lib.OrderedMap

/-! # In-degree elimination

Vertices without an incoming edge are taken away one by one, each with its outgoing
edges, parallel edges one at a time. What is left has cycles: every vertex is taken away
exactly when there is none. -/
namespace SurfaceLoom.Lib.Elimination
open SurfaceLoom.Lib

variable {α : Type*} [DecidableEq α]

/-! ## The algorithm -/

/-- The targets of each vertex, and how many edges come in. -/
structure Degrees (α : Type*) where
  adjacency : OrderedMap α (List α)
  indegree : OrderedMap α ℤ

def Degrees.add (g : Degrees α) (edge : α × α) : Degrees α :=
  let targets := (g.adjacency.get? edge.1).getD []
  let indegree := if g.indegree.has edge.1 then g.indegree else g.indegree.set edge.1 0
  ⟨g.adjacency.set edge.1 (targets ++ [edge.2]),
    indegree.set edge.2 ((indegree.get? edge.2).getD 0 + 1)⟩

def degrees (edges : List (α × α)) : Degrees α := edges.foldl Degrees.add ⟨.empty, .empty⟩

/-- One edge is taken away; its target is ready when no other comes in. -/
def relax (s : OrderedMap α ℤ × List α) (target : α) : OrderedMap α ℤ × List α :=
  let next := (s.1.get? target).getD 0 - 1
  (s.1.set target next, if next = 0 then s.2 ++ [target] else s.2)

def eliminate (adjacency : OrderedMap α (List α)) :
    Nat → OrderedMap α ℤ → List α → Nat → Option Nat
  | _, _, [], visited => some visited
  | 0, _, _ :: _, _ => none
  | fuel + 1, indegree, key :: ready, visited =>
    let (indegree, ready) := ((adjacency.get? key).getD []).foldl relax (indegree, ready)
    eliminate adjacency fuel indegree ready (visited + 1)

def ready (indegree : OrderedMap α ℤ) : List α :=
  (indegree.entries.filter (·.2 = 0)).map Prod.fst

/-- How many vertices are taken away. -/
def visited (edges : List (α × α)) : Option Nat :=
  let g := degrees edges
  eliminate g.adjacency g.indegree.size g.indegree (ready g.indegree) 0

/-! ## Counting edges -/

/-- The edges into a vertex from outside the vertices that are done. -/
def incoming (edges : List (α × α)) (done : List α) (v : α) : Nat :=
  edges.countP fun e => e.2 = v ∧ e.1 ∉ done

def targets (edges : List (α × α)) (v : α) : List α := (edges.filter (·.1 = v)).map Prod.snd

def Vertex (edges : List (α × α)) (v : α) : Prop := ∃ e ∈ edges, e.1 = v ∨ e.2 = v

theorem count_targets (edges : List (α × α)) (v key : α) :
    (targets edges key).count v = edges.countP fun e => e.2 = v ∧ e.1 = key := by
  unfold targets
  rw [List.count_eq_countP, List.countP_map, List.countP_filter]
  refine List.countP_congr fun e _ => ?_
  simp

/-- A vertex that is done takes its edges along. -/
theorem incoming_snoc (edges : List (α × α)) {done : List α} {key : α} (hkey : key ∉ done)
    (v : α) : incoming edges done v =
      incoming edges (done ++ [key]) v + (targets edges key).count v := by
  rw [count_targets]
  unfold incoming
  induction edges with
  | nil => rfl
  | cons e edges ih =>
    rw [List.countP_cons, List.countP_cons, List.countP_cons, ih]
    by_cases hto : e.2 = v
    · by_cases hfrom : e.1 = key
      · simp [hto, hfrom, hkey]
        omega
      · by_cases hdone : e.1 ∈ done
        · simp [hto, hfrom, hdone]
        · simp [hto, hfrom, hdone]
          omega
    · simp [hto]

theorem incoming_eq_zero {edges : List (α × α)} {done : List α} {v : α} :
    incoming edges done v = 0 ↔ ∀ e ∈ edges, e.2 = v → e.1 ∈ done := by
  unfold incoming
  rw [List.countP_eq_zero]
  simp

/-! ## What the maps hold -/

/-- The degree of a vertex; none counts as zero. -/
def degree (indegree : OrderedMap α ℤ) (v : α) : ℤ := (indegree.get? v).getD 0

theorem degree_set (indegree : OrderedMap α ℤ) (k v : α) (n : ℤ) :
    degree (indegree.set k n) v = if v = k then n else degree indegree v := by
  unfold degree
  rw [OrderedMap.get?_set]
  split
  · rfl
  · rfl

structure Degrees.Of (g : Degrees α) (edges : List (α × α)) : Prop where
  adjacency : ∀ v, (g.adjacency.get? v).getD [] = targets edges v
  indegree : ∀ v, degree g.indegree v = incoming edges [] v
  vertices : ∀ v, v ∈ g.indegree.keys ↔ Vertex edges v

theorem mem_keys_set {ν : Type*} (m : OrderedMap α ν) (k v : α) (n : ν) :
    v ∈ (m.set k n).keys ↔ v = k ∨ v ∈ m.keys := OrderedMap.mem_keys_upsert

theorem targets_snoc (edges : List (α × α)) (e : α × α) (v : α) :
    targets (edges ++ [e]) v = targets edges v ++ if e.1 = v then [e.2] else [] := by
  unfold targets
  rw [List.filter_append, List.map_append]
  by_cases h : e.1 = v <;> simp [h]

theorem incoming_edges_snoc (edges : List (α × α)) (e : α × α) (v : α) :
    incoming (edges ++ [e]) [] v = incoming edges [] v + if e.2 = v then 1 else 0 := by
  unfold incoming
  rw [List.countP_append]
  by_cases h : e.2 = v <;> simp [h]

omit [DecidableEq α] in
theorem vertex_snoc (edges : List (α × α)) (e : α × α) (v : α) :
    Vertex (edges ++ [e]) v ↔ v = e.2 ∨ v = e.1 ∨ Vertex edges v := by
  unfold Vertex
  constructor
  · rintro ⟨e', hmem, hv⟩
    rcases List.mem_append.mp hmem with hold | hnew
    · exact .inr (.inr ⟨e', hold, hv⟩)
    · cases List.mem_singleton.mp hnew
      rcases hv with rfl | rfl
      · exact .inr (.inl rfl)
      · exact .inl rfl
  · rintro (rfl | rfl | ⟨e', hmem, hv⟩)
    · exact ⟨e, List.mem_append_right _ List.mem_cons_self, .inr rfl⟩
    · exact ⟨e, List.mem_append_right _ List.mem_cons_self, .inl rfl⟩
    · exact ⟨e', List.mem_append_left _ hmem, hv⟩

theorem Degrees.Of.add {g : Degrees α} {edges : List (α × α)} (h : g.Of edges) (e : α × α) :
    (g.add e).Of (edges ++ [e]) := by
  unfold Degrees.add
  refine ⟨?_, ?_, ?_⟩
  · intro v
    simp only
    rw [OrderedMap.get?_set, targets_snoc, ← h.adjacency v]
    by_cases hv : v = e.1
    · simp [hv]
    · simp [hv, Ne.symm hv]
  · intro v
    simp only
    have hbase : ∀ w, degree (if g.indegree.has e.1 then g.indegree else g.indegree.set e.1 0) w =
        degree g.indegree w := by
      intro w
      split
      · rfl
      · rename_i hnew
        rw [Bool.not_eq_true, OrderedMap.has_eq_false_iff] at hnew
        rw [degree_set]
        split
        · rename_i hw
          unfold degree
          rw [hw, hnew]
          rfl
        · rfl
    rw [degree_set, incoming_edges_snoc]
    split
    · rename_i hv
      show degree _ e.2 + 1 = _
      rw [hbase, h.indegree, hv, if_pos rfl]
      push_cast
      rfl
    · rename_i hv
      rw [hbase, h.indegree, if_neg (Ne.symm hv), Nat.add_zero]
  · intro v
    simp only
    rw [mem_keys_set, vertex_snoc, ← h.vertices v]
    split
    · rename_i hold
      have hmem : e.1 ∈ g.indegree.keys :=
        OrderedMap.mem_keys_iff.mpr (OrderedMap.has_eq_true_iff.mp hold)
      constructor
      · rintro (hv | hv)
        · exact .inl hv
        · exact .inr (.inr hv)
      · rintro (hv | rfl | hv)
        · exact .inl hv
        · exact .inr hmem
        · exact .inr hv
    · rw [mem_keys_set]

theorem degrees_of (edges : List (α × α)) : (degrees edges).Of edges := by
  induction edges using List.reverseRecOn with
  | nil =>
    refine ⟨fun v => rfl, fun v => rfl, fun v => ?_⟩
    constructor
    · intro hmem
      cases hmem
    · rintro ⟨e, hmem, -⟩
      cases hmem
  | append_singleton edges e ih =>
    unfold degrees at ih ⊢
    rw [List.foldl_append]
    exact ih.add e

/-! ## Taking one vertex away -/

/-- What the edges of a vertex leave: its targets have lost them, and those that had no
other are ready. -/
theorem relax_all (ts : List α) (indegree : OrderedMap α ℤ) (queue : List α)
    (h : ∀ v, (ts.count v : ℤ) ≤ degree indegree v) :
    ∃ new, (ts.foldl relax (indegree, queue)).2 = queue ++ new ∧ new.Nodup ∧
      (∀ v, v ∈ new ↔ v ∈ ts ∧ degree indegree v = ts.count v) ∧
      ∀ v, degree (ts.foldl relax (indegree, queue)).1 v = degree indegree v - ts.count v := by
  induction ts generalizing indegree queue with
  | nil => exact ⟨[], (List.append_nil _).symm, .nil, by simp, by simp⟩
  | cons t ts ih =>
    have hdegree : ∀ v, degree (relax (indegree, queue) t).1 v =
        degree indegree v - if v = t then 1 else 0 := by
      intro v
      show degree (indegree.set t (degree indegree t - 1)) v = _
      rw [degree_set]
      split
      · rename_i hv
        rw [hv]
      · rw [sub_zero]
    have hcount : ∀ v, ((t :: ts).count v : ℤ) = ts.count v + if v = t then 1 else 0 := by
      intro v
      rw [List.count_cons]
      by_cases hv : v = t
      · simp [hv]
      · simp [hv, Ne.symm hv]
    have hbound : ∀ v, (ts.count v : ℤ) ≤ degree (relax (indegree, queue) t).1 v := by
      intro v
      have := h v
      rw [hcount] at this
      rw [hdegree]
      omega
    have hpushed : (relax (indegree, queue) t).2 =
        queue ++ if degree indegree t - 1 = 0 then [t] else [] := by
      show (if degree indegree t - 1 = 0 then queue ++ [t] else queue) = _
      split
      · rfl
      · exact (List.append_nil _).symm
    obtain ⟨new, hnew, hnodup, hmem, hafter⟩ := ih (relax (indegree, queue) t).1
      (relax (indegree, queue) t).2 hbound
    have hlast := hbound t
    rw [hdegree, if_pos rfl] at hlast
    refine ⟨(if degree indegree t - 1 = 0 then [t] else []) ++ new, ?_, ?_, ?_, ?_⟩
    · rw [List.foldl_cons, ← List.append_assoc, ← hpushed]
      exact hnew
    · split
      · rename_i hzero
        refine List.nodup_cons.mpr ⟨?_, hnodup⟩
        intro hin
        have hpos := List.count_pos_iff.mpr ((hmem t).mp hin).1
        omega
      · exact hnodup
    · intro v
      rw [List.mem_append, hmem v, hdegree, hcount, List.mem_cons]
      by_cases hv : v = t
      · subst hv
        have hpos : v ∈ ts ↔ 0 < ts.count v := List.count_pos_iff.symm
        rw [if_pos rfl]
        split
        · rename_i hzero
          rw [hpos]
          simp only [List.mem_singleton, true_or, true_and, true_iff]
          omega
        · rename_i hzero
          rw [hpos]
          simp only [List.not_mem_nil, false_or, true_or, true_and]
          omega
      · have hother : v ∉ (if degree indegree t - 1 = 0 then [t] else []) := by
          split
          · exact fun hin => hv (List.mem_singleton.mp hin)
          · exact List.not_mem_nil
        simp only [hother, hv, false_or, if_neg, not_false_eq_true, sub_zero, add_zero]
    · intro v
      rw [List.foldl_cons]
      refine (hafter v).trans ?_
      rw [hdegree, hcount]
      omega

/-! ## The run -/

def Edge (edges : List (α × α)) (a b : α) : Prop := (a, b) ∈ edges

/-- The vertices that are done, and those that are ready, are the ones into which no edge
comes from outside; none of those done is on a cycle. -/
structure Eliminated (edges : List (α × α)) (done : List α) (indegree : OrderedMap α ℤ)
    (queue : List α) : Prop where
  nodup : (done ++ queue).Nodup
  vertices : ∀ v ∈ done ++ queue, Vertex edges v
  degrees : ∀ v, degree indegree v = incoming edges done v
  taken : ∀ v, Vertex edges v → (incoming edges done v = 0 ↔ v ∈ done ++ queue)
  acyclic : ∀ v ∈ done, ¬Relation.TransGen (Edge edges) v v

section
variable {edges : List (α × α)} {done queue : List α} {indegree : OrderedMap α ℤ}

/-- What leads to a vertex that is done or ready is done. -/
theorem Eliminated.before (h : Eliminated edges done indegree queue) {v w : α}
    (hv : v ∈ done ++ queue) (hpath : Relation.TransGen (Edge edges) w v) : w ∈ done := by
  have hclosed : ∀ {u x : α}, x ∈ done ++ queue → Edge edges u x → u ∈ done := by
    intro u x hx hedge
    exact incoming_eq_zero.mp ((h.taken x (h.vertices x hx)).mpr hx) (u, x) hedge rfl
  induction hpath with
  | single hedge => exact hclosed hv hedge
  | tail _ hedge ih => exact ih (List.mem_append_left _ (hclosed hv hedge))

theorem Eliminated.step {key : α} (h : Eliminated edges done indegree (key :: queue)) :
    ∃ indegree' queue', (targets edges key).foldl relax (indegree, queue) = (indegree', queue') ∧
      Eliminated edges (done ++ [key]) indegree' queue' := by
  have hnodup := h.nodup
  rw [List.append_cons] at hnodup
  have hkey : key ∉ done := by
    have hfirst := (List.nodup_append.mp (List.nodup_append.mp hnodup).1).2.2
    intro hmem
    exact hfirst key hmem key List.mem_cons_self rfl
  have hsplit := incoming_snoc edges hkey
  have hbound : ∀ v, ((targets edges key).count v : ℤ) ≤ degree indegree v := by
    intro v
    rw [h.degrees, hsplit]
    push_cast
    omega
  obtain ⟨new, hqueue, hnew, hmem, hafter⟩ := relax_all (targets edges key) indegree queue hbound
  have hzero : ∀ v, v ∈ new ↔ v ∈ targets edges key ∧ incoming edges (done ++ [key]) v = 0 := by
    intro v
    rw [hmem, h.degrees, hsplit v]
    refine and_congr_right fun _ => ?_
    push_cast
    omega
  have htarget : ∀ v ∈ targets edges key, 0 < incoming edges done v := by
    intro v hv
    have := List.count_pos_iff.mpr hv
    rw [hsplit]
    omega
  have hvertex : ∀ v ∈ targets edges key, Vertex edges v := by
    intro v hv
    obtain ⟨e, he, rfl⟩ := List.mem_map.mp hv
    exact ⟨e, (List.mem_filter.mp he).1, .inr rfl⟩
  refine ⟨_, _, rfl, ?_, ?_, ?_, ?_, ?_⟩
  · rw [hqueue, ← List.append_assoc]
    refine List.nodup_append.mpr ⟨hnodup, hnew, ?_⟩
    intro v hold w hw heq
    subst heq
    have hin := ((hzero v).mp hw).1
    rw [← List.append_cons] at hold
    have := (h.taken v (hvertex v hin)).mpr hold
    have := htarget v hin
    omega
  · intro v hv
    rw [hqueue, ← List.append_assoc] at hv
    rcases List.mem_append.mp hv with hold | hin
    · rw [← List.append_cons] at hold
      exact h.vertices v hold
    · exact hvertex v ((hzero v).mp hin).1
  · intro v
    rw [hafter, h.degrees, hsplit v]
    push_cast
    omega
  · intro v hv
    rw [hqueue, ← List.append_assoc, List.mem_append, ← List.append_cons, hzero v,
      ← h.taken v hv]
    constructor
    · intro hnone
      by_cases hin : v ∈ targets edges key
      · exact .inr ⟨hin, hnone⟩
      · left
        rw [hsplit, hnone, List.count_eq_zero.mpr hin]
    · rintro (hnone | ⟨-, hnone⟩)
      · rw [hsplit] at hnone
        omega
      · exact hnone
  · intro v hv hcycle
    rcases List.mem_append.mp hv with hold | hnow
    · exact h.acyclic v hold hcycle
    · cases List.mem_singleton.mp hnow
      exact hkey (h.before (List.mem_append_right _ List.mem_cons_self) hcycle)

/-- A run that has fuel for every vertex ends with none ready. -/
theorem Eliminated.run {adjacency : OrderedMap α (List α)} {vertices : List α}
    (hadjacency : ∀ v, (adjacency.get? v).getD [] = targets edges v)
    (hvertices : ∀ v, v ∈ vertices ↔ Vertex edges v) (fuel : Nat)
    (h : Eliminated edges done indegree queue) (hfuel : vertices.length ≤ done.length + fuel) :
    ∃ done' indegree', eliminate adjacency fuel indegree queue done.length = some done'.length ∧
      Eliminated edges done' indegree' [] := by
  induction fuel generalizing done indegree queue with
  | zero =>
    cases queue with
    | nil => exact ⟨done, indegree, by rw [eliminate], h⟩
    | cons key queue =>
      have hsubset : done ++ key :: queue ⊆ vertices :=
        fun v hv => (hvertices v).mpr (h.vertices v hv)
      have hlength := (List.subperm_of_subset h.nodup hsubset).length_le
      rw [List.length_append, List.length_cons] at hlength
      omega
  | succ fuel ih =>
    cases queue with
    | nil => exact ⟨done, indegree, by rw [eliminate], h⟩
    | cons key queue =>
      obtain ⟨indegree', queue', hrelax, hnext⟩ := h.step
      obtain ⟨done', indegree'', hrun, hend⟩ := ih hnext (by
        rw [List.length_append, List.length_singleton]
        omega)
      refine ⟨done', indegree'', ?_, hend⟩
      rw [eliminate, hadjacency, hrelax]
      rw [List.length_append, List.length_singleton] at hrun
      exact hrun

theorem Eliminated.vertex_done (h : Eliminated edges done indegree [])
    (hacyclic : ∀ v, ¬Relation.TransGen (Edge edges) v v) {vertices : List α}
    (hvertices : ∀ v, v ∈ vertices ↔ Vertex edges v) : ∀ v ∈ vertices, v ∈ done := by
  have hstrict : IsStrictOrder α (Relation.TransGen (Edge edges)) :=
    { irrefl := hacyclic, trans := fun _ _ _ => Relation.TransGen.trans }
  have hfounded := (List.finite_toSet vertices).wellFoundedOn
    (r := Relation.TransGen (Edge edges))
  intro v hv
  refine hfounded.induction hv fun v hv ih => ?_
  -- every edge into the vertex comes from one that is done
  have hvertex := (hvertices v).mp hv
  have hnone : incoming edges done v = 0 := by
    refine incoming_eq_zero.mpr fun e he hto => ?_
    refine ih e.1 ((hvertices e.1).mpr ⟨e, he, .inl rfl⟩) (.single ?_)
    rw [← hto]
    exact he
  have hmem := (h.taken v hvertex).mp hnone
  rwa [List.append_nil] at hmem

end

theorem initial (edges : List (α × α)) :
    Eliminated edges [] (degrees edges).indegree (ready (degrees edges).indegree) := by
  have hof := degrees_of edges
  have hready : ∀ v, v ∈ ready (degrees edges).indegree ↔
      Vertex edges v ∧ incoming edges [] v = 0 := by
    intro v
    have hdegree := hof.indegree v
    unfold ready degree at *
    rw [← hof.vertices v, OrderedMap.mem_keys_iff, List.mem_map]
    constructor
    · rintro ⟨entry, hentry, rfl⟩
      obtain ⟨hin, hzero⟩ := List.mem_filter.mp hentry
      have hget : (degrees edges).indegree.get? entry.1 = some entry.2 :=
        OrderedMap.get?_eq_some_iff.mpr hin
      rw [hget, Option.getD_some, of_decide_eq_true hzero] at hdegree
      exact ⟨⟨entry.2, hget⟩, by omega⟩
    · rintro ⟨⟨n, hget⟩, hzero⟩
      rw [hget, Option.getD_some, hzero] at hdegree
      refine ⟨(v, n), List.mem_filter.mpr ⟨OrderedMap.get?_eq_some_iff.mp hget, ?_⟩, rfl⟩
      exact decide_eq_true hdegree
  refine ⟨?_, ?_, hof.indegree, ?_, ?_⟩
  · exact (degrees edges).indegree.nodup.sublist (List.filter_sublist.map _)
  · intro v hv
    exact ((hready v).mp hv).1
  · intro v hv
    rw [List.nil_append, hready v]
    exact ⟨fun hzero => ⟨hv, hzero⟩, fun hboth => hboth.2⟩
  · intro v hv
    cases hv

/-- All vertices are taken away exactly when there is no cycle. -/
theorem visited_all_iff (edges : List (α × α)) :
    visited edges = some (degrees edges).indegree.size ↔
      ∀ v, ¬Relation.TransGen (Edge edges) v v := by
  have hof := degrees_of edges
  have hsize : (degrees edges).indegree.size = (degrees edges).indegree.keys.length :=
    (List.length_map _).symm
  obtain ⟨done, indegree, hrun, hend⟩ :=
    (initial edges).run hof.adjacency hof.vertices (degrees edges).indegree.size (by
      rw [hsize]
      exact Nat.le_add_left _ _)
  replace hrun : visited edges = some done.length := hrun
  have hnodup : done.Nodup := (List.append_nil done) ▸ hend.nodup
  have hsubset : done ⊆ (degrees edges).indegree.keys := by
    intro v hv
    exact (hof.vertices v).mpr (hend.vertices v (List.mem_append_left _ hv))
  have hle := (List.subperm_of_subset hnodup hsubset).length_le
  rw [hrun, Option.some.injEq, hsize]
  constructor
  · intro hlength v hcycle
    have hperm := (List.subperm_of_subset hnodup hsubset).perm_of_length_le hlength.ge
    obtain ⟨w, hedge, -⟩ := Relation.TransGen.head'_iff.mp hcycle
    have hvertex : Vertex edges v := ⟨(v, w), hedge, .inl rfl⟩
    exact hend.acyclic v (hperm.mem_iff.mpr ((hof.vertices v).mpr hvertex)) hcycle
  · intro hacyclic
    have hall := hend.vertex_done hacyclic hof.vertices
    have hge := (List.subperm_of_subset (degrees edges).indegree.keys_nodup hall).length_le
    omega

end SurfaceLoom.Lib.Elimination
