import Mathlib.Data.List.Chain
import Mathlib.Data.List.Nodup
import Mathlib.Data.List.Perm.Subperm
import Mathlib.Logic.Relation
import Mathlib.Tactic.Common

/-! # Depth-first search that reports cycles

A search over the successors of a node that keeps the nodes on the way to where it is
(`visiting`) and those it has left (`visited`, `output`). It ends with an order in which
every node stands after its successors, or at a node that it reached from itself; with a
depth of one more than there are nodes it never runs out. -/
namespace SurfaceLoom.Lib.DepthFirst

variable {α ε : Type*}

structure State (α : Type*) where
  visiting : List α
  visited : List α
  output : List α

inductive Failure (α ε : Type*)
  | cycle (node : α)
  | refused (error : ε)
  | tooDeep
  deriving DecidableEq

section Search

variable [DecidableEq α]

/-- `next` lists the successors of a node; one that cannot be followed is an error. -/
def visit (next : α → List (Except ε α)) : Nat → α → State α → Except (Failure α ε) (State α)
  | 0, _, _ => .error .tooDeep
  | depth + 1, name, s =>
    if name ∈ s.visiting then .error (.cycle name)
    else if name ∈ s.visited then .ok s
    else do
      let s ← (next name).foldlM (fun s successor =>
        match successor with
        | .error error => .error (.refused error)
        | .ok successor => visit next depth successor s) { s with visiting := s.visiting ++ [name] }
      .ok ⟨s.visiting.erase name, s.visited ++ [name], s.output ++ [name]⟩

def search (next : α → List (Except ε α)) (depth : Nat) (roots : List α) :
    Except (Failure α ε) (State α) :=
  roots.foldlM (fun s name => visit next depth name s) ⟨[], [], []⟩

/-- One round of the loop over the successors. -/
def visitNext (next : α → List (Except ε α)) (depth : Nat) (s : State α)
    (successor : Except ε α) : Except (Failure α ε) (State α) :=
  match successor with
  | .error error => .error (.refused error)
  | .ok successor => visit next depth successor s

end Search

variable {next : α → List (Except ε α)}

/-- `b` is a successor of `a`. -/
def Edge (next : α → List (Except ε α)) (a b : α) : Prop := .ok b ∈ next a

/-! ## Orders -/

/-- Every listed node stands after its successors, once. -/
structure Ordered (next : α → List (Except ε α)) (output : List α) : Prop where
  nodup : output.Nodup
  after : ∀ before a rest, output = before ++ a :: rest → ∀ b, Edge next a b → b ∈ before

/-- A node whose successors are all listed may be listed next. -/
theorem Ordered.snoc {output : List α} (h : Ordered next output) {a : α} (hnew : a ∉ output)
    (hnext : ∀ b, Edge next a b → b ∈ output) : Ordered next (output ++ [a]) := by
  refine ⟨List.Nodup.append h.nodup (List.nodup_singleton a) (by simpa using hnew), ?_⟩
  intro before x rest hsplit b hb
  rcases List.eq_nil_or_concat rest with rfl | ⟨rest, y, rfl⟩
  · obtain ⟨hbefore, hlast⟩ := List.append_inj' hsplit rfl
    cases hlast
    rw [← hbefore]
    exact hnext b hb
  · have hshort : output = before ++ x :: rest := by
      rw [List.concat_eq_append, ← List.cons_append, ← List.append_assoc] at hsplit
      exact (List.append_inj' hsplit rfl).1
    exact h.after before x rest hshort b hb

/-- What a node reaches stands before it. -/
theorem Ordered.reaches {output : List α} (h : Ordered next output) {a b : α}
    (hreach : Relation.TransGen (Edge next) a b) :
    ∀ before rest, output = before ++ a :: rest → b ∈ before := by
  induction hreach using Relation.TransGen.head_induction_on with
  | single hedge => exact fun before rest hsplit => h.after before _ rest hsplit b hedge
  | @head a c hedge _ ih =>
    intro before rest hsplit
    obtain ⟨before', rest', rfl⟩ := List.append_of_mem (h.after before a rest hsplit c hedge)
    have hin := ih before' (rest' ++ a :: rest) (by rw [hsplit]; simp)
    exact List.mem_append_left _ hin

theorem Ordered.acyclic {output : List α} (h : Ordered next output) {a : α} (ha : a ∈ output) :
    ¬ Relation.TransGen (Edge next) a a := by
  intro hcycle
  obtain ⟨before, rest, hsplit⟩ := List.append_of_mem ha
  have hbefore := h.reaches hcycle before rest hsplit
  have hnodup := h.nodup
  rw [hsplit] at hnodup
  exact (List.nodup_append.mp hnodup).2.2 a hbefore a List.mem_cons_self rfl

theorem transGen_of_isChain {R : α → α → Prop} {a b : α} : ∀ (path : List α),
    (a :: path ++ [b]).IsChain R → Relation.TransGen R a b
  | [], h => .single (by simpa using h)
  | x :: path, h => by
    rw [List.cons_append, List.cons_append, List.isChain_cons_cons] at h
    exact .head h.1 (transGen_of_isChain path h.2)

/-! ## What a search keeps -/

/-- `nodes` is a set of nodes that has all their successors. -/
def Closed (next : α → List (Except ε α)) (nodes : List α) : Prop :=
  ∀ a ∈ nodes, ∀ b, Edge next a b → b ∈ nodes

structure Sound (next : α → List (Except ε α)) (nodes : List α) (s : State α) : Prop where
  visited : s.visited = s.output
  ordered : Ordered next s.output
  distinct : s.visiting.Nodup
  apart : ∀ a ∈ s.visiting, a ∉ s.output
  visitingInside : ∀ a ∈ s.visiting, a ∈ nodes
  outputInside : ∀ a ∈ s.output, a ∈ nodes

/-- What a stretch of the search that ends well does to the state. -/
structure Grows (s t : State α) : Prop where
  visiting : t.visiting = s.visiting
  output : ∃ new, t.output = s.output ++ new

theorem Grows.refl (s : State α) : Grows s s := ⟨rfl, [], (List.append_nil _).symm⟩

theorem Grows.trans {s t u : State α} (h : Grows s t) (h' : Grows t u) : Grows s u := by
  obtain ⟨new, hnew⟩ := h.output
  obtain ⟨new', hnew'⟩ := h'.output
  exact ⟨h'.visiting.trans h.visiting, new ++ new', by rw [hnew', hnew, List.append_assoc]⟩

theorem Grows.mem {s t : State α} (h : Grows s t) {a : α} (ha : a ∈ s.output) : a ∈ t.output := by
  obtain ⟨new, hnew⟩ := h.output
  rw [hnew]
  exact List.mem_append_left _ ha

/-- The results a stretch of the search may have that was to list `names`. -/
inductive Outcome (next : α → List (Except ε α)) (nodes : List α) (s : State α)
    (names : List α) : Except (Failure α ε) (State α) → Prop
  | listed {t : State α} (sound : Sound next nodes t) (grows : Grows s t)
      (listed : ∀ a ∈ names, a ∈ t.output) : Outcome next nodes s names (.ok t)
  | cycle {a : α} (inside : a ∈ nodes) (reaches : Relation.TransGen (Edge next) a a) :
      Outcome next nodes s names (.error (.cycle a))
  | refused {a : α} {error : ε} (inside : a ∈ nodes) (here : .error error ∈ next a) :
      Outcome next nodes s names (.error (.refused error))

section Search

variable [DecidableEq α]

theorem visit_succ (depth : Nat) (name : α) (s : State α) :
    visit next (depth + 1) name s =
      if name ∈ s.visiting then .error (.cycle name)
      else if name ∈ s.visited then .ok s
      else ((next name).foldlM (visitNext next depth)
        { s with visiting := s.visiting ++ [name] }).bind fun s =>
          .ok ⟨s.visiting.erase name, s.visited ++ [name], s.output ++ [name]⟩ := rfl

omit [DecidableEq α] in
/-- The names of a list one after the other, if each of them has one of the outcomes. -/
theorem outcome_foldlM {β : Type*} {f : State α → β → Except (Failure α ε) (State α)}
    {nodes : List α} (name : β → Option α) : ∀ (l : List β) {s : State α}, Sound next nodes s →
      (∀ x ∈ l, ∀ t, Sound next nodes t → t.visiting = s.visiting →
        Outcome next nodes t (name x).toList (f t x)) →
      Outcome next nodes s (l.filterMap name) (l.foldlM f s)
  | [], s, hs, _ => .listed hs (.refl s) (by simp)
  | x :: l, s, hs, hstep => by
    rw [List.foldlM_cons]
    have hfirst := hstep x List.mem_cons_self s hs rfl
    cases hx : f s x with
    | error failure =>
      rw [hx] at hfirst
      cases hfirst with
      | cycle hin hreach => exact .cycle hin hreach
      | refused hin here => exact .refused hin here
    | ok t =>
      rw [hx] at hfirst
      cases hfirst with
      | listed ht hgrows hlisted =>
        have hrest := outcome_foldlM name l ht fun y hy u hu hvisiting =>
          hstep y (List.mem_cons_of_mem _ hy) u hu (hvisiting.trans hgrows.visiting)
        show Outcome next nodes s _ (l.foldlM f t)
        cases hl : l.foldlM f t with
        | error failure =>
          rw [hl] at hrest
          cases hrest with
          | cycle hin hreach => exact .cycle hin hreach
          | refused hin here => exact .refused hin here
        | ok u =>
          rw [hl] at hrest
          cases hrest with
          | listed hu hgrows' hlisted' =>
            refine .listed hu (hgrows.trans hgrows') ?_
            intro a ha
            obtain ⟨y, hy, hname⟩ := List.mem_filterMap.mp ha
            rcases List.mem_cons.mp hy with rfl | hy
            · exact hgrows'.mem (hlisted a (by simp [hname]))
            · exact hlisted' a (List.mem_filterMap.mpr ⟨y, hy, hname⟩)

/-- A visit, by a path of edges through what is being visited. -/
theorem visit_outcome {nodes : List α} (hclosed : Closed next nodes) :
    ∀ (depth : Nat) {name : α} {s : State α}, Sound next nodes s → name ∈ nodes →
      (s.visiting ++ [name]).IsChain (Edge next) → nodes.length < depth + s.visiting.length →
      Outcome next nodes s [name] (visit next depth name s)
  | 0, name, s, hs, _, _, hdepth => by
    -- more nodes being visited than there are
    have hle := (List.subperm_of_subset hs.distinct hs.visitingInside).length_le
    omega
  | depth + 1, name, s, hs, hname, hpath, hdepth => by
    rw [visit_succ]
    split
    · rename_i hvisiting
      obtain ⟨before, rest, hsplit⟩ := List.append_of_mem hvisiting
      rw [hsplit, List.append_assoc] at hpath
      exact .cycle hname (transGen_of_isChain rest (List.isChain_append.mp hpath).2.1)
    · rename_i hnot
      split
      · rename_i hvisited
        rw [hs.visited] at hvisited
        exact .listed hs (.refl s) (by simpa using hvisited)
      · rename_i hnew
        rw [hs.visited] at hnew
        have hopen : Sound next nodes { s with visiting := s.visiting ++ [name] } := by
          refine ⟨hs.visited, hs.ordered, ?_, ?_, ?_, hs.outputInside⟩
          · exact List.Nodup.append hs.distinct (List.nodup_singleton name) (by simpa using hnot)
          · intro a ha
            rcases List.mem_append.mp ha with ha | ha
            · exact hs.apart a ha
            · rw [List.mem_singleton.mp ha]
              exact hnew
          · intro a ha
            rcases List.mem_append.mp ha with ha | ha
            · exact hs.visitingInside a ha
            · rw [List.mem_singleton.mp ha]
              exact hname
        have hloop := outcome_foldlM (f := visitNext next depth) Except.toOption (next name) hopen ?_
        · cases hnext : (next name).foldlM (visitNext next depth)
              { s with visiting := s.visiting ++ [name] } with
          | error failure =>
            rw [hnext] at hloop
            cases hloop with
            | cycle hin hreach => exact .cycle hin hreach
            | refused hin here => exact .refused hin here
          | ok t =>
            rw [hnext] at hloop
            cases hloop with
            | listed ht hgrows hlisted =>
              have hvisiting : t.visiting = s.visiting ++ [name] := hgrows.visiting
              have herase : t.visiting.erase name = s.visiting := by
                rw [hvisiting, List.erase_append_right _ hnot, List.erase_cons_head, List.append_nil]
              have hapart : name ∉ t.output := ht.apart name (by simp [hvisiting])
              refine .listed (s := s) ⟨?_, ?_, ?_, ?_, ?_, ?_⟩ ⟨herase, ?_⟩ (by simp)
              · rw [ht.visited]
              · refine ht.ordered.snoc hapart fun b hb => hlisted b ?_
                exact List.mem_filterMap.mpr ⟨.ok b, hb, rfl⟩
              · rw [herase]
                exact hs.distinct
              · intro a ha hout
                rw [herase] at ha
                rcases List.mem_append.mp hout with hout | hout
                · exact ht.apart a (by simp [hvisiting, ha]) hout
                · rw [List.mem_singleton.mp hout] at ha
                  exact hnot ha
              · rw [herase]
                exact hs.visitingInside
              · intro a hout
                rcases List.mem_append.mp hout with hout | hout
                · exact ht.outputInside a hout
                · rw [List.mem_singleton.mp hout]
                  exact hname
              · obtain ⟨new, hnew'⟩ := hgrows.output
                exact ⟨new ++ [name], by rw [hnew', List.append_assoc]⟩
        · intro successor hsuccessor t ht hvisiting
          cases successor with
          | error error => exact .refused hname hsuccessor
          | ok b =>
            have hedge : Edge next name b := hsuccessor
            refine visit_outcome hclosed depth ht (hclosed name hname b hedge) ?_ ?_
            · rw [hvisiting]
              refine List.isChain_append.mpr ⟨hpath, List.isChain_singleton b, ?_⟩
              intro x hx y hy
              rw [List.getLast?_append_cons] at hx
              simp at hx hy
              rw [← hx, ← hy]
              exact hedge
            · rw [hvisiting, List.length_append, List.length_singleton]
              omega

/-- The outcome of a whole search. -/
theorem search_outcome {nodes roots : List α} (hclosed : Closed next nodes)
    (hroots : ∀ a ∈ roots, a ∈ nodes) {depth : Nat} (hdepth : nodes.length < depth) :
    Outcome next nodes ⟨[], [], []⟩ roots (search next depth roots) := by
  have hempty : Sound next nodes ⟨[], [], []⟩ :=
    ⟨rfl, ⟨.nil, by simp⟩, .nil, by simp, by simp, by simp⟩
  have h := outcome_foldlM (f := fun s name => visit next depth name s) some roots hempty ?_
  · rwa [List.filterMap_some] at h
  · intro name hname t ht hvisiting
    refine visit_outcome hclosed depth ht (hroots name hname) ?_ ?_
    · rw [hvisiting]
      exact List.isChain_singleton name
    · rw [hvisiting]
      exact hdepth

/-- A search from all nodes of a graph that can be followed throughout: an order of exactly
these nodes, or a cycle among them, whichever there is. -/
theorem search_all {nodes : List α} (hclosed : Closed next nodes)
    (hfollow : ∀ a ∈ nodes, ∀ error, .error error ∉ next a) {roots : List α}
    (hroots : ∀ a, a ∈ roots ↔ a ∈ nodes) {depth : Nat} (hdepth : nodes.length < depth) :
    ((∃ t, search next depth roots = .ok t ∧ Ordered next t.output ∧ ∀ a, a ∈ t.output ↔ a ∈ nodes) ∧
      ∀ a ∈ nodes, ¬ Relation.TransGen (Edge next) a a) ∨
    ((∃ a, search next depth roots = .error (.cycle a)) ∧
      ∃ a ∈ nodes, Relation.TransGen (Edge next) a a) := by
  have h := search_outcome hclosed (fun a ha => (hroots a).mp ha) hdepth
  cases hsearch : search next depth roots with
  | ok t =>
    rw [hsearch] at h
    cases h with
    | listed ht hgrows hlisted =>
      have hmem : ∀ a, a ∈ t.output ↔ a ∈ nodes := fun a =>
        ⟨ht.outputInside a, fun ha => hlisted a ((hroots a).mpr ha)⟩
      exact .inl ⟨⟨t, rfl, ht.ordered, hmem⟩, fun a ha => ht.ordered.acyclic ((hmem a).mpr ha)⟩
  | error failure =>
    rw [hsearch] at h
    cases h with
    | cycle hin hreach => exact .inr ⟨⟨_, rfl⟩, _, hin, hreach⟩
    | refused hin here => exact absurd here (hfollow _ hin _)

end Search

end SurfaceLoom.Lib.DepthFirst
