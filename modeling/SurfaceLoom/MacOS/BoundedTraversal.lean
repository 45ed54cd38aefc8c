import SurfaceLoom.Lib.Breadth
import SurfaceLoom.Lib.OrderedMap
import SurfaceLoom.Native.Wire

/-! # Bounded traversal of an accessibility hierarchy

The nodes below a root are visited in breadth-first order, until the hierarchy turns out to
be no tree or too large. The equality of nodes is given, with a hash that goes with it. -/
namespace SurfaceLoom.MacOS.BoundedTraversal
open SurfaceLoom.Lib SurfaceLoom.Lib.Breadth
open SurfaceLoom.Native.Wire (NativeHostBackendError macOSBackendError)

/-- What the request says of itself at its readings, one after the other. -/
structure ExecutionContext where
  isCancellationRequested : Nat → Bool
  isExpired : Nat → Bool

structure Traversal (Node : Type) where
  maximumNodes : Int
  maximumChildren : Int
  context : ExecutionContext
  hash : Node → Int
  equal : Node → Node → Bool
  children : Node → Except NativeHostBackendError (List Node)
  visit : Node → Except NativeHostBackendError Unit

structure Walk (Node : Type) where
  queue : List Node
  hashes : OrderedMap Int (List Node)
  index : Nat
  visited : List Node
  readings : Nat

abbrev Result (Node : Type) := Except NativeHostBackendError Unit × Walk Node

variable {Node : Type}

def Result.proceed (r : Result Node) (next : Walk Node → Result Node) : Result Node :=
  match r.1 with
  | .ok () => next r.2
  | .error _ => r

namespace Traversal

variable (t : Traversal Node)

def requireRunning (s : Walk Node) : Result Node :=
  let read := { s with readings := s.readings + 1 }
  if t.context.isCancellationRequested s.readings then
    (.error (macOSBackendError "request_cancelled" .cancelled "The AX traversal was cancelled."), read)
  else if t.context.isExpired s.readings then
    (.error (macOSBackendError "deadline_exceeded" .deadline
      "The AX traversal exceeded its request deadline."), read)
  else (.ok (), read)

def bucket (hashes : OrderedMap Int (List Node)) (hash : Int) : List Node :=
  (hashes.get? hash).getD []

/-- The nodes of that hash are looked through for one that is equal. -/
def place (child : Node) (s : Walk Node) : Result Node :=
  if (bucket s.hashes (t.hash child)).any fun node => t.equal node child then
    (.error (macOSBackendError "ax_traversal_cycle" .backend
      "The AX hierarchy contains a repeated element."), s)
  else if (s.queue.length : Int) < t.maximumNodes then
    (.ok (), { s with
      hashes := s.hashes.set (t.hash child) (bucket s.hashes (t.hash child) ++ [child])
      queue := s.queue ++ [child] })
  else
    (.error (macOSBackendError "ax_traversal_truncated" .backend
      "The AX hierarchy exceeds the bounded traversal limit."), s)

def enqueue (child : Node) (s : Walk Node) : Result Node :=
  (t.requireRunning s).proceed (t.place child)

def enqueueAll : List Node → Walk Node → Result Node
  | [], s => (.ok (), s)
  | child :: rest, s => (t.enqueue child s).proceed (enqueueAll rest)

/-- The children of the node that was visited last. -/
def expand (current : Node) (s : Walk Node) : Result Node :=
  match t.children current with
  | .error e => (.error e, s)
  | .ok descendants =>
    if (descendants.length : Int) ≤ t.maximumChildren then t.enqueueAll descendants s
    else
      (.error (macOSBackendError "ax_children_unavailable" .backend
        "The AX child relationship exceeded its safety limit."), s)

def visitNext (current : Node) (s : Walk Node) : Result Node :=
  let s := { s with index := s.index + 1, visited := s.visited ++ [current] }
  match t.visit current with
  | .error e => (.error e, s)
  | .ok () => (t.requireRunning s).proceed (t.expand current)

/-- The body of the loop, at the node the index is at. -/
def turn (current : Node) (s : Walk Node) : Result Node :=
  (t.requireRunning s).proceed (t.visitNext current)

def loop : Nat → Walk Node → Option (Result Node)
  | 0, _ => none
  | fuel + 1, s =>
    match s.queue[s.index]? with
    | none => some (.ok (), s)
    | some current =>
      let r := t.turn current s
      match r.1 with
      | .ok () => loop fuel r.2
      | .error _ => some r

def start (root : Node) : Walk Node :=
  ⟨[root], OrderedMap.empty.set (t.hash root) [root], 0, [], 0⟩

/-- As many turns as there can be nodes. -/
def walk (root : Node) : Option (Result Node) := t.loop (t.maximumNodes.toNat + 2) (t.start root)

end Traversal

/-! ## What the queue is -/

variable {t : Traversal Node} {root : Node}

/-- The children as far as they can be read. -/
def kids (t : Traversal Node) (n : Node) : List Node :=
  match t.children n with
  | .ok descendants => descendants
  | .error _ => []

def bound (t : Traversal Node) : Nat := max 1 t.maximumNodes.toNat

structure Queued (t : Traversal Node) (root : Node) (s : Walk Node) : Prop where
  ordered : ∃ k, s.queue <+: nodes (kids t) root k
  distinct : s.queue.Pairwise fun a b => ¬ t.equal a b = true
  bounded : s.queue.length ≤ bound t
  visited : s.visited = s.queue.take s.index
  index : s.index ≤ s.queue.length
  hashes : ∀ h, Traversal.bucket s.hashes h = s.queue.filter fun n => t.hash n = h

/-- Between two turns the children of all visited nodes are in the queue. -/
structure Between (t : Traversal Node) (root : Node) (s : Walk Node) : Prop where
  queued : Queued t root s
  queue : s.queue = root :: s.visited.flatMap (kids t)
  narrow : ∀ n ∈ s.visited, ((kids t n).length : Int) ≤ t.maximumChildren

theorem requireRunning_snd (s : Walk Node) :
    (t.requireRunning s).2 = { s with readings := s.readings + 1 } := by
  unfold Traversal.requireRunning
  dsimp only
  split
  · rfl
  split <;> rfl

theorem Queued.read {s : Walk Node} (h : Queued t root s) :
    Queued t root (t.requireRunning s).2 := by
  rw [requireRunning_snd]
  exact ⟨h.ordered, h.distinct, h.bounded, h.visited, h.index, h.hashes⟩

theorem bucket_set (hashes : OrderedMap Int (List Node)) (h : Int) (l : List Node) (h' : Int) :
    Traversal.bucket (hashes.set h l) h' = if h' = h then l else Traversal.bucket hashes h' := by
  rw [Traversal.bucket, OrderedMap.get?_set, Traversal.bucket]
  split <;> rfl

/-- A node that is not refused goes behind the others, which it equals none of. -/
theorem Queued.push (hhash : ∀ a b, t.equal a b = true → t.hash a = t.hash b) {s : Walk Node}
    (h : Queued t root s) {child : Node}
    (hordered : ∃ k, s.queue ++ [child] <+: nodes (kids t) root k)
    (hnew : (Traversal.bucket s.hashes (t.hash child)).any (fun n => t.equal n child) = false)
    (hroom : (s.queue.length : Int) < t.maximumNodes) :
    Queued t root { s with
      hashes := s.hashes.set (t.hash child) (Traversal.bucket s.hashes (t.hash child) ++ [child])
      queue := s.queue ++ [child] } where
  ordered := hordered
  distinct := by
    rw [List.pairwise_append]
    refine ⟨h.distinct, List.pairwise_singleton _ _, fun a ha b hb hequal => ?_⟩
    obtain rfl := List.mem_singleton.mp hb
    rw [h.hashes, List.any_filter, List.any_eq_false] at hnew
    refine hnew a ha ?_
    rw [hhash a b hequal, hequal]
    simp
  bounded := by
    rw [List.length_append, List.length_singleton, bound]
    omega
  visited := by
    rw [List.take_append_of_le_length h.index]
    exact h.visited
  index := by
    rw [List.length_append]
    exact Nat.le_add_right_of_le h.index
  hashes := fun hash => by
    rw [bucket_set, List.filter_append, ← h.hashes hash]
    by_cases hsame : hash = t.hash child
    · rw [if_pos hsame, ← hsame]
      simp [hsame]
    · rw [if_neg hsame]
      simp [Ne.symm hsame]

/-- What enqueuing leaves alone. -/
structure Keeps (s s' : Walk Node) : Prop where
  visited : s'.visited = s.visited
  index : s'.index = s.index

/-- What a call does to the queue: if it succeeds, these nodes are behind the others. -/
structure Grows (t : Traversal Node) (root : Node) (s : Walk Node) (more : List Node)
    (r : Result Node) : Prop where
  queued : Queued t root r.2
  visited : r.2.visited = s.visited
  index : r.2.index = s.index
  queue : r.1 = .ok () → r.2.queue = s.queue ++ more

theorem Grows.error {s s' : Walk Node} {more : List Node} {e : NativeHostBackendError}
    (h : Queued t root s') (hvisited : s'.visited = s.visited) (hindex : s'.index = s.index) :
    Grows t root s more (.error e, s') :=
  ⟨h, hvisited, hindex, fun hok => by cases hok⟩

theorem Queued.place (hhash : ∀ a b, t.equal a b = true → t.hash a = t.hash b) {s : Walk Node}
    (h : Queued t root s) {child : Node}
    (hordered : ∃ k, s.queue ++ [child] <+: nodes (kids t) root k) :
    Grows t root s [child] (t.place child s) := by
  rw [Traversal.place]
  split
  · exact .error h rfl rfl
  rename_i hnew
  split
  · rename_i hroom
    exact ⟨h.push hhash hordered (Bool.eq_false_iff.mpr hnew) hroom, rfl, rfl, fun _ => rfl⟩
  · exact .error h rfl rfl

theorem Queued.enqueue (hhash : ∀ a b, t.equal a b = true → t.hash a = t.hash b) {s : Walk Node}
    (h : Queued t root s) {child : Node}
    (hordered : ∃ k, s.queue ++ [child] <+: nodes (kids t) root k) :
    Grows t root s [child] (t.enqueue child s) := by
  have hread := h.read
  have hsnd := requireRunning_snd (t := t) s
  rw [Traversal.enqueue]
  generalize t.requireRunning s = r at hread hsnd
  obtain ⟨outcome, s'⟩ := r
  subst hsnd
  cases outcome with
  | error e => exact .error hread rfl rfl
  | ok u =>
    have hplace := hread.place hhash hordered
    exact ⟨hplace.queued, hplace.visited, hplace.index, hplace.queue⟩

theorem Queued.enqueueAll (hhash : ∀ a b, t.equal a b = true → t.hash a = t.hash b)
    {s : Walk Node} (h : Queued t root s) {rest : List Node}
    (hordered : ∃ k, s.queue ++ rest <+: nodes (kids t) root k) :
    Grows t root s rest (t.enqueueAll rest s) := by
  induction rest generalizing s with
  | nil => exact ⟨h, rfl, rfl, fun _ => (List.append_nil _).symm⟩
  | cons child rest ih =>
    obtain ⟨k, hk⟩ := hordered
    have hfirst : s.queue ++ [child] <+: nodes (kids t) root k := by
      refine List.IsPrefix.trans ?_ hk
      exact (List.prefix_append_right_inj _).mpr (List.prefix_append [child] rest)
    have hone := h.enqueue hhash ⟨k, hfirst⟩
    rw [Traversal.enqueueAll]
    generalize t.enqueue child s = r at hone
    obtain ⟨outcome, s'⟩ := r
    cases outcome with
    | error e => exact .error hone.queued hone.visited hone.index
    | ok u =>
      have hrest : s'.queue ++ rest = s.queue ++ child :: rest := by
        rw [show s'.queue = s.queue ++ [child] from hone.queue rfl, List.append_assoc,
          List.singleton_append]
      have hall := ih hone.queued ⟨k, hrest ▸ hk⟩
      refine ⟨hall.queued, hall.visited.trans hone.visited, hall.index.trans hone.index,
        fun hok => ?_⟩
      rw [← hrest]
      exact hall.queue hok

/-! ## A turn of the loop -/

/-- The next node has been visited, and what it still lacks in the queue are its children. -/
structure Visited (t : Traversal Node) (root current : Node) (s : Walk Node) : Prop where
  queued : Queued t root s
  queue : s.queue ++ kids t current = root :: s.visited.flatMap (kids t)
  narrow : ∀ n ∈ s.visited, n = current ∨ ((kids t n).length : Int) ≤ t.maximumChildren

theorem Between.visited {s : Walk Node} (h : Between t root s) {current : Node}
    (hcurrent : s.queue[s.index]? = some current) (readings : Nat) :
    Visited t root current
      { s with index := s.index + 1, visited := s.visited ++ [current], readings } where
  queued :=
    { ordered := h.queued.ordered
      distinct := h.queued.distinct
      bounded := h.queued.bounded
      visited := by
        rw [List.take_add_one, hcurrent, ← h.queued.visited]
        rfl
      index := (List.getElem?_eq_some_iff.mp hcurrent).1
      hashes := h.queued.hashes }
  queue := by
    rw [List.flatMap_append, List.flatMap_singleton, ← List.cons_append, ← h.queue]
  narrow := fun n hn => by
    rcases List.mem_append.mp hn with hn | hn
    · exact .inr (h.narrow n hn)
    · exact .inl (List.mem_singleton.mp hn)

/-- What a turn does: the node is visited, and if the turn succeeds its children are in the
queue. -/
structure Turned (t : Traversal Node) (root : Node) (s : Walk Node) (r : Result Node) : Prop where
  queued : Queued t root r.2
  between : r.1 = .ok () → Between t root r.2
  index : r.1 = .ok () → r.2.index = s.index + 1

theorem Turned.error {s s' : Walk Node} {e : NativeHostBackendError} (h : Queued t root s') :
    Turned t root s (.error e, s') :=
  ⟨h, nofun, nofun⟩

theorem Visited.expand (hhash : ∀ a b, t.equal a b = true → t.hash a = t.hash b)
    {s s₀ : Walk Node} {current : Node} (h : Visited t root current s)
    (hindex : s.index = s₀.index + 1) : Turned t root s₀ (t.expand current s) := by
  have hordered : ∃ k, s.queue ++ kids t current <+: nodes (kids t) root k := by
    obtain ⟨k, hk⟩ := h.queued.ordered
    rw [h.queue, h.queued.visited]
    exact ⟨k + 1, queue_prefix ((List.take_prefix _ _).trans hk)⟩
  rw [Traversal.expand]
  cases hchildren : t.children current with
  | error e => exact .error h.queued
  | ok descendants =>
    have hkids : kids t current = descendants := by rw [kids, hchildren]
    dsimp only
    split
    · rename_i hfew
      rw [hkids] at hordered
      have hgrows := h.queued.enqueueAll hhash hordered
      refine ⟨hgrows.queued, fun hok => ⟨hgrows.queued, ?_, ?_⟩, fun _ => ?_⟩
      · rw [hgrows.queue hok, hgrows.visited, ← hkids, h.queue]
      · rw [hgrows.visited]
        intro n hn
        rcases h.narrow n hn with rfl | hnarrow
        · rw [hkids]
          exact hfew
        · exact hnarrow
      · rw [hgrows.index, hindex]
    · exact .error h.queued

theorem Between.turn (hhash : ∀ a b, t.equal a b = true → t.hash a = t.hash b) {s : Walk Node}
    (h : Between t root s) {current : Node} (hcurrent : s.queue[s.index]? = some current) :
    Turned t root s (t.turn current s) := by
  have hread := h.queued.read
  have hsnd := requireRunning_snd (t := t) s
  rw [Traversal.turn]
  generalize t.requireRunning s = r at hread hsnd
  obtain ⟨outcome, s'⟩ := r
  subst hsnd
  cases outcome with
  | error e => exact .error hread
  | ok u =>
    have hvisited := h.visited hcurrent (s.readings + 1)
    show Turned t root s (t.visitNext current _)
    rw [Traversal.visitNext]
    cases t.visit current with
    | error e => exact .error hvisited.queued
    | ok u =>
      have hagain := hvisited.queued.read
      have hsnd := requireRunning_snd (t := t)
        { s with index := s.index + 1, visited := s.visited ++ [current], readings := s.readings + 1 }
      dsimp only
      generalize t.requireRunning _ = r at hagain hsnd ⊢
      obtain ⟨outcome, s'⟩ := r
      subst hsnd
      cases outcome with
      | error e => exact .error hagain
      | ok u => exact (h.visited hcurrent _).expand hhash rfl

/-! ## The loop -/

theorem between_start (t : Traversal Node) (root : Node) : Between t root (t.start root) where
  queued :=
    { ordered := ⟨1, List.prefix_rfl⟩
      distinct := List.pairwise_singleton _ _
      bounded := Nat.le_max_left _ _
      visited := rfl
      index := Nat.zero_le _
      hashes := fun h => by
        rw [Traversal.start, bucket_set]
        by_cases hsame : h = t.hash root
        · rw [if_pos hsame]
          simp [hsame]
        · rw [if_neg hsame]
          simp [Traversal.bucket, Ne.symm hsame] }
  queue := rfl
  narrow := fun n hn => by cases hn

theorem loop_between (hhash : ∀ a b, t.equal a b = true → t.hash a = t.hash b) {fuel : Nat}
    {s : Walk Node} (h : Between t root s) (hfuel : bound t < s.index + fuel) :
    ∃ r, t.loop fuel s = some r ∧ Queued t root r.2 ∧
      (r.1 = .ok () → Between t root r.2 ∧ r.2.index = r.2.queue.length) := by
  induction fuel generalizing s with
  | zero =>
    have hindex := h.queued.index
    have hbounded := h.queued.bounded
    omega
  | succ fuel ih =>
    rw [Traversal.loop]
    cases hcurrent : s.queue[s.index]? with
    | none =>
      refine ⟨_, rfl, h.queued, fun _ => ⟨h, ?_⟩⟩
      exact Nat.le_antisymm h.queued.index (List.getElem?_eq_none_iff.mp hcurrent)
    | some current =>
      have hturned := h.turn hhash hcurrent
      dsimp only
      generalize t.turn current s = r at hturned
      obtain ⟨outcome, s'⟩ := r
      cases outcome with
      | error e => exact ⟨_, rfl, hturned.queued, fun hok => by cases hok⟩
      | ok u =>
        have hindex := hturned.index rfl
        exact ih (hturned.between rfl) (by rw [show s'.index = s.index + 1 from hindex]; omega)

/-! ## Traversals without an error -/

/-- The request goes on, and the nodes can be read and visited. -/
structure Calm (t : Traversal Node) : Prop where
  cancelled : ∀ k, t.context.isCancellationRequested k = false
  expired : ∀ k, t.context.isExpired k = false
  children : ∀ n, ∃ descendants, t.children n = .ok descendants
  visit : ∀ n, t.visit n = .ok ()

/-- The reachable nodes form a tree, with no more nodes and children than the limits. -/
structure BoundedTree (t : Traversal Node) (root : Node) : Prop where
  tree : IsTree (kids t) root fun a b => t.equal a b = true
  few : ∀ ns : List Node, (ns.Pairwise fun a b => ¬ t.equal a b = true) →
    (∀ n ∈ ns, ∃ p, At (kids t) root p n) → (ns.length : Int) ≤ t.maximumNodes
  narrow : ∀ p n, At (kids t) root p n → ((kids t n).length : Int) ≤ t.maximumChildren

theorem Calm.requireRunning (h : Calm t) (s : Walk Node) :
    t.requireRunning s = (.ok (), { s with readings := s.readings + 1 }) := by
  simp [Traversal.requireRunning, h.cancelled, h.expired]

theorem mem_prefix_nodes {l : List Node} {k : Nat} (h : l <+: nodes (kids t) root k) :
    ∀ n ∈ l, ∃ p, At (kids t) root p n := fun _ hn => mem_nodes (h.subset hn)

theorem BoundedTree.place (h : BoundedTree t root) {s : Walk Node} (hs : Queued t root s)
    {child : Node} {k : Nat} (hk : s.queue ++ [child] <+: nodes (kids t) root k) :
    (t.place child s).1 = .ok () := by
  have hdistinct : (s.queue ++ [child]).Pairwise fun a b => ¬ t.equal a b = true :=
    (h.tree.pairwise k).sublist hk.sublist
  have hnew : ¬ (Traversal.bucket s.hashes (t.hash child)).any (fun n => t.equal n child) = true := by
    rw [hs.hashes, List.any_filter, List.any_eq_true]
    intro hany
    obtain ⟨n, hn, hequal⟩ := hany
    have hdiffer := (List.pairwise_append.mp hdistinct).2.2 n hn child (List.mem_singleton_self _)
    exact hdiffer (Bool.and_eq_true_iff.mp hequal).2
  have hroom : (s.queue.length : Int) < t.maximumNodes := by
    have hfew := h.few _ hdistinct (mem_prefix_nodes hk)
    rw [List.length_append, List.length_singleton] at hfew
    omega
  rw [Traversal.place, if_neg hnew, if_pos hroom]

theorem BoundedTree.enqueueAll (h : BoundedTree t root) (hcalm : Calm t)
    (hhash : ∀ a b, t.equal a b = true → t.hash a = t.hash b) {s : Walk Node}
    (hs : Queued t root s) {rest : List Node} {k : Nat}
    (hk : s.queue ++ rest <+: nodes (kids t) root k) : (t.enqueueAll rest s).1 = .ok () := by
  induction rest generalizing s with
  | nil => rfl
  | cons child rest ih =>
    have hfirst : s.queue ++ [child] <+: nodes (kids t) root k := by
      refine List.IsPrefix.trans ?_ hk
      exact (List.prefix_append_right_inj _).mpr (List.prefix_append [child] rest)
    have hgrows := hs.enqueue hhash ⟨k, hfirst⟩
    have hread := hs.read
    rw [hcalm.requireRunning] at hread
    have hok : (t.enqueue child s).1 = .ok () := by
      rw [Traversal.enqueue, hcalm.requireRunning]
      exact h.place hread hfirst
    have hqueue := hgrows.queue hok
    rw [Traversal.enqueueAll, Result.proceed, hok]
    refine ih hgrows.queued ?_
    rw [hqueue, List.append_assoc]
    exact hk

theorem BoundedTree.expand (h : BoundedTree t root) (hcalm : Calm t)
    (hhash : ∀ a b, t.equal a b = true → t.hash a = t.hash b) {s : Walk Node} {current : Node}
    (hs : Visited t root current s) (hcurrent : ∃ p, At (kids t) root p current) :
    (t.expand current s).1 = .ok () := by
  obtain ⟨k, hk⟩ := hs.queued.ordered
  obtain ⟨p, hp⟩ := hcurrent
  obtain ⟨descendants, hchildren⟩ := hcalm.children current
  have hkids : kids t current = descendants := by rw [kids, hchildren]
  have hnarrow := h.narrow p current hp
  rw [hkids] at hnarrow
  rw [Traversal.expand, hchildren]
  dsimp only
  rw [if_pos hnarrow]
  refine h.enqueueAll hcalm hhash hs.queued (k := k + 1) ?_
  rw [← hkids, hs.queue, hs.queued.visited]
  exact queue_prefix ((List.take_prefix _ _).trans hk)

theorem BoundedTree.turn (h : BoundedTree t root) (hcalm : Calm t)
    (hhash : ∀ a b, t.equal a b = true → t.hash a = t.hash b) {s : Walk Node}
    (hs : Between t root s) {current : Node} (hcurrent : s.queue[s.index]? = some current) :
    (t.turn current s).1 = .ok () := by
  obtain ⟨k, hk⟩ := hs.queued.ordered
  have hreachable := mem_prefix_nodes hk current (List.mem_of_getElem? hcurrent)
  rw [Traversal.turn, hcalm.requireRunning]
  show (t.visitNext current _).1 = .ok ()
  rw [Traversal.visitNext, hcalm.visit, hcalm.requireRunning]
  exact h.expand hcalm hhash (hs.visited hcurrent _) hreachable

theorem BoundedTree.loop (h : BoundedTree t root) (hcalm : Calm t)
    (hhash : ∀ a b, t.equal a b = true → t.hash a = t.hash b) {fuel : Nat} {s : Walk Node}
    (hs : Between t root s) {r : Result Node} (hr : t.loop fuel s = some r) : r.1 = .ok () := by
  induction fuel generalizing s with
  | zero => cases hr
  | succ fuel ih =>
    rw [Traversal.loop] at hr
    cases hcurrent : s.queue[s.index]? with
    | none =>
      rw [hcurrent] at hr
      cases hr
      rfl
    | some current =>
      have hok := h.turn hcalm hhash hs hcurrent
      rw [hcurrent] at hr
      dsimp only at hr
      rw [hok] at hr
      exact ih ((hs.turn hhash hcurrent).between hok) hr

/-! ## What a walk finds -/

/-- After the last turn every node is in the queue. -/
theorem Between.complete {s : Walk Node} (h : Between t root s) (hend : s.index = s.queue.length)
    (k : Nat) : nodes (kids t) root k <+: s.queue := by
  refine nodes_prefix ?_ k
  have hvisited : s.visited = s.queue := by
    rw [h.queued.visited, hend, List.take_length]
  rw [← hvisited]
  exact hvisited.trans h.queue

theorem Between.reachable {s : Walk Node} (h : Between t root s) (hend : s.index = s.queue.length)
    {p : List Nat} {n : Node} (hn : At (kids t) root p n) : n ∈ s.visited := by
  rw [h.queued.visited, hend, List.take_length]
  exact (h.complete hend _).subset hn.mem_nodes

theorem Between.tree {s : Walk Node} (h : Between t root s) (hend : s.index = s.queue.length)
    (hequal : Equivalence fun a b => t.equal a b = true) (hmaximum : 1 ≤ t.maximumNodes) :
    BoundedTree t root where
  tree := isTree_of_pairwise hequal.symm fun k => h.queued.distinct.sublist (h.complete hend k).sublist
  few := fun ns hns hreachable => by
    have hnodup : ns.Nodup := hns.imp fun hdiffer heq => by
      subst heq
      exact hdiffer (hequal.refl _)
    have hsubset : ns ⊆ s.queue := by
      intro n hn
      obtain ⟨p, hp⟩ := hreachable n hn
      exact (h.complete hend _).subset hp.mem_nodes
    have hlength := (List.subperm_of_subset hnodup hsubset).length_le
    have hbounded := h.queued.bounded
    rw [bound] at hbounded
    omega
  narrow := fun p n hn => h.narrow n (h.reachable hend hn)

/-- A member of a list without equal members is equal to one of them. -/
theorem countP_equal (hequal : Equivalence fun a b => t.equal a b = true) {l : List Node}
    (hl : l.Pairwise fun a b => ¬ t.equal a b = true) {n : Node} (hn : n ∈ l) :
    l.countP (t.equal n) = 1 := by
  induction l with
  | nil => cases hn
  | cons a l ih =>
    obtain ⟨hfirst, hrest⟩ := List.pairwise_cons.mp hl
    rcases List.mem_cons.mp hn with rfl | hmem
    · have hnone : l.countP (t.equal n) = 0 := by
        rw [List.countP_eq_zero]
        exact hfirst
      rw [List.countP_cons, hnone, if_pos (hequal.refl n)]
    · have hdiffer : ¬ t.equal n a = true := fun h => hfirst n hmem (hequal.symm h)
      rw [List.countP_cons, ih hrest hmem, if_neg hdiffer]

theorem loop_more {fuel : Nat} {s : Walk Node} {r : Result Node} (h : t.loop fuel s = some r)
    {more : Nat} (hmore : fuel ≤ more) : t.loop more s = some r := by
  induction fuel generalizing s more with
  | zero => cases h
  | succ fuel ih =>
    cases more with
    | zero => cases hmore
    | succ more =>
      rw [Traversal.loop] at h ⊢
      cases hcurrent : s.queue[s.index]? with
      | none =>
        rw [hcurrent] at h
        exact h
      | some current =>
        rw [hcurrent] at h
        dsimp only at h ⊢
        cases hturn : (t.turn current s).1 with
        | error e =>
          rw [hturn] at h
          exact h
        | ok u =>
          rw [hturn] at h
          exact ih h (Nat.le_of_succ_le_succ hmore)

/-- What is said of a walk that ended in some way. -/
structure Walked (t : Traversal Node) (root : Node) (r : Result Node) : Prop where
  ordered : ∃ k, r.2.visited <+: nodes (kids t) root k
  distinct : r.2.visited.Pairwise fun a b => ¬ t.equal a b = true
  bounded : 1 ≤ t.maximumNodes → (r.2.visited.length : Int) ≤ t.maximumNodes
  returns : 1 ≤ t.maximumNodes → (r.1 = .ok () ↔ BoundedTree t root)
  once : r.1 = .ok () → ∀ p n, At (kids t) root p n → r.2.visited.countP (t.equal n) = 1

/-- The walk ends, and it returns normally exactly on a tree within the limits. -/
theorem walk_exact (t : Traversal Node) (root : Node)
    (hequal : Equivalence fun a b => t.equal a b = true)
    (hhash : ∀ a b, t.equal a b = true → t.hash a = t.hash b) (hcalm : Calm t) :
    ∃ r, t.walk root = some r ∧
      (∀ fuel, t.maximumNodes.toNat + 2 ≤ fuel → t.loop fuel (t.start root) = some r) ∧
      Walked t root r := by
  have hfuel : bound t < (t.start root).index + (t.maximumNodes.toNat + 2) := by
    simp only [Traversal.start, bound]
    omega
  obtain ⟨r, hr, hqueued, hok⟩ := loop_between hhash (between_start t root) hfuel
  have hprefix : r.2.visited <+: r.2.queue := by
    rw [hqueued.visited]
    exact List.take_prefix _ _
  have hdistinct := hqueued.distinct.sublist hprefix.sublist
  refine ⟨r, hr, fun fuel hmore => loop_more hr hmore, ?_, hdistinct, fun hmaximum => ?_,
    fun hmaximum => ⟨fun h => ?_, fun h => ?_⟩, fun h p n hn => ?_⟩
  · obtain ⟨k, hk⟩ := hqueued.ordered
    exact ⟨k, hprefix.trans hk⟩
  · have hlength := hprefix.length_le
    have hbounded := hqueued.bounded
    rw [bound] at hbounded
    omega
  · obtain ⟨hbetween, hend⟩ := hok h
    exact hbetween.tree hend hequal hmaximum
  · exact h.loop hcalm hhash (between_start t root) hr
  · obtain ⟨hbetween, hend⟩ := hok h
    exact countP_equal hequal hdistinct (hbetween.reachable hend hn)

/-- Three nodes, of which two have one hash. -/
def demoTraversal : Traversal Nat where
  maximumNodes := 3
  maximumChildren := 2
  context := ⟨fun _ => false, fun _ => false⟩
  hash := fun n => n % 2
  equal := fun a b => a = b
  children := fun n => .ok (if n = 0 then [1, 3] else [])
  visit := fun _ => .ok ()

theorem demo_walk : ∃ r, demoTraversal.walk 0 = some r ∧ r.2.visited = [0, 1, 3] ∧
    Walked demoTraversal 0 r := by
  obtain ⟨r, hr, -, hwalked⟩ := walk_exact demoTraversal 0 (by simpa [demoTraversal] using eq_equivalence)
    (by simp [demoTraversal]) ⟨fun _ => rfl, fun _ => rfl, fun n => ⟨_, rfl⟩, fun _ => rfl⟩
  have hvisited : (demoTraversal.walk 0).map (fun r => r.2.visited) = some [0, 1, 3] := by
    decide +kernel
  rw [hr] at hvisited
  exact ⟨r, hr, Option.some.inj hvisited, hwalked⟩

end SurfaceLoom.MacOS.BoundedTraversal
