import SurfaceLoom.Lib.OrderedMap

/-! # Named nodes with identities

A file system as far as renaming goes: every path names at most one node, every
node has a number no other node has at that time, and a rename moves a node as
one step. The number of a node that was removed may be given out again. -/
namespace SurfaceLoom.Lib

structure FileSystem.Node (C : Type*) where
  ino : Nat
  content : C
  deriving DecidableEq

structure FileSystem (P : Type*) (C : Type*) [DecidableEq P] where
  nodes : OrderedMap P (FileSystem.Node C)
  distinct : ∀ p q m n, nodes.get? p = some m → nodes.get? q = some n → m.ino = n.ino → p = q

namespace FileSystem

variable {P C : Type*} [DecidableEq P]

def empty : FileSystem P C := ⟨.empty, fun _ _ _ _ h => nomatch h⟩

def get? (fs : FileSystem P C) (p : P) : Option (Node C) := fs.nodes.get? p

@[simp] theorem get?_empty (p : P) : (empty : FileSystem P C).get? p = none := rfl

theorem path_unique {fs : FileSystem P C} {p q : P} {m n : Node C} (hp : fs.get? p = some m)
    (hq : fs.get? q = some n) (h : m.ino = n.ino) : p = q ∧ m = n := by
  have hpath := fs.distinct p q m n hp hq h
  subst hpath
  exact ⟨rfl, Option.some.inj (hp.symm.trans hq)⟩

/-! ## Creating and removing -/

/-- Nothing is created over an existing node or under a number in use. -/
def create (fs : FileSystem P C) (p : P) (ino : Nat) (content : C) : Option (FileSystem P C) :=
  if h : fs.nodes.get? p = none ∧ ∀ n ∈ fs.nodes.values, n.ino ≠ ino then
    some
      { nodes := fs.nodes.set p ⟨ino, content⟩
        distinct := by
          intro q q' m n hq hq' hino
          rw [OrderedMap.get?_set] at hq hq'
          split at hq
          · split at hq'
            · rename_i heq heq'
              rw [heq, heq']
            · cases hq
              exact absurd hino.symm (h.2 n (OrderedMap.mem_values_iff.mpr ⟨q', hq'⟩))
          · split at hq'
            · cases hq'
              exact absurd hino (h.2 m (OrderedMap.mem_values_iff.mpr ⟨q, hq⟩))
            · exact fs.distinct q q' m n hq hq' hino }
  else none

theorem create_some {fs fs' : FileSystem P C} {p : P} {ino : Nat} {content : C}
    (h : fs.create p ino content = some fs') : fs.get? p = none ∧
      (∀ q n, fs.get? q = some n → n.ino ≠ ino) ∧
      ∀ q, fs'.get? q = if q = p then some ⟨ino, content⟩ else fs.get? q := by
  unfold create at h
  split at h
  · rename_i hfree
    cases h
    exact ⟨hfree.1, fun q n hq => hfree.2 n (OrderedMap.mem_values_iff.mpr ⟨q, hq⟩),
      fun q => OrderedMap.get?_set⟩
  · cases h

/-- Nothing happens where there is no node. -/
def write (fs : FileSystem P C) (p : P) (content : C) : FileSystem P C :=
  match h : fs.nodes.get? p with
  | none => fs
  | some node =>
    { nodes := fs.nodes.set p { node with content }
      distinct := by
        have hold : ∀ q m, (fs.nodes.set p { node with content }).get? q = some m →
            ∃ m', fs.nodes.get? q = some m' ∧ m'.ino = m.ino := by
          intro q m hq
          rw [OrderedMap.get?_set] at hq
          split at hq
          · rename_i heq
            cases hq
            exact ⟨node, heq ▸ h, rfl⟩
          · exact ⟨m, hq, rfl⟩
        intro q q' m n hq hq' hino
        obtain ⟨m', hm, hmi⟩ := hold q m hq
        obtain ⟨n', hn, hni⟩ := hold q' n hq'
        exact fs.distinct q q' m' n' hm hn (hmi.trans (hino.trans hni.symm)) }

theorem get?_write (fs : FileSystem P C) (p q : P) (content : C) :
    (fs.write p content).get? q =
      if q = p then (fs.get? p).map fun n => { n with content } else fs.get? q := by
  unfold write
  split
  · rename_i hnone
    split
    · rename_i heq
      rw [heq, show fs.get? p = none from hnone]
      rfl
    · rfl
  · rename_i node hsome
    rw [show fs.get? p = some node from hsome]
    exact OrderedMap.get?_set

def remove (fs : FileSystem P C) (p : P) : FileSystem P C where
  nodes := fs.nodes.erase p
  distinct := by
    intro q q' m n hq hq' hino
    rw [OrderedMap.get?_erase] at hq hq'
    split at hq
    · cases hq
    · split at hq'
      · cases hq'
      · exact fs.distinct q q' m n hq hq' hino

theorem get?_remove (fs : FileSystem P C) (p q : P) :
    (fs.remove p).get? q = if q = p then none else fs.get? q := OrderedMap.get?_erase

/-! ## Renaming -/

/-- A rename needs a source, and a destination that is free or may be replaced. -/
def rename (fs : FileSystem P C) (replaces : C → Bool) (p q : P) : Option (FileSystem P C) :=
  match h : fs.nodes.get? p with
  | none => none
  | some node =>
    if (fs.nodes.get? q).all fun n => replaces n.content then
      some
        { nodes := (fs.nodes.erase p).set q node
          distinct := by
            have hold : ∀ r m, ((fs.nodes.erase p).set q node).get? r = some m →
                r = q ∧ m = node ∨ r ≠ q ∧ r ≠ p ∧ fs.nodes.get? r = some m := by
              intro r m hr
              rw [OrderedMap.get?_set, OrderedMap.get?_erase] at hr
              split at hr
              · rename_i heq
                cases hr
                exact .inl ⟨heq, rfl⟩
              · split at hr
                · cases hr
                · rename_i hq hp
                  exact .inr ⟨hq, hp, hr⟩
            intro r r' m n hr hr' hino
            rcases hold r m hr with ⟨heq, hm⟩ | ⟨-, hne, hm⟩
            · rcases hold r' n hr' with ⟨heq', -⟩ | ⟨-, hne', hn⟩
              · exact heq.trans heq'.symm
              · rw [hm] at hino
                exact absurd (fs.distinct p r' node n h hn hino).symm hne'
            · rcases hold r' n hr' with ⟨-, hn⟩ | ⟨-, -, hn⟩
              · rw [hn] at hino
                exact absurd (fs.distinct r p m node hm h hino) hne
              · exact fs.distinct r r' m n hm hn hino }
    else none

theorem rename_some {fs fs' : FileSystem P C} {replaces : C → Bool} {p q : P}
    (h : fs.rename replaces p q = some fs') : ∃ node, fs.get? p = some node ∧
      (∀ n, fs.get? q = some n → replaces n.content = true) ∧
      ∀ r, fs'.get? r = if r = q then some node else if r = p then none else fs.get? r := by
  unfold rename at h
  split at h
  · cases h
  · rename_i node hnode
    split at h
    · rename_i hfree
      cases h
      refine ⟨node, hnode, fun n hn => ?_, fun r => ?_⟩
      · rw [show fs.nodes.get? q = some n from hn] at hfree
        exact hfree
      · show ((fs.nodes.erase p).set q node).get? r = _
        rw [OrderedMap.get?_set, OrderedMap.get?_erase]
        rfl
    · cases h

end FileSystem

end SurfaceLoom.Lib
