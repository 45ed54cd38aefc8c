import Mathlib.Data.List.Nodup

/-! # Actions that consume their key

A system guards an action by a set of consumed keys: the action runs only for
a key not yet consumed, and consumes it. Then no key's action runs twice,
however the set grows otherwise. -/
namespace SurfaceLoom.Lib

variable {κ : Type*}

/-- The keys acted for, in order, and the keys that are consumed. -/
structure Once (consumed : κ → Prop) (acted : List κ) : Prop where
  nodup : acted.Nodup
  consumed : ∀ k ∈ acted, consumed k

namespace Once

variable {consumed consumed' : κ → Prop} {acted : List κ}

theorem nil : Once consumed [] := ⟨List.nodup_nil, fun _ h => nomatch h⟩

/-- Consuming more keys is harmless. -/
theorem mono (h : Once consumed acted) (hle : ∀ k, consumed k → consumed' k) :
    Once consumed' acted :=
  ⟨h.nodup, fun k hk => hle k (h.consumed k hk)⟩

theorem act {k : κ} (h : Once consumed acted) (hle : ∀ k, consumed k → consumed' k)
    (hfresh : ¬ consumed k) (hk : consumed' k) : Once consumed' (acted ++ [k]) := by
  refine ⟨?_, ?_⟩
  · rw [List.nodup_append]
    refine ⟨h.nodup, List.nodup_singleton k, ?_⟩
    intro a ha b hb hab
    rw [List.mem_singleton] at hb
    subst hb hab
    exact hfresh (h.consumed a ha)
  · intro a ha
    rcases List.mem_append.mp ha with h' | h'
    · exact hle a (h.consumed a h')
    · rw [List.mem_singleton] at h'
      exact h' ▸ hk

end Once

end SurfaceLoom.Lib
