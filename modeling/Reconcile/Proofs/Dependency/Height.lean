import Mathlib.Data.List.Chain
import Reconcile.Proofs.Dependency.Layering
/-!
Layers as heights.  Main statement: `isHeight_of_mem_layers`, the layer of an item is the length of
the longest chain of needs that starts at it.
-/

namespace Reconcile
namespace Dependency

variable {α : Type} {r : α → α → Prop} {x : α} {n : Nat}

/-- `n` is the length of the longest chain that starts at `x`. -/
structure IsHeight (r : α → α → Prop) (x : α) (n : Nat) : Prop where
  attained : ∃ path, (x :: path).IsChain r ∧ path.length = n
  longest : ∀ path, (x :: path).IsChain r → path.length ≤ n

theorem IsHeight.unique {m : Nat} (hm : IsHeight r x m) (hn : IsHeight r x n) : m = n := by
  obtain ⟨path, hpath, rfl⟩ := hm.attained
  obtain ⟨path', hpath', rfl⟩ := hn.attained
  exact Nat.le_antisymm (hn.longest path hpath) (hm.longest path' hpath')

theorem IsHeight.lt_of_rel {m : Nat} {y : α} (hm : IsHeight r y m) (hn : IsHeight r x n)
    (hxy : r x y) : m < n := by
  obtain ⟨path, hpath, rfl⟩ := hm.attained
  exact hn.longest (y :: path) (List.isChain_cons_cons.mpr ⟨hxy, hpath⟩)

variable [DecidableEq α] {needs : α → List α} {items : List α}

theorem exists_chain_of_mem_layers (hnodup : items.Nodup) (hx : (x, n) ∈ layers needs items) :
    ∃ path, (x :: path).IsChain (Needs needs) ∧ path.length = n := by
  induction n generalizing x with
  | zero => exact ⟨[], List.isChain_singleton x, rfl⟩
  | succ n ih =>
    obtain ⟨y, hy, hmem⟩ := exists_next_layer hnodup hx
    obtain ⟨path, hpath, hlength⟩ := ih hmem
    exact ⟨y :: path, List.isChain_cons_cons.mpr ⟨hy, hpath⟩, by rw [List.length_cons, hlength]⟩

theorem length_le_of_mem_layers (hnodup : items.Nodup) (hx : (x, n) ∈ layers needs items)
    {path : List α} (h : (x :: path).IsChain (Needs needs)) : path.length ≤ n := by
  induction path generalizing x n with
  | nil => exact Nat.zero_le n
  | cons y path ih =>
    obtain ⟨hy, hpath⟩ := List.isChain_cons_cons.mp h
    obtain ⟨m, hm, hmem⟩ := exists_lower_layer hnodup hx hy
    have hle := ih hmem hpath
    rw [List.length_cons]
    omega

theorem isHeight_of_mem_layers (hnodup : items.Nodup) (hx : (x, n) ∈ layers needs items) :
    IsHeight (Needs needs) x n :=
  ⟨exists_chain_of_mem_layers hnodup hx, fun _ h => length_le_of_mem_layers hnodup hx h⟩

end Dependency
end Reconcile
