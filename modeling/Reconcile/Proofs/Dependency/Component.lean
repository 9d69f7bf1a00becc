import Reconcile.Proofs.Dependency.Layering
import Reconcile.Proofs.Lists
/-!
Strongly connected components that loop.  Main statements: `IsCircle.eq_of_mem`, a member belongs to
one of them only, and `IsCircle.circular`, it is related to itself.
-/

namespace Reconcile
namespace Dependency

open Relation Reconcile.Lists

variable {α : Type} {r : α → α → Prop} {items group : List α}

/-- `x` and `y` are in one strongly connected component. -/
def Connected (r : α → α → Prop) (x y : α) : Prop := ReflTransGen r x y ∧ ReflTransGen r y x

theorem Connected.symm {x y : α} (h : Connected r x y) : Connected r y x := ⟨h.2, h.1⟩

theorem Connected.trans {x y z : α} (hxy : Connected r x y) (hyz : Connected r y z) :
    Connected r x z := ⟨hxy.1.trans hyz.1, hyz.2.trans hxy.2⟩

/-- A strongly connected component of the items that has two members or a member related to itself,
listed in the order of the items. -/
structure IsCircle (r : α → α → Prop) (items group : List α) : Prop where
  sublist : group.Sublist items
  component : ∃ x ∈ items, ∀ y, y ∈ group ↔ y ∈ items ∧ Connected r x y
  loops : 2 ≤ group.length ∨ ∃ x ∈ group, r x x

theorem IsCircle.mem_iff (h : IsCircle r items group) {x : α} (hx : x ∈ group) (y : α) :
    y ∈ group ↔ y ∈ items ∧ Connected r x y := by
  obtain ⟨z, -, hz⟩ := h.component
  have hzx := ((hz x).mp hx).2
  rw [hz]
  constructor
  · intro hgroup
    obtain ⟨hy, hzy⟩ := hgroup
    exact ⟨hy, hzx.symm.trans hzy⟩
  · intro hmutual
    obtain ⟨hy, hxy⟩ := hmutual
    exact ⟨hy, hzx.trans hxy⟩

theorem IsCircle.eq_of_mem (hnodup : items.Nodup) {group' : List α} (h : IsCircle r items group)
    (h' : IsCircle r items group') {x : α} (hx : x ∈ group) (hx' : x ∈ group') :
    group = group' := by
  classical
  have hfilter {l : List α} (hl : IsCircle r items l) (hxl : x ∈ l) :
      l = items.filter fun y => decide (Connected r x y) := by
    refine eq_filter_of_sublist hnodup hl.sublist fun y hy => ?_
    rw [hl.mem_iff hxl, decide_eq_true_iff]
    exact and_iff_right hy
  rw [hfilter h hx, hfilter h' hx']

theorem IsCircle.circular (hnodup : items.Nodup) (h : IsCircle r items group) {x : α}
    (hx : x ∈ group) : TransGen r x x := by
  rcases h.loops with hlen | ⟨z, hz, hzz⟩
  · -- Of two members, one is not `x`.
    obtain ⟨y, hy, hne⟩ : ∃ y ∈ group, y ≠ x := by
      by_contra hall
      push Not at hall
      have hrep := List.eq_replicate_iff.mpr ⟨rfl, hall⟩
      have := h.sublist.nodup hnodup
      rw [hrep, List.nodup_replicate] at this
      omega
    obtain ⟨hxy, hyx⟩ := ((h.mem_iff hx y).mp hy).2
    have hxy := (reflTransGen_iff_eq_or_transGen.mp hxy).resolve_left hne
    exact hxy.trans_left hyx
  · obtain ⟨hxz, hzx⟩ := ((h.mem_iff hx z).mp hz).2
    exact (TransGen.trans_right hxz (.single hzz)).trans_left hzx

theorem IsCircle.exists_mem (h : IsCircle r items group) : ∃ x, x ∈ group := by
  obtain ⟨x, hx, hmem⟩ := h.component
  exact ⟨x, (hmem x).mpr ⟨hx, .refl, .refl⟩⟩

/-- The component of an item that is related to itself has another member, or the item is related to
itself directly. -/
theorem loops_of_circular {needs : α → List α} {x : α} (hclosed : Closed needs items)
    (hxi : x ∈ items) (hx : TransGen (Needs needs) x x)
    (hgroup : ∀ y, y ∈ group ↔ y ∈ items ∧ Connected (Needs needs) x y) :
    2 ≤ group.length ∨ x ∈ needs x := by
  obtain ⟨y, hxy, hyx⟩ := TransGen.head'_iff.mp hx
  by_cases hne : y = x
  · exact .inr (hne ▸ hxy)
  · have hxg : x ∈ group := (hgroup x).mpr ⟨hxi, .refl, .refl⟩
    have hyg : y ∈ group := (hgroup y).mpr ⟨hclosed x hxi y hxy, .single hxy, hyx⟩
    have hsub : [x, y].Subperm group :=
      List.subperm_of_subset (by simp [Ne.symm hne]) (by simp [hxg, hyg])
    exact .inl hsub.length_le

theorem exists_isCircle {needs : α → List α} {x : α} (hclosed : Closed needs items)
    (hxi : x ∈ items) (hx : TransGen (Needs needs) x x) :
    ∃ group, IsCircle (Needs needs) items group ∧ x ∈ group := by
  classical
  let group := items.filter fun y => decide (Connected (Needs needs) x y)
  have hgroup (y : α) : y ∈ group ↔ y ∈ items ∧ Connected (Needs needs) x y := by
    simp [group]
  have hxg : x ∈ group := (hgroup x).mpr ⟨hxi, .refl, .refl⟩
  refine ⟨group, ⟨List.filter_sublist, ⟨x, hxi, hgroup⟩, ?_⟩, hxg⟩
  exact (loops_of_circular hclosed hxi hx hgroup).imp_right fun hxx => ⟨x, hxg, hxx⟩

/-! ## Leaving out what lies on no circle -/

section

variable {needs : α → List α} {p : α → Bool} (hback : ∀ x, ∀ y ∈ needs x, p y → p x)

include hback

theorem kept_of_reach {x y : α} (h : ReflTransGen (Needs needs) x y) (hy : p y) : p x := by
  induction h using ReflTransGen.head_induction_on with
  | refl => exact hy
  | head hz _ ih => exact hback _ _ hz ih

theorem reach_filter_iff {x y : α} (hy : p y) :
    ReflTransGen (Needs fun x => (needs x).filter p) x y ↔ ReflTransGen (Needs needs) x y := by
  constructor
  · exact fun h => h.lift id fun _ _ hz => List.mem_of_mem_filter hz
  · intro h
    induction h using ReflTransGen.head_induction_on with
    | refl => exact .refl
    | head hz hzy ih => exact .head (List.mem_filter.mpr ⟨hz, kept_of_reach hback hzy hy⟩) ih

theorem connected_filter_iff {x y : α} (hx : p x) :
    p y ∧ Connected (Needs fun x => (needs x).filter p) x y ↔ Connected (Needs needs) x y := by
  constructor
  · intro h
    obtain ⟨hy, hxy, hyx⟩ := h
    exact ⟨(reach_filter_iff hback hy).mp hxy, (reach_filter_iff hback hx).mp hyx⟩
  · intro h
    have hy := kept_of_reach hback h.2 hx
    exact ⟨hy, (reach_filter_iff hback hy).mpr h.1, (reach_filter_iff hback hx).mpr h.2⟩

/-- The circles are those among the items that are kept, if all that need themselves are kept. -/
theorem isCircle_filter_iff (hnodup : items.Nodup)
    (hkept : ∀ x, TransGen (Needs needs) x x → p x) :
    IsCircle (Needs fun x => (needs x).filter p) (items.filter p) group ↔
      IsCircle (Needs needs) items group := by
  have hmem {x : α} (hx : p x) (y : α) :
      y ∈ items.filter p ∧ Connected (Needs fun x => (needs x).filter p) x y ↔
        y ∈ items ∧ Connected (Needs needs) x y := by
    rw [List.mem_filter, and_assoc, connected_filter_iff hback hx]
  constructor
  · intro h
    obtain ⟨x, hx, hgroup⟩ := h.component
    obtain ⟨hx, hpx⟩ := List.mem_filter.mp hx
    refine ⟨h.sublist.trans List.filter_sublist, ⟨x, hx, fun y => ?_⟩, ?_⟩
    · rw [hgroup, hmem hpx]
    · refine h.loops.imp_right fun hloops => ?_
      obtain ⟨z, hz, hzz⟩ := hloops
      exact ⟨z, hz, List.mem_of_mem_filter hzz⟩
  · intro h
    have hall : ∀ x ∈ group, p x := fun x hx => hkept x (h.circular hnodup hx)
    obtain ⟨x, hx, hgroup⟩ := h.component
    have hpx : p x := hall x ((hgroup x).mpr ⟨hx, .refl, .refl⟩)
    refine ⟨?_, ⟨x, List.mem_filter.mpr ⟨hx, hpx⟩, fun y => ?_⟩, ?_⟩
    · rw [← List.filter_eq_self.mpr hall]
      exact h.sublist.filter p
    · rw [hgroup, hmem hpx]
    · refine h.loops.imp_right fun hloops => ?_
      obtain ⟨z, hz, hzz⟩ := hloops
      exact ⟨z, hz, List.mem_filter.mpr ⟨hzz, hall z hz⟩⟩

end

end Dependency
end Reconcile
