import Mathlib.Data.List.Nodup
import Mathlib.Logic.Relation
import Reconcile.Plan.Basic
import Reconcile.Proofs.Lists
/-!
Plans as sequences of changes.  Main statement: `flatten_levels`, running a plan level by level
takes its changes in their order.
-/

namespace Reconcile
namespace Plan

/-- No two changes are about one resource, and a change stands above every change of the plan that
it depends on. -/
structure IsLayered (p : Plan) : Prop where
  nodup : (p.changes.map Change.urn).Nodup
  lower : ∀ c ∈ p.changes, ∀ d ∈ p.changes, d.urn ∈ c.dependsOn → d.level < c.level

def DependsOn (p : Plan) (u v : Urn) : Prop :=
  ∃ c ∈ p.changes, c.urn = u ∧ v ∈ c.dependsOn ∧ v ∈ p.changes.map Change.urn

theorem IsLayered.eq_of_urn_eq {p : Plan} (h : p.IsLayered) {c d : Change} (hc : c ∈ p.changes)
    (hd : d ∈ p.changes) (hurn : c.urn = d.urn) : c = d :=
  List.inj_on_of_nodup_map h.nodup hc hd hurn

/-- Whatever a change depends on, be it through others, stands below it. -/
theorem IsLayered.level_lt {p : Plan} (h : p.IsLayered) {c : Change} (hc : c ∈ p.changes) {v : Urn}
    (hdep : Relation.TransGen p.DependsOn c.urn v) {d : Change} (hd : d ∈ p.changes)
    (hurn : d.urn = v) : d.level < c.level := by
  induction hdep generalizing d with
  | single hdep =>
    obtain ⟨e, he, heurn, hv, -⟩ := hdep
    obtain rfl := h.eq_of_urn_eq he hc heurn
    exact h.lower e he d hd (hurn ▸ hv)
  | tail _ hdep ih =>
    obtain ⟨e, he, heurn, hv, -⟩ := hdep
    exact Nat.lt_trans (h.lower e he d hd (hurn ▸ hv)) (ih he heurn)

theorem pairwise_level (p : Plan) : p.changes.Pairwise fun c d => c.level ≤ d.level := by
  refine p.ordered.imp fun {c d} h => ?_
  have hne : compare c.level d.level ≠ .gt := by
    intro hgt
    have horder : Change.order c d = .gt := by
      show (compare c.level d.level).then _ = .gt
      rw [hgt]
      rfl
    rw [Change.precedes, horder] at h
    cases h
  exact Nat.compare_ne_gt.mp hne

theorem flatten_levels (p : Plan) : (p.levels.map (·.2)).flatten = p.changes := by
  have h := Lists.flatMap_filter_eraseDups Change.level p.changes p.pairwise_level
  rw [levels, List.map_map, ← List.flatMap_def]
  exact h

theorem IsLayered.not_mem_level {p : Plan} (h : p.IsLayered) {changes : List Change}
    (hchanges : changes ∈ p.levels.map (·.2)) {c : Change} (hc : c ∈ changes) {u : Urn}
    (hu : u ∈ c.dependsOn) : u ∉ changes.map Change.urn := by
  intro hmem
  obtain ⟨_, hlevel, rfl⟩ := List.mem_map.mp hchanges
  obtain ⟨level, -, rfl⟩ := List.mem_map.mp hlevel
  obtain ⟨d, hd, rfl⟩ := List.mem_map.mp hmem
  obtain ⟨hc, hcl⟩ := List.mem_filter.mp hc
  obtain ⟨hd, hdl⟩ := List.mem_filter.mp hd
  have hlower := h.lower c hc d hd hu
  rw [beq_iff_eq.mp hcl, beq_iff_eq.mp hdl] at hlower
  exact Nat.lt_irrefl _ hlower

end Plan
end Reconcile
