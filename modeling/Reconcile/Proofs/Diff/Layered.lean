import Reconcile.Proofs.Diff.Changes
import Reconcile.Proofs.Plan
/-!
The shape of the plans that come of a comparison.  Main statement: `isLayered_of_plan`, a change
stands above all that it depends on.
-/

namespace Reconcile
namespace Diff

open ResourceGraph Dependency Relation

variable {graph : ResourceGraph} {snapshot : Snapshot} {registry : Registry} {config : Config}
  {removable : ResourceType → Bool} {removed : List Urn}

/-! ## Removals -/

theorem mem_dependents_iff {u v : Urn} :
    v ∈ dependents removed u ↔ v ∈ removed ∧ u ∈ v.implied ∧ v ≠ u := by
  simp only [dependents, List.mem_flatMap, List.mem_map, List.mem_filter, Bool.and_eq_true,
    beq_iff_eq, bne_iff_ne]
  constructor
  · intro hpair
    obtain ⟨r, hr, d, ⟨hd, rfl, hne⟩, rfl⟩ := hpair
    exact ⟨hr, hd, hne⟩
  · intro hnamed
    obtain ⟨hv, hu, hne⟩ := hnamed
    exact ⟨v, hv, u, ⟨hu, rfl, hne⟩, rfl⟩

/-- What names a resource is larger than it, so there are no circles among removals. -/
theorem acyclic_dependents (removed : List Urn) : Acyclic (Needs (dependents removed)) := by
  have hweight (u v : Urn) (h : TransGen (Needs (dependents removed)) u v) :
      u.weight < v.weight := by
    induction h with
    | single hv =>
      exact Urn.weight_lt_of_mem_implied (mem_dependents_iff.mp hv).2.1
    | tail _ hv ih =>
      have hlt := Urn.weight_lt_of_mem_implied (mem_dependents_iff.mp hv).2.1
      omega
  intro u hu
  exact Nat.lt_irrefl _ (hweight u u hu)

theorem closed_dependents (removed : List Urn) : Closed (dependents removed) removed :=
  fun _ _ _ hv => (mem_dependents_iff.mp hv).1

theorem depths_lt (hnodup : removed.Nodup) {u v : Urn} (hu : u ∈ removed)
    (hv : v ∈ dependents removed u) : depths removed v < depths removed u := by
  obtain ⟨n, hn⟩ := exists_layer hnodup (closed_dependents removed) (acyclic_dependents removed) hu
  obtain ⟨m, hm, hmem⟩ := exists_lower_layer hnodup hn hv
  have hnu : (layers (dependents removed) removed).lookup u = some n :=
    (lookup_layers_iff hnodup).mpr hn
  have hmv : (layers (dependents removed) removed).lookup v = some m :=
    (lookup_layers_iff hnodup).mpr hmem
  simp only [depths, hnu, hmv, Option.getD_some]
  exact hm

/-! ## Plans -/

/-- In the plan of a comparison a change stands above all that it depends on. -/
theorem isLayered_of_plan (hwf : graph.WellFormed) {p : Plan}
    (h : plan graph snapshot registry config removable = .ok p) : p.IsLayered := by
  have hnodup := nodup_urns hwf h
  refine ⟨hnodup, ?_⟩
  obtain ⟨-, nodes, hnodes, gone, hgone, rfl⟩ := plan_eq_ok_iff.mp h
  obtain ⟨records, hrecords, hall⟩ := removals_eq_ok_iff.mp hgone
  have hforall := nodeChanges_eq_ok_iff.mp hnodes
  have hunique {c d : Change} (hc : c ∈ nodes ++ gone) (hd : d ∈ nodes ++ gone)
      (hurn : c.urn = d.urn) : c = d :=
    List.inj_on_of_nodup_map hnodup (mem_ofChanges.mpr hc) (mem_ofChanges.mpr hd) hurn
  intro c hc d hd hdep
  have hd := mem_ofChanges.mp hd
  rcases List.mem_append.mp (mem_ofChanges.mp hc) with hc | hc
  · -- A node depends on nodes of lower levels.
    obtain ⟨n, hn, -, hnc⟩ := Lists.exists_left_of_forall₂ hforall hc
    obtain ⟨step, -, rfl⟩ := nodeChange_eq_ok_iff.mp hnc
    obtain ⟨m, hm, hmurn, hlevel⟩ := hwf.lower n hn d.urn hdep
    obtain ⟨e, he, -, hme⟩ := Lists.exists_right_of_forall₂ hforall hm
    have heurn := urn_of_nodeChange hme
    obtain rfl : e = d := hunique (List.mem_append_left _ he) hd (heurn.trans hmurn)
    obtain ⟨step', -, rfl⟩ := nodeChange_eq_ok_iff.mp hme
    exact hlevel
  · -- A removal depends on removals that go first.
    obtain ⟨r, hr, hrc⟩ := Lists.exists_left_of_forall₂ hall hc
    obtain ⟨_, -, rfl⟩ := removalChange_eq_ok_iff.mp hrc
    have hdep : d.urn ∈ dependents (records.map Record.urn) r.urn := hdep
    obtain ⟨t, ht, hturn⟩ := List.mem_map.mp (mem_dependents_iff.mp hdep).1
    obtain ⟨e, he, hte⟩ := Lists.exists_right_of_forall₂ hall ht
    have heurn := urn_of_removalChange hte
    obtain rfl : e = d := hunique (List.mem_append_right _ he) hd (heurn.trans hturn)
    obtain ⟨_, -, rfl⟩ := removalChange_eq_ok_iff.mp hte
    have hlt := depths_lt (nodup_candidates hrecords) (List.mem_map_of_mem hr) hdep
    exact Nat.add_lt_add_left hlt _

end Diff
end Reconcile
