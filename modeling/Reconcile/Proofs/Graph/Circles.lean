import Reconcile.Proofs.Dependency.Cycle
import Reconcile.Proofs.Graph.Build
/-!
When declarations make a graph.  Main statement: `exists_build_iff_acyclic`, they do exactly if no
resource depends on itself, and otherwise the answer lists the circles.
-/

namespace Reconcile
namespace ResourceGraph

open Relation Fallible Dependency

variable {declarations : List Declaration} {config : Config} {specs : List Spec}

theorem mem_of_circular {u : Urn} (h : TransGen (DependsOn specs) u u) :
    u ∈ specs.map Spec.urn := by
  obtain ⟨v, ⟨s, hs, rfl, -⟩, -⟩ := TransGen.head'_iff.mp h
  exact List.mem_map_of_mem hs

/-- Declared resources make a graph exactly if none of them depends on itself. -/
theorem exists_ofSpecs_iff (hnodup : (specs.map Spec.urn).Nodup) :
    (∃ g, ofSpecs specs = .ok g) ↔ Acyclic (DependsOn specs) := by
  constructor
  · rintro ⟨g, hg⟩ u hu
    obtain ⟨s, hs, rfl⟩ := List.mem_map.mp (mem_of_circular hu)
    obtain ⟨n, -, hsn⟩ := Lists.exists_right_of_forall₂ (forall₂_of_ofSpecs hg) hs
    rw [← needs_eq_dependsOn hnodup] at hu
    exact not_circular_of_mem_layers hnodup ((lookup_layers_iff hnodup).mp hsn.level) hu
  · intro hacyclic
    rw [← needs_eq_dependsOn hnodup] at hacyclic
    refine exists_ofSpecs fun s hs => ?_
    obtain ⟨n, hn⟩ := exists_layer hnodup (closed_needs hnodup) hacyclic (List.mem_map_of_mem hs)
    exact ⟨n, (lookup_layers_iff hnodup).mpr hn⟩

/-- Declarations that are consistent in themselves make a graph exactly if no resource depends on
itself.  Otherwise each strongly connected component that loops is listed once, its members once and
in the order of their declarations, and nothing else is listed. -/
theorem exists_build_iff_acyclic (h : collectSpecs declarations config = .ok specs) :
    ((∃ g, build declarations config = .ok g) ↔ Acyclic (DependsOn specs)) ∧
    (¬ Acyclic (DependsOn specs) → ∃ circles,
      build declarations config = .error (.cycleDetected circles) ∧
      (∀ group, group ∈ circles ↔ IsCircle (DependsOn specs) (specs.map Spec.urn) group) ∧
      circles.Pairwise List.Disjoint ∧
      (∀ group ∈ circles, group.Nodup) ∧
      ∀ u, (∃ group ∈ circles, u ∈ group) ↔ TransGen (DependsOn specs) u u) := by
  have hnodup := nodup_collectSpecs h
  have hclosed := closed_needs hnodup
  have hbuild : build declarations config = ofSpecs specs := by
    rw [build, h]
    rfl
  rw [hbuild]
  refine ⟨exists_ofSpecs_iff hnodup, fun hcyclic => ?_⟩
  refine ⟨cycles (needs specs) (layers (needs specs) (specs.map Spec.urn)) (specs.map Spec.urn),
    ?_, fun group => ?_, ?_, ?_, fun u => ?_⟩
  · cases hspecs : ofSpecs specs with
    | ok g => exact absurd ((exists_ofSpecs_iff hnodup).mp ⟨g, hspecs⟩) hcyclic
    | error e => rw [ofSpecs_eq_error hspecs]
  · rw [← needs_eq_dependsOn hnodup]
    exact mem_cycles_iff hclosed hnodup
  · exact disjoint_cycles hclosed hnodup
  · intro group hgroup
    exact ((mem_cycles_iff hclosed hnodup).mp hgroup).sublist.nodup hnodup
  · rw [exists_mem_cycles_iff hclosed hnodup, needs_eq_dependsOn hnodup]
    exact and_iff_right_of_imp mem_of_circular

/-! ## A tangle of roles -/

def roleNaming (name : String) (named : List String) : Declaration where
  type := .role
  name := name
  container := []
  properties := .empty
  references := .ofList (named.map fun n => (n, .named .role n []))

def roleSpec (name : String) (named : List String) : Spec where
  urn := .ofRole "ORG.ACC" name
  properties := .empty
  dependencies := .ofList (named.map (.ofRole "ORG.ACC"))

def tangle : List Declaration :=
  [roleNaming "A" ["B"], roleNaming "B" ["A", "C"], roleNaming "C" ["C"], roleNaming "D" ["A", "C"]]

def tangleSpecs : List Spec :=
  [roleSpec "A" ["B"], roleSpec "B" ["A", "C"], roleSpec "C" ["C"], roleSpec "D" ["A", "C"]]

theorem collectSpecs_tangle :
    collectSpecs tangle (.ofAccount "ORG.ACC") = .ok tangleSpecs := by rfl

theorem dependsOn_tangle : DependsOn tangleSpecs (.ofRole "ORG.ACC" "C") (.ofRole "ORG.ACC" "C") :=
  ⟨roleSpec "C" ["C"], by simp [tangleSpecs], rfl,
    SortedSet.mem_ofList.mpr (by simp), by simp [tangleSpecs, roleSpec]⟩

theorem exists_circles_of_tangle :
    collectSpecs tangle (.ofAccount "ORG.ACC") = .ok tangleSpecs ∧
    ¬ Acyclic (DependsOn tangleSpecs) ∧ ∃ circles,
      build tangle (.ofAccount "ORG.ACC") = .error (.cycleDetected circles) ∧
      ∃ group ∈ circles, .ofRole "ORG.ACC" "C" ∈ group := by
  have hcircular := TransGen.single dependsOn_tangle
  have hcyclic : ¬ Acyclic (DependsOn tangleSpecs) := fun h => h _ hcircular
  obtain ⟨circles, herror, -, -, -, hmem⟩ :=
    (exists_build_iff_acyclic collectSpecs_tangle).2 hcyclic
  exact ⟨collectSpecs_tangle, hcyclic, circles, herror, (hmem _).mpr hcircular⟩

end ResourceGraph
end Reconcile
