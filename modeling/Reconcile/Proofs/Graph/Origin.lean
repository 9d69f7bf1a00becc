import Reconcile.Proofs.Graph.Build
/-!
Where the nodes of a graph come from.  Main statement: `exists_ingest_of_mem_nodes`, every node is
that of a declaration.
-/

namespace Reconcile

open Fallible

namespace ResourceGraph

variable {declarations : List Declaration} {config : Config} {specs : List Spec} {s : Spec}
  {g : ResourceGraph} {n : Node}

theorem exists_ingest_of_mem_collectSpecs (h : collectSpecs declarations config = .ok specs)
    (hs : s ∈ specs) :
    ∃ d ∈ declarations, ∃ own, d.ingest config = .ok own ∧ s ∈ own := by
  have hall : ∀ s ∈ specs, ∃ d ∈ declarations, ∃ own, d.ingest config = .ok own ∧ s ∈ own := by
    refine collectSpecs_invariant
      (fun specs => ∀ s ∈ specs, ∃ d ∈ declarations, ∃ own, d.ingest config = .ok own ∧ s ∈ own) h
      (fun _ hs => nomatch hs) ?_
    intro specs s hspecs _ hown t ht
    rcases List.mem_append.mp ht with ht | ht
    · exact hspecs t ht
    · obtain rfl := List.mem_singleton.mp ht
      exact hown
  exact hall s hs

/-- Every node is that of a specification of a declaration, and its dependencies are declared or
expected to exist. -/
theorem exists_ingest_of_mem_nodes (h : build declarations config = .ok g) (hn : n ∈ g.nodes) :
    ∃ d ∈ declarations, ∃ own, d.ingest config = .ok own ∧
      ∃ s ∈ own, n.urn = s.urn ∧ n.properties = s.properties ∧
        ∀ u ∈ s.dependencies, g.Wants u := by
  obtain ⟨specs, hspecs, h⟩ := bind_eq_ok.mp h
  obtain ⟨s, hs, hsn⟩ := Lists.exists_left_of_forall₂ (forall₂_of_ofSpecs h) hn
  obtain ⟨d, hd, own, hown, hs⟩ := exists_ingest_of_mem_collectSpecs hspecs hs
  refine ⟨d, hd, own, hown, s, hs, hsn.urn, hsn.properties, fun u hu => ?_⟩
  by_cases hdeclared : isDeclared specs u
  · left
    rw [map_urn_nodes h]
    exact isDeclared_iff.mp hdeclared
  · right
    refine mem_externalReferences_iff.mpr ⟨n, hn, ?_⟩
    rw [hsn.external, SortedSet.mem_filter]
    exact ⟨hu, by simpa using hdeclared⟩

/-- A declared grant has one of the shapes of a grant, and what it names is wanted. -/
theorem exists_isGrantSpec_of_mem_nodes (h : build declarations config = .ok g) (hn : n ∈ g.nodes)
    (hgrant : n.urn.type.isGrant) :
    ∃ s, Declaration.IsGrantSpec config.account s ∧ n.urn = s.urn ∧
      n.properties = s.properties ∧ ∀ u ∈ s.dependencies, g.Wants u := by
  obtain ⟨d, -, own, hown, s, hs, hurn, hproperties, hwants⟩ := exists_ingest_of_mem_nodes h hn
  rw [hurn] at hgrant
  exact ⟨s, Declaration.isGrantSpec_of_ingest hown hs hgrant, hurn, hproperties, hwants⟩

theorem params_of_mem_nodes (h : build declarations config = .ok g) (hn : n ∈ g.nodes)
    (hgrant : ¬ n.urn.type.isGrant) : n.urn.params = .empty := by
  obtain ⟨d, -, own, hown, s, hs, hurn, -, -⟩ := exists_ingest_of_mem_nodes h hn
  rw [hurn] at hgrant ⊢
  obtain ⟨_, _, -, -, hnames, -, -⟩ :=
    Declaration.exists_of_ingestObject (Declaration.ingestObject_of_ingest hown hs hgrant) hs
  rw [hnames]
  rfl

end ResourceGraph
end Reconcile
