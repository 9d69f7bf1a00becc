import Reconcile.Proofs.Graph.Specs
/-!
The nodes of a graph.  Main statement: `wellFormed_of_build`, a node stands above the declared
resources that it depends on.
-/

namespace Reconcile
namespace ResourceGraph

open Fallible Dependency Reconcile.Lists

variable {declarations : List Declaration} {config : Config} {specs : List Spec} {g : ResourceGraph}

/-- `n` is the node of the specification `s`. -/
structure IsNodeOf (specs : List Spec) (s : Spec) (n : Node) : Prop where
  urn : n.urn = s.urn
  properties : n.properties = s.properties
  dependencies : n.dependencies = s.dependencies.filter (isDeclared specs)
  external : n.external = s.dependencies.filter fun d => !isDeclared specs d
  level : (layers (needs specs) (specs.map Spec.urn)).lookup s.urn = some n.level

theorem forall₂_of_ofSpecs (h : ofSpecs specs = .ok g) :
    List.Forall₂ (IsNodeOf specs) specs g.nodes := by
  simp only [ofSpecs] at h
  split at h
  next nodes hnodes =>
    obtain rfl := Except.ok.inj h
    refine (mapM_eq_some_iff.mp hnodes).imp fun s n hn => ?_
    obtain ⟨level, hlevel, rfl⟩ := Option.map_eq_some_iff.mp hn
    exact ⟨rfl, rfl, rfl, rfl, hlevel⟩
  · cases h

theorem exists_ofSpecs
    (h : ∀ s ∈ specs, ∃ n, (layers (needs specs) (specs.map Spec.urn)).lookup s.urn = some n) :
    ∃ g, ofSpecs specs = .ok g := by
  have hnode : ∀ s ∈ specs, ∃ n : Node,
      ((layers (needs specs) (specs.map Spec.urn)).lookup s.urn).map (fun level =>
        { urn := s.urn
          properties := s.properties
          dependencies := s.dependencies.filter (isDeclared specs)
          external := s.dependencies.filter fun d => !isDeclared specs d
          level }) = some n := by
    intro s hs
    obtain ⟨n, hn⟩ := h s hs
    exact ⟨_, Option.map_eq_some_iff.mpr ⟨n, hn, rfl⟩⟩
  obtain ⟨nodes, hnodes⟩ := exists_mapM_eq_some hnode
  unfold ofSpecs
  simp only [hnodes]
  exact ⟨⟨nodes⟩, rfl⟩

theorem ofSpecs_eq_error {e : Error} (h : ofSpecs specs = .error e) :
    e = .cycleDetected
      (cycles (needs specs) (layers (needs specs) (specs.map Spec.urn)) (specs.map Spec.urn)) := by
  simp only [ofSpecs] at h
  split at h
  · cases h
  · exact (Except.error.inj h).symm

theorem map_urn_nodes (h : ofSpecs specs = .ok g) :
    g.nodes.map Node.urn = specs.map Spec.urn :=
  map_eq_of_forall₂ (forall₂_of_ofSpecs h) fun _ _ hn => hn.urn

theorem contains_iff {urn : Urn} : g.contains urn ↔ urn ∈ g.nodes.map Node.urn := by
  simp [contains, List.mem_map]

def loneNode (s : Spec) : Node where
  urn := s.urn
  properties := s.properties
  dependencies := .empty
  external := s.dependencies
  level := 0

theorem ofSpecs_of_apart (hnodup : (specs.map Spec.urn).Nodup)
    (hapart : ∀ s ∈ specs, ∀ v ∈ s.dependencies, v ∉ specs.map Spec.urn) :
    ofSpecs specs = .ok ⟨specs.map loneNode⟩ := by
  have hdeclared : ∀ s ∈ specs, s.dependencies.filter (isDeclared specs) = .empty :=
    fun s hs => SortedSet.filter_eq_empty fun v hv => mt isDeclared_iff.mp (hapart s hs v hv)
  have hexternal : ∀ s ∈ specs, (s.dependencies.filter fun d => !isDeclared specs d) =
      s.dependencies := by
    refine fun s hs => SortedSet.filter_eq_self fun v hv => ?_
    simpa using mt isDeclared_iff.mp (hapart s hs v hv)
  have hneeds : ∀ u ∈ specs.map Spec.urn, needs specs u = [] := by
    intro u hu
    obtain ⟨s, hs, rfl⟩ := List.mem_map.mp hu
    rw [needs_of_mem hnodup hs, hdeclared s hs]
    rfl
  have hlevel : ∀ s ∈ specs, (layers (needs specs) (specs.map Spec.urn)).lookup s.urn = some 0 :=
    fun s hs => lookup_layers_of_needs_nil hnodup hneeds (List.mem_map_of_mem hs)
  have hnodes : specs.mapM (fun s =>
      ((layers (needs specs) (specs.map Spec.urn)).lookup s.urn).map fun level =>
        { urn := s.urn
          properties := s.properties
          dependencies := s.dependencies.filter (isDeclared specs)
          external := s.dependencies.filter fun d => !isDeclared specs d
          level : Node }) = some (specs.map loneNode) := by
    refine mapM_eq_some_iff.mpr (List.forall₂_map_right_iff.mpr (List.forall₂_same.mpr ?_))
    intro s hs
    rw [hlevel s hs, hdeclared s hs, hexternal s hs]
    rfl
  unfold ofSpecs
  simp only [hnodes]

/-- How the nodes of a graph hang together. -/
structure WellFormed (g : ResourceGraph) : Prop where
  nodup : (g.nodes.map Node.urn).Nodup
  lower : ∀ n ∈ g.nodes, ∀ d ∈ n.dependencies, ∃ m ∈ g.nodes, m.urn = d ∧ m.level < n.level
  undeclared : ∀ n ∈ g.nodes, ∀ d ∈ n.external, d ∉ g.nodes.map Node.urn
  parent : ∀ n ∈ g.nodes, ∀ p, n.urn.parent? = some p → p ∈ n.dependencies ∨ p ∈ n.external

theorem wellFormed_of_build (h : build declarations config = .ok g) : g.WellFormed := by
  obtain ⟨specs, hspecs, h⟩ := bind_eq_ok.mp h
  have hnodup := nodup_collectSpecs hspecs
  have hnodes := forall₂_of_ofSpecs h
  have hurns := map_urn_nodes h
  refine ⟨hurns ▸ hnodup, fun n hn d hd => ?_, fun n hn d hd => ?_, fun n hn p hp => ?_⟩
  all_goals obtain ⟨s, hs, hsn⟩ := exists_left_of_forall₂ hnodes hn
  · rw [hsn.dependencies, SortedSet.mem_def, ← needs_of_mem hnodup hs] at hd
    have hlevel := (lookup_layers_iff hnodup).mp hsn.level
    obtain ⟨k, hk, hmem⟩ := exists_lower_layer hnodup hlevel hd
    have hdecl := closed_needs hnodup s.urn (List.mem_map_of_mem hs) d hd
    obtain ⟨t, ht, rfl⟩ := List.mem_map.mp hdecl
    obtain ⟨m, hm, htm⟩ := exists_right_of_forall₂ hnodes ht
    have hmk : m.level = k :=
      layers_unique hnodup ((lookup_layers_iff hnodup).mp htm.level) hmem
    exact ⟨m, hm, htm.urn, hmk ▸ hk⟩
  · rw [hsn.external, SortedSet.mem_filter] at hd
    rw [hurns, ← isDeclared_iff]
    simpa using hd.2
  · rw [hsn.dependencies, hsn.external, SortedSet.mem_filter, SortedSet.mem_filter]
    have hps := parent?_mem_collectSpecs hspecs hs (hsn.urn ▸ hp)
    by_cases hdecl : isDeclared specs p
    · exact .inl ⟨hps, hdecl⟩
    · exact .inr ⟨hps, by simpa using hdecl⟩

theorem WellFormed.eq_of_urn_eq (h : g.WellFormed) {m n : Node} (hm : m ∈ g.nodes)
    (hn : n ∈ g.nodes) (hurn : m.urn = n.urn) : m = n :=
  List.inj_on_of_nodup_map h.nodup hm hn hurn

theorem mem_externalReferences_iff {u : Urn} :
    u ∈ g.externalReferences ↔ ∃ n ∈ g.nodes, u ∈ n.external := by
  rw [externalReferences, SortedSet.mem_ofList, List.mem_flatMap]
  rfl

/-- A resource that is declared, or that declared ones expect to exist. -/
def Wants (g : ResourceGraph) (u : Urn) : Prop :=
  u ∈ g.nodes.map Node.urn ∨ u ∈ g.externalReferences

theorem WellFormed.wants_parent (h : g.WellFormed) {u p : Urn} (hu : u ∈ g.nodes.map Node.urn)
    (hp : u.parent? = some p) : g.Wants p := by
  obtain ⟨n, hn, rfl⟩ := List.mem_map.mp hu
  rcases h.parent n hn p hp with hd | hd
  · obtain ⟨m, hm, rfl, -⟩ := h.lower n hn p hd
    exact .inl (List.mem_map_of_mem hm)
  · exact .inr (mem_externalReferences_iff.mpr ⟨n, hn, hd⟩)

end ResourceGraph
end Reconcile
