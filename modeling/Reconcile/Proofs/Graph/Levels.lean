import Reconcile.Proofs.Dependency.Height
import Reconcile.Proofs.Graph.Circles
/-!
The nodes of a graph and their levels.  Main statement: `build_levels`, there is one node for each
address that declarations specify, right above the highest of those that it depends on, and the
groups of the levels hold all nodes.
-/

namespace Reconcile

theorem Spec.same_refl (s : Spec) : s.same s := by
  have hproperties : s.properties.same s.properties :=
    SortedMap.agrees_self Json.same_refl _
  simp [Spec.same, hproperties]

namespace ResourceGraph

open Relation Fallible Dependency Reconcile.Lists

variable {declarations : List Declaration} {config : Config} {specs : List Spec} {g : ResourceGraph}
  {n : Node}

/-! ## One specification for each address -/

/-- All that declarations come to, repetitions included. -/
def ingestAll (declarations : List Declaration) (config : Config) : Except Error (List Spec) := do
  return (← declarations.mapM fun d => d.ingest config).flatten

/-- `specs` are the first ones among `said` for their addresses, and the later ones agree. -/
structure AreFirst (said specs : List Spec) : Prop where
  urns : specs.map Spec.urn = (said.map Spec.urn).eraseDups
  first : ∀ s ∈ specs, (said.find? fun t => t.urn == s.urn) = some s
  agree : ∀ s ∈ specs, ∀ t ∈ said, t.urn = s.urn → s.same t

theorem AreFirst.nodup {said : List Spec} (h : AreFirst said specs) :
    (specs.map Spec.urn).Nodup := h.urns ▸ nodup_eraseDups _

theorem AreFirst.mem_iff {said : List Spec} (h : AreFirst said specs) {u : Urn} :
    u ∈ specs.map Spec.urn ↔ u ∈ said.map Spec.urn := by
  rw [h.urns, List.mem_eraseDups]

theorem AreFirst.find?_concat {said : List Spec} (h : AreFirst said specs) (s : Spec) {t : Spec}
    (ht : t ∈ specs) : ((said ++ [s]).find? fun u => u.urn == t.urn) = some t := by
  rw [List.find?_append, h.first t ht, Option.some_or]

theorem AreFirst.new {said : List Spec} {s : Spec} (h : AreFirst said specs)
    (hnew : s.urn ∉ specs.map Spec.urn) : AreFirst (said ++ [s]) (specs ++ [s]) := by
  have hfresh : ∀ t ∈ said, t.urn ≠ s.urn := fun t ht heq =>
    hnew (h.mem_iff.mpr (heq ▸ List.mem_map_of_mem ht))
  refine ⟨?_, fun t ht => ?_, fun t ht u hu hut => ?_⟩
  · rw [List.map_append, List.map_append, h.urns]
    exact (eraseDups_concat_of_not_mem (mt h.mem_iff.mpr hnew)).symm
  · rcases List.mem_append.mp ht with ht | ht
    · exact h.find?_concat s ht
    · obtain rfl := List.mem_singleton.mp ht
      have hnone : (said.find? fun u => u.urn == t.urn) = none :=
        List.find?_eq_none.mpr fun u hu => by simpa using hfresh u hu
      rw [List.find?_append, hnone, Option.none_or]
      simp
  · rcases List.mem_append.mp ht with htold | htnew
    · rcases List.mem_append.mp hu with huold | hunew
      · exact h.agree t htold u huold hut
      · obtain rfl := List.mem_singleton.mp hunew
        exact absurd (hut ▸ List.mem_map_of_mem htold) hnew
    · obtain rfl := List.mem_singleton.mp htnew
      rcases List.mem_append.mp hu with huold | hunew
      · exact absurd hut (hfresh u huold)
      · obtain rfl := List.mem_singleton.mp hunew
        exact u.same_refl

theorem AreFirst.again {said : List Spec} {s t : Spec} (h : AreFirst said specs) (ht : t ∈ specs)
    (hurn : t.urn = s.urn) (hsame : t.same s) : AreFirst (said ++ [s]) specs := by
  refine ⟨?_, fun u hu => h.find?_concat s hu, fun u hu v hv hvu => ?_⟩
  · rw [List.map_append, h.urns]
    exact (eraseDups_concat_of_mem (h.mem_iff.mp (hurn ▸ List.mem_map_of_mem ht))).symm
  · rcases List.mem_append.mp hv with hv | hv
    · exact h.agree u hu v hv hvu
    · obtain rfl := List.mem_singleton.mp hv
      obtain rfl : t = u := List.inj_on_of_nodup_map h.nodup ht hu (hurn.trans hvu)
      exact hsame

theorem AreFirst.addSpec {said specs' : List Spec} {s : Spec} (h : AreFirst said specs)
    (hs : addSpec specs s = .ok specs') : AreFirst (said ++ [s]) specs' := by
  rcases addSpec_cases hs with ⟨hnew, rfl⟩ | ⟨⟨t, ht, hurn, hsame⟩, rfl⟩
  · exact h.new hnew
  · exact h.again ht hurn hsame

theorem AreFirst.foldlM {later said specs' : List Spec} (h : AreFirst said specs)
    (hfold : later.foldlM ResourceGraph.addSpec specs = .ok specs') :
    AreFirst (said ++ later) specs' := by
  induction later generalizing said specs with
  | nil =>
    rw [List.foldlM_nil, pure_eq_ok] at hfold
    subst hfold
    rwa [List.append_nil]
  | cons s later ih =>
    rw [List.foldlM_cons, bind_eq_ok] at hfold
    obtain ⟨specs₁, hs, hfold⟩ := hfold
    rw [List.append_cons]
    exact ih (h.addSpec hs) hfold

theorem exists_own_of_foldlM {specs' : List Spec}
    (h : declarations.foldlM (fun specs d => do (← d.ingest config).foldlM addSpec specs) specs =
      .ok specs') :
    ∃ own, declarations.mapM (fun d => d.ingest config) = .ok own ∧
      own.flatten.foldlM addSpec specs = .ok specs' := by
  induction declarations generalizing specs with
  | nil => exact ⟨[], rfl, h⟩
  | cons d declarations ih =>
    rw [List.foldlM_cons, bind_eq_ok] at h
    obtain ⟨specs₁, hd, h⟩ := h
    obtain ⟨first, hfirst, hd⟩ := bind_eq_ok.mp hd
    obtain ⟨own, hown, hfold⟩ := ih h
    refine ⟨first :: own, mapM_cons_eq_ok.mpr ⟨first, hfirst, own, hown, rfl⟩, ?_⟩
    rw [List.flatten_cons, List.foldlM_append, bind_eq_ok]
    exact ⟨specs₁, hd, hfold⟩

theorem AreFirst.nil : AreFirst [] [] := ⟨rfl, fun _ hs => (nomatch hs), fun _ hs => (nomatch hs)⟩

theorem exists_ingestAll (h : collectSpecs declarations config = .ok specs) :
    ∃ said, ingestAll declarations config = .ok said ∧ AreFirst said specs := by
  obtain ⟨own, hown, hfold⟩ := exists_own_of_foldlM h
  exact ⟨own.flatten, bind_eq_ok.mpr ⟨own, hown, rfl⟩, AreFirst.nil.foldlM hfold⟩

/-! ## Where a node stands -/

def LeadsTo (g : ResourceGraph) (u v : Urn) : Prop := ∃ n ∈ g.nodes, n.urn = u ∧ v ∈ n.dependencies

theorem IsNodeOf.mem_dependencies {s : Spec} (h : IsNodeOf specs s n) {d : Urn} :
    d ∈ n.dependencies ↔ d ∈ s.dependencies ∧ d ∈ specs.map Spec.urn := by
  rw [h.dependencies, SortedSet.mem_filter, isDeclared_iff]

theorem IsNodeOf.mem_external {s : Spec} (h : IsNodeOf specs s n) {d : Urn} :
    d ∈ n.external ↔ d ∈ s.dependencies ∧ d ∉ specs.map Spec.urn := by
  rw [h.external, SortedSet.mem_filter, ← isDeclared_iff]
  simp

theorem leadsTo_eq_dependsOn (h : ofSpecs specs = .ok g) : g.LeadsTo = DependsOn specs := by
  have hnodes := forall₂_of_ofSpecs h
  funext u v
  refine propext ⟨fun hlead => ?_, fun hdep => ?_⟩
  · obtain ⟨n, hn, rfl, hv⟩ := hlead
    obtain ⟨s, hs, hsn⟩ := exists_left_of_forall₂ hnodes hn
    obtain ⟨hv, hdecl⟩ := hsn.mem_dependencies.mp hv
    exact ⟨s, hs, hsn.urn.symm, hv, hdecl⟩
  · obtain ⟨s, hs, rfl, hv, hdecl⟩ := hdep
    obtain ⟨n, hn, hsn⟩ := exists_right_of_forall₂ hnodes hs
    exact ⟨n, hn, hsn.urn, hsn.mem_dependencies.mpr ⟨hv, hdecl⟩⟩

theorem mem_layers_of_mem_nodes (hnodup : (specs.map Spec.urn).Nodup) (h : ofSpecs specs = .ok g)
    (hn : n ∈ g.nodes) : (n.urn, n.level) ∈ layers (needs specs) (specs.map Spec.urn) := by
  obtain ⟨s, -, hsn⟩ := exists_left_of_forall₂ (forall₂_of_ofSpecs h) hn
  rw [hsn.urn]
  exact (lookup_layers_iff hnodup).mp hsn.level

/-- A node that does not stand lowest stands right above one that it depends on. -/
theorem exists_right_below (hnodup : (specs.map Spec.urn).Nodup) (h : ofSpecs specs = .ok g)
    (hn : n ∈ g.nodes) {k : Nat} (hk : n.level = k + 1) :
    ∃ m ∈ g.nodes, m.urn ∈ n.dependencies ∧ m.level = k := by
  obtain ⟨s, hs, hsn⟩ := exists_left_of_forall₂ (forall₂_of_ofSpecs h) hn
  have hlayer := mem_layers_of_mem_nodes hnodup h hn
  rw [hk] at hlayer
  obtain ⟨d, hd, hdk⟩ := exists_next_layer hnodup hlayer
  rw [hsn.urn, needs_of_mem hnodup hs, ← hsn.dependencies] at hd
  have hdecl := (hsn.mem_dependencies.mp (SortedSet.mem_def.mpr hd)).2
  rw [← map_urn_nodes h] at hdecl
  obtain ⟨m, hm, rfl⟩ := List.mem_map.mp hdecl
  exact ⟨m, hm, hd, layers_unique hnodup (mem_layers_of_mem_nodes hnodup h hm) hdk⟩

theorem WellFormed.level_lt (h : g.WellFormed) (hn : n ∈ g.nodes) {m : Node} (hm : m ∈ g.nodes)
    (hdep : m.urn ∈ n.dependencies) : m.level < n.level := by
  obtain ⟨m', hm', hurn, hlt⟩ := h.lower n hn m.urn hdep
  obtain rfl := h.eq_of_urn_eq hm' hm hurn
  exact hlt

/-! ## The groups of the levels -/

theorem lt_height_iff {k : Nat} : k < g.height ↔ ∃ n ∈ g.nodes, k ≤ n.level := by
  rw [height]
  cases hmax : g.maxLevel? with
  | none =>
    have hnone : g.nodes = [] := by
      rw [maxLevel?, List.max?_eq_none_iff] at hmax
      exact List.map_eq_nil_iff.mp hmax
    simp [hnone]
  | some top =>
    obtain ⟨hmem, htop⟩ := List.max?_eq_some_iff.mp hmax
    obtain ⟨n, hn, rfl⟩ := List.mem_map.mp hmem
    show k < n.level + 1 ↔ _
    constructor
    · intro hk
      exact ⟨n, hn, by omega⟩
    · intro hbelow
      obtain ⟨m, hm, hk⟩ := hbelow
      have := htop m.level (List.mem_map_of_mem hm)
      omega

theorem level_lt_height (hn : n ∈ g.nodes) : n.level < g.height :=
  lt_height_iff.mpr ⟨n, hn, Nat.le_refl _⟩

theorem exists_level_eq (hnodup : (specs.map Spec.urn).Nodup) (h : ofSpecs specs = .ok g)
    {k : Nat} (hn : n ∈ g.nodes) (hk : k ≤ n.level) : ∃ m ∈ g.nodes, m.level = k := by
  induction hd : n.level - k generalizing n with
  | zero => exact ⟨n, hn, by omega⟩
  | succ d ih =>
    obtain ⟨m, hm, -, hlevel⟩ := exists_right_below hnodup h hn (k := k + d) (by omega)
    exact ih hm (by omega) (by omega)

theorem getElem?_levels {k : Nat} :
    g.levels[k]? = if k < g.height then some (g.nodes.filter fun n => n.level == k) else none := by
  rw [levels, List.getElem?_map]
  split
  next hk => rw [List.getElem?_range hk, Option.map_some]
  next hk => rw [List.getElem?_eq_none (by rw [List.length_range]; omega), Option.map_none]

/-- Declarations that make a graph give it one node for each address, with what is first said of
it, and all that is said of it agrees.  A node stands right above the highest node that it depends
on, and lowest if there is none, so its level is the length of the longest path down from it.  The
groups of the levels are the levels that occur, without a gap. -/
theorem build_levels (h : build declarations config = .ok g) :
    ∃ said, ingestAll declarations config = .ok said ∧
      g.nodes.map Node.urn = (said.map Spec.urn).eraseDups ∧
      (∀ n ∈ g.nodes,
        (∃ s, (said.find? fun s => s.urn == n.urn) = some s ∧
          (∀ t ∈ said, t.urn = n.urn → s.same t) ∧
          n.properties = s.properties ∧
          (∀ d, d ∈ n.dependencies ↔ d ∈ s.dependencies ∧ d ∈ g.nodes.map Node.urn) ∧
          ∀ d, d ∈ n.external ↔ d ∈ s.dependencies ∧ d ∉ g.nodes.map Node.urn) ∧
        ((∀ d, d ∉ n.dependencies) → n.level = 0) ∧
        ((∃ d, d ∈ n.dependencies) →
          ∃ m ∈ g.nodes, m.urn ∈ n.dependencies ∧ n.level = m.level + 1 ∧
            ∀ m' ∈ g.nodes, m'.urn ∈ n.dependencies → m'.level ≤ m.level) ∧
        IsHeight g.LeadsTo n.urn n.level) ∧
      (∀ k, k < g.levels.length ↔ ∃ n ∈ g.nodes, n.level = k) ∧
      (∀ k group, g.levels[k]? = some group →
        group ≠ [] ∧ group = g.nodes.filter fun n => n.level == k) ∧
      ∀ n ∈ g.nodes, ∃ group, g.levels[n.level]? = some group ∧ n ∈ group := by
  have hwf := wellFormed_of_build h
  obtain ⟨specs, hspecs, h⟩ := bind_eq_ok.mp h
  obtain ⟨said, hsaid, hfirst⟩ := exists_ingestAll hspecs
  have hnodup := hfirst.nodup
  have hurns := map_urn_nodes h
  have hnodes := forall₂_of_ofSpecs h
  have hlevel : ∀ k, k < g.height ↔ ∃ n ∈ g.nodes, n.level = k := by
    intro k
    rw [lt_height_iff]
    constructor
    · intro hbelow
      obtain ⟨n, hn, hk⟩ := hbelow
      exact exists_level_eq hnodup h hn hk
    · intro hat
      obtain ⟨n, hn, rfl⟩ := hat
      exact ⟨n, hn, Nat.le_refl _⟩
  refine ⟨said, hsaid, hurns.trans hfirst.urns, fun n hn => ⟨?_, ?_, ?_, ?_⟩, ?_, ?_, ?_⟩
  · obtain ⟨s, hs, hsn⟩ := exists_left_of_forall₂ hnodes hn
    rw [hurns, hsn.urn]
    exact ⟨s, hfirst.first s hs, hfirst.agree s hs, hsn.properties,
      fun d => hsn.mem_dependencies, fun d => hsn.mem_external⟩
  · intro hnone
    cases hk : n.level with
    | zero => rfl
    | succ k =>
      obtain ⟨m, -, hdep, -⟩ := exists_right_below hnodup h hn hk
      exact absurd hdep (hnone m.urn)
  · intro hsome
    obtain ⟨d, hd⟩ := hsome
    obtain ⟨m₀, -, -, hlt⟩ := hwf.lower n hn d hd
    obtain ⟨m, hm, hdep, hmk⟩ :=
      exists_right_below hnodup h hn (k := n.level - 1) (by omega)
    refine ⟨m, hm, hdep, by omega, fun m' hm' hdep' => ?_⟩
    have := hwf.level_lt hn hm' hdep'
    omega
  · rw [leadsTo_eq_dependsOn h, ← needs_eq_dependsOn hnodup]
    exact isHeight_of_mem_layers hnodup (mem_layers_of_mem_nodes hnodup h hn)
  · intro k
    rw [levels, List.length_map, List.length_range, hlevel]
  · intro k group hgroup
    rw [getElem?_levels] at hgroup
    split at hgroup
    next hk =>
      obtain rfl := Option.some.inj hgroup
      obtain ⟨n, hn, rfl⟩ := (hlevel k).mp hk
      exact ⟨List.ne_nil_of_mem (List.mem_filter.mpr ⟨hn, beq_self_eq_true _⟩), rfl⟩
    · cases hgroup
  · intro n hn
    refine ⟨g.nodes.filter fun m => m.level == n.level, ?_, ?_⟩
    · rw [getElem?_levels, if_pos (level_lt_height hn)]
    · exact List.mem_filter.mpr ⟨hn, beq_self_eq_true n.level⟩

/-! ## A ladder of roles -/

def ladder : List Declaration :=
  [roleNaming "A" ["B", "C"], roleNaming "B" ["C"], roleNaming "A" ["B", "C"],
    roleNaming "C" ["X"]]

def topRole : Node where
  urn := .ofRole "ORG.ACC" "A"
  properties := .empty
  dependencies := .ofList [.ofRole "ORG.ACC" "B", .ofRole "ORG.ACC" "C"]
  external := .empty
  level := 2

def ladderGraph : ResourceGraph where
  nodes :=
    [topRole,
      { urn := .ofRole "ORG.ACC" "B"
        properties := .empty
        dependencies := .ofList [.ofRole "ORG.ACC" "C"]
        external := .empty
        level := 1 },
      { urn := .ofRole "ORG.ACC" "C"
        properties := .empty
        dependencies := .empty
        external := .ofList [.ofRole "ORG.ACC" "X"]
        level := 0 }]

theorem build_ladder : build ladder (.ofAccount "ORG.ACC") = .ok ladderGraph := by rfl

theorem isHeight_topRole :
    build ladder (.ofAccount "ORG.ACC") = .ok ladderGraph ∧
    IsHeight ladderGraph.LeadsTo topRole.urn 2 ∧ 2 < ladderGraph.levels.length := by
  have htop : topRole ∈ ladderGraph.nodes := List.mem_cons_self
  obtain ⟨_, -, -, hnodes, hlevels, -⟩ := build_levels build_ladder
  exact ⟨build_ladder, (hnodes topRole htop).2.2.2, (hlevels 2).mpr ⟨topRole, htop, rfl⟩⟩

end ResourceGraph
end Reconcile
