import Reconcile.Proofs.Graph.Levels
import Reconcile.Proofs.Properties
/-!
Declarations in another order.  Main statement: `exists_build_of_rearranged`, the same declarations,
in whatever order and however often, make the same graph up to the order of its nodes and the signs
of zeros.
-/

namespace Reconcile

open Fallible Dependency Reconcile.Lists

namespace Spec

variable {s t u : Spec}

theorem same_iff : s.same t ↔ s.urn = t.urn ∧
    s.properties.unsigned = t.properties.unsigned ∧ s.dependencies = t.dependencies := by
  simp [same, Properties.same_iff, and_assoc]

theorem same_symm (h : s.same t) : t.same s := by
  obtain ⟨hurn, hproperties, hdependencies⟩ := same_iff.mp h
  exact same_iff.mpr ⟨hurn.symm, hproperties.symm, hdependencies.symm⟩

theorem same_trans (hst : s.same t) (htu : t.same u) : s.same u := by
  obtain ⟨hurn, hproperties, hdependencies⟩ := same_iff.mp hst
  rw [same_iff, hurn, hproperties, hdependencies]
  exact same_iff.mp htu

end Spec

theorem Declaration.IsGrantSpec.unsigned_properties {account : String} {s : Spec}
    (h : IsGrantSpec account s) : s.properties.unsigned = s.properties := by
  cases h with
  | onObject => rfl
  | onObjects => rfl
  | ofRole => rfl

structure Node.Alike (n m : Node) : Prop where
  urn : n.urn = m.urn
  properties : n.properties.unsigned = m.properties.unsigned
  dependencies : n.dependencies = m.dependencies
  external : n.external = m.external
  level : n.level = m.level

namespace ResourceGraph

variable {ds es : List Declaration} {config : Config} {said specs specs' : List Spec} {s : Spec}
  {g g' : ResourceGraph}

/-! ## What is said -/

theorem ingestAll_eq_ok_iff : ingestAll ds config = .ok said ↔
    ∃ own, ds.mapM (fun d => d.ingest config) = .ok own ∧ own.flatten = said := by
  simp only [ingestAll, bind_eq_ok, pure_eq_ok]

theorem mem_ingestAll_iff (h : ingestAll ds config = .ok said) :
    s ∈ said ↔ ∃ d ∈ ds, ∃ own, d.ingest config = .ok own ∧ s ∈ own := by
  obtain ⟨all, hall, rfl⟩ := ingestAll_eq_ok_iff.mp h
  have hall := mapM_eq_ok_iff.mp hall
  rw [List.mem_flatten]
  constructor
  · intro hs
    obtain ⟨own, hown, hs⟩ := hs
    obtain ⟨d, hd, hdown⟩ := exists_left_of_forall₂ hall hown
    exact ⟨d, hd, own, hdown, hs⟩
  · intro hs
    obtain ⟨d, hd, own, hown, hs⟩ := hs
    obtain ⟨own', hown', heq⟩ := exists_right_of_forall₂ hall hd
    obtain rfl := Except.ok.inj (heq.symm.trans hown)
    exact ⟨own', hown', hs⟩

/-- The same declarations say the same, in whatever order and however often. -/
theorem exists_ingestAll_of_rearranged (hes : ∀ d, d ∈ es ↔ d ∈ ds)
    (h : ingestAll ds config = .ok said) :
    ∃ said', ingestAll es config = .ok said' ∧ ∀ s, s ∈ said' ↔ s ∈ said := by
  obtain ⟨all, hall, -⟩ := ingestAll_eq_ok_iff.mp h
  have hingest : ∀ d ∈ es, ∃ own, d.ingest config = .ok own := by
    intro d hd
    obtain ⟨own, -, hown⟩ := exists_right_of_forall₂ (mapM_eq_ok_iff.mp hall) ((hes d).mp hd)
    exact ⟨own, hown⟩
  obtain ⟨all', hall'⟩ := exists_mapM_eq_ok hingest
  have hsaid' := ingestAll_eq_ok_iff.mpr ⟨all', hall', rfl⟩
  refine ⟨all'.flatten, hsaid', fun s => ?_⟩
  rw [mem_ingestAll_iff hsaid', mem_ingestAll_iff h]
  simp only [hes]

/-! ## One specification for each address -/

theorem collectSpecs_of_ingestAll (h : ingestAll ds config = .ok said) :
    collectSpecs ds config = said.foldlM addSpec [] := by
  have hall (ds : List Declaration) (all : List (List Spec))
      (h : List.Forall₂ (fun d own => d.ingest config = .ok own) ds all) (specs : List Spec) :
      ds.foldlM (fun specs d => do (← d.ingest config).foldlM addSpec specs) specs =
        all.flatten.foldlM addSpec specs := by
    induction h generalizing specs with
    | nil => rfl
    | @cons d own ds all hown _ ih =>
      rw [List.foldlM_cons, List.flatten_cons, List.foldlM_append, hown]
      show (own.foldlM addSpec specs >>= _) = _
      exact congrArg _ (funext ih)
  obtain ⟨all, hown, rfl⟩ := ingestAll_eq_ok_iff.mp h
  exact hall ds all (mapM_eq_ok_iff.mp hown) []

/-- Whatever is said of one resource is the same. -/
def Consistent (said : List Spec) : Prop := ∀ s ∈ said, ∀ t ∈ said, s.urn = t.urn → s.same t

theorem AreFirst.consistent (h : AreFirst said specs) : Consistent said := by
  intro s hs t ht hurn
  obtain ⟨first, hfirst, hfurn⟩ := List.mem_map.mp (h.mem_iff.mpr (List.mem_map_of_mem hs))
  exact Spec.same_trans (Spec.same_symm (h.agree first hfirst s hs hfurn.symm))
    (h.agree first hfirst t ht (hurn.symm.trans hfurn.symm))

theorem AreFirst.mem_said (h : AreFirst said specs) (hs : s ∈ specs) : s ∈ said :=
  List.mem_of_find?_eq_some (h.first s hs)

theorem AreFirst.mem_of_urn_eq {own later : List Spec} {first : Spec}
    (h : AreFirst (own ++ later) specs) (hfirst : first ∈ specs) (hs : s ∈ own)
    (hurn : first.urn = s.urn) : first ∈ own := by
  have hfind := h.first first hfirst
  rw [List.find?_append] at hfind
  cases hown : own.find? fun t => t.urn == first.urn with
  | none => exact absurd (beq_iff_eq.mpr hurn.symm) (List.find?_eq_none.mp hown s hs)
  | some t =>
    rw [hown] at hfind
    exact Option.some.inj hfind ▸ List.mem_of_find?_eq_some hown

theorem exists_addSpec (h : ∀ t ∈ specs, t.urn = s.urn → t.same s) :
    ∃ specs', addSpec specs s = .ok specs' := by
  rw [addSpec]
  split
  · exact ⟨_, rfl⟩
  next t ht =>
    have hurn : t.urn = s.urn := by simpa using List.find?_some ht
    rw [if_pos (h t (List.mem_of_find?_eq_some ht) hurn)]
    exact ⟨_, rfl⟩

theorem exists_foldlM_addSpec (h : AreFirst said specs) {later : List Spec}
    (hconsistent : Consistent (said ++ later)) :
    ∃ specs', later.foldlM addSpec specs = .ok specs' := by
  induction later generalizing said specs with
  | nil => exact ⟨specs, rfl⟩
  | cons s later ih =>
    have hs : s ∈ said ++ s :: later := List.mem_append_right _ List.mem_cons_self
    obtain ⟨specs₁, hadd⟩ := exists_addSpec fun t (ht : t ∈ specs) hurn =>
      hconsistent t (List.mem_append_left _ (h.mem_said ht)) s hs hurn
    rw [List.append_cons] at hconsistent
    obtain ⟨specs', hlater⟩ := ih (h.addSpec hadd) hconsistent
    exact ⟨specs', by rw [List.foldlM_cons, bind_eq_ok]; exact ⟨specs₁, hadd, hlater⟩⟩

/-- Declarations come to specifications exactly if they say the same whenever they speak of one
resource. -/
theorem exists_collectSpecs_iff : (∃ specs, collectSpecs ds config = .ok specs) ↔
    ∃ said, ingestAll ds config = .ok said ∧ Consistent said := by
  constructor
  · intro hcollect
    obtain ⟨specs, hspecs⟩ := hcollect
    obtain ⟨said, hsaid, hfirst⟩ := exists_ingestAll hspecs
    exact ⟨said, hsaid, hfirst.consistent⟩
  · intro hingest
    obtain ⟨said, hsaid, hconsistent⟩ := hingest
    rw [collectSpecs_of_ingestAll hsaid]
    exact exists_foldlM_addSpec .nil hconsistent

theorem exists_collectSpecs_of_rearranged (hes : ∀ d, d ∈ es ↔ d ∈ ds)
    (h : collectSpecs ds config = .ok specs) :
    ∃ specs', collectSpecs es config = .ok specs' ∧
      Matched (fun s t => s.same t) specs specs' := by
  obtain ⟨said, hsaid, hfirst⟩ := exists_ingestAll h
  obtain ⟨said', hsaid', hmem⟩ := exists_ingestAll_of_rearranged hes hsaid
  have hconsistent : Consistent said' := fun s hs t ht =>
    hfirst.consistent s ((hmem s).mp hs) t ((hmem t).mp ht)
  obtain ⟨specs', hspecs'⟩ := exists_collectSpecs_iff.mpr ⟨said', hsaid', hconsistent⟩
  obtain ⟨said₁, hsaid₁, hfirst'⟩ := exists_ingestAll hspecs'
  obtain rfl := Except.ok.inj (hsaid'.symm.trans hsaid₁)
  refine ⟨specs', hspecs', fun s hs => ?_, fun t ht => ?_⟩
  · have hs' := (hmem s).mpr (hfirst.mem_said hs)
    obtain ⟨t, ht, hurn⟩ := List.mem_map.mp (hfirst'.mem_iff.mpr (List.mem_map_of_mem hs'))
    exact ⟨t, ht, Spec.same_symm (hfirst'.agree t ht s hs' hurn.symm)⟩
  · have ht' := (hmem t).mp (hfirst'.mem_said ht)
    obtain ⟨s, hs, hurn⟩ := List.mem_map.mp (hfirst.mem_iff.mpr (List.mem_map_of_mem ht'))
    exact ⟨s, hs, hfirst.agree s hs t ht' hurn.symm⟩

/-! ## Graphs -/

section

variable (h : Matched (fun s t => s.same t) specs specs')

include h

theorem mem_urns_of_matched {u : Urn} : u ∈ specs.map Spec.urn ↔ u ∈ specs'.map Spec.urn :=
  h.mem_map_iff fun _ _ hst => (Spec.same_iff.mp hst).1

theorem isDeclared_of_matched : isDeclared specs = isDeclared specs' := by
  funext u
  rw [Bool.eq_iff_iff, isDeclared_iff, isDeclared_iff, mem_urns_of_matched h]

theorem dependsOn_of_matched : DependsOn specs = DependsOn specs' := by
  funext u v
  refine propext (h.exists_iff fun s t hst => ?_)
  obtain ⟨hurn, -, hdependencies⟩ := Spec.same_iff.mp hst
  rw [hurn, hdependencies, mem_urns_of_matched h]

theorem IsNodeOf.alike (hnodup : (specs.map Spec.urn).Nodup) (hnodup' : (specs'.map Spec.urn).Nodup)
    {t : Spec} {n m : Node} (hst : s.same t) (hn : IsNodeOf specs s n) (hm : IsNodeOf specs' t m) :
    n.Alike m := by
  obtain ⟨hurn, hproperties, hdependencies⟩ := Spec.same_iff.mp hst
  refine ⟨hn.urn.trans (hurn.trans hm.urn.symm), ?_, ?_, ?_, ?_⟩
  · rw [hn.properties, hm.properties, hproperties]
  · rw [hn.dependencies, hm.dependencies, hdependencies, isDeclared_of_matched h]
  · rw [hn.external, hm.external, hdependencies, isDeclared_of_matched h]
  · -- A level is a height, which does not depend on the order.
    have hheight := isHeight_of_mem_layers hnodup ((lookup_layers_iff hnodup).mp hn.level)
    have hheight' := isHeight_of_mem_layers hnodup' ((lookup_layers_iff hnodup').mp hm.level)
    rw [needs_eq_dependsOn hnodup, dependsOn_of_matched h, hurn] at hheight
    rw [needs_eq_dependsOn hnodup'] at hheight'
    exact hheight.unique hheight'

theorem exists_ofSpecs_of_matched (hnodup : (specs.map Spec.urn).Nodup)
    (hnodup' : (specs'.map Spec.urn).Nodup) (hg : ofSpecs specs = .ok g) :
    ∃ g', ofSpecs specs' = .ok g' ∧ Matched Node.Alike g.nodes g'.nodes := by
  have hacyclic := (exists_ofSpecs_iff hnodup).mp ⟨g, hg⟩
  rw [dependsOn_of_matched h] at hacyclic
  obtain ⟨g', hg'⟩ := (exists_ofSpecs_iff hnodup').mpr hacyclic
  have hnodes := forall₂_of_ofSpecs hg
  have hnodes' := forall₂_of_ofSpecs hg'
  refine ⟨g', hg', fun n hn => ?_, fun m hm => ?_⟩
  · obtain ⟨s, hs, hsn⟩ := exists_left_of_forall₂ hnodes hn
    obtain ⟨t, ht, hst⟩ := h.left s hs
    obtain ⟨m, hm, htm⟩ := exists_right_of_forall₂ hnodes' ht
    exact ⟨m, hm, hsn.alike h hnodup hnodup' hst htm⟩
  · obtain ⟨t, ht, htm⟩ := exists_left_of_forall₂ hnodes' hm
    obtain ⟨s, hs, hst⟩ := h.right t ht
    obtain ⟨n, hn, hsn⟩ := exists_right_of_forall₂ hnodes hs
    exact ⟨n, hn, hsn.alike h hnodup hnodup' hst htm⟩

end

/-- The same declarations make the same graph, up to the order of the nodes and the signs of
zeros. -/
theorem exists_build_of_rearranged (hes : ∀ d, d ∈ es ↔ d ∈ ds) (h : build ds config = .ok g) :
    ∃ g', build es config = .ok g' ∧ Matched Node.Alike g.nodes g'.nodes := by
  obtain ⟨specs, hspecs, hg⟩ := bind_eq_ok.mp h
  obtain ⟨specs', hspecs', hmatched⟩ := exists_collectSpecs_of_rearranged hes hspecs
  obtain ⟨g', hg', hnodes⟩ := exists_ofSpecs_of_matched hmatched (nodup_collectSpecs hspecs)
    (nodup_collectSpecs hspecs') hg
  exact ⟨g', bind_eq_ok.mpr ⟨specs', hspecs', hg'⟩, hnodes⟩

/-! ## Views of a graph -/

section

variable (h : Matched Node.Alike g.nodes g'.nodes)

include h

theorem mem_urns_of_alike {u : Urn} : u ∈ g.nodes.map Node.urn ↔ u ∈ g'.nodes.map Node.urn :=
  h.mem_map_iff fun _ _ hnm => hnm.urn

theorem contains_of_alike : g.contains = g'.contains := by
  funext u
  rw [Bool.eq_iff_iff, contains_iff, contains_iff, mem_urns_of_alike h]

theorem types_of_alike : g.types = g'.types := by
  refine SortedSet.ext_mem fun t => ?_
  rw [types, types, SortedSet.mem_ofList, SortedSet.mem_ofList]
  exact h.mem_map_iff fun _ _ hnm => congrArg Urn.type hnm.urn

theorem externalReferences_of_alike : g.externalReferences = g'.externalReferences := by
  refine SortedSet.ext_mem fun u => ?_
  rw [mem_externalReferences_iff, mem_externalReferences_iff]
  exact h.exists_iff fun _ _ hnm => by rw [hnm.external]

theorem height_of_alike : g.height = g'.height := by
  refine eq_of_forall_lt_iff fun k => ?_
  rw [lt_height_iff, lt_height_iff]
  exact h.exists_iff fun _ _ hnm => by rw [hnm.level]

end

end ResourceGraph
end Reconcile
