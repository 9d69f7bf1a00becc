import Reconcile.Graph
import Reconcile.Proofs.Collection
import Reconcile.Proofs.Declaration.Ingest
import Reconcile.Proofs.Dependency.Layering
import Reconcile.Proofs.Fallible
/-!
The specifications that declarations come to.  Main statements: `nodup_collectSpecs`, no two of them
have one address, and `parent?_mem_collectSpecs`, each depends on its container.
-/

namespace Reconcile

open Fallible Dependency

namespace Declaration

variable {d : Declaration} {account : String} {specs : List Spec} {s : Spec}

theorem container_of_ingestGrant (h : d.ingestGrant account = .ok specs) (hs : s ∈ specs) :
    s.urn.container = .account := by
  obtain ⟨on, grantee, option, p, -, -, -, rfl⟩ := exists_of_ingestGrant h hs
  rfl

theorem container_of_ingestScopedGrant (h : d.ingestScopedGrant account = .ok specs)
    (hs : s ∈ specs) : s.urn.container = .account := by
  obtain ⟨container, grantee, target, option, p, -, -, -, -, rfl⟩ :=
    exists_of_ingestScopedGrant h hs
  rfl

theorem container_of_ingestRoleGrant (h : d.ingestRoleGrant account = .ok specs)
    (hs : s ∈ specs) : s.urn.container = .account := by
  obtain ⟨role, grantee, -, -, -, -, rfl⟩ := exists_of_ingestRoleGrant h hs
  rfl

theorem parent?_mem_of_ingestObject {config : Config} (h : d.ingestObject config = .ok specs)
    (hs : s ∈ specs) {p : Urn} (hp : s.urn.parent? = some p) : p ∈ s.dependencies := by
  obtain ⟨container, references, -, -, -, -, hdeps⟩ := exists_of_ingestObject h hs
  -- Only the account is taken out, and a container is a database or a schema.
  have hne : p ≠ .ofAccount config.account := by
    rintro rfl
    cases hc : s.urn.container with
    | account => simp [Urn.parent?, hc] at hp
    | database db => simp [Urn.parent?, Urn.ofNames, Urn.ofAccount, hc] at hp
    | schema db sc => simp [Urn.parent?, Urn.ofNames, Urn.ofAccount, hc] at hp
  rw [hdeps, SortedSet.mem_erase, SortedSet.mem_ofList]
  refine ⟨?_, hne⟩
  rw [List.append_assoc]
  exact List.mem_append_left _ (Option.mem_toList.mpr hp)

theorem parent?_mem_of_ingest {config : Config} (h : d.ingest config = .ok specs) (hs : s ∈ specs)
    {p : Urn} (hp : s.urn.parent? = some p) : p ∈ s.dependencies := by
  have hnone (hc : s.urn.container = .account) : p ∈ s.dependencies := by
    rw [Urn.parent?, hc] at hp
    cases hp
  rcases ingest_cases h with ⟨-, h⟩ | ⟨-, h⟩ | ⟨-, h⟩ | ⟨-, h⟩
  · exact hnone (container_of_ingestGrant h hs)
  · exact hnone (container_of_ingestScopedGrant h hs)
  · exact hnone (container_of_ingestRoleGrant h hs)
  · exact parent?_mem_of_ingestObject h hs hp

end Declaration

namespace ResourceGraph

variable {declarations : List Declaration} {config : Config} {specs : List Spec} {s : Spec}

theorem isDeclared_iff {urn : Urn} : isDeclared specs urn ↔ urn ∈ specs.map Spec.urn := by
  simp [isDeclared, List.mem_map]

theorem addSpec_cases {specs' : List Spec} (h : addSpec specs s = .ok specs') :
    (s.urn ∉ specs.map Spec.urn ∧ specs' = specs ++ [s]) ∨
    ((∃ t ∈ specs, t.urn = s.urn ∧ t.same s) ∧ specs' = specs) := by
  rw [addSpec] at h
  split at h
  next hnone =>
    have hnot : s.urn ∉ specs.map Spec.urn := by
      rw [List.find?_eq_none] at hnone
      intro hmem
      obtain ⟨t, ht, hurn⟩ := List.mem_map.mp hmem
      exact hnone t ht (by simpa using hurn)
    exact .inl ⟨hnot, (Except.ok.inj h).symm⟩
  next t ht =>
    split at h
    next hsame =>
      have hurn : t.urn = s.urn := by simpa using List.find?_some ht
      exact .inr ⟨⟨t, List.mem_of_find?_eq_some ht, hurn, hsame⟩, (Except.ok.inj h).symm⟩
    · cases h

theorem addSpec_of_new (h : s.urn ∉ specs.map Spec.urn) : addSpec specs s = .ok (specs ++ [s]) := by
  have hnone : (specs.find? fun t => t.urn == s.urn) = none := by
    rw [List.find?_eq_none]
    intro t ht hurn
    exact h (List.mem_map.mpr ⟨t, ht, beq_iff_eq.mp hurn⟩)
  rw [addSpec, hnone]

theorem foldlM_addSpec (specs : List Spec) {later : List Spec}
    (h : ((specs ++ later).map Spec.urn).Nodup) :
    later.foldlM addSpec specs = .ok (specs ++ later) := by
  induction later generalizing specs with
  | nil => rw [List.append_nil]; rfl
  | cons s later ih =>
    have hnew : s.urn ∉ specs.map Spec.urn := by
      rw [List.map_append, List.nodup_append'] at h
      exact fun hmem => h.2.2 hmem List.mem_cons_self
    rw [List.append_cons] at h ⊢
    rw [List.foldlM_cons, addSpec_of_new hnew]
    exact ih _ h

theorem collectSpecs_singleton {d : Declaration} (h : d.ingest config = .ok specs)
    (hnodup : (specs.map Spec.urn).Nodup) : collectSpecs [d] config = .ok specs := by
  refine bind_eq_ok.mpr ⟨specs, bind_eq_ok.mpr ⟨specs, h, ?_⟩, rfl⟩
  exact foldlM_addSpec [] hnodup

theorem collectSpecs_invariant (P : List Spec → Prop)
    (h : collectSpecs declarations config = .ok specs) (hnil : P [])
    (hadd : ∀ specs s, P specs → s.urn ∉ specs.map Spec.urn →
      (∃ d ∈ declarations, ∃ own, d.ingest config = .ok own ∧ s ∈ own) → P (specs ++ [s])) :
    P specs := by
  refine foldlM_invariant P (fun specs d hd specs' hstep hspecs => ?_) h hnil
  obtain ⟨own, hown, hfold⟩ := bind_eq_ok.mp hstep
  refine foldlM_invariant P (fun specs s hs specs' hstep hspecs => ?_) hfold hspecs
  rcases addSpec_cases hstep with ⟨hnew, rfl⟩ | ⟨-, rfl⟩
  · exact hadd specs s hspecs hnew ⟨d, hd, own, hown, hs⟩
  · exact hspecs

theorem nodup_collectSpecs (h : collectSpecs declarations config = .ok specs) :
    (specs.map Spec.urn).Nodup := by
  refine collectSpecs_invariant (fun specs => (specs.map Spec.urn).Nodup) h .nil ?_
  intro specs s hspecs hnew _
  rw [List.map_append, List.map_singleton]
  exact List.nodup_append_comm.mp (List.nodup_cons.mpr ⟨hnew, hspecs⟩)

theorem parent?_mem_collectSpecs (h : collectSpecs declarations config = .ok specs)
    (hs : s ∈ specs) {p : Urn} (hp : s.urn.parent? = some p) : p ∈ s.dependencies := by
  have hall : ∀ s ∈ specs, ∀ p, s.urn.parent? = some p → p ∈ s.dependencies := by
    refine collectSpecs_invariant
      (fun specs => ∀ s ∈ specs, ∀ p, s.urn.parent? = some p → p ∈ s.dependencies) h
      (fun _ hs => nomatch hs) ?_
    rintro specs s hspecs - ⟨d, -, own, hown, hs⟩ t ht p hp
    rcases List.mem_append.mp ht with ht | ht
    · exact hspecs t ht p hp
    · obtain rfl := List.mem_singleton.mp ht
      exact Declaration.parent?_mem_of_ingest hown hs hp
  exact hall s hs p hp

/-! ## The dependency relation -/

def DependsOn (specs : List Spec) (u v : Urn) : Prop :=
  ∃ s ∈ specs, s.urn = u ∧ v ∈ s.dependencies ∧ v ∈ specs.map Spec.urn

theorem find?_of_mem (hnodup : (specs.map Spec.urn).Nodup) (hs : s ∈ specs) :
    (specs.find? fun t => t.urn == s.urn) = some s := by
  cases hfind : specs.find? fun t => t.urn == s.urn with
  | none =>
    have := List.find?_eq_none.mp hfind s hs
    simp at this
  | some t =>
    have hurn : t.urn = s.urn := by simpa using List.find?_some hfind
    rw [List.inj_on_of_nodup_map hnodup (List.mem_of_find?_eq_some hfind) hs hurn]

theorem needs_of_mem (hnodup : (specs.map Spec.urn).Nodup) (hs : s ∈ specs) :
    needs specs s.urn = (s.dependencies.filter (isDeclared specs)).elements := by
  rw [needs, find?_of_mem hnodup hs]

theorem needs_eq_dependsOn (hnodup : (specs.map Spec.urn).Nodup) :
    Needs (needs specs) = DependsOn specs := by
  funext u v
  refine propext ⟨fun h => ?_, ?_⟩
  · have h : v ∈ needs specs u := h
    rw [needs] at h
    split at h
    next s hfind =>
      obtain ⟨hv, hdecl⟩ := SortedSet.mem_filter.mp (SortedSet.mem_def.mpr h)
      have hurn : s.urn = u := by simpa using List.find?_some hfind
      exact ⟨s, List.mem_of_find?_eq_some hfind, hurn, hv, isDeclared_iff.mp hdecl⟩
    · cases h
  · intro hdep
    obtain ⟨s, hs, rfl, hv, hdecl⟩ := hdep
    show v ∈ needs specs s.urn
    rw [needs_of_mem hnodup hs]
    exact SortedSet.mem_filter.mpr ⟨hv, isDeclared_iff.mpr hdecl⟩

theorem closed_needs (hnodup : (specs.map Spec.urn).Nodup) :
    Closed (needs specs) (specs.map Spec.urn) := by
  intro u _ v hv
  have hdep : DependsOn specs u v := by
    rw [← needs_eq_dependsOn hnodup]
    exact hv
  obtain ⟨s, -, -, -, hdecl⟩ := hdep
  exact hdecl

end ResourceGraph
end Reconcile
