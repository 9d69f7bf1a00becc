import Reconcile.Proofs.Diff.Alike
import Reconcile.Proofs.Diff.Confinement
import Reconcile.Proofs.Diff.Convergence
import Reconcile.Proofs.Diff.References
import Reconcile.Proofs.Graph.Origin
import Reconcile.Proofs.Plan
/-!
Plans for declarations in another order.  Main statement: `plan_ignores_order`, the same
declarations, in whatever order and however often, have the same plan up to the signs of zeros, and
exactly the same one if they leave no sign open.
-/

namespace Reconcile

open Fallible Reconcile.Lists

namespace Plan

variable {p q : Plan}

theorem ext (h : p.changes = q.changes) : p = q := by
  cases p
  cases q
  cases h
  rfl

def key (c : Change) : Nat × Urn := (c.level, c.urn)

theorem pairwise_key (p : Plan) :
    (p.changes.map key).Pairwise fun a b => (SortedMap.entryOrder a b).isLE :=
  List.pairwise_map.mpr p.ordered

theorem nodup_map_key (hp : (p.changes.map Change.urn).Nodup) : (p.changes.map key).Nodup := by
  refine List.Nodup.of_map Prod.snd ?_
  rw [List.map_map]
  exact hp

/-- Changes that go together stand in the same places, as a plan orders them by their levels and
addresses. -/
theorem forall₂_of_matched (hp : (p.changes.map Change.urn).Nodup)
    (hq : (q.changes.map Change.urn).Nodup) (h : Matched Change.Alike p.changes q.changes) :
    List.Forall₂ Change.Alike p.changes q.changes := by
  have hkeys : p.changes.map key = q.changes.map key := by
    have hperm : (p.changes.map key).Perm (q.changes.map key) :=
      (List.perm_ext_iff_of_nodup (nodup_map_key hp) (nodup_map_key hq)).mpr fun k =>
        h.mem_map_iff fun c d hcd => Prod.ext hcd.level hcd.urn
    have := SortedMap.entryOrder_trans (κ := Nat) (α := Urn)
    have := SortedMap.entryOrder_lawful (κ := Nat) (α := Urn)
    refine hperm.eq_of_pairwise (fun a b _ _ hab hba => ?_) p.pairwise_key q.pairwise_key
    exact Std.LawfulEqCmp.eq_of_compare (Std.OrientedCmp.isLE_antisymm hab hba)
  have hplaces : List.Forall₂ (fun c d => key c = key d) p.changes q.changes := by
    have heq : List.Forall₂ (· = ·) (p.changes.map key) (q.changes.map key) :=
      hkeys ▸ List.forall₂_refl _
    exact List.forall₂_map_left_iff.mp (List.forall₂_map_right_iff.mp heq)
  refine forall₂_imp_of_mem hplaces fun c hc d hd hcd => ?_
  obtain ⟨d', hd', halike⟩ := h.left c hc
  have hurn : d'.urn = d.urn := halike.urn.symm.trans (congrArg Prod.snd hcd)
  obtain rfl := List.inj_on_of_nodup_map hq hd' hd hurn
  exact halike

end Plan

/-! ## Graphs that differ in the signs of zeros -/

namespace Fetch

open ResourceGraph

variable {g g' : ResourceGraph} {config : Config} {objects : Snapshot}
  (h : Matched Node.Alike g.nodes g'.nodes)

include h

theorem types_of_alike : types g config = types g' config := by
  rw [types, types, ResourceGraph.types_of_alike h, externalReferences_of_alike h]

theorem grantees_of_alike : grantees g config objects = grantees g' config objects := by
  have hdeclared : SortedSet.ofList ((g.nodes.filter fun n => n.urn.type.isGrant).filterMap
      fun n => n.urn.grantee?) = .ofList ((g'.nodes.filter fun n =>
        n.urn.type.isGrant).filterMap fun n => n.urn.grantee?) := by
    refine SortedSet.ext_mem fun u => ?_
    simp only [SortedSet.mem_ofList, List.mem_filterMap, List.mem_filter, and_assoc]
    exact h.exists_iff fun n m hnm => by rw [hnm.urn]
  rw [grantees, grantees, hdeclared]

theorem containers_of_alike : containers g config objects = containers g' config objects := by
  have hdeclared : SortedSet.ofList (g.nodes.filterMap fun n => do
      (Urn.ofReference config.account (← n.urn.param? "in")).toOption) =
      .ofList (g'.nodes.filterMap fun n => do
        (Urn.ofReference config.account (← n.urn.param? "in")).toOption) := by
    refine SortedSet.ext_mem fun u => ?_
    simp only [SortedSet.mem_ofList, List.mem_filterMap]
    exact h.exists_iff fun n m hnm => by rw [hnm.urn]
  rw [containers, containers, hdeclared]

theorem snapshot_of_alike (registry : Registry) (source : Source) :
    snapshot g registry config source = snapshot g' registry config source := by
  have hread : read g registry config source = read g' registry config source := by
    unfold read
    simp only [types_of_alike h, grantees_of_alike h, containers_of_alike h]
  rw [snapshot, snapshot, hread]

end Fetch

namespace Diff

open ResourceGraph

variable {g g' : ResourceGraph} {snapshot : Snapshot} {registry : Registry} {config : Config}
  {p : Plan} (h : Matched Node.Alike g.nodes g'.nodes)

include h

theorem existsImplicitly_of_alike (u : Urn) :
    existsImplicitly u g snapshot = existsImplicitly u g' snapshot := by
  unfold existsImplicitly
  rw [contains_of_alike h]

theorem checkReferences_of_alike (hg : checkReferences g snapshot = .ok ()) :
    checkReferences g' snapshot = .ok () := by
  rw [checkReferences_eq_ok_iff] at hg ⊢
  intro m hm r hr
  obtain ⟨n, hn, hnm⟩ := h.right m hm
  have hresolved := hg n hn r (hnm.external ▸ hr)
  rwa [isResolved, existsImplicitly_of_alike h] at hresolved

theorem removals_of_alike (base : Nat) :
    removals g snapshot registry config base = removals g' snapshot registry config base := by
  have hcandidate : isCandidate g config = isCandidate g' config := by
    funext u
    rw [isCandidate, isCandidate, contains_of_alike h, externalReferences_of_alike h]
  rw [removals, removals, candidates, candidates, hcandidate]

theorem exists_nodeChanges_of_alike {changes : List Change}
    (hg : nodeChanges g snapshot registry config = .ok changes) :
    ∃ changes', nodeChanges g' snapshot registry config = .ok changes' ∧
      Matched Change.Alike changes changes' := by
  have hchanges := nodeChanges_eq_ok_iff.mp hg
  have hchange (n m : Node) (c : Change) (hnm : n.Alike m)
      (hc : registry.require n.urn.type = .ok () ∧
        nodeChange n (remoteState n.urn g snapshot) config = .ok c) :
      ∃ d, (registry.require m.urn.type = .ok () ∧
        nodeChange m (remoteState m.urn g' snapshot) config = .ok d) ∧ c.Alike d := by
    obtain ⟨hrequire, hc⟩ := hc
    obtain ⟨d, hd, hcd⟩ := exists_nodeChange_of_alike hnm hc
    rw [hnm.urn] at hrequire
    rw [remoteState, existsImplicitly_of_alike h, hnm.urn] at hd
    exact ⟨d, ⟨hrequire, hd⟩, hcd⟩
  have hall : ∀ m ∈ g'.nodes, ∃ d, (do
      registry.require m.urn.type
      nodeChange m (remoteState m.urn g' snapshot) config) = .ok d := by
    intro m hm
    obtain ⟨n, hn, hnm⟩ := h.right m hm
    obtain ⟨c, -, hc⟩ := exists_right_of_forall₂ hchanges hn
    obtain ⟨d, ⟨hrequire, hd⟩, -⟩ := hchange n m c hnm hc
    exact ⟨d, bind_eq_ok.mpr ⟨(), hrequire, hd⟩⟩
  obtain ⟨changes', hg'⟩ := exists_mapM_eq_ok hall
  have hchanges' := nodeChanges_eq_ok_iff.mp hg'
  refine ⟨changes', hg', fun c hc => ?_, fun d hd => ?_⟩
  · obtain ⟨n, hn, hnc⟩ := exists_left_of_forall₂ hchanges hc
    obtain ⟨m, hm, hnm⟩ := h.left n hn
    obtain ⟨d, hd, -, hmd⟩ := exists_right_of_forall₂ hchanges' hm
    obtain ⟨d', ⟨-, hmd'⟩, hcd⟩ := hchange n m c hnm hnc
    obtain rfl := Except.ok.inj (hmd'.symm.trans hmd)
    exact ⟨d', hd, hcd⟩
  · obtain ⟨m, hm, -, hmd⟩ := exists_left_of_forall₂ hchanges' hd
    obtain ⟨n, hn, hnm⟩ := h.right m hm
    obtain ⟨c, hc, hnc⟩ := exists_right_of_forall₂ hchanges hn
    obtain ⟨d', ⟨-, hmd'⟩, hcd⟩ := hchange n m c hnm hnc
    obtain rfl := Except.ok.inj (hmd'.symm.trans hmd)
    exact ⟨c, hc, hcd⟩

theorem exists_plan_of_alike (hp : plan g snapshot registry config = .ok p) :
    ∃ q, plan g' snapshot registry config = .ok q ∧ Matched Change.Alike p.changes q.changes := by
  obtain ⟨hreferences, changes, hchanges, gone, hgone, rfl⟩ := plan_eq_ok_iff.mp hp
  obtain ⟨changes', hchanges', hmatched⟩ := exists_nodeChanges_of_alike h hchanges
  rw [removals_of_alike h, height_of_alike h] at hgone
  refine ⟨_, plan_eq_ok_iff.mpr ⟨checkReferences_of_alike h hreferences, changes', hchanges', gone,
    hgone, rfl⟩, fun c hc => ?_, fun d hd => ?_⟩
  · rcases List.mem_append.mp (mem_ofChanges.mp hc) with hc | hc
    · obtain ⟨d, hd, hcd⟩ := hmatched.left c hc
      exact ⟨d, mem_ofChanges.mpr (List.mem_append_left _ hd), hcd⟩
    · exact ⟨c, mem_ofChanges.mpr (List.mem_append_right _ hc), .refl c⟩
  · rcases List.mem_append.mp (mem_ofChanges.mp hd) with hd | hd
    · obtain ⟨c, hc, hcd⟩ := hmatched.right d hd
      exact ⟨c, mem_ofChanges.mpr (List.mem_append_left _ hc), hcd⟩
    · exact ⟨d, mem_ofChanges.mpr (List.mem_append_right _ hd), .refl d⟩

end Diff

/-! ## Manifests in another order -/

namespace Reconciler

open ResourceGraph Diff

variable {r : Reconciler} {ds es : List Declaration} {source : Source} {g g' : ResourceGraph}
  {p q : Plan}

theorem checkEdition_eq_ok_iff : r.checkEdition g = .ok () ↔
    (r.config.edition = .standard → ∀ n ∈ g.nodes, r.registry.require n.urn.type = .ok () ∧
      n.urn.type.enterpriseFeatures n.properties = []) := by
  rw [checkEdition]
  split
  next hstandard =>
    rw [forM_eq_ok_iff, imp_iff_right hstandard]
    refine forall₂_congr fun n _ => ?_
    rw [bind_eq_ok, exists_unit_iff]
    refine and_congr_right fun _ => ?_
    cases n.urn.type.enterpriseFeatures n.properties with
    | nil => exact iff_of_true rfl rfl
    | cons feature _ =>
      refine iff_of_false (fun h => ?_) (List.cons_ne_nil _ _)
      cases h
  next hother => exact iff_of_true rfl fun h => absurd h hother

theorem exists_buildGraph_of_rearranged (hes : ∀ d, d ∈ es ↔ d ∈ ds)
    (h : r.buildGraph ds = .ok g) :
    ∃ g', r.buildGraph es = .ok g' ∧ Matched Node.Alike g.nodes g'.nodes := by
  obtain ⟨hbuild, hscope, hedition⟩ := buildGraph_eq_ok_iff.mp h
  obtain ⟨g', hbuild', hmatched⟩ := exists_build_of_rearranged hes hbuild
  refine ⟨g', buildGraph_eq_ok_iff.mpr ⟨hbuild', ?_, ?_⟩, hmatched⟩
  · rw [checkScope_eq_ok_iff] at hscope ⊢
    intro m hm
    obtain ⟨n, hn, hnm⟩ := hmatched.right m hm
    exact hnm.urn ▸ hscope n hn
  · rw [checkEdition_eq_ok_iff] at hedition ⊢
    intro hstandard m hm
    obtain ⟨n, hn, hnm⟩ := hmatched.right m hm
    obtain ⟨hrequire, hfeatures⟩ := hedition hstandard n hn
    rw [hnm.urn] at hrequire hfeatures
    rw [← ResourceType.enterpriseFeatures_unsigned, hnm.properties,
      ResourceType.enterpriseFeatures_unsigned] at hfeatures
    exact ⟨hrequire, hfeatures⟩

theorem exists_plan_of_rearranged (hes : ∀ d, d ∈ es ↔ d ∈ ds) (h : r.plan ds source = .ok p) :
    ∃ q, r.plan es source = .ok q ∧ List.Forall₂ Change.Alike p.changes q.changes := by
  obtain ⟨g, hg, snapshot, hfetch, hplan⟩ := plan_eq_ok_iff.mp h
  obtain ⟨g', hg', hmatched⟩ := exists_buildGraph_of_rearranged hes hg
  obtain ⟨q, hplan', hchanges⟩ := exists_plan_of_alike hmatched hplan
  have hfetch' : r.fetch g' source = .ok snapshot := by
    rw [fetch, ← Fetch.snapshot_of_alike hmatched]
    exact hfetch
  have hwf := wellFormed_of_build (buildGraph_eq_ok_iff.mp hg).1
  have hwf' := wellFormed_of_build (buildGraph_eq_ok_iff.mp hg').1
  exact ⟨q, plan_eq_ok_iff.mpr ⟨g', hg', snapshot, hfetch', hplan'⟩,
    Plan.forall₂_of_matched (nodup_urns hwf hplan) (nodup_urns hwf' hplan') hchanges⟩

/-! ## Signs of zeros -/

theorem after_of_nodeChange {n : Node} {remote : Option Properties} {config : Config} {c : Change}
    (h : nodeChange n remote config = .ok c) :
    c.after = some (n.urn.type.canonical n.properties) := by
  obtain ⟨step, -, rfl⟩ := nodeChange_eq_ok_iff.mp h
  rfl

variable {said : List Spec} {c : Change}

theorem exists_said_of_plan (h : r.plan ds source = .ok p) :
    ∃ said, ingestAll ds r.config = .ok said ∧ Consistent said := by
  obtain ⟨g, hg, -⟩ := plan_eq_ok_iff.mp h
  obtain ⟨specs, hspecs, -⟩ := bind_eq_ok.mp (buildGraph_eq_ok_iff.mp hg).1
  exact exists_collectSpecs_iff.mp ⟨specs, hspecs⟩

theorem exists_said_of_after (h : r.plan ds source = .ok p)
    (hsaid : ingestAll ds r.config = .ok said) (hc : c ∈ p.changes) {v : Properties}
    (hafter : c.after = some v) :
    ∃ s ∈ said, s.urn = c.urn ∧ v = s.urn.type.canonical s.properties := by
  obtain ⟨g, hg, snapshot, -, hplan⟩ := plan_eq_ok_iff.mp h
  rcases change_cases hplan hc with ⟨n, hn, hnc⟩ | ⟨record, -, -, -, _, _, hremoved⟩
  · obtain ⟨d, hd, own, hown, s, hs, hurn, hproperties, -⟩ :=
      exists_ingest_of_mem_nodes (buildGraph_eq_ok_iff.mp hg).1 hn
    refine ⟨s, (mem_ingestAll_iff hsaid).mpr ⟨d, hd, own, hown, hs⟩, ?_, ?_⟩
    · rw [urn_of_nodeChange hnc, hurn]
    · rw [after_of_nodeChange hnc] at hafter
      rw [← Option.some.inj hafter, hurn, hproperties]
  · obtain ⟨_, -, rfl⟩ := removalChange_eq_ok_iff.mp hremoved
    cases hafter

/-- What the declarations say of each resource agrees down to the signs of zeros. -/
def AgreesOnSigns (declarations : List Declaration) (config : Config) : Prop :=
  ∀ said, ingestAll declarations config = .ok said → ∀ s ∈ said, ∀ t ∈ said, s.urn = t.urn →
    s.urn.type.canonical s.properties = t.urn.type.canonical t.properties

theorem plan_of_rearranged (hagree : AgreesOnSigns ds r.config) (hes : ∀ d, d ∈ es ↔ d ∈ ds)
    (h : r.plan ds source = .ok p) : r.plan es source = .ok p := by
  obtain ⟨q, hq, halike⟩ := exists_plan_of_rearranged hes h
  obtain ⟨said, hsaid, -⟩ := exists_said_of_plan h
  obtain ⟨said', hsaid', hmem⟩ := exists_ingestAll_of_rearranged hes hsaid
  have hsame : List.Forall₂ (· = ·) p.changes q.changes := by
    refine forall₂_imp_of_mem halike fun c hc d hd hcd => hcd.exact ?_
    have hafter := hcd.after
    cases hv : c.after with
    | none =>
      rw [hv] at hafter
      exact (Option.map_eq_none_iff.mp hafter.symm).symm
    | some v =>
      rw [hv] at hafter
      obtain ⟨w, hw, -⟩ := Option.map_eq_some_iff.mp hafter.symm
      obtain ⟨s, hs, hsurn, rfl⟩ := exists_said_of_after h hsaid hc hv
      obtain ⟨t, ht, hturn, rfl⟩ := exists_said_of_after hq hsaid' hd hw
      have hurn : s.urn = t.urn := hsurn.trans (hcd.urn.trans hturn.symm)
      rw [hw, hagree said hsaid s hs t ((hmem t).mp ht) hurn]
  have hchanges : p.changes = q.changes := by
    rwa [List.forall₂_eq_eq_eq] at hsame
  rwa [Plan.ext hchanges]

theorem exists_change_of_first {d : Declaration} {own : List Spec} {s : Spec}
    (h : r.plan (d :: ds) source = .ok p) (hown : d.ingest r.config = .ok own) (hs : s ∈ own)
    (hgrant : ¬ s.urn.type.isGrant) :
    ∃ c ∈ p.changes, c.urn = s.urn ∧ c.after = some (s.urn.type.canonical s.properties) := by
  obtain ⟨g, hg, snapshot, -, hplan⟩ := plan_eq_ok_iff.mp h
  obtain ⟨specs, hspecs, hgraph⟩ := bind_eq_ok.mp (buildGraph_eq_ok_iff.mp hg).1
  obtain ⟨said, hsaid, hfirst⟩ := exists_ingestAll hspecs
  obtain ⟨all, hall, rfl⟩ := ingestAll_eq_ok_iff.mp hsaid
  obtain ⟨own', hown', rest, -, rfl⟩ := mapM_cons_eq_ok.mp hall
  obtain rfl := Except.ok.inj (hown'.symm.trans hown)
  have hmem : s ∈ (own' :: rest).flatten := List.mem_append_left _ hs
  obtain ⟨first, hfirstmem, hurn⟩ := List.mem_map.mp (hfirst.mem_iff.mpr (List.mem_map_of_mem hmem))
  have hmemown := hfirst.mem_of_urn_eq hfirstmem hs hurn
  have hobject := Declaration.ingestObject_of_ingest hown hs hgrant
  obtain ⟨_, _, -, -, -, hproperties, -⟩ := Declaration.exists_of_ingestObject hobject hs
  obtain ⟨_, _, -, -, -, hproperties', -⟩ := Declaration.exists_of_ingestObject hobject hmemown
  obtain ⟨n, hn, hnode⟩ := exists_right_of_forall₂ (forall₂_of_ofSpecs hgraph) hfirstmem
  obtain ⟨c, hc, hnc⟩ := exists_nodeChange hplan hn
  refine ⟨c, hc, ?_, ?_⟩
  · rw [urn_of_nodeChange hnc, hnode.urn, hurn]
  · rw [after_of_nodeChange hnc, hnode.urn, hnode.properties, hurn, hproperties', hproperties]

theorem nodup_urns_of_plan (h : r.plan ds source = .ok p) : (p.changes.map Change.urn).Nodup := by
  obtain ⟨g, hg, snapshot, -, hplan⟩ := plan_eq_ok_iff.mp h
  exact nodup_urns (wellFormed_of_build (buildGraph_eq_ok_iff.mp hg).1) hplan

/-- Every declaration can be put first, so that what it says shows in the plan. -/
theorem agreesOnSigns_of_plan (h : r.plan ds source = .ok p)
    (hall : ∀ es, (∀ d, d ∈ es ↔ d ∈ ds) → r.plan es source = .ok p) :
    AgreesOnSigns ds r.config := by
  intro said hsaid s hs t ht hurn
  have hspeaks {s : Spec} (hs : s ∈ said) (hgrant : ¬ s.urn.type.isGrant) :
      ∃ c ∈ p.changes, c.urn = s.urn ∧ c.after = some (s.urn.type.canonical s.properties) := by
    obtain ⟨d, hd, own, hown, hs⟩ := (mem_ingestAll_iff hsaid).mp hs
    refine exists_change_of_first (hall (d :: ds) fun e => ?_) hown hs hgrant
    rw [List.mem_cons]
    exact or_iff_right_of_imp fun he => he ▸ hd
  by_cases hgrant : s.urn.type.isGrant
  · obtain ⟨said', hsaid', hconsistent⟩ := exists_said_of_plan h
    obtain rfl := Except.ok.inj (hsaid'.symm.trans hsaid)
    have hfixed {s : Spec} (hs : s ∈ said') (hgrant : s.urn.type.isGrant) :
        s.properties.unsigned = s.properties := by
      obtain ⟨d, -, own, hown, hs⟩ := (mem_ingestAll_iff hsaid).mp hs
      exact (Declaration.isGrantSpec_of_ingest hown hs hgrant).unsigned_properties
    have hsame := (Spec.same_iff.mp (hconsistent s hs t ht hurn)).2.1
    rw [hfixed hs hgrant, hfixed ht (hurn ▸ hgrant)] at hsame
    rw [hurn, hsame]
  · obtain ⟨c, hc, hcurn, hcafter⟩ := hspeaks hs hgrant
    obtain ⟨d, hd, hdurn, hdafter⟩ := hspeaks ht (hurn ▸ hgrant)
    have hcd : c.urn = d.urn := hcurn.trans (hurn.trans hdurn.symm)
    obtain rfl := List.inj_on_of_nodup_map (nodup_urns_of_plan h) hc hd hcd
    exact Option.some.inj (hcafter.symm.trans hdafter)

/-- The same declarations, in whatever order and however often, either have no plan or have plans
with the same changes up to the signs of zeros in what is set.  The plan is always the same exactly
if the declarations leave no sign of a zero open. -/
theorem plan_ignores_order (r : Reconciler) (source : Source) (ds : List Declaration) :
    (∀ es, (∀ d, d ∈ es ↔ d ∈ ds) →
      (∃ e e', r.plan ds source = .error e ∧ r.plan es source = .error e') ∨
      ∃ p q, r.plan ds source = .ok p ∧ r.plan es source = .ok q ∧
        List.Forall₂ Change.Alike p.changes q.changes) ∧
    ∀ p, r.plan ds source = .ok p →
      ((∀ es, (∀ d, d ∈ es ↔ d ∈ ds) → r.plan es source = .ok p) ↔
        AgreesOnSigns ds r.config) := by
  refine ⟨fun es hes => ?_, fun p h => ⟨agreesOnSigns_of_plan h,
    fun hagree es hes => plan_of_rearranged hagree hes h⟩⟩
  cases h : r.plan ds source with
  | ok p =>
    obtain ⟨q, hq, halike⟩ := exists_plan_of_rearranged hes h
    exact .inr ⟨p, q, rfl, hq, halike⟩
  | error e =>
    cases h' : r.plan es source with
    | error e' => exact .inl ⟨e, e', rfl, rfl⟩
    | ok q =>
      obtain ⟨p, hp, -⟩ := exists_plan_of_rearranged (fun d => (hes d).symm) h'
      rw [h] at hp
      cases hp

/-! ## A warehouse with a zero -/

def suspending (zero : Decimal.Binary64) : Declaration where
  type := .warehouse
  name := "WH"
  container := []
  properties := SortedMap.empty.insert "auto_suspend" (.number (.real zero))
  references := .empty

def emptyDatabase : Declaration where
  type := .database
  name := "DB"
  container := []
  properties := .empty
  references := .empty

def specOf (d : Declaration) : Spec := ⟨.ofNames "A" d.type [] d.name, d.properties, .empty⟩

def creationOf (d : Declaration) (sql : String) : Change :=
  changeOf ⟨.ofNames "A" d.type [] d.name, d.properties, .empty, .empty, 0⟩ none plain.config
    { action := .add, statements := [⟨"SYSADMIN", sql⟩] }

def addsSuspending (zero : Decimal.Binary64) (text : String) : Change :=
  creationOf (suspending zero) ("CREATE WAREHOUSE WH AUTO_SUSPEND = " ++ text)

def zeros : List Declaration := [suspending (.zero false), suspending (.zero true)]

/-- Of zeros of different signs the warehouse is created with the one that is declared first. -/
theorem creates_first_zero : (∀ d, d ∈ zeros.reverse ↔ d ∈ zeros) ∧ ∃ p q,
    plain.plan zeros (.static [] none) = .ok p ∧
    plain.plan zeros.reverse (.static [] none) = .ok q ∧ p ≠ q := by
  refine ⟨fun d => List.mem_reverse, ?_⟩
  refine ⟨.ofChanges [addsSuspending (.zero false) "0.0"],
    .ofChanges [addsSuspending (.zero true) "-0.0"], by rfl, by rfl, fun heq => ?_⟩
  have hmem : addsSuspending (.zero false) "0.0" ∈
      (Plan.ofChanges [addsSuspending (.zero true) "-0.0"]).changes :=
    heq ▸ mem_ofChanges.mpr List.mem_cons_self
  have hsame := List.mem_singleton.mp (mem_ofChanges.mp hmem)
  have hstatements := congrArg Change.statements hsame
  revert hstatements
  decide

def signed : List Declaration := [emptyDatabase, suspending (.zero true)]

def signedPlan : Plan :=
  .ofChanges [creationOf emptyDatabase "CREATE DATABASE DB", addsSuspending (.zero true) "-0.0"]

theorem plan_signed : plain.plan signed (.static [] none) = .ok signedPlan := by rfl

theorem agreesOnSigns_signed : AgreesOnSigns signed plain.config := by
  intro said hsaid s hs t ht hurn
  have hsaid' : ingestAll signed plain.config =
      .ok [specOf emptyDatabase, specOf (suspending (.zero true))] := by rfl
  obtain rfl := Except.ok.inj (hsaid'.symm.trans hsaid)
  have hnodup : ([specOf emptyDatabase, specOf (suspending (.zero true))].map Spec.urn).Nodup := by
    decide
  rw [List.inj_on_of_nodup_map hnodup hs ht hurn]

theorem plan_signed_again : AgreesOnSigns signed plain.config ∧
    plain.plan [suspending (.zero true), emptyDatabase, suspending (.zero true)]
      (.static [] none) = .ok signedPlan := by
  have hsame : ∀ d, d ∈ [suspending (.zero true), emptyDatabase, suspending (.zero true)] ↔
      d ∈ signed := by
    intro d
    simp only [signed, List.mem_cons, List.not_mem_nil, or_false]
    tauto
  exact ⟨agreesOnSigns_signed, ((plan_ignores_order plain (.static [] none) signed).2 signedPlan
    plan_signed).mpr agreesOnSigns_signed _ hsame⟩

end Reconciler
end Reconcile
