import Reconcile.Proofs.Diff.Perform
import Reconcile.Proofs.Diff.Settled
/-!
Planning again after some of the changes were carried out.  Main statement: `plan_after_perform`,
what was carried out is settled and the rest is planned as before.
-/

namespace Reconcile
namespace Diff

open ResourceGraph Snapshot Fallible

variable {graph : ResourceGraph} {snapshot : Snapshot} {registry : Registry} {config : Config}
  {p q : Plan} {done : List Change}

section

variable (hwf : graph.WellFormed) (hplan : plan graph snapshot registry config = .ok p)

include hwf hplan in
theorem eq_of_urn_eq {c d : Change} (hc : c ∈ p.changes) (hd : d ∈ p.changes)
    (h : d.urn = c.urn) : d = c :=
  List.inj_on_of_nodup_map (nodup_urns hwf hplan) hd hc h

include hplan in
theorem urn_cases {c : Change} (hc : c ∈ p.changes) :
    c.urn ∈ graph.nodes.map Node.urn ∨ c.after = none ∧ isCandidate graph config c.urn := by
  rcases change_cases hplan hc with ⟨n, hn, hnc⟩ | ⟨r, -, hcand, -, _, _, hrc⟩
  · obtain ⟨step, -, rfl⟩ := nodeChange_eq_ok_iff.mp hnc
    exact .inl (List.mem_map_of_mem hn)
  · obtain ⟨_, -, rfl⟩ := removalChange_eq_ok_iff.mp hrc
    exact .inr ⟨rfl, hcand⟩

variable (hdone : done ⊆ p.changes)

include hwf hplan hdone in
theorem get?_perform_of_done {c : Change} (hc : c ∈ done) :
    (snapshot.perform done).get? c.urn = c.after :=
  get?_perform_of_mem snapshot hc fun _ hd hurn =>
    eq_of_urn_eq hwf hplan (hdone hc) (hdone hd) hurn

include hwf hplan hdone in
theorem get?_perform_of_not_done {c : Change} (hc : c ∈ p.changes) (hnot : c ∉ done) :
    (snapshot.perform done).get? c.urn = snapshot.get? c.urn := by
  refine get?_perform_of_forall_ne snapshot fun d hd hurn => ?_
  have heq := eq_of_urn_eq hwf hplan hc (hdone hd) hurn
  exact hnot (heq ▸ hd)

/-! ## Declared resources -/

include hwf hplan hdone in
theorem get?_perform_of_external {u : Urn} (hu : u ∈ graph.externalReferences) :
    (snapshot.perform done).get? u = snapshot.get? u := by
  refine get?_perform_of_forall_ne snapshot fun c hc hurn => ?_
  subst hurn
  rcases urn_cases hplan (hdone hc) with hnode | ⟨-, hcand⟩
  · obtain ⟨n, hn, hext⟩ := mem_externalReferences_iff.mp hu
    exact hwf.undeclared n hn _ hext hnode
  · exact (isCandidate_iff.mp hcand).2.2.1 (SortedSet.contains_iff.mpr hu)

include hwf hplan hdone in
theorem existsImplicitly_perform {n : Node} (hn : n ∈ graph.nodes) :
    existsImplicitly n.urn graph (snapshot.perform done) =
      existsImplicitly n.urn graph snapshot := by
  unfold existsImplicitly
  cases htype : n.urn.type with
  | schema =>
    cases hparent : n.urn.parent? with
    | none => rfl
    | some db =>
      -- The database is declared, or left alone.
      rcases hwf.wants_parent (List.mem_map_of_mem hn) hparent with hnode | hext
      · have hdb : graph.contains db = true := contains_iff.mpr hnode
        simp only [Option.any_some, hdb, Bool.true_or]
      · have hdb : (snapshot.perform done).contains db = snapshot.contains db :=
          congrArg Option.isSome (get?_perform_of_external hwf hplan hdone hext)
        simp only [Option.any_some, hdb]
  | _ => rfl

include hwf hplan hdone in
theorem nodeChange_of_not_done {n : Node} (hn : n ∈ graph.nodes) {c : Change}
    (hc : c ∈ p.changes) (hnc : nodeChange n (remoteState n.urn graph snapshot) config = .ok c)
    (hnot : c ∉ done) :
    nodeChange n (remoteState n.urn graph (snapshot.perform done)) config = .ok c := by
  have hurn := urn_of_nodeChange hnc
  have hget := get?_perform_of_not_done hwf hplan hdone hc hnot
  rw [hurn] at hget
  have hremote : remoteState n.urn graph (snapshot.perform done) =
      remoteState n.urn graph snapshot := by
    rw [remoteState, remoteState, hget, existsImplicitly_perform hwf hplan hdone hn]
  rw [hremote]
  exact hnc

include hwf hplan hdone in
theorem nodeChange_of_done {n : Node} {c : Change}
    (hnc : nodeChange n (remoteState n.urn graph snapshot) config = .ok c) (hc : c ∈ done) :
    nodeChange n (remoteState n.urn graph (snapshot.perform done)) config =
      .ok (changeOf n (some (n.urn.type.canonical n.properties)) config { action := .noop }) := by
  have hget := get?_perform_of_done hwf hplan hdone hc
  obtain ⟨step, -, rfl⟩ := nodeChange_eq_ok_iff.mp hnc
  have hget : (snapshot.perform done).get? n.urn = some (n.urn.type.canonical n.properties) :=
    hget
  have hremote : remoteState n.urn graph (snapshot.perform done) =
      some (n.urn.type.canonical n.properties) := by
    rw [remoteState, hget]
    rfl
  rw [hremote]
  exact nodeChange_settled config (ResourceType.canonical_canonical _ _)

include hwf hplan in
theorem get?_eq_some {c : Change} (hc : c ∈ p.changes) : p.get? c.urn = some c := by
  unfold Plan.get?
  cases hfind : p.changes.find? fun d => d.urn == c.urn with
  | none =>
    have hne := List.find?_eq_none.mp hfind c hc
    simp at hne
  | some d =>
    have hurn : d.urn = c.urn := by simpa using List.find?_some hfind
    rw [eq_of_urn_eq hwf hplan hc (List.mem_of_find?_eq_some hfind) hurn]

/-! ## Removals -/

include hwf hplan hdone in
theorem get?_perform_of_candidate {r : Record} (hcand : isCandidate graph config r.urn) :
    (snapshot.perform done).get? r.urn = some r.properties ↔
      snapshot.get? r.urn = some r.properties ∧ ∀ c ∈ done, c.urn ≠ r.urn := by
  by_cases hremoved : ∃ c ∈ done, c.urn = r.urn
  · obtain ⟨c, hc, hurn⟩ := hremoved
    have hafter : c.after = none := by
      rcases urn_cases hplan (hdone hc) with hnode | ⟨hafter, -⟩
      · rw [hurn] at hnode
        exact absurd (contains_iff.mpr hnode) (isCandidate_iff.mp hcand).2.1
      · exact hafter
    have hget := get?_perform_of_done hwf hplan hdone hc
    rw [hurn, hafter] at hget
    rw [hget]
    constructor
    · intro h
      cases h
    · intro h
      exact absurd hurn (h.2 c hc)
  · have hnone : ∀ c ∈ done, c.urn ≠ r.urn := fun c hc hurn => hremoved ⟨c, hc, hurn⟩
    rw [get?_perform_of_forall_ne snapshot hnone]
    exact (and_iff_left hnone).symm

end

/-- A change apart from its place among the others. -/
def unplaced (c : Change) : Change := { c with level := 0, dependsOn := [] }

def removed (p : Plan) : List Change := p.changes.filter fun c => c.action == .remove

theorem mem_removed_iff {c : Change} : c ∈ removed p ↔ c ∈ p.changes ∧ c.action = .remove := by
  rw [removed, List.mem_filter, beq_iff_eq]

theorem unplaced_removalChange {r : Record} {among among' : List Urn} {level level' : Nat}
    {c c' : Change} (h : removalChange among level r = .ok c)
    (h' : removalChange among' level' r = .ok c') : unplaced c = unplaced c' := by
  obtain ⟨statements, hs, rfl⟩ := removalChange_eq_ok_iff.mp h
  obtain ⟨statements', hs', rfl⟩ := removalChange_eq_ok_iff.mp h'
  obtain rfl : statements = statements' := Except.ok.inj (hs.symm.trans hs')
  rfl

theorem nodup_unplaced {l : List Change} (h : (l.map Change.urn).Nodup) :
    (l.map unplaced).Nodup := by
  refine List.Nodup.of_map Change.urn ?_
  rw [List.map_map]
  exact h

/-- The removals that are left are those that were not carried out. -/
theorem removed_perform (hwf : graph.WellFormed)
    (hplan : plan graph snapshot registry config = .ok p) (hdone : done ⊆ p.changes)
    (hq : plan graph (snapshot.perform done) registry config = .ok q) :
    ((removed q).map unplaced).Perm
      (((removed p).filter fun c => decide (c ∉ done)).map unplaced) := by
  have hnodupq : (((removed q).map unplaced)).Nodup :=
    nodup_unplaced ((nodup_urns hwf hq).sublist (List.filter_sublist.map _))
  have hnodupp : (((removed p).filter fun c => decide (c ∉ done)).map unplaced).Nodup :=
    nodup_unplaced ((nodup_urns hwf hplan).sublist
      ((List.filter_sublist.trans List.filter_sublist).map _))
  refine (List.perm_ext_iff_of_nodup hnodupq hnodupp).mpr fun x => ?_
  rw [List.mem_map, List.mem_map]
  constructor
  · intro hremoved
    obtain ⟨c, hc, rfl⟩ := hremoved
    obtain ⟨hcq, hremove⟩ := mem_removed_iff.mp hc
    obtain ⟨r, hget, hcand, hsupports, _, _, hrc⟩ := exists_record hq hcq hremove
    obtain ⟨hget, hne⟩ := (get?_perform_of_candidate hwf hplan hdone hcand).mp hget
    obtain ⟨d, hd, hremoved, _, _, hrd⟩ := exists_removal hplan hget hcand hsupports
    have hnot : d ∉ done := fun hdd => hne d hdd (urn_of_removalChange hrd)
    refine ⟨d, List.mem_filter.mpr ⟨mem_removed_iff.mpr ⟨hd, hremoved⟩, ?_⟩, ?_⟩
    · exact decide_eq_true hnot
    · exact unplaced_removalChange hrd hrc
  · intro hremoved
    obtain ⟨d, hd, rfl⟩ := hremoved
    obtain ⟨hd, hnot⟩ := List.mem_filter.mp hd
    have hnot : d ∉ done := of_decide_eq_true hnot
    obtain ⟨hdp, hremove⟩ := mem_removed_iff.mp hd
    obtain ⟨r, hget, hcand, hsupports, _, _, hrd⟩ := exists_record hplan hdp hremove
    have hne : ∀ c ∈ done, c.urn ≠ r.urn := by
      intro c hc hurn
      rw [← urn_of_removalChange hrd] at hurn
      have heq := eq_of_urn_eq hwf hplan hdp (hdone hc) hurn
      exact hnot (heq ▸ hc)
    have hget := (get?_perform_of_candidate hwf hplan hdone hcand).mpr ⟨hget, hne⟩
    obtain ⟨c, hc, hremoved, _, _, hrc⟩ := exists_removal hq hget hcand hsupports
    exact ⟨c, mem_removed_iff.mpr ⟨hc, hremoved⟩, unplaced_removalChange hrc hrd⟩

/-! ## Plans without removals -/

theorem checkReferences_eq_ok_iff : checkReferences graph snapshot = .ok () ↔
    ∀ n ∈ graph.nodes, ∀ r ∈ n.external, isResolved graph snapshot r := by
  rw [checkReferences, forM_eq_ok_iff]
  refine forall₂_congr fun n _ => ?_
  split
  next r hfind =>
    refine iff_of_false (fun h => nomatch h) fun h => ?_
    have hr := List.find?_some hfind
    rw [h r (List.mem_of_find?_eq_some hfind)] at hr
    cases hr
  next hfind =>
    refine iff_of_true rfl fun r hr => ?_
    simpa using List.find?_eq_none.mp hfind r hr

theorem existsImplicitly_mono {later : Snapshot}
    (h : ∀ u, snapshot.contains u → later.contains u) {u : Urn}
    (hu : existsImplicitly u graph snapshot) : existsImplicitly u graph later := by
  unfold existsImplicitly at hu ⊢
  revert hu
  cases u.type with
  | schema =>
    intro hu
    cases hparent : u.parent? with
    | none => simp [hparent] at hu
    | some db =>
      simp only [hparent, Option.any_some, Bool.and_eq_true, Bool.or_eq_true] at hu ⊢
      exact ⟨hu.1, hu.2.imp_left fun hdb => hdb.imp_right (h db)⟩
  | _ => exact id

theorem not_isCandidate_of_allowlist (h : config.syncResources = none) (u : Urn) :
    ¬ isCandidate graph config u := by
  intro hcand
  have hallowed := SortedSet.contains_iff.mp (isCandidate_iff.mp hcand).1
  rw [Config.allowlist, h] at hallowed
  cases hallowed

theorem contains_perform (hwf : graph.WellFormed)
    (hplan : plan graph snapshot registry config = .ok p) (hdone : done ⊆ p.changes)
    (hsync : config.syncResources = none) (u : Urn) (hu : snapshot.contains u) :
    (snapshot.perform done).contains u := by
  by_cases hchanged : ∃ c ∈ done, c.urn = u
  · obtain ⟨c, hc, rfl⟩ := hchanged
    rw [Snapshot.contains_iff, get?_perform_of_done hwf hplan hdone hc]
    rcases change_cases hplan (hdone hc) with ⟨n, -, hnc⟩ | ⟨r, -, hcand, -⟩
    · obtain ⟨step, -, rfl⟩ := nodeChange_eq_ok_iff.mp hnc
      exact ⟨_, rfl⟩
    · exact absurd hcand (not_isCandidate_of_allowlist hsync _)
  · have hnone : ∀ c ∈ done, c.urn ≠ u := fun c hc hurn => hchanged ⟨c, hc, hurn⟩
    rw [Snapshot.contains_iff, get?_perform_of_forall_ne snapshot hnone]
    exact Snapshot.contains_iff.mp hu

theorem exists_plan_after_perform (hwf : graph.WellFormed)
    (hplan : plan graph snapshot registry config = .ok p) (hdone : done ⊆ p.changes)
    (hsync : config.syncResources = none) :
    ∃ q, plan graph (snapshot.perform done) registry config = .ok q := by
  obtain ⟨hreferences, nodes, hnodes, -⟩ := plan_eq_ok_iff.mp hplan
  have hcontains := contains_perform hwf hplan hdone hsync
  have hreferences : checkReferences graph (snapshot.perform done) = .ok () := by
    rw [checkReferences_eq_ok_iff] at hreferences ⊢
    intro n hn r hr
    have hresolved := hreferences n hn r hr
    rw [isResolved, Bool.or_eq_true] at hresolved ⊢
    exact hresolved.imp (hcontains r) (existsImplicitly_mono hcontains)
  obtain ⟨later, hlater⟩ : ∃ later,
      nodeChanges graph (snapshot.perform done) registry config = .ok later := by
    refine exists_mapM_eq_ok fun n hn => ?_
    obtain ⟨c, -, hrequire, -⟩ :=
      Lists.exists_right_of_forall₂ (nodeChanges_eq_ok_iff.mp hnodes) hn
    obtain ⟨c, hc, hnc⟩ := exists_nodeChange hplan hn
    by_cases hcd : c ∈ done
    · exact ⟨_, bind_eq_ok.mpr ⟨(), hrequire, nodeChange_of_done hwf hplan hdone hnc hcd⟩⟩
    · exact ⟨_, bind_eq_ok.mpr
        ⟨(), hrequire, nodeChange_of_not_done hwf hplan hdone hn hc hnc hcd⟩⟩
  have hremovals :
      removals graph (snapshot.perform done) registry config graph.height = .ok [] := by
    refine removals_eq_ok_iff.mpr ⟨[], candidates_eq_ok_iff.mpr ⟨?_, ?_⟩, .nil⟩
    · intro r _ hcand
      exact absurd hcand (not_isCandidate_of_allowlist hsync _)
    · refine (List.filter_eq_nil_iff.mpr fun r _ hr => ?_).symm
      exact not_isCandidate_of_allowlist hsync _ (Bool.and_eq_true_iff.mp hr).1
  exact ⟨_, plan_eq_ok_iff.mpr ⟨hreferences, later, hlater, [], hremovals, rfl⟩⟩

/-! ## Convergence -/

/-- After some of the changes of a plan were carried out, the next plan has nothing to do for the
declared resources among them, the same change for every other declared resource, and the removals
that were not carried out.  Without synchronised types there always is a next plan. -/
theorem plan_after_perform {declarations : List Declaration} {built : Config}
    (hbuild : build declarations built = .ok graph)
    (hplan : plan graph snapshot registry config = .ok p) (hdone : done ⊆ p.changes) :
    (config.syncResources = none →
      ∃ q, plan graph (snapshot.perform done) registry config = .ok q) ∧
    ∀ q, plan graph (snapshot.perform done) registry config = .ok q →
      (∀ n ∈ graph.nodes, ∃ c, p.get? n.urn = some c ∧
        (c ∈ done → ∃ d, q.get? n.urn = some d ∧ d.action = .noop ∧ d.statements = []) ∧
        (c ∉ done → q.get? n.urn = some c)) ∧
      ((removed q).map unplaced).Perm
        (((removed p).filter fun c => decide (c ∉ done)).map unplaced) ∧
      (p.changes ⊆ done → q.isNoop) := by
  have hwf := wellFormed_of_build hbuild
  refine ⟨exists_plan_after_perform hwf hplan hdone, fun q hq => ?_⟩
  have hremoved := removed_perform hwf hplan hdone hq
  refine ⟨fun n hn => ?_, hremoved, fun hall => ?_⟩
  · obtain ⟨c, hc, hnc⟩ := exists_nodeChange hplan hn
    obtain ⟨d, hd, hnd⟩ := exists_nodeChange hq hn
    have hcurn := urn_of_nodeChange hnc
    have hdurn := urn_of_nodeChange hnd
    refine ⟨c, hcurn ▸ get?_eq_some hwf hplan hc, fun hcd => ?_, fun hcd => ?_⟩
    · rw [nodeChange_of_done hwf hplan hdone hnc hcd] at hnd
      obtain rfl := Except.ok.inj hnd
      exact ⟨_, get?_eq_some hwf hq hd, rfl, rfl⟩
    · rw [nodeChange_of_not_done hwf hplan hdone hn hc hnc hcd] at hnd
      obtain rfl := Except.ok.inj hnd
      exact hcurn ▸ get?_eq_some hwf hq hd
  · -- No removal is left, and every declared resource is settled.
    have hnone : removed q = [] := by
      have hfilter : (removed p).filter (fun c => decide (c ∉ done)) = [] := by
        refine List.filter_eq_nil_iff.mpr fun c hc => ?_
        simpa using hall (mem_removed_iff.mp hc).1
      rw [hfilter] at hremoved
      exact List.map_eq_nil_iff.mp hremoved.eq_nil
    rw [Plan.isNoop, Plan.actionable, List.isEmpty_iff, List.filter_eq_nil_iff]
    intro d hd
    rcases change_cases hq hd with ⟨n, hn, hnd⟩ | ⟨r, -, -, -, _, _, hrd⟩
    · obtain ⟨c, hc, hnc⟩ := exists_nodeChange hplan hn
      rw [nodeChange_of_done hwf hplan hdone hnc (hall hc)] at hnd
      obtain rfl := Except.ok.inj hnd
      exact Bool.false_ne_true
    · have hmem : d ∈ removed q := by
        refine mem_removed_iff.mpr ⟨hd, ?_⟩
        obtain ⟨_, -, rfl⟩ := removalChange_eq_ok_iff.mp hrd
        rfl
      rw [hnone] at hmem
      cases hmem

/-! ## One of two roles -/

def declaredRole (name : String) : Declaration where
  type := .role
  name := name
  container := []
  properties := .empty
  references := .empty

def roleNode (name : String) : Node where
  urn := .ofRole "A" name
  properties := .empty
  dependencies := .empty
  external := .empty
  level := 0

def roleGraph : ResourceGraph := ⟨[roleNode "R", roleNode "S"]⟩

def roleCreation (name : String) : Change :=
  changeOf (roleNode name) none (.ofAccount "A")
    { action := .add, statements := [⟨"USERADMIN", "CREATE ROLE " ++ name⟩] }

def rolePlan : Plan := .ofChanges [roleCreation "R", roleCreation "S"]

theorem build_roles :
    build [declaredRole "R", declaredRole "S"] (.ofAccount "A") = .ok roleGraph := by rfl

theorem plan_roles : plan roleGraph .empty .builtin (.ofAccount "A") = .ok rolePlan := by rfl

/-- When the first of two roles was created, the next plan creates the second. -/
theorem plan_after_first_role :
    build [declaredRole "R", declaredRole "S"] (.ofAccount "A") = .ok roleGraph ∧
    plan roleGraph .empty .builtin (.ofAccount "A") = .ok rolePlan ∧
    [roleCreation "R"] ⊆ rolePlan.changes ∧
    ∃ q, plan roleGraph (Snapshot.empty.perform [roleCreation "R"]) .builtin (.ofAccount "A") =
        .ok q ∧
      (∃ d, q.get? (.ofRole "A" "R") = some d ∧ d.action = .noop) ∧
      q.get? (.ofRole "A" "S") = some (roleCreation "S") := by
  have hdone : [roleCreation "R"] ⊆ rolePlan.changes := by
    intro c hc
    exact mem_ofChanges.mpr (List.mem_cons.mpr (.inl (List.mem_singleton.mp hc)))
  have hwf := wellFormed_of_build build_roles
  have hfirst : rolePlan.get? (.ofRole "A" "R") = some (roleCreation "R") :=
    get?_eq_some hwf plan_roles (hdone List.mem_cons_self)
  have hmem : roleCreation "S" ∈ rolePlan.changes := mem_ofChanges.mpr (by simp)
  have hsecond : rolePlan.get? (.ofRole "A" "S") = some (roleCreation "S") :=
    get?_eq_some hwf plan_roles hmem
  obtain ⟨hnext, hall⟩ := plan_after_perform build_roles plan_roles hdone
  obtain ⟨q, hq⟩ := hnext rfl
  have hnodes := (hall q hq).1
  refine ⟨build_roles, plan_roles, hdone, q, hq, ?_, ?_⟩
  · obtain ⟨c, hc, hdone, -⟩ := hnodes (roleNode "R") List.mem_cons_self
    obtain rfl : roleCreation "R" = c := Option.some.inj (hfirst.symm.trans hc)
    obtain ⟨d, hd, hnoop, -⟩ := hdone List.mem_cons_self
    exact ⟨d, hd, hnoop⟩
  · obtain ⟨c, hc, -, hleft⟩ := hnodes (roleNode "S") (List.mem_cons_of_mem _ List.mem_cons_self)
    obtain rfl : roleCreation "S" = c := Option.some.inj (hsecond.symm.trans hc)
    refine hleft fun hmem => ?_
    have hurn := congrArg Change.urn (List.mem_singleton.mp hmem)
    exact absurd hurn (by decide)

end Diff
end Reconcile
