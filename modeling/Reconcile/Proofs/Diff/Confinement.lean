import Reconcile.Proofs.Diff.Containers
import Reconcile.Proofs.Grant.Address
import Reconcile.Reconciler
/-!
How far a plan reaches.  Main statement: `plan_is_confined`, the changes of a plan stay in the
managed part of the account, each about a resource of its own, and remove only what is expendable.
-/

namespace Reconcile

open Fallible ResourceGraph

/-! ## What belongs to the account -/

/-- A resource that comes with the account or with a database, or that lies in the account's own
database. -/
inductive Urn.OwnedByAccount (u : Urn) : Prop where
  | account (htype : u.type = .account)
  | systemRole (htype : u.type = .role ∨ u.type = .roleGrant) (hname : isSystemRole u.name.text)
  | systemDatabase (htype : u.type = .database) (hname : u.name.text = Reconcile.systemDatabase)
  | systemSchema (htype : u.type = .schema) (hname : u.name.text ∈ systemSchemas)
  | inSystemDatabase (hdepth : u.type.depth ≠ .account) (db : Urn) (hdb : db.Encloses u)
      (htype : db.type = .database) (hname : db.name.text = Reconcile.systemDatabase)

/-- The resource that a privilege is granted on, or in. -/
def Urn.IsGrantedOn (u d : Urn) : Prop :=
  u.type.isPrivilege ∧ (u.paramUrn? "on" = some d ∨ u.paramUrn? "in" = some d)

theorem Urn.OwnedByAccount.type_cases {u : Urn} (h : u.OwnedByAccount) :
    u.type ∈ [.account, .role, .roleGrant, .database] ∨ u.type.depth ≠ .account := by
  cases h with
  | account htype => simp [htype]
  | systemRole htype => rcases htype with htype | htype <;> simp [htype]
  | systemDatabase htype => simp [htype]
  | systemSchema htype => exact .inr (by rw [htype]; decide)
  | inSystemDatabase hdepth => exact .inr hdepth

theorem Urn.OwnedByAccount.not_isPrivilege {u : Urn} (h : u.OwnedByAccount) :
    ¬ u.type.isPrivilege := by
  have htype := h.type_cases
  revert htype
  cases u.type <;> decide

theorem Urn.OwnedByAccount.type_ne_user {u : Urn} (h : u.OwnedByAccount) : u.type ≠ .user := by
  have htype := h.type_cases
  revert htype
  cases u.type <;> decide

theorem Urn.database?_of_encloses {u db : Urn} (h : db.Encloses u) (htype : db.type = .database) :
    u.container.database? = some db.name := by
  obtain ⟨account, type, container, name, params⟩ := u
  rcases h with h | ⟨p, hp, h⟩
  · cases container with
    | account => cases h
    | database d =>
      obtain rfl := Option.some.inj h
      rfl
    | schema d s =>
      obtain rfl := Option.some.inj h
      cases htype
  · cases container with
    | account => cases hp
    | database d =>
      obtain rfl := Option.some.inj hp
      cases h
    | schema d s =>
      obtain rfl := Option.some.inj hp
      obtain rfl := Option.some.inj h
      rfl

namespace Diff

variable {graph : ResourceGraph} {snapshot : Snapshot} {registry : Registry} {config : Config}
  {p : Plan} {u : Urn}

theorem isSystemManaged_of_privilege (h : u.type.isPrivilege) : isSystemManaged u ↔
    ∃ d ∈ u.implied, ¬ isGranteeType d.type ∧ isSystemManaged d := by
  have hunfold : isSystemManaged u = u.implied.attach.any fun d =>
      !isGranteeType d.val.type && isSystemManaged d.val := by
    rw [isSystemManaged]
    cases htype : u.type with
    | grant => rfl
    | futureGrant => rfl
    | grantOnAll => rfl
    | _ =>
      rw [htype] at h
      cases h
  rw [hunfold]
  simp

theorem isSystemManaged_of_not_privilege (h : ¬ u.type.isPrivilege) :
    isSystemManaged u = isAccountOwned u := by
  rw [isSystemManaged]
  cases htype : u.type with
  | grant => exact absurd (htype ▸ rfl) h
  | futureGrant => exact absurd (htype ▸ rfl) h
  | grantOnAll => exact absurd (htype ▸ rfl) h
  | _ => rfl

theorem isAccountOwned_of_ownedByAccount (h : u.OwnedByAccount) : isAccountOwned u := by
  unfold isAccountOwned
  cases h with
  | account htype => rw [htype]
  | systemRole htype hname =>
    rcases htype with htype | htype
    · rw [htype]
      exact hname
    · rw [htype]
      exact hname
  | systemDatabase htype hname =>
    rw [htype]
    exact beq_iff_eq.mpr hname
  | systemSchema htype hname =>
    rw [htype]
    exact Bool.or_eq_true_iff.mpr (.inr (List.contains_iff_mem.mpr hname))
  | inSystemDatabase hdepth db hdb htype hname =>
    have hinside : (u.container.database?.any fun d => d.text == systemDatabase) = true := by
      rw [Urn.database?_of_encloses hdb htype, Option.any_some, beq_iff_eq]
      exact hname
    cases htype : u.type with
    | schema => exact Bool.or_eq_true_iff.mpr (.inl hinside)
    | databaseRole => exact hinside
    | table => exact hinside
    | view => exact hinside
    | _ => exact absurd (congrArg ResourceType.depth htype) hdepth

theorem isSystemManaged_of_ownedByAccount (h : u.OwnedByAccount) : isSystemManaged u := by
  rw [isSystemManaged_of_not_privilege (h.not_isPrivilege)]
  exact isAccountOwned_of_ownedByAccount h

theorem isSystemManaged_of_isGrantedOn {d : Urn} (h : u.IsGrantedOn d) (hd : d.OwnedByAccount)
    (hrole : d.type ≠ .role) (hdbrole : d.type ≠ .databaseRole) : isSystemManaged u := by
  obtain ⟨hprivilege, hparam⟩ := h
  have himplied : d ∈ u.implied := by
    refine List.mem_append_left _ (List.mem_append_right _ (List.mem_filterMap.mpr ?_))
    rcases hparam with hon | hin
    · exact ⟨"on", by simp [Urn.referenceKeys], hon⟩
    · exact ⟨"in", by simp [Urn.referenceKeys], hin⟩
  refine (isSystemManaged_of_privilege hprivilege).mpr
    ⟨d, himplied, ?_, isSystemManaged_of_ownedByAccount hd⟩
  simp [isGranteeType, hrole, hdbrole, hd.type_ne_user]

/-- A reported resource that a plan may remove. -/
structure Expendable (config : Config) (graph : ResourceGraph) (snapshot : Snapshot) (u : Urn) :
    Prop where
  reported : snapshot.contains u
  synchronised : config.allowlist.contains u.type
  unwanted : ¬ graph.Wants u
  not_owned : ¬ u.OwnedByAccount
  not_granted_on : ∀ d, u.IsGrantedOn d → d.type ≠ .role → d.type ≠ .databaseRole →
    ¬ d.OwnedByAccount

theorem expendable_of_remove (h : plan graph snapshot registry config = .ok p) {c : Change}
    (hc : c ∈ p.changes) (hremove : c.action = .remove) :
    Expendable config graph snapshot c.urn := by
  obtain ⟨hreported, hcand, -⟩ := (exists_removal_iff h).mp ⟨c, hc, hremove, rfl⟩
  obtain ⟨hallowed, -, -, -, hmanaged⟩ := isCandidate_iff.mp hcand
  refine ⟨hreported, hallowed, not_wants_of_isCandidate hcand, fun howned => ?_,
    fun d hon hrole hdbrole hd => ?_⟩
  · exact hmanaged (isSystemManaged_of_ownedByAccount howned)
  · exact hmanaged (isSystemManaged_of_isGrantedOn hon hd hrole hdbrole)

theorem validateRemovals_eq_ok {allowed : SortedSet ResourceType}
    (h : ∀ c ∈ p.changes, c.action = .remove → allowed.contains c.urn.type) :
    p.validateRemovals allowed = .ok () := by
  have hnone : p.changes.find? (Plan.isForbidden allowed) = none := by
    refine List.find?_eq_none.mpr fun c hc hforbidden => ?_
    obtain ⟨hremove, hnot⟩ := Bool.and_eq_true_iff.mp hforbidden
    rw [h c hc (beq_iff_eq.mp hremove)] at hnot
    cases hnot
  rw [Plan.validateRemovals, hnone]

end Diff

namespace Reconciler

open Diff

variable {r : Reconciler} {declarations : List Declaration} {source : Source}
  {graph : ResourceGraph} {p : Plan}

theorem buildGraph_eq_ok_iff : r.buildGraph declarations = .ok graph ↔
    ResourceGraph.build declarations r.config = .ok graph ∧ r.checkScope graph = .ok () ∧
      r.checkEdition graph = .ok () := by
  simp only [buildGraph, bind_eq_ok, pure_eq_ok, exists_unit_iff]
  constructor
  · rintro ⟨g, hg, hscope, hedition, rfl⟩
    exact ⟨hg, hscope, hedition⟩
  · intro hbuilt
    exact ⟨graph, hbuilt.1, hbuilt.2.1, hbuilt.2.2, rfl⟩

theorem checkScope_eq_ok_iff : r.checkScope graph = .ok () ↔
    ∀ n ∈ graph.nodes, r.config.managementScope.contains n.urn := by
  simp only [checkScope]
  split
  next hnone =>
    rw [List.isEmpty_iff, List.filter_eq_nil_iff] at hnone
    refine iff_of_true rfl fun n hn => ?_
    simpa using hnone n.urn (List.mem_map_of_mem hn)
  next hsome =>
    refine iff_of_false (fun h => nomatch h) fun h => hsome ?_
    rw [List.isEmpty_iff, List.filter_eq_nil_iff]
    intro u hu
    obtain ⟨n, hn, rfl⟩ := List.mem_map.mp hu
    simpa using h n hn

theorem plan_eq_ok_iff : r.plan declarations source = .ok p ↔
    ∃ graph, r.buildGraph declarations = .ok graph ∧
      ∃ snapshot, r.fetch graph source = .ok snapshot ∧
        Diff.plan graph snapshot r.registry r.config = .ok p := by
  simp only [plan, bind_eq_ok]

/-- The changes of a plan lie in the managed part of the account, no two of them are about one
resource, and what they remove is expendable; so the plan may be carried out. -/
theorem plan_is_confined (h : r.plan declarations source = .ok p) :
    ∃ graph snapshot, r.buildGraph declarations = .ok graph ∧
      r.fetch graph source = .ok snapshot ∧
      (∀ c ∈ p.changes, r.config.managementScope.contains c.urn) ∧
      (p.changes.map Change.urn).Nodup ∧
      (∀ c ∈ p.changes, c.action = .remove → Expendable r.config graph snapshot c.urn) ∧
      ∀ (σ : Type) (transport : Transport σ) (confirm : String → Run.Answer) (remote : σ),
        ∃ finished, r.apply p transport confirm remote = .ok finished := by
  obtain ⟨graph, hgraph, snapshot, hsnapshot, hplan⟩ := plan_eq_ok_iff.mp h
  obtain ⟨hbuild, hscope, -⟩ := buildGraph_eq_ok_iff.mp hgraph
  have hexpendable : ∀ c ∈ p.changes, c.action = .remove →
      Expendable r.config graph snapshot c.urn := fun c hc => expendable_of_remove hplan hc
  refine ⟨graph, snapshot, hgraph, hsnapshot, fun c hc => ?_,
    nodup_urns (wellFormed_of_build hbuild) hplan, hexpendable, ?_⟩
  · rcases change_cases hplan hc with ⟨n, hn, hnc⟩ | ⟨d, -, hcand, -, _, _, hdc⟩
    · rw [urn_of_nodeChange hnc]
      exact checkScope_eq_ok_iff.mp hscope n hn
    · rw [urn_of_removalChange hdc]
      exact (isCandidate_iff.mp hcand).2.2.2.1
  · intro σ transport confirm remote
    have hvalid : p.validateRemovals r.config.allowlist = .ok () :=
      validateRemovals_eq_ok fun c hc hremove => (hexpendable c hc hremove).synchronised
    refine ⟨Run.execute p transport r.options confirm remote, ?_⟩
    rw [apply, hvalid]
    rfl

/-! ## A warehouse that nobody declares -/

def warehouseUrn : Urn := .ofNames "A" .warehouse [] "WH"

def syncsWarehouses : Reconciler :=
  ⟨{ account := "A", syncResources := some [.warehouse] }, .builtin, rfl⟩

def warehouseRemoval : Change :=
  removalOf [warehouseUrn] 0 ⟨warehouseUrn, .empty⟩ [⟨"SYSADMIN", "DROP WAREHOUSE WH"⟩]

theorem plan_warehouse : syncsWarehouses.plan [] (.static [⟨warehouseUrn, .empty⟩] none) =
    .ok (.ofChanges [warehouseRemoval]) := by
  have hcand : isCandidate ⟨[]⟩ syncsWarehouses.config warehouseUrn = true := by
    rw [isCandidate, isSystemManaged]
    rfl
  have hcandidates : candidates ⟨[]⟩ (.ofRecords [⟨warehouseUrn, .empty⟩]) .builtin
      syncsWarehouses.config = .ok [⟨warehouseUrn, .empty⟩] := by
    have hfound : (Snapshot.ofRecords [⟨warehouseUrn, .empty⟩]).toList.filter
        (fun r => isCandidate ⟨[]⟩ syncsWarehouses.config r.urn) = [⟨warehouseUrn, .empty⟩] := by
      show [Record.mk warehouseUrn .empty].filter _ = _
      rw [List.filter_cons, if_pos hcand]
      rfl
    rw [candidates, hfound]
    rfl
  have hremovals : removals ⟨[]⟩ (.ofRecords [⟨warehouseUrn, .empty⟩]) .builtin
      syncsWarehouses.config 0 = .ok [warehouseRemoval] :=
    removals_eq_ok_iff.mpr ⟨_, hcandidates, .cons rfl .nil⟩
  refine plan_eq_ok_iff.mpr ⟨⟨[]⟩, rfl, .ofRecords [⟨warehouseUrn, .empty⟩], rfl, ?_⟩
  exact Diff.plan_eq_ok_iff.mpr ⟨rfl, [], rfl, _, hremovals, rfl⟩

theorem removes_warehouse :
    ∃ p, syncsWarehouses.plan [] (.static [⟨warehouseUrn, .empty⟩] none) = .ok p ∧
      (∃ c ∈ p.changes, c.action = .remove ∧ ¬ c.urn.OwnedByAccount) ∧
      ∃ finished, syncsWarehouses.apply p .disconnected (fun _ => .accepted) () =
        .ok finished := by
  obtain ⟨_, _, _, _, -, -, hexpendable, happly⟩ := plan_is_confined plan_warehouse
  have hmem : warehouseRemoval ∈ (Plan.ofChanges [warehouseRemoval]).changes :=
    mem_ofChanges.mpr List.mem_cons_self
  exact ⟨_, plan_warehouse, ⟨_, hmem, rfl, (hexpendable _ hmem rfl).not_owned⟩, happly _ _ _ _⟩

end Reconciler
end Reconcile
