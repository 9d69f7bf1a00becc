import Reconcile.Proofs.Diff.Confinement
import Reconcile.Proofs.Diff.Convergence
import Reconcile.Proofs.Diff.Removals
import Reconcile.Proofs.Diff.Settled
import Reconcile.Proofs.Diff.Steps
import Reconcile.Proofs.Grant.Expansion
/-!
Privileges that are held and privileges that are wanted.  Main statement:
`plan_reconciles_privileges`, what both have is left alone, what only one has is granted or revoked,
and nothing else is done.
-/

namespace Reconcile
namespace Diff

open Declaration ResourceGraph Fallible Dependency

/-- The snapshot holds a resource, a grantee and privileges of the one on the other, and nothing
else. -/
structure HoldsGrants (snapshot : Snapshot) (account : String) (on grantee : Urn) (option : Bool)
    (held : List String) : Prop where
  target : snapshot.contains on
  holder : snapshot.contains grantee
  granted : ∀ p ∈ held, snapshot.get? (Grant.objectUrn account p on grantee) =
    some (grantProperties option)
  only : ∀ u, snapshot.contains u → u = on ∨ u = grantee ∨
    ∃ p ∈ held, u = Grant.objectUrn account p on grantee

section

variable (account : String) (on grantee : Urn) (option : Bool)

def privilegeSpec (p : String) : Spec :=
  grantSpec (Grant.objectUrn account p on grantee) (grantProperties option) [on, grantee]

def privilegeNode (p : String) : Node := loneNode (privilegeSpec account on grantee option p)

def privilegeRecord (p : String) : Record where
  urn := Grant.objectUrn account p on grantee
  properties := grantProperties option

def grantGraph (wanted : List String) : ResourceGraph where
  nodes := wanted.map (privilegeNode account on grantee option)

def wantedChange (held : List String) (p : String) : Change where
  urn := Grant.objectUrn account p on grantee
  action := if p ∈ held then .noop else .add
  level := 0
  before := if p ∈ held then some (grantProperties option) else none
  after := some (grantProperties option)
  statements := if p ∈ held then [] else [Grant.granting p on grantee option]
  session := {}
  dependsOn := []
  rejection := none

def unwantedChange (p : String) : Change where
  urn := Grant.objectUrn account p on grantee
  action := .remove
  level := 1
  before := some (grantProperties option)
  after := none
  statements := [Grant.revoking p on grantee]
  session := {}
  dependsOn := []
  rejection := none

end

/-- Privileges of a grantee on a resource that may have drifted from those that are wanted. -/
structure IsDrift (config : Config) (snapshot : Snapshot) (on grantee : Urn) (option : Bool)
    (wanted held : List String) : Prop where
  scope : config.scope = .account
  sync : config.syncResources = some [.grant]
  target : on.IsNamed config.account
  unmanaged : ¬ isSystemManaged on
  holder : grantee.IsNamed config.account
  isRole : grantee.type = .role ∨ grantee.type = .databaseRole
  nonempty : wanted ≠ []
  nodup : wanted.Nodup
  heldNodup : held.Nodup
  view : HoldsGrants snapshot config.account on grantee option held

theorem canonical_grantProperties (option : Bool) :
    ResourceType.grant.canonical (grantProperties option) = grantProperties option := by
  cases option with
  | _ => rfl

theorem isTrue_grantProperties (option : Bool) :
    (grantProperties option).isTrue "grant_option" = option := by
  cases option with
  | _ => rfl

variable {config : Config} {snapshot : Snapshot} {on grantee u : Urn} {option : Bool}
  {wanted held : List String} {p : String}

theorem map_urn_grantGraph : (grantGraph config.account on grantee option wanted).nodes.map
    Node.urn = wanted.map fun p => Grant.objectUrn config.account p on grantee := List.map_map

theorem contains_grantGraph : (grantGraph config.account on grantee option wanted).contains
    (Grant.objectUrn config.account p on grantee) ↔ p ∈ wanted := by
  rw [contains_iff, map_urn_grantGraph, List.mem_map]
  simp only [Grant.objectUrn_inj, exists_eq_right]

theorem canonical_privilegeNode :
    (privilegeNode config.account on grantee option p).urn.type.canonical
      (privilegeNode config.account on grantee option p).properties = grantProperties option :=
  canonical_grantProperties option

theorem canonical_privilegeRecord :
    (privilegeRecord config.account on grantee option p).urn.type.canonical
      (privilegeRecord config.account on grantee option p).properties = grantProperties option :=
  canonical_grantProperties option

theorem changeOf_privilegeNode (current : Option Properties) (step : Step) :
    changeOf (privilegeNode config.account on grantee option p) current config step =
      { urn := Grant.objectUrn config.account p on grantee
        action := step.action
        level := 0
        before := current
        after := some (grantProperties option)
        statements := step.statements
        session := {}
        dependsOn := []
        rejection := step.rejection } := by
  rw [changeOf, canonical_privilegeNode]
  rfl

theorem mem_external_privilegeNode :
    u ∈ (privilegeNode config.account on grantee option p).external ↔
      (u = on ∨ u = grantee) ∧ u.type ≠ .account := by
  rw [← List.mem_pair]
  show u ∈ (grantSpec (Grant.objectUrn config.account p on grantee) (grantProperties option)
    [on, grantee]).dependencies ↔ _
  exact mem_dependencies_grantSpec

theorem mem_external_grantGraph (h : wanted ≠ []) :
    u ∈ (grantGraph config.account on grantee option wanted).externalReferences ↔
      (u = on ∨ u = grantee) ∧ u.type ≠ .account := by
  rw [mem_externalReferences_iff]
  constructor
  · rintro ⟨n, hn, hu⟩
    obtain ⟨p, -, rfl⟩ := List.mem_map.mp hn
    exact mem_external_privilegeNode.mp hu
  · intro hu
    obtain ⟨p, hp⟩ := List.exists_mem_of_ne_nil wanted h
    exact ⟨_, List.mem_map_of_mem hp, mem_external_privilegeNode.mpr hu⟩

theorem height_grantGraph (h : wanted ≠ []) :
    (grantGraph config.account on grantee option wanted).height = 1 := by
  have hlevel : ∀ k, k < (grantGraph config.account on grantee option wanted).height ↔ k ≤ 0 := by
    intro k
    rw [lt_height_iff]
    constructor
    · rintro ⟨n, hn, hk⟩
      obtain ⟨p, -, rfl⟩ := List.mem_map.mp hn
      exact hk
    · intro hk
      obtain ⟨p, hp⟩ := List.exists_mem_of_ne_nil wanted h
      exact ⟨_, List.mem_map_of_mem hp, hk⟩
  have hzero := (hlevel 0).mpr (Nat.le_refl 0)
  have hone := mt (hlevel 1).mp (by omega)
  omega

theorem holdsGrants_ofRecords (account : String) (on grantee : Urn) (option : Bool)
    (held : List String) (a b : Properties) :
    HoldsGrants (.ofRecords ([⟨on, a⟩, ⟨grantee, b⟩] ++
      held.map (privilegeRecord account on grantee option))) account on grantee option held := by
  refine ⟨(Snapshot.contains_ofRecords_iff _).mpr ?_, (Snapshot.contains_ofRecords_iff _).mpr ?_,
    fun p hp => ?_, fun u hu => ?_⟩
  · exact List.mem_cons_self
  · exact List.mem_cons_of_mem _ List.mem_cons_self
  · rw [Snapshot.get?_ofRecords, List.map_append]
    refine SortedMap.get?_ofList_append ⟨_, List.mem_map_of_mem (List.mem_map_of_mem hp), rfl⟩ ?_
    intro e he
    obtain ⟨r, hr, rfl⟩ := List.mem_map.mp he
    obtain ⟨q, -, rfl⟩ := List.mem_map.mp hr
    rfl
  · obtain ⟨r, hr, rfl⟩ := List.mem_map.mp ((Snapshot.contains_ofRecords_iff _).mp hu)
    rcases List.mem_append.mp hr with hr | hr
    · rcases List.mem_pair.mp hr with rfl | rfl
      · exact .inl rfl
      · exact .inr (.inl rfl)
    · obtain ⟨p, hp, rfl⟩ := List.mem_map.mp hr
      exact .inr (.inr ⟨p, hp, rfl⟩)

namespace IsDrift

variable (h : IsDrift config snapshot on grantee option wanted held)

include h

theorem not_named (p : String) : ¬ (Grant.objectUrn config.account p on grantee = on ∨
    Grant.objectUrn config.account p on grantee = grantee) := by
  rintro (hon | hto)
  · exact Grant.ne_objectUrn_of_isNamed h.target hon.symm
  · exact Grant.ne_objectUrn_of_isNamed h.holder hto.symm

theorem build_eq {d : Declaration} (hingest : d.ingest config =
      .ok (wanted.map (privilegeSpec config.account on grantee option))) :
    build [d] config = .ok (grantGraph config.account on grantee option wanted) := by
  have hnodup : ((wanted.map (privilegeSpec config.account on grantee option)).map
      Spec.urn).Nodup := by
    rw [List.map_map]
    exact h.nodup.map fun p q heq => Grant.objectUrn_inj.mp heq
  refine bind_eq_ok.mpr ⟨_, collectSpecs_singleton hingest hnodup, ?_⟩
  rw [ofSpecs_of_apart hnodup, List.map_map]
  · rfl
  · intro s hs v hv hmem
    obtain ⟨p, -, rfl⟩ := List.mem_map.mp hs
    obtain ⟨t, ht, rfl⟩ := List.mem_map.mp hmem
    obtain ⟨q, -, rfl⟩ := List.mem_map.mp ht
    exact h.not_named q (List.mem_pair.mp (mem_dependencies_grantSpec.mp hv).1)

theorem checkReferences_eq :
    checkReferences (grantGraph config.account on grantee option wanted) snapshot = .ok () := by
  refine checkReferences_eq_ok_iff.mpr fun n hn r hr => ?_
  obtain ⟨p, -, rfl⟩ := List.mem_map.mp hn
  rw [isResolved, Bool.or_eq_true]
  rcases (mem_external_privilegeNode.mp hr).1 with rfl | rfl
  · exact .inl h.view.target
  · exact .inl h.view.holder

/-! ## Wanted privileges -/

theorem get?_of_not_mem (hp : p ∉ held) :
    snapshot.get? (Grant.objectUrn config.account p on grantee) = none := by
  cases hget : snapshot.get? (Grant.objectUrn config.account p on grantee) with
  | none => rfl
  | some properties =>
    have hcontains := Snapshot.contains_iff.mpr ⟨properties, hget⟩
    rcases h.view.only _ hcontains with hu | hu | ⟨q, hq, hu⟩
    · exact absurd (.inl hu) (h.not_named p)
    · exact absurd (.inr hu) (h.not_named p)
    · exact absurd (Grant.objectUrn_inj.mp hu ▸ hq) hp

theorem creation_eq (p : String) :
    creation (Grant.objectUrn config.account p on grantee) (grantProperties option) =
      .ok [Grant.granting p on grantee option] := by
  refine creation_eq_ok_iff.mpr
    ⟨_, Grant.render_grant h.target.isReadable h.holder.isReadable _, ?_⟩
  rw [isTrue_grantProperties]
  cases option with
  | _ => rfl

theorem removal_eq (p : String) :
    removal (Grant.objectUrn config.account p on grantee) (grantProperties option) =
      .ok [Grant.revoking p on grantee] := by
  refine removal_eq_ok_iff.mpr
    ⟨_, Grant.render_revoke h.target.isReadable h.holder.isReadable _, ?_⟩
  cases option with
  | _ => rfl

theorem nodeChange_eq (p : String) :
    nodeChange (privilegeNode config.account on grantee option p)
      (remoteState (Grant.objectUrn config.account p on grantee)
        (grantGraph config.account on grantee option wanted) snapshot) config =
      .ok (wantedChange config.account on grantee option held p) := by
  by_cases hp : p ∈ held
  · have hremote : remoteState (Grant.objectUrn config.account p on grantee)
        (grantGraph config.account on grantee option wanted) snapshot =
          some (privilegeNode config.account on grantee option p).properties := by
      rw [remoteState, h.view.granted p hp]
      rfl
    rw [hremote, nodeChange_settled config rfl, canonical_privilegeNode, changeOf_privilegeNode,
      wantedChange, if_pos hp, if_pos hp, if_pos hp]
  · have hremote : remoteState (Grant.objectUrn config.account p on grantee)
        (grantGraph config.account on grantee option wanted) snapshot = none := by
      rw [remoteState, h.get?_of_not_mem hp]
      rfl
    rw [hremote, nodeChange_eq_ok_iff, canonical_privilegeNode]
    refine ⟨{ action := .add, statements := [Grant.granting p on grantee option] }, ?_, ?_⟩
    · exact bind_eq_ok.mpr ⟨_, h.creation_eq p, rfl⟩
    · rw [changeOf_privilegeNode, wantedChange, if_neg hp, if_neg hp, if_neg hp]
      rfl

theorem nodeChanges_eq :
    nodeChanges (grantGraph config.account on grantee option wanted) snapshot .builtin config =
      .ok (wanted.map (wantedChange config.account on grantee option held)) := by
  refine nodeChanges_eq_ok_iff.mpr ?_
  exact Lists.forall₂_map_map.mpr fun p _ => ⟨Registry.builtin_require _, h.nodeChange_eq p⟩

/-! ## Privileges that are not wanted -/

theorem isCandidate_iff (hu : snapshot.contains u) :
    isCandidate (grantGraph config.account on grantee option wanted) config u ↔
      ∃ p ∈ held, p ∉ wanted ∧ u = Grant.objectUrn config.account p on grantee := by
  have hallowed : config.allowlist.contains u.type ↔ u.type = .grant := by
    rw [SortedSet.contains_iff, Config.allowlist, h.sync, SortedSet.mem_ofList]
    exact List.mem_singleton
  have hexternal : (grantGraph config.account on grantee option wanted).externalReferences.contains
      u ↔ (u = on ∨ u = grantee) ∧ u.type ≠ .account := by
    rw [SortedSet.contains_iff, mem_external_grantGraph h.nonempty]
  have hscope : config.managementScope.contains u := by
    rw [Config.managementScope, h.scope]
    rfl
  rw [Diff.isCandidate_iff, hallowed, hexternal]
  constructor
  · rintro ⟨htype, hnew, hnot, -, -⟩
    have hnamed : ¬ (u = on ∨ u = grantee) := fun hnamed => hnot ⟨hnamed, by simp [htype]⟩
    rcases h.view.only u hu with hu | hu | ⟨p, hp, rfl⟩
    · exact absurd (.inl hu) hnamed
    · exact absurd (.inr hu) hnamed
    · exact ⟨p, hp, mt contains_grantGraph.mpr hnew, rfl⟩
  · rintro ⟨p, -, hp, rfl⟩
    refine ⟨rfl, mt contains_grantGraph.mp hp, fun hnamed => h.not_named p hnamed.1, hscope, ?_⟩
    rw [isSystemManaged_of_privilege rfl]
    rintro ⟨d, hd, hgrantee, hmanaged⟩
    rcases (Grant.mem_implied_objectUrn h.target.isReadable h.holder.isReadable).mp hd with
      rfl | rfl
    · exact h.unmanaged hmanaged
    · refine hgrantee ?_
      rcases h.isRole with htype | htype
      · rw [htype]
        rfl
      · rw [htype]
        rfl

theorem exists_candidates : ∃ records,
    candidates (grantGraph config.account on grantee option wanted) snapshot .builtin config =
      .ok records ∧
    records.Perm ((held.filter (· ∉ wanted)).map
      (privilegeRecord config.account on grantee option)) := by
  obtain ⟨records, hrecords⟩ : ∃ records,
      candidates (grantGraph config.account on grantee option wanted) snapshot .builtin config =
        .ok records :=
    ⟨_, candidates_eq_ok_iff.mpr ⟨fun r _ _ => Registry.builtin_require r.urn.type, rfl⟩⟩
  refine ⟨records, hrecords, ?_⟩
  have hnodup : ((held.filter (· ∉ wanted)).map
      (privilegeRecord config.account on grantee option)).Nodup :=
    (h.heldNodup.filter _).map fun p q heq =>
      Grant.objectUrn_inj.mp (congrArg Record.urn heq)
  -- The records come in the order of their addresses, which says nothing of the privileges.
  refine (List.perm_ext_iff_of_nodup (nodup_candidates hrecords).of_map hnodup).mpr fun r => ?_
  rw [mem_candidates_iff hrecords, List.mem_map]
  simp only [List.mem_filter, decide_eq_true_eq]
  constructor
  · rintro ⟨hget, hcand, -⟩
    obtain ⟨p, hp, hnot, hurn⟩ :=
      (h.isCandidate_iff (Snapshot.contains_iff.mpr ⟨_, hget⟩)).mp hcand
    rw [hurn, h.view.granted p hp] at hget
    obtain ⟨urn, properties⟩ := r
    obtain rfl := Option.some.inj hget
    obtain rfl := hurn
    exact ⟨p, ⟨hp, hnot⟩, rfl⟩
  · rintro ⟨p, ⟨hp, hnot⟩, rfl⟩
    have hget := h.view.granted p hp
    have hcontains := Snapshot.contains_iff.mpr ⟨_, hget⟩
    exact ⟨hget, (h.isCandidate_iff hcontains).mpr ⟨p, hp, hnot, rfl⟩, rfl⟩

theorem dependents_eq_nil {removed : List Urn}
    (hremoved : ∀ u ∈ removed, ∃ p, u = Grant.objectUrn config.account p on grantee) :
    ∀ u ∈ removed, dependents removed u = [] := by
  intro u hu
  obtain ⟨p, rfl⟩ := hremoved u hu
  refine List.eq_nil_iff_forall_not_mem.mpr fun v hv => ?_
  obtain ⟨hv, himplied, -⟩ := mem_dependents_iff.mp hv
  obtain ⟨q, rfl⟩ := hremoved v hv
  exact h.not_named p
    ((Grant.mem_implied_objectUrn h.target.isReadable h.holder.isReadable).mp himplied)

theorem removalChange_eq {removed : List Urn} (hnodup : removed.Nodup)
    (hremoved : ∀ u ∈ removed, ∃ p, u = Grant.objectUrn config.account p on grantee)
    (hp : Grant.objectUrn config.account p on grantee ∈ removed) :
    removalChange removed (1 + depths removed (Grant.objectUrn config.account p on grantee))
      (privilegeRecord config.account on grantee option p) =
        .ok (unwantedChange config.account on grantee option p) := by
  have hnone := h.dependents_eq_nil hremoved
  have hdepth : depths removed (Grant.objectUrn config.account p on grantee) = 0 := by
    simp only [depths, lookup_layers_of_needs_nil hnodup hnone hp, Option.getD_some]
  have hfirst : dependents removed (privilegeRecord config.account on grantee option p).urn = [] :=
    hnone _ hp
  rw [hdepth, removalChange_eq_ok_iff, canonical_privilegeRecord]
  refine ⟨_, h.removal_eq p, ?_⟩
  rw [removalOf, canonical_privilegeRecord, hfirst]
  rfl

theorem exists_removals : ∃ gone,
    removals (grantGraph config.account on grantee option wanted) snapshot .builtin config
      (grantGraph config.account on grantee option wanted).height = .ok gone ∧
    gone.Perm ((held.filter (· ∉ wanted)).map
      (unwantedChange config.account on grantee option)) := by
  obtain ⟨records, hrecords, hperm⟩ := h.exists_candidates
  have hremoved : ∀ u ∈ records.map Record.urn,
      ∃ p, u = Grant.objectUrn config.account p on grantee := by
    intro u hu
    obtain ⟨r, hr, rfl⟩ := List.mem_map.mp hu
    obtain ⟨p, -, rfl⟩ := List.mem_map.mp (hperm.mem_iff.mp hr)
    exact ⟨p, rfl⟩
  have hall : List.Forall₂ (fun r c => removalChange (records.map Record.urn)
      (1 + depths (records.map Record.urn) r.urn) r = .ok c)
      ((held.filter (· ∉ wanted)).map (privilegeRecord config.account on grantee option))
      ((held.filter (· ∉ wanted)).map (unwantedChange config.account on grantee option)) := by
    refine Lists.forall₂_map_map.mpr fun p hp => ?_
    refine h.removalChange_eq (nodup_candidates hrecords) hremoved ?_
    exact List.mem_map_of_mem (hperm.mem_iff.mpr (List.mem_map_of_mem hp))
  obtain ⟨gone, hgone, hgoneperm⟩ := List.perm_comp_forall₂ hperm hall
  refine ⟨gone, removals_eq_ok_iff.mpr ⟨records, hrecords, ?_⟩, hgoneperm⟩
  rw [height_grantGraph h.nonempty]
  exact hgone

theorem exists_plan : ∃ p,
    plan (grantGraph config.account on grantee option wanted) snapshot .builtin config = .ok p ∧
    p.changes.Perm (wanted.map (wantedChange config.account on grantee option held) ++
      (held.filter (· ∉ wanted)).map (unwantedChange config.account on grantee option)) := by
  obtain ⟨gone, hgone, hperm⟩ := h.exists_removals
  refine ⟨_, plan_eq_ok_iff.mpr ⟨h.checkReferences_eq, _, h.nodeChanges_eq, gone, hgone, rfl⟩, ?_⟩
  exact (Plan.perm_ofChanges _).trans (hperm.append_left _)

end IsDrift

/-- The privileges of one grantee on one resource that a declaration wants, and those that are held;
a grantee that is no role is refused.  Every privilege gets exactly one change: nothing is done
about what is both wanted and held, what is only wanted is granted, and what is only held is
revoked, each by one statement of its own.  There are no other changes. -/
theorem plan_reconciles_privileges (config : Config) {d : Declaration} {label : String}
    {old : Option Json}
    (hscope : config.scope = .account) (hsync : config.syncResources = some [.grant])
    (htype : d.type = .grant) (hon : d.Names config.account "on" on)
    (hto : d.Names config.account "to" grantee) (hoption : d.grantOption = .ok option)
    (hwanted : d.privileges on.type = .ok wanted)
    (hheld : Privilege.expand label old on.type = .ok held) (hunmanaged : ¬ isSystemManaged on)
    (hview : HoldsGrants snapshot config.account on grantee option held) :
    (¬ (grantee.type = .role ∨ grantee.type = .databaseRole) →
      build [d] config = .error (.invalidDeclaration d.label (.badGrantee grantee.type))) ∧
    (grantee.type = .role ∨ grantee.type = .databaseRole →
      ∃ graph p, build [d] config = .ok graph ∧ plan graph snapshot .builtin config = .ok p ∧
        wanted.Nodup ∧ held.Nodup ∧
        p.changes.Perm (wanted.map (wantedChange config.account on grantee option held) ++
          (held.filter (· ∉ wanted)).map
            (unwantedChange config.account on grantee option))) := by
  refine ⟨fun hbad => ?_, fun hrole => ?_⟩
  · have hingest := ingest_of_grant_eq_error htype hon.requiredReference hto.requiredReference hbad
    rw [build, collectSpecs, List.foldlM_cons, hingest]
    rfl
  · obtain ⟨hnodup, hnonempty⟩ := Privilege.expand_spec hwanted
    obtain ⟨hheldNodup, -⟩ := Privilege.expand_spec hheld
    have h : IsDrift config snapshot on grantee option wanted held :=
      ⟨hscope, hsync, hon.isNamed, hunmanaged, hto.isNamed, hrole, hnonempty, hnodup, hheldNodup,
        hview⟩
    have hingest := ingest_of_grant htype hon.requiredReference hto.requiredReference hrole hoption
      hwanted
    obtain ⟨p, hp, hperm⟩ := h.exists_plan
    exact ⟨_, p, h.build_eq hingest, hp, hnodup, hheldNodup, hperm⟩

/-! ## Privileges on a warehouse -/

def syncGrants : Config := { account := "A", syncResources := some [.grant] }

def analystUrn : Urn := .ofNames "A" .role [] "ANALYST"

def usesWarehouse : Declaration where
  type := .grant
  name := ""
  container := []
  properties := SortedMap.empty.insert "priv" (.array [.string "usage", .string " Operate"])
  references := (SortedMap.empty.insert "on" (.named .warehouse "WH" [])).insert "to"
    (.named .role "ANALYST" [])

def warehouseGrants : Snapshot := .ofRecords ([⟨Reconciler.warehouseUrn, .empty⟩,
  ⟨analystUrn, .empty⟩] ++ ["MODIFY", "USAGE"].map
    (privilegeRecord "A" Reconciler.warehouseUrn analystUrn false))

theorem plan_usesWarehouse :
    usesWarehouse.Names "A" "on" Reconciler.warehouseUrn ∧
    usesWarehouse.Names "A" "to" analystUrn ∧ ¬ isSystemManaged Reconciler.warehouseUrn ∧
    usesWarehouse.privileges .warehouse = .ok ["USAGE", "OPERATE"] ∧
    Privilege.expand "" (some (.array [.string "modify", .string "USAGE"])) .warehouse =
      .ok ["MODIFY", "USAGE"] ∧
    HoldsGrants warehouseGrants "A" Reconciler.warehouseUrn analystUrn false ["MODIFY", "USAGE"] ∧
    ∃ graph p, build [usesWarehouse] syncGrants = .ok graph ∧
      plan graph warehouseGrants .builtin syncGrants = .ok p ∧
      (p.changes.map fun c => (c.action, c.statements.map Statement.sql)).Perm
        [(.noop, []), (.add, ["GRANT OPERATE ON WAREHOUSE WH TO ROLE ANALYST"]),
          (.remove, ["REVOKE MODIFY ON WAREHOUSE WH FROM ROLE ANALYST"])] := by
  have hon : usesWarehouse.Names "A" "on" Reconciler.warehouseUrn :=
    ⟨.named .warehouse "WH" [], rfl, ⟨fun h => absurd h (by decide), List.forall_mem_nil _⟩, rfl⟩
  have hto : usesWarehouse.Names "A" "to" analystUrn :=
    ⟨.named .role "ANALYST" [], rfl, ⟨fun h => absurd h (by decide), List.forall_mem_nil _⟩, rfl⟩
  have hunmanaged : ¬ isSystemManaged Reconciler.warehouseUrn := by
    rw [isSystemManaged_of_not_privilege (by decide)]
    decide
  have hwanted : usesWarehouse.privileges .warehouse = .ok ["USAGE", "OPERATE"] := by rfl
  have hheld : Privilege.expand "" (some (.array [.string "modify", .string "USAGE"])) .warehouse =
      .ok ["MODIFY", "USAGE"] := by rfl
  have hview : HoldsGrants warehouseGrants "A" Reconciler.warehouseUrn analystUrn false
      ["MODIFY", "USAGE"] := holdsGrants_ofRecords _ _ _ _ _ _ _
  obtain ⟨-, hplans⟩ := plan_reconciles_privileges syncGrants rfl rfl rfl hon hto rfl hwanted hheld
    hunmanaged hview
  obtain ⟨graph, p, hgraph, hp, -, -, hperm⟩ := hplans (.inl rfl)
  exact ⟨hon, hto, hunmanaged, hwanted, hheld, hview, graph, p, hgraph, hp, hperm.map _⟩

end Diff
end Reconcile
