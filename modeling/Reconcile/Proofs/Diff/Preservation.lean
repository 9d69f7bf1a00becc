import Reconcile.Proofs.Diff.Convergence
import Reconcile.Proofs.Diff.Confinement
import Reconcile.Proofs.Diff.References
import Reconcile.Proofs.Diff.Steps
import Reconcile.Proofs.Graph.Origin
import Reconcile.Proofs.Lifecycle.Verbs
/-!
Plans that synchronise nothing.  Main statement: `plan_spares`, such a plan drops only what it
creates again, and revokes no privilege.
-/

namespace Reconcile

open Fallible ResourceGraph Lifecycle

namespace Diff

variable {urn : Urn} {desired current : Properties} {step : Step} {statements : List Statement}
  {s : Statement}

/-- The statement takes nothing away but the right to grant a privilege on. -/
def Keeps (s : Statement) : Prop :=
  verb s.sql ∈ ["CREATE", "ALTER", "GRANT"] ∨ RevokesOption s.sql

theorem verb_of_revokesOption {sql : String} (h : RevokesOption sql) : verb sql = "REVOKE" := by
  obtain ⟨rest, rfl⟩ := h
  have hwords : "REVOKE GRANT OPTION FOR " ++ rest =
      "REVOKE" ++ (" " ++ ("GRANT OPTION FOR " ++ rest)) := by
    simp only [← String.append_assoc]
    rfl
  rw [hwords, verb_append "REVOKE" (by decide)]

theorem Keeps.verb_ne_drop (h : Keeps s) : verb s.sql ≠ "DROP" := by
  rcases h with hverb | hrevokes
  · intro hdrop
    rw [hdrop] at hverb
    exact absurd hverb (by decide)
  · rw [verb_of_revokesOption hrevokes]
    decide

theorem Keeps.revokesOption (h : Keeps s) (hrevoke : verb s.sql = "REVOKE") :
    RevokesOption s.sql := by
  rcases h with hverb | hrevokes
  · rw [hrevoke] at hverb
    exact absurd hverb (by decide)
  · exact hrevokes

/-! ## Statements of a step -/

theorem exists_of_mem_runAs {role : String} {sql : List String} (h : s ∈ runAs role sql) :
    s.sql ∈ sql := by
  obtain ⟨text, htext, rfl⟩ := List.mem_map.mp h
  exact htext

theorem keeps_of_mem_handOver {role : String} {owner : Option String}
    (h : s ∈ handOver role urn owner) : Keeps s := by
  obtain ⟨name, -, hname⟩ := List.mem_map.mp (exists_of_mem_runAs h)
  left
  rw [← hname, verb_transferOwnership]
  decide

theorem keeps_of_mem_creation (h : creation urn desired = .ok statements) (hs : s ∈ statements) :
    Keeps s := by
  obtain ⟨sql, hsql, rfl⟩ := creation_eq_ok_iff.mp h
  rcases List.mem_append.mp hs with hs | hs
  · have hs := exists_of_mem_runAs hs
    by_cases hgrant : urn.type.isGrant
    · exact (verb_of_render_grant (.inl rfl) hgrant hsql hs).imp_left fun hverb => by
        rw [hverb]
        decide
    by_cases haccount : urn.type = .account
    · rw [render, haccount] at hsql
      obtain rfl := Except.ok.inj hsql
      cases hs
    · obtain ⟨text, rfl, htext⟩ := exists_creates_of_render hgrant haccount hsql
      left
      rw [List.mem_singleton.mp hs, htext.verb]
      decide
  · exact keeps_of_mem_handOver hs

theorem keeps_of_mem_change {role : String} {sql : List String}
    (h : render urn .change (some current) (some desired) = .ok sql) (hs : s ∈ runAs role sql) :
    Keeps s := by
  have hs := exists_of_mem_runAs hs
  by_cases hgrant : urn.type.isGrant
  · exact (verb_of_render_grant (.inr rfl) hgrant h hs).imp_left fun hverb => by
      rw [hverb]
      decide
  · left
    rw [verb_of_render_change hgrant h hs]
    decide

/-! ## Fields that ask for a replacement -/

/-- The types whose resources hold what cannot be created again. -/
def lastingTypes : List ResourceType :=
  [.account, .database, .schema, .table, .role, .databaseRole, .user]

theorem not_lasting {type : ResourceType} (h : type = .view ∨ type = .warehouse) :
    type ∉ lastingTypes ∧ ¬ type.isGrant := by
  rcases h with rfl | rfl
  · decide
  · decide

theorem type_of_immutable {type : ResourceType} {field : String}
    (h : type.mutability field = .immutable) :
    type = .view ∨ type = .warehouse ∨ type.isGrant := by
  cases type with
  | view => exact .inl rfl
  | warehouse => exact .inr (.inl rfl)
  | grant => exact .inr (.inr rfl)
  | futureGrant => exact .inr (.inr rfl)
  | grantOnAll => exact .inr (.inr rfl)
  | roleGrant => exact .inr (.inr rfl)
  | database =>
    simp only [ResourceType.mutability] at h
    split at h <;> cases h
  | schema =>
    simp only [ResourceType.mutability] at h
    split at h <;> cases h
  | table =>
    simp only [ResourceType.mutability] at h
    split at h <;> cases h
  | account => cases h
  | role => cases h
  | databaseRole => cases h
  | user => cases h

theorem exists_of_mem_changedFields {type : ResourceType} {field : String}
    (h : field ∈ changedFields type desired current) : ∃ v, (field, v) ∈ desired.entries := by
  obtain ⟨e, he, rfl⟩ := List.mem_map.mp (List.mem_filter.mp h).1
  exact ⟨e.2, (List.mem_filter.mp he).1⟩

theorem entries_canonical_grantProperties (type : ResourceType) (h : type.isPrivilege)
    (option : Bool) :
    (type.canonical (Declaration.grantProperties option)).entries =
      [("grant_option", .bool option)] := by
  cases type with
  | grant => cases option <;> rfl
  | futureGrant => cases option <;> rfl
  | grantOnAll => cases option <;> rfl
  | _ => cases h

/-- A declared grant differs from what is reported in nothing but the grant option. -/
theorem mutability_of_isGrantSpec {account field : String} {spec : Spec}
    (h : Declaration.IsGrantSpec account spec)
    (hfield : field ∈ changedFields spec.urn.type (spec.urn.type.canonical spec.properties)
      current) : spec.urn.type.mutability field = .mutable := by
  obtain ⟨v, hv⟩ := exists_of_mem_changedFields hfield
  cases h with
  | onObject privilege on grantee option =>
    have hentries := entries_canonical_grantProperties .grant rfl option
    have hv : (field, v) ∈ [("grant_option", Json.bool option)] := hentries ▸ hv
    obtain ⟨rfl, -⟩ := Prod.mk.inj (List.mem_singleton.mp hv)
    rfl
  | onObjects type privilege target container grantee option htype =>
    have hprivilege : type.isPrivilege := by
      rcases htype with rfl | rfl
      · rfl
      · rfl
    have hentries := entries_canonical_grantProperties type hprivilege option
    have hv : (field, v) ∈ [("grant_option", Json.bool option)] := hentries ▸ hv
    obtain ⟨rfl, -⟩ := Prod.mk.inj (List.mem_singleton.mp hv)
    show type.mutability "grant_option" = .mutable
    rcases htype with rfl | rfl
    · rfl
    · rfl
  | ofRole role grantee => cases hv

/-! ## Changes -/

variable {declarations : List Declaration} {config : Config} {graph : ResourceGraph}
  {snapshot : Snapshot} {n : Node} {c : Change}

/-- A change that drops a reported view or warehouse and creates it again. -/
structure IsRecreation (snapshot : Snapshot) (c : Change) : Prop where
  action : c.action = .replace
  type : c.urn.type = .view ∨ c.urn.type = .warehouse
  reported : snapshot.contains c.urn
  statements : ∃ dropping creating rest, c.statements = dropping :: creating :: rest ∧
    dropping.sql = drop c.urn ∧ Creates c.urn creating.sql ∧ ∀ s ∈ rest, verb s.sql ≠ "DROP"

/-- A change that takes nothing away: it replaces nothing, or is refused and does nothing. -/
structure IsHarmless (c : Change) : Prop where
  replace : c.action = .replace → c.isRejected
  rejected : c.isRejected → c.statements = []
  keeps : ∀ s ∈ c.statements, Keeps s

theorem isHarmless_of_ne_replace (haction : c.action ≠ .replace) (hnone : c.rejection = none)
    (hkeeps : ∀ s ∈ c.statements, Keeps s) : IsHarmless c := by
  refine ⟨fun hreplace => absurd hreplace haction, fun hsome => ?_, hkeeps⟩
  rw [Change.isRejected, hnone] at hsome
  cases hsome

theorem contains_of_currentState (htype : urn.type = .view ∨ urn.type = .warehouse)
    (h : currentState urn.type (remoteState urn graph snapshot) = some current) :
    snapshot.contains urn := by
  rw [Snapshot.contains_iff]
  cases hget : snapshot.get? urn with
  | some properties => exact ⟨properties, rfl⟩
  | none =>
    have hremote : remoteState urn graph snapshot = none := by
      rw [remoteState, hget, existsImplicitly]
      rcases htype with htype | htype
      · rw [htype]
        rfl
      · rw [htype]
        rfl
    rw [hremote] at h
    rcases htype with htype | htype
    · rw [htype] at h
      cases h
    · rw [htype] at h
      cases h

theorem nodeChange_cases (hbuild : build declarations config = .ok graph) (hn : n ∈ graph.nodes)
    (h : nodeChange n (remoteState n.urn graph snapshot) config = .ok c) :
    (IsRecreation snapshot c ∧ c.rejection = none) ∨ IsHarmless c := by
  obtain ⟨step, hstep, rfl⟩ := nodeChange_eq_ok_iff.mp h
  cases hcurrent : currentState n.urn.type (remoteState n.urn graph snapshot) with
  | none =>
    rw [hcurrent] at hstep
    simp only [stepTo, bind_eq_ok, pure_eq_ok] at hstep
    obtain ⟨statements, hstatements, rfl⟩ := hstep
    exact .inr (isHarmless_of_ne_replace (ne_of_beq_false rfl) rfl fun s hs =>
      keeps_of_mem_creation hstatements hs)
  | some current =>
    rw [hcurrent] at hstep
    rcases update_cases hstep with ⟨field, -, -, rfl⟩ |
      ⟨⟨field, hfield, himmutable⟩, dropping, creating, hdropping, hcreating, rfl⟩ |
      ⟨-, rfl | rfl⟩ | ⟨-, -, sql, hsql, rfl⟩
    · exact .inr ⟨fun _ => rfl, fun _ => rfl, List.forall_mem_nil _⟩
    · -- A grant is never replaced, so it is a view or a warehouse that is.
      have hgrant : ¬ n.urn.type.isGrant := by
        intro hgrant
        obtain ⟨spec, hspec, hurn, hproperties, -⟩ :=
          exists_isGrantSpec_of_mem_nodes hbuild hn hgrant
        rw [hurn, hproperties] at hfield
        rw [hurn, mutability_of_isGrantSpec hspec hfield] at himmutable
        cases himmutable
      have htype : n.urn.type = .view ∨ n.urn.type = .warehouse := by
        rcases type_of_immutable himmutable with htype | htype | htype
        · exact .inl htype
        · exact .inr htype
        · exact absurd htype hgrant
      have haccount : n.urn.type ≠ .account := by
        intro haccount
        exact (not_lasting htype).1 (haccount ▸ List.mem_cons_self)
      have hreported := contains_of_currentState htype hcurrent
      refine .inl ⟨⟨rfl, htype, hreported, ?_⟩, rfl⟩
      obtain ⟨sql, hsql, rfl⟩ := removal_eq_ok_iff.mp hdropping
      obtain rfl := Except.ok.inj ((render_remove hgrant haccount).symm.trans hsql)
      obtain ⟨sql, hsql, rfl⟩ := creation_eq_ok_iff.mp hcreating
      obtain ⟨text, rfl, htext⟩ := exists_creates_of_render hgrant haccount hsql
      exact ⟨_, _, _, rfl, rfl, htext, fun s hs => (keeps_of_mem_handOver hs).verb_ne_drop⟩
    · exact .inr (isHarmless_of_ne_replace (ne_of_beq_false rfl) rfl (List.forall_mem_nil _))
    · exact .inr (isHarmless_of_ne_replace (ne_of_beq_false rfl) rfl fun s hs =>
        keeps_of_mem_handOver hs)
    · refine .inr (isHarmless_of_ne_replace (ne_of_beq_false rfl) rfl fun s hs => ?_)
      rcases List.mem_append.mp hs with hs | hs
      · exact keeps_of_mem_change hsql hs
      · exact keeps_of_mem_handOver hs

/-- What a change leaves alone. -/
structure Spares (snapshot : Snapshot) (c : Change) : Prop where
  not_remove : c.action ≠ .remove
  rejected : c.isRejected → c.statements = []
  lasting : c.urn.type ∈ lastingTypes →
    (c.action = .replace → c.isRejected) ∧ ∀ s ∈ c.statements, verb s.sql ≠ "DROP"
  recreated : ∀ s ∈ c.statements, verb s.sql = "DROP" → IsRecreation snapshot c
  granted : c.urn.type.isGrant → ∀ s ∈ c.statements, verb s.sql = "REVOKE" → RevokesOption s.sql

theorem spares_of_nodeChange (hbuild : build declarations config = .ok graph) (hn : n ∈ graph.nodes)
    (h : nodeChange n (remoteState n.urn graph snapshot) config = .ok c) :
    Spares snapshot c := by
  have hnot : c.action ≠ .remove := by
    obtain ⟨step, hstep, rfl⟩ := nodeChange_eq_ok_iff.mp h
    exact stepTo_ne_remove hstep
  rcases nodeChange_cases hbuild hn h with ⟨hagain, hnone⟩ | hharmless
  · obtain ⟨hlasting, hgrant⟩ := not_lasting hagain.type
    refine ⟨hnot, fun hsome => ?_, fun htype => absurd htype hlasting, fun _ _ _ => hagain,
      fun hsome => absurd hsome hgrant⟩
    rw [Change.isRejected, hnone] at hsome
    cases hsome
  · obtain ⟨hreplace, hrejected, hkeeps⟩ := hharmless
    exact ⟨hnot, hrejected, fun _ => ⟨hreplace, fun s hs => (hkeeps s hs).verb_ne_drop⟩,
      fun s hs hdrop => absurd hdrop (hkeeps s hs).verb_ne_drop,
      fun _ s hs => (hkeeps s hs).revokesOption⟩

end Diff

namespace Reconciler

open Diff

variable {r : Reconciler} {declarations : List Declaration} {source : Source} {p : Plan}

/-- A plan that synchronises nothing removes nothing.  It drops no more than the reported views and
warehouses that it creates again, and takes no more from a grantee than the right to grant on. -/
theorem plan_spares (h : r.plan declarations source = .ok p)
    (hsync : r.config.syncResources = none) :
    ∃ graph snapshot, r.buildGraph declarations = .ok graph ∧
      r.fetch graph source = .ok snapshot ∧ ∀ c ∈ p.changes, Spares snapshot c := by
  obtain ⟨graph, hgraph, snapshot, hsnapshot, hplan⟩ := plan_eq_ok_iff.mp h
  obtain ⟨hbuild, -, -⟩ := buildGraph_eq_ok_iff.mp hgraph
  refine ⟨graph, snapshot, hgraph, hsnapshot, fun c hc => ?_⟩
  rcases change_cases hplan hc with ⟨n, hn, hnc⟩ | ⟨d, -, hcand, -⟩
  · exact spares_of_nodeChange hbuild hn hnc
  · exact absurd hcand (not_isCandidate_of_allowlist hsync d.urn)

/-! ## A warehouse that is replaced -/

def suspended (b : Bool) : Properties := SortedMap.empty.insert "initially_suspended" (.bool b)

def declaredWarehouse : Declaration where
  type := .warehouse
  name := "WH"
  container := []
  properties := suspended true
  references := .empty

def warehouseNode : Node where
  urn := warehouseUrn
  properties := suspended true
  dependencies := .empty
  external := .empty
  level := 0

def warehouseReplacement : Change :=
  changeOf warehouseNode (some (ResourceType.warehouse.canonical (suspended false)))
    (.ofAccount "A")
    { action := .replace
      statements := [⟨"SYSADMIN", "DROP WAREHOUSE WH"⟩,
        ⟨"SYSADMIN", "CREATE WAREHOUSE WH INITIALLY_SUSPENDED = TRUE"⟩] }

theorem plan_suspended :
    plain.plan [declaredWarehouse] (.static [⟨warehouseUrn, suspended false⟩] none) =
      .ok (.ofChanges [warehouseReplacement]) := by rfl

theorem replaces_warehouse :
    plain.plan [declaredWarehouse] (.static [⟨warehouseUrn, suspended false⟩] none) =
      .ok (.ofChanges [warehouseReplacement]) ∧
    plain.config.syncResources = none ∧
    ∃ snapshot, IsRecreation snapshot warehouseReplacement := by
  obtain ⟨_, snapshot, -, -, hspares⟩ := plan_spares plan_suspended rfl
  have hmem : warehouseReplacement ∈ (Plan.ofChanges [warehouseReplacement]).changes :=
    mem_ofChanges.mpr List.mem_cons_self
  have hdrop : verb "DROP WAREHOUSE WH" = "DROP" := verb_drop warehouseUrn
  exact ⟨plan_suspended, rfl, snapshot, (hspares _ hmem).recreated _ List.mem_cons_self hdrop⟩

end Reconciler
end Reconcile
