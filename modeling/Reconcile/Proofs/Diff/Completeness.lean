import Reconcile.Proofs.Diff.Confinement
import Reconcile.Proofs.Graph.Origin
import Reconcile.Proofs.Remote.Listing
/-!
What synchronisation finds.  Main statement: `removes_stray_iff`, every resource of a synchronised
type that nobody wants is removed, unless it is a privilege of a database role and database roles
are not looked for.
-/

namespace Reconcile

open Fallible ResourceGraph

/-! ## Records of a whole account -/

/-- Records as an account reports them: grants have the addresses of grants and grant one privilege
each, and whatever an address names is reported too. -/
structure IsRegular (held : List Record) : Prop where
  shape : ∀ x ∈ held, Grant.IsWellShaped x.urn
  concrete : ∀ x ∈ held, Grant.IsConcrete x.urn
  closed : ∀ x ∈ held, ∀ d ∈ x.urn.implied, d.type ≠ .account → d ∈ held.map Record.urn

namespace Fetch

variable {graph : ResourceGraph} {registry : Registry} {config : Config} {s : Snapshot}
  {held : List Record} {bulkError : Option FetchError} {u : Urn}

/-- Concrete privileges that are asked for place by place are found where one of the places is the
right one. -/
theorem mem_normalizeRemote_iff {type : ResourceType} {calls : Urn → Call} {places : List Urn}
    {rs : List Record} (shows : Urn → Urn → Bool)
    (hconcrete : ∀ x ∈ held, Grant.IsConcrete x.urn)
    (hcalls : ∀ place, Source.static held bulkError (calls place) =
      .ok (held.filter fun r => shows place r.urn))
    (h : outcome (merged (.static held bulkError) type calls places) = .ok rs) :
    u ∈ (Grant.normalizeRemote rs).map Record.urn ↔
      u ∈ held.map Record.urn ∧ ∃ place ∈ places, shows place u := by
  have hfound {v : Urn} : v ∈ rs.map Record.urn ↔
      v ∈ held.map Record.urn ∧ ∃ place ∈ places, shows place v := by
    rw [mem_urns_merged_iff h]
    simp only [hcalls, Except.ok.injEq, exists_eq_left', List.mem_map, List.mem_filter]
    constructor
    · intro hasked
      obtain ⟨place, hplace, r, ⟨hr, hshows⟩, rfl⟩ := hasked
      exact ⟨⟨r, hr, rfl⟩, place, hplace, hshows⟩
    · intro hheld
      obtain ⟨⟨r, hr, rfl⟩, place, hplace, hshows⟩ := hheld
      exact ⟨place, hplace, r, ⟨hr, hshows⟩, rfl⟩
  have hrs : ∀ r ∈ rs, Grant.IsConcrete r.urn := by
    intro r hr
    obtain ⟨x, hx, hurn⟩ := List.mem_map.mp (hfound.mp (List.mem_map_of_mem hr)).1
    exact hurn ▸ hconcrete x hx
  rw [Grant.normalizeRemote_of_isConcrete hrs, hfound]

theorem exists_wanted_of_grantee? {declarations : List Declaration}
    (hbuild : build declarations config = .ok graph) {n : Node} (hn : n ∈ graph.nodes)
    (hgrant : n.urn.type.isGrant) {g : Urn} (hg : n.urn.grantee? = some g)
    (htype : g.type = .databaseRole) : ∃ v, graph.Wants v ∧ v.type = .databaseRole := by
  obtain ⟨spec, hspec, hurn, -, hwants⟩ := exists_isGrantSpec_of_mem_nodes hbuild hn hgrant
  rw [hurn] at hg
  have hdependency {first grantee : Urn} (htype : grantee.type = .databaseRole) :
      grantee ∈ SortedSet.ofList ([first, grantee].filter fun d => d.type != .account) := by
    rw [SortedSet.mem_ofList, List.mem_filter, htype]
    exact ⟨by simp, rfl⟩
  cases hspec with
  | onObject privilege on grantee option =>
    have htype := (Urn.type_of_grantee? (Grant.to_objectUrn _ _ _ _) hg).symm.trans htype
    exact ⟨grantee, hwants grantee (hdependency htype), htype⟩
  | onObjects type privilege target container grantee option =>
    have htype := (Urn.type_of_grantee? (Grant.to_scopedUrn _ _ _ _ _ _) hg).symm.trans htype
    exact ⟨grantee, hwants grantee (hdependency htype), htype⟩
  | ofRole role grantee =>
    rcases Urn.type_of_grantee?_of_none (Grant.to_roleUrn _ _ _) hg with h | h
    · exact absurd (h.symm.trans htype) (by decide)
    · exact absurd (h.symm.trans htype) (by decide)

/-! ## Whom grants are looked for with -/

theorem mem_grantees_iff {objects : Snapshot} {g : Urn} : g ∈ grantees graph config objects ↔
    (∃ n ∈ graph.nodes, n.urn.type.isGrant ∧ n.urn.grantee? = some g) ∨
      config.allowlist.contains .grant ∧ objects.contains g ∧
        (g.type = .role ∨ g.type = .databaseRole) := by
  have hdeclared : g ∈ SortedSet.ofList
      ((graph.nodes.filter fun n => n.urn.type.isGrant).filterMap fun n => n.urn.grantee?) ↔
      ∃ n ∈ graph.nodes, n.urn.type.isGrant ∧ n.urn.grantee? = some g := by
    simp only [SortedSet.mem_ofList, List.mem_filterMap, List.mem_filter, and_assoc]
  have hroles : g ∈ (objects.toList.map Record.urn).filter
      (fun u => u.type == .role || u.type == .databaseRole) ↔
      objects.contains g ∧ (g.type = .role ∨ g.type = .databaseRole) := by
    rw [List.mem_filter, Snapshot.mem_urns_iff, Bool.or_eq_true, beq_iff_eq, beq_iff_eq]
  rw [grantees]
  cases hgrant : config.allowlist.contains .grant with
  | true =>
    show g ∈ SortedSet.insertMany _ _ ↔ _
    rw [SortedSet.mem_insertMany, hdeclared, hroles, and_iff_right rfl]
  | false =>
    show g ∈ SortedSet.ofList _ ↔ _
    rw [hdeclared, or_iff_left fun h => Bool.false_ne_true h.1]

theorem mem_containers {objects : Snapshot} {d : Urn} (hsync : syncsScopedGrants config)
    (hd : objects.contains d) (htype : d.type = .database ∨ d.type = .schema) :
    d ∈ containers graph config objects := by
  have hplaces : d ∈ (objects.toList.map Record.urn).filter
      (fun u => u.type == .database || u.type == .schema) := by
    rw [List.mem_filter, Snapshot.mem_urns_iff, Bool.or_eq_true, beq_iff_eq, beq_iff_eq]
    exact ⟨hd, htype⟩
  rw [containers, hsync]
  exact SortedSet.mem_insertMany.mpr (.inr hplaces)

/-! ## Synchronised privileges -/

/-- The privilege is overlooked: it is looked for with the grantees, its grantee is a database role,
and database roles are neither wanted nor synchronised. -/
structure IsOverlooked (config : Config) (bulkError : Option FetchError) (graph : ResourceGraph)
    (u : Urn) : Prop where
  type : u.type = .grant
  listing : config.grantFetch = .perObject ∨ bulkError.isSome
  grantee : ∃ d, u.paramUrn? "to" = some d ∧ d.type = .databaseRole
  unwanted : ∀ v, graph.Wants v → v.type ≠ .databaseRole
  unsynchronised : ¬ config.allowlist.contains .databaseRole

variable {declarations : List Declaration} (hbuild : build declarations config = .ok graph)
  (hscope : config.scope = .account) (hheld : IsRegular held)
  (hread : (snapshot graph registry config (.static held bulkError)).1 = .ok s)

include hscope in
theorem contains_managementScope (u : Urn) : config.managementScope.contains u := by
  rw [Config.managementScope, hscope]
  rfl

include hscope in
theorem contains_object {objects : Snapshot}
    (hobjects : ∀ u, objects.contains u ↔ ¬ u.type.isGrant ∧ u.type ∈ types graph config ∧
      ∃ rs, Source.static held bulkError (.list u.type (objectScope config)) = .ok rs ∧
        u ∈ rs.map Record.urn)
    (hu : u ∈ held.map Record.urn) (hgrant : ¬ u.type.isGrant)
    (htype : u.type ∈ types graph config) : objects.contains u :=
  (hobjects u).mpr ⟨hgrant, htype,
    list_static_iff.mpr ⟨hu, .inr (contains_managementScope hscope u)⟩⟩

include hheld in
theorem contains_scopedGrant {x : Record} (hx : x ∈ held)
    (hscoped : x.urn.type = .futureGrant ∨ x.urn.type = .grantOnAll) {scope : FetchScope}
    (hplaces : ∀ d ∈ held.map Record.urn, d.type = .database ∨ d.type = .schema →
      d ∈ scope.containers) {rs : List Record}
    (hrs : outcome (scopedGrants (.static held bulkError) x.urn.type scope) = .ok rs) :
    x.urn ∈ rs.map Record.urn := by
  obtain ⟨d, hd, htype⟩ := (hheld.shape x hx).container hscoped
  have hdheld := hheld.closed x hx d (hd.mem_implied (by decide))
    (ResourceType.not_isGrant_of_container htype).2
  obtain ⟨all, hall, rfl⟩ := scopedGrants_eq_ok hrs
  rw [mem_normalizeRemote_iff (fun place u =>
    u.type == x.urn.type && u.param? "in" == some place.reference) hheld.concrete
    (fun _ => rfl) hall]
  exact ⟨List.mem_map_of_mem hx, d, hplaces d hdheld htype, by simp [hd.param]⟩

theorem databaseRole_mem_types_iff : .databaseRole ∈ types graph config ↔
    (∃ v, graph.Wants v ∧ v.type = .databaseRole) ∨ config.allowlist.contains .databaseRole := by
  rw [mem_types_iff]
  refine or_congr Iff.rfl (or_iff_left fun h => ?_)
  rcases h with ⟨h, -⟩ | ⟨h | h, -⟩
  · cases h
  · cases h
  · cases h

include hbuild hscope hheld in
/-- A privilege on one object is found unless it is overlooked. -/
theorem contains_objectGrant_iff {objects : Snapshot}
    (hobjects : ∀ u, objects.contains u ↔ ¬ u.type.isGrant ∧ u.type ∈ types graph config ∧
      ∃ rs, Source.static held bulkError (.list u.type (objectScope config)) = .ok rs ∧
        u ∈ rs.map Record.urn)
    {x : Record} (hx : x ∈ held) (htype : x.urn.type = .grant)
    (hallowed : config.allowlist.contains .grant) {rs : List Record}
    (hrs : outcome (objectGrants (.static held bulkError) (grantScope graph config objects)) =
      .ok rs) :
    x.urn ∈ rs.map Record.urn ↔ ¬ IsOverlooked config bulkError graph x.urn := by
  rcases objectGrants_cases hrs with ⟨hbulk, all, hall, rfl⟩ | ⟨hlisting, all, hall, rfl⟩
  · have hbulk : config.grantFetch = .bulk := hbulk
    cases bulkError with
    | some e => cases hall
    | none =>
      obtain rfl := Except.ok.inj hall
      have hconcrete : ∀ r ∈ held.filter (fun r => r.urn.type == .grant),
          Grant.IsConcrete r.urn := fun r hr => hheld.concrete r (List.mem_filter.mp hr).1
      rw [Grant.normalizeRemote_of_isConcrete hconcrete]
      refine iff_of_true ?_ fun hover => ?_
      · exact List.mem_map_of_mem (List.mem_filter.mpr ⟨hx, by rw [htype]; rfl⟩)
      · rcases hover.listing with h | h
        · rw [hbulk] at h
          cases h
        · cases h
  · obtain ⟨d, hd, hdtype⟩ := (hheld.shape x hx).grantee htype
    have hfound : x.urn ∈ (Grant.normalizeRemote all).map Record.urn ↔
        ∃ place ∈ grantees graph config objects, d.reference = place.reference := by
      rw [mem_normalizeRemote_iff (fun place u =>
        u.type == .grant && u.param? "to" == some place.reference) hheld.concrete
        (fun _ => rfl) hall, and_iff_right (List.mem_map_of_mem hx)]
      simp only [htype, hd.param, Bool.and_eq_true, beq_iff_eq, true_and, Option.some.injEq]
      exact Iff.rfl
    rw [hfound]
    constructor
    · intro hasked hover
      obtain ⟨place, hplace, hreference⟩ := hasked
      obtain ⟨d', hd', hrole⟩ := hover.grantee
      obtain rfl := Option.some.inj (hd.read.symm.trans hd')
      have hplacetype : place.type = .databaseRole :=
        (Urn.type_eq_of_reference_eq hreference).symm.trans hrole
      -- A place is asked for a declared grant or because it was seen, and either way database
      -- roles are looked for.
      have hlooked : .databaseRole ∈ types graph config := by
        rcases mem_grantees_iff.mp hplace with ⟨n, hn, hgrant, hg⟩ | ⟨-, hseen, -⟩
        · exact mem_types_iff.mpr
            (.inl (exists_wanted_of_grantee? hbuild hn hgrant hg hplacetype))
        · exact hplacetype ▸ ((hobjects place).mp hseen).2.1
      rcases databaseRole_mem_types_iff.mp hlooked with ⟨v, hv, hvtype⟩ | hallowed
      · exact hover.unwanted v hv hvtype
      · exact hover.unsynchronised hallowed
    · intro hnot
      have hlooked : d.type ∈ types graph config := by
        rcases hdtype with hrole | hrole
        · rw [hrole]
          exact mem_types_iff.mpr (.inr (.inr (.inl ⟨rfl, .inl hallowed⟩)))
        · rw [hrole, databaseRole_mem_types_iff]
          by_contra hnone
          obtain ⟨hunwanted, hunsynchronised⟩ := not_or.mp hnone
          refine hnot ⟨htype, hlisting.imp_right fun hclosed => ?_, ⟨d, hd.read, hrole⟩,
            fun v hv hvtype => hunwanted ⟨v, hv, hvtype⟩, hunsynchronised⟩
          obtain ⟨e, he⟩ := hclosed
          cases bulkError with
          | some _ => rfl
          | none => cases he
      have hdgrant := ResourceType.not_isGrant_of_role hdtype
      have hdheld := hheld.closed x hx d (hd.mem_implied (by decide)) hdgrant.2
      have hseen := contains_object hscope hobjects hdheld hdgrant.1 hlooked
      exact ⟨d, mem_grantees_iff.mpr (.inr ⟨hallowed, hseen, hdtype⟩), rfl⟩

include hbuild hscope hheld hread in
theorem contains_iff_not_isOverlooked {x : Record} (hx : x ∈ held)
    (hallowed : config.allowlist.contains x.urn.type) :
    s.contains x.urn ↔ ¬ IsOverlooked config bulkError graph x.urn := by
  obtain ⟨objects, hobjects, hplain, hgrants⟩ := exists_objects hread
  have hlooked : x.urn.type ∈ types graph config := mem_types_iff.mpr (.inr (.inl hallowed))
  have hxheld : x.urn ∈ held.map Record.urn := List.mem_map_of_mem hx
  by_cases hgrant : x.urn.type.isGrant
  · obtain ⟨rs, hrs, hs⟩ := hgrants x.urn hgrant hlooked
    rw [hs]
    by_cases htype : x.urn.type = .grant
    · rw [htype] at hrs hallowed
      exact contains_objectGrant_iff hbuild hscope hheld hobjects hx htype hallowed hrs
    · refine iff_of_true ?_ fun hover => htype hover.type
      by_cases hscoped : x.urn.type = .futureGrant ∨ x.urn.type = .grantOnAll
      · have hsync : syncsScopedGrants config := by
          rw [syncsScopedGrants, Bool.or_eq_true]
          rcases hscoped with h | h
          · exact .inl (h ▸ hallowed)
          · exact .inr (h ▸ hallowed)
        have hrs : outcome (scopedGrants (.static held bulkError) x.urn.type
            (grantScope graph config objects)) = .ok rs := by
          rcases hscoped with h | h
          · rw [h] at hrs ⊢
            exact hrs
          · rw [h] at hrs ⊢
            exact hrs
        refine contains_scopedGrant hheld hx hscoped (fun d hd hdtype => ?_) hrs
        have hdlooked : d.type ∈ types graph config :=
          mem_types_iff.mpr (.inr (.inr (.inr ⟨hdtype, hsync⟩)))
        have hdgrant := ResourceType.not_isGrant_of_container hdtype
        exact mem_containers hsync (contains_object hscope hobjects hd hdgrant.1 hdlooked) hdtype
      · have hprivilege : ¬ x.urn.type.isPrivilege := by
          revert htype hscoped
          cases x.urn.type <;> decide
        rw [listing_of_not_isPrivilege hprivilege, records_eq_ok_iff] at hrs
        exact (exists_eq_ok_iff hrs).mp
          (list_static_iff.mpr ⟨hxheld, .inr (contains_managementScope hscope x.urn)⟩)
  · refine iff_of_true ((hplain _ hgrant).mpr ?_) fun hover => hgrant (by rw [hover.type]; rfl)
    exact contains_object hscope hobjects hxheld hgrant hlooked

end Fetch

/-! ## Removals -/

namespace Diff

theorem countP_removals_eq_one_iff {changes : List Change}
    (hnodup : (changes.map Change.urn).Nodup) {u : Urn} :
    changes.countP (fun c => c.action == .remove && c.urn == u) = 1 ↔
      ∃ c ∈ changes, c.action = .remove ∧ c.urn = u := by
  have hle : changes.countP (fun c => c.action == .remove && c.urn == u) ≤ 1 :=
    calc changes.countP (fun c => c.action == .remove && c.urn == u)
        ≤ changes.countP (fun c => c.urn == u) :=
          List.countP_mono_left fun c _ h => (Bool.and_eq_true_iff.mp h).2
      _ = (changes.map Change.urn).count u := by
          rw [List.count, List.countP_map]
          rfl
      _ ≤ 1 := List.nodup_iff_count_le_one.mp hnodup u
  have hpos : 0 < changes.countP (fun c => c.action == .remove && c.urn == u) ↔
      ∃ c ∈ changes, c.action = .remove ∧ c.urn = u := by
    simp only [List.countP_pos_iff, Bool.and_eq_true, beq_iff_eq]
  rw [← hpos]
  omega

end Diff

namespace Reconciler

open Diff

variable {r : Reconciler} {declarations : List Declaration} {held : List Record}
  {bulkError : Option FetchError} {p : Plan}

/-- Synchronising a whole account removes every reported resource of a synchronised type that is
neither wanted nor the account's own, once, unless it is overlooked. -/
theorem removes_stray_iff (h : r.plan declarations (.static held bulkError) = .ok p)
    (hscope : r.config.scope = .account) (hheld : IsRegular held) :
    ∃ graph, r.buildGraph declarations = .ok graph ∧
      ∀ x ∈ held, r.config.allowlist.contains x.urn.type → ¬ graph.Wants x.urn →
        ¬ isSystemManaged x.urn →
        (p.changes.countP (fun c => c.action == .remove && c.urn == x.urn) = 1 ↔
          ¬ Fetch.IsOverlooked r.config bulkError graph x.urn) := by
  obtain ⟨graph, hgraph, snapshot, hsnapshot, hplan⟩ := plan_eq_ok_iff.mp h
  obtain ⟨hbuild, -, -⟩ := buildGraph_eq_ok_iff.mp hgraph
  refine ⟨graph, hgraph, fun x hx hallowed hstray hmanaged => ?_⟩
  have hcand : isCandidate graph r.config x.urn := by
    refine isCandidate_iff.mpr ⟨hallowed, fun hdeclared => ?_, fun hexternal => ?_,
      Fetch.contains_managementScope hscope x.urn, hmanaged⟩
    · exact hstray (.inl (contains_iff.mp hdeclared))
    · exact hstray (.inr (SortedSet.contains_iff.mp hexternal))
  have hsupports : x.urn.type.supportsRemove := by
    cases htype : x.urn.type with
    | account => exact absurd (isSystemManaged_of_ownedByAccount (.account htype)) hmanaged
    | _ => rfl
  rw [countP_removals_eq_one_iff (nodup_urns (wellFormed_of_build hbuild) hplan),
    exists_removal_iff hplan,
    Fetch.contains_iff_not_isOverlooked hbuild hscope hheld hsnapshot hx hallowed]
  exact and_iff_left ⟨hcand, hsupports⟩

/-! ## Grantees that are looked for, and grantees that are not -/

def syncsGrants : Reconciler :=
  ⟨{ account := "A", syncResources := some [.grant] }, .builtin, rfl⟩

def roleUrn : Urn := .ofRole "A" "R"

def readerUrn : Urn := .ofNames "A" .databaseRole ["DB"] "READER"

def usageUrn (grantee : Urn) : Urn := Grant.objectUrn "A" "USAGE" databaseUrn grantee

def heldBy (grantee : Urn) : List Record :=
  [⟨databaseUrn, .empty⟩, ⟨grantee, .empty⟩,
    ⟨usageUrn grantee, Declaration.grantProperties false⟩]

theorem isRegular_heldBy {grantee : Urn}
    (htype : grantee.type = .role ∨ grantee.type = .databaseRole)
    (hread : Grant.IsReadable "A" grantee) (hpriv : grantee.param? "priv" = none)
    (hgrantee : ∀ d ∈ grantee.implied, d = databaseUrn)
    (husage : (usageUrn grantee).implied = [databaseUrn, grantee]) :
    IsRegular (heldBy grantee) := by
  have hprivilege : ¬ grantee.type.isPrivilege :=
    mt ResourceType.isGrant_of_isPrivilege (ResourceType.not_isGrant_of_role htype).1
  have hdatabase : databaseUrn ∈ (heldBy grantee).map Record.urn := List.mem_cons_self
  have hmem : grantee ∈ (heldBy grantee).map Record.urn := by simp [heldBy]
  refine ⟨?_, ?_, ?_⟩
  · simp only [heldBy, List.forall_mem_cons]
    exact ⟨Grant.isWellShaped_of_not_isPrivilege (by decide),
      Grant.isWellShaped_of_not_isPrivilege hprivilege,
      Grant.isWellShaped_objectUrn htype hread, List.forall_mem_nil _⟩
  · simp only [heldBy, List.forall_mem_cons]
    refine ⟨fun p hp => (nomatch hp), fun p hp => ?_, fun p hp => ?_, List.forall_mem_nil _⟩
    · rw [hpriv] at hp
      cases hp
    · have hp : (usageUrn grantee).param? "priv" = some p := hp
      rw [usageUrn, Grant.priv_objectUrn] at hp
      obtain rfl := Option.some.inj hp
      decide
  · intro x hx d hd _
    simp only [heldBy, List.mem_cons, List.not_mem_nil, or_false] at hx
    rcases hx with rfl | rfl | rfl
    · cases hd
    · rw [hgrantee d hd]
      exact hdatabase
    · have hd : d ∈ (usageUrn grantee).implied := hd
      rw [husage] at hd
      rcases List.mem_cons.mp hd with rfl | hd
      · exact hdatabase
      · rw [List.mem_singleton.mp hd]
        exact hmem

theorem implied_roleUsage : (usageUrn roleUrn).implied = [databaseUrn, roleUrn] := by decide

theorem isRegular_heldByRole : IsRegular (heldBy roleUrn) :=
  isRegular_heldBy (.inl rfl) rfl rfl (fun _ h => nomatch h) implied_roleUsage

theorem implied_readerUsage : (usageUrn readerUrn).implied = [databaseUrn, readerUrn] := by decide

theorem isRegular_heldByReader : IsRegular (heldBy readerUrn) :=
  isRegular_heldBy (.inr rfl) rfl rfl (fun _ h => List.mem_singleton.mp h) implied_readerUsage

theorem not_isSystemManaged_usage {grantee : Urn}
    (htype : grantee.type = .role ∨ grantee.type = .databaseRole)
    (himplied : (usageUrn grantee).implied = [databaseUrn, grantee]) :
    ¬ isSystemManaged (usageUrn grantee) := by
  rw [isSystemManaged_of_privilege rfl, himplied]
  intro hmanaged
  obtain ⟨d, hd, hgrantee, hmanaged⟩ := hmanaged
  rcases List.mem_cons.mp hd with rfl | hd
  · rw [isSystemManaged_of_not_privilege (by decide)] at hmanaged
    exact absurd hmanaged (by decide)
  · rw [List.mem_singleton.mp hd] at hgrantee
    refine hgrantee ?_
    rcases htype with h | h
    · rw [h]
      rfl
    · rw [h]
      rfl

def roleView : Snapshot :=
  (Snapshot.empty.addListing .role [⟨roleUrn, .empty⟩]).addListing .grant
    [⟨usageUrn roleUrn, Declaration.grantProperties false⟩]

theorem fetch_heldByRole :
    syncsGrants.fetch ⟨[]⟩ (.static (heldBy roleUrn) none) = .ok roleView := by rfl

def usageRemoval : Change :=
  removalOf [usageUrn roleUrn] 0 ⟨usageUrn roleUrn, Declaration.grantProperties false⟩
    [⟨"SECURITYADMIN", "REVOKE USAGE ON DATABASE DB FROM ROLE R"⟩]

theorem plan_heldByRole : syncsGrants.plan [] (.static (heldBy roleUrn) none) =
    .ok (.ofChanges [usageRemoval]) := by
  have hcand : isCandidate ⟨[]⟩ syncsGrants.config (usageUrn roleUrn) = true :=
    isCandidate_iff.mpr ⟨rfl, by decide, by decide, rfl,
      not_isSystemManaged_usage (.inl rfl) implied_roleUsage⟩
  have hfound : roleView.toList.filter (fun r => isCandidate ⟨[]⟩ syncsGrants.config r.urn) =
      [⟨usageUrn roleUrn, Declaration.grantProperties false⟩] := by
    show [Record.mk roleUrn .empty, ⟨usageUrn roleUrn, Declaration.grantProperties false⟩].filter
      (fun r => isCandidate ⟨[]⟩ syncsGrants.config r.urn) = _
    rw [List.filter_cons_of_neg Bool.false_ne_true, List.filter_cons, if_pos hcand]
    rfl
  have hcandidates : candidates ⟨[]⟩ roleView .builtin syncsGrants.config =
      .ok [⟨usageUrn roleUrn, Declaration.grantProperties false⟩] := by
    rw [candidates, hfound]
    rfl
  have hremovals : removals ⟨[]⟩ roleView .builtin syncsGrants.config 0 = .ok [usageRemoval] :=
    removals_eq_ok_iff.mpr ⟨_, hcandidates, .cons rfl .nil⟩
  refine plan_eq_ok_iff.mpr ⟨⟨[]⟩, rfl, roleView, fetch_heldByRole, ?_⟩
  exact Diff.plan_eq_ok_iff.mpr ⟨rfl, [], rfl, _, hremovals, rfl⟩

theorem usage_mem_heldBy (grantee : Urn) :
    ⟨usageUrn grantee, Declaration.grantProperties false⟩ ∈ heldBy grantee := by simp [heldBy]

theorem removes_usage_of_role :
    syncsGrants.plan [] (.static (heldBy roleUrn) none) = .ok (.ofChanges [usageRemoval]) ∧
    IsRegular (heldBy roleUrn) ∧
    (Plan.ofChanges [usageRemoval]).changes.countP
      (fun c => c.action == .remove && c.urn == usageUrn roleUrn) = 1 := by
  obtain ⟨graph, hgraph, hstray⟩ := removes_stray_iff plan_heldByRole rfl isRegular_heldByRole
  obtain rfl : ⟨[]⟩ = graph := Except.ok.inj hgraph
  refine ⟨plan_heldByRole, isRegular_heldByRole, ?_⟩
  refine (hstray _ (usage_mem_heldBy roleUrn) rfl (by rintro (h | h) <;> cases h)
    (not_isSystemManaged_usage (.inl rfl) implied_roleUsage)).mpr fun hover => ?_
  obtain ⟨d, hd, hrole⟩ := hover.grantee
  obtain rfl : roleUrn = d := Option.some.inj hd
  cases hrole

/-- A privilege that nobody declares is left to a database role, although it is reported, of a
synchronised type and none of the account's own. -/
theorem keeps_usage_of_databaseRole :
    syncsGrants.plan [] (.static (heldBy readerUrn) none) = .ok (.ofChanges []) ∧
    syncsGrants.config.scope = .account ∧ IsRegular (heldBy readerUrn) ∧
    ((heldBy readerUrn).map Record.urn).Nodup ∧
    usageUrn readerUrn ∈ (heldBy readerUrn).map Record.urn ∧
    syncsGrants.config.allowlist.contains (usageUrn readerUrn).type ∧
    ¬ isSystemManaged (usageUrn readerUrn) ∧
    ∃ graph, syncsGrants.buildGraph [] = .ok graph ∧ ¬ graph.Wants (usageUrn readerUrn) := by
  refine ⟨by rfl, rfl, isRegular_heldByReader, by decide,
    List.mem_map_of_mem (usage_mem_heldBy readerUrn), rfl,
    not_isSystemManaged_usage (.inr rfl) implied_readerUsage, ⟨[]⟩, rfl, ?_⟩
  rintro (h | h) <;> cases h

end Reconciler
end Reconcile
