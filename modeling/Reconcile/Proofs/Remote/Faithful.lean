import Reconcile.Proofs.Diff.Completeness
import Reconcile.Proofs.Grant.Dependencies
import Reconcile.Proofs.Remote.GrantListing
/-!
What a view shows of declared resources.  Main statement: `fetch_is_faithful`, a view read for a
graph shows of each of its nodes what a view of the whole account does.
-/

namespace Reconcile

open Fallible

namespace Record

theorem Consistent.mono {rs ts : List Record} (h : Consistent ts) (hsub : ∀ r ∈ rs, r ∈ ts) :
    Consistent rs := fun r hr t ht => h r (hsub r hr) t (hsub t ht)

end Record

namespace Snapshot

variable {s : Snapshot} {rs : List Record} {type : ResourceType} {u : Urn} {p : Properties}

theorem get?_foldl_insert (rs : List Record) (s : Snapshot) (u : Urn) :
    (rs.foldl insert s).get? u =
      ((SortedMap.ofList (rs.map Record.entry)).get? u).or (s.get? u) := by
  rw [get?, records_foldl_insert, SortedMap.get?_foldl_insert, SortedMap.ofList,
    SortedMap.get?_foldl_insert, SortedMap.get?_empty, Option.or_none]
  rfl

theorem get?_addListing_of_ne (rs : List Record) (htype : u.type ≠ type) :
    (s.addListing type rs).get? u = s.get? u := by
  have hnone : (SortedMap.ofList ((rs.filter fun r => r.urn.type == type).map Record.entry)).get? u
      = none := by
    rw [Option.eq_none_iff_forall_ne_some]
    intro p hp
    have hentry := SortedMap.mem_of_mem_ofList (SortedMap.get?_eq_some_iff.mp hp)
    obtain ⟨r, hr, heq⟩ := List.mem_map.mp hentry
    obtain ⟨rfl, rfl⟩ := Prod.mk.inj heq
    exact htype (beq_iff_eq.mp (List.mem_filter.mp hr).2)
  rw [addListing, get?_foldl_insert, hnone]
  rfl

/-- Of resources of which nothing was known, a listing for their type tells what it says. -/
theorem get?_addListing_iff (hnone : s.get? u = none) (hrs : Record.Consistent rs) :
    (s.addListing u.type rs).get? u = some p ↔ ⟨u, p⟩ ∈ rs := by
  have hlisted : Record.Consistent (rs.filter fun r => r.urn.type == u.type) :=
    hrs.mono fun r hr => (List.mem_filter.mp hr).1
  have hbefore : ({ s with fetched := s.fetched.insert u.type } : Snapshot).get? u = none := hnone
  rw [addListing, get?_foldl_insert, hbefore, Option.or_none, get?_ofList_entry_iff hlisted,
    List.mem_filter]
  exact and_iff_left (beq_self_eq_true u.type)

end Snapshot

namespace Grant

variable {held : List Record} {e r : Record} {u : Urn} {key : String}

theorem param?_of_mem_normalizeRecord (h : e ∈ normalizeRecord r) (hkey : "priv" ≠ key) :
    e.urn.param? key = r.urn.param? key := by
  rw [normalizeRecord] at h
  split at h
  · cases h
  · rw [List.mem_singleton.mp h]
  · obtain ⟨p, -, rfl⟩ := List.mem_map.mp h
    exact (Urn.param?_withParam _ _ _ _).trans (if_neg hkey)

theorem mem_normalizeRemote_iff_mem (hpriv : e.urn.param? "priv" = none) :
    e ∈ normalizeRemote held ↔ e ∈ held := by
  rw [normalizeRemote, List.mem_flatMap]
  constructor
  · intro hread
    obtain ⟨r, hr, he⟩ := hread
    rw [normalizeRecord] at he
    split at he
    · cases he
    · rwa [List.mem_singleton.mp he]
    · obtain ⟨p, -, rfl⟩ := List.mem_map.mp he
      rw [Urn.param?_withParam, if_pos rfl] at hpriv
      cases hpriv
  · intro he
    have hitself : reported e.urn = .itself := by
      rw [reported, hpriv]
    exact ⟨e, he, by rw [normalizeRecord, hitself]; exact List.mem_cons_self⟩

theorem normalizeRemote_subset {found : List Record} (h : ∀ r ∈ found, r ∈ held) :
    ∀ e ∈ normalizeRemote found, e ∈ normalizeRemote held := by
  intro e he
  obtain ⟨r, hr, her⟩ := List.mem_flatMap.mp he
  exact List.mem_flatMap.mpr ⟨r, h r hr, her⟩

end Grant

namespace Fetch

open ResourceGraph

variable {source : Source} {registry : Registry} {scope : FetchScope} {type : ResourceType}
  {listed : List ResourceType} {s s' : Snapshot} {u : Urn} {p : Properties}

/-! ## A view by its listings -/

theorem get?_addListings_of_not_mem
    (h : outcome (addListings registry source scope listed s) = .ok s')
    (htype : u.type ∉ listed) : s'.get? u = s.get? u := by
  induction listed generalizing s with
  | nil =>
    obtain rfl : s = s' := pure_eq_ok.mp h
    rfl
  | cons first listed ih =>
    obtain ⟨rs, -, h⟩ := exists_of_addListings_cons h
    obtain ⟨hne, hnot⟩ := not_or.mp (mt List.mem_cons.mpr htype)
    rw [ih h hnot, Snapshot.get?_addListing_of_ne rs hne]

/-- Each type is listed once, and its listing alone tells of its resources. -/
theorem exists_listing_of_addListings
    (h : outcome (addListings registry source scope listed s) = .ok s')
    (hnodup : listed.Nodup) (htype : u.type ∈ listed) (hnone : s.get? u = none) :
    ∃ rs, outcome (listing source scope u.type) = .ok rs ∧
      (Record.Consistent rs → ∀ p, s'.get? u = some p ↔ ⟨u, p⟩ ∈ rs) := by
  induction listed generalizing s with
  | nil => cases htype
  | cons first listed ih =>
    obtain ⟨rs, hrs, h⟩ := exists_of_addListings_cons h
    obtain ⟨hnot, hnodup⟩ := List.nodup_cons.mp hnodup
    rcases List.mem_cons.mp htype with rfl | hmem
    · refine ⟨rs, hrs, fun hconsistent p => ?_⟩
      rw [get?_addListings_of_not_mem h hnot, Snapshot.get?_addListing_iff hnone hconsistent]
    · have hne : u.type ≠ first := fun heq => hnot (heq ▸ hmem)
      exact ih h hnodup hmem ((Snapshot.get?_addListing_of_ne rs hne).trans hnone)

variable {graph : ResourceGraph} {config : Config}

theorem exists_listings (h : (snapshot graph registry config source).1 = .ok s) :
    ∃ objects : Snapshot, ∀ u, u.type ∈ types graph config →
      ∃ rs, outcome (listing source (scopeFor graph config objects u.type) u.type) = .ok rs ∧
        (Record.Consistent rs → ∀ p, s.get? u = some p ↔ ⟨u, p⟩ ∈ rs) := by
  obtain ⟨objects, hobjects, h⟩ := exists_parts h
  have hnodup := (types graph config).nodup_elements
  refine ⟨objects, fun u htype => ?_⟩
  rw [scopeFor]
  split
  next hgrant =>
    -- The first part lists no grants.
    have hnone : objects.get? u = none :=
      get?_addListings_of_not_mem hobjects fun hmem => by simp [hgrant] at hmem
    exact exists_listing_of_addListings h (hnodup.filter _) (List.mem_filter.mpr ⟨htype, hgrant⟩)
      hnone
  next hgrant =>
    have hnot : u.type ∉ (types graph config).elements.filter ResourceType.isGrant :=
      fun hmem => hgrant (List.mem_filter.mp hmem).2
    have hmem : u.type ∈ (types graph config).elements.filter fun t => !t.isGrant :=
      List.mem_filter.mpr ⟨htype, by simpa using hgrant⟩
    obtain ⟨rs, hrs, hget⟩ :=
      exists_listing_of_addListings hobjects (hnodup.filter _) hmem rfl
    refine ⟨rs, hrs, fun hconsistent p => ?_⟩
    rw [get?_addListings_of_not_mem h hnot, hget hconsistent]

/-! ## Listings of fixed records -/

variable {held : List Record} {bulkError : Option FetchError} {rs : List Record} {e r : Record}

theorem mem_merged_static_iff {calls : Urn → Call} {places : List Urn} {all : List Record}
    (shows : Urn → Urn → Bool) (hnodup : (held.map Record.urn).Nodup)
    (hcalls : ∀ place, Source.static held bulkError (calls place) =
      .ok (held.filter fun r => shows place r.urn))
    (h : outcome (merged (.static held bulkError) type calls places) = .ok all) :
    r ∈ all ↔ r ∈ held ∧ ∃ place ∈ places, shows place r.urn := by
  have hfound (r : Record) : r ∈ (places.flatMap fun place => held.filter fun r =>
      shows place r.urn) ↔ r ∈ held ∧ ∃ place ∈ places, shows place r.urn := by
    simp only [List.mem_flatMap, List.mem_filter]
    tauto
  have hconsistent : Record.Consistent (places.flatMap fun place => held.filter fun r =>
      shows place r.urn) :=
    (Record.consistent_of_nodup hnodup).mono fun r hr => ((hfound r).mp hr).1
  obtain rfl := Except.ok.inj ((outcome_merged hcalls places).symm.trans h)
  rw [Snapshot.mem_toList_foldl_insert_iff hconsistent, hfound]

/-- A resource is where a listing of its type looks for it. -/
structure IsInReach (scope : FetchScope) (u : Urn) : Prop where
  object : ¬ u.type.isPrivilege →
    u.param? "priv" = none ∧ (u.type.depth = .account ∨ scope.management.contains u)
  grantee : u.type = .grant → ∃ g ∈ scope.grantees, u.param? "to" = some g.reference
  container : u.type = .futureGrant ∨ u.type = .grantOnAll →
    ∃ d ∈ scope.containers, u.param? "in" = some d.reference

/-- What a listing of privileges is read from: held records, among them all of the type that are in
its reach. -/
theorem exists_of_listing_static (hnodup : (held.map Record.urn).Nodup)
    (hprivilege : type.isPrivilege)
    (h : outcome (listing (.static held bulkError) scope type) = .ok rs) :
    ∃ found, rs = Grant.normalizeRemote found ∧ (∀ r ∈ found, r ∈ held) ∧
      ∀ r ∈ held, r.urn.type = type → IsInReach scope r.urn → r ∈ found := by
  have hscoped (htype : type = .futureGrant ∨ type = .grantOnAll)
      (h : outcome (scopedGrants (.static held bulkError) type scope) = .ok rs) :
      ∃ found, rs = Grant.normalizeRemote found ∧ (∀ r ∈ found, r ∈ held) ∧
        ∀ r ∈ held, r.urn.type = type → IsInReach scope r.urn → r ∈ found := by
    obtain ⟨found, hfound, rfl⟩ := scopedGrants_eq_ok h
    have hmem {r : Record} := mem_merged_static_iff (r := r) (fun place u =>
      u.type == type && u.param? "in" == some place.reference) hnodup (fun _ => rfl) hfound
    refine ⟨found, rfl, fun r hr => (hmem.mp hr).1, fun r hr hrtype hreach => ?_⟩
    obtain ⟨d, hd, hin⟩ := hreach.container (hrtype ▸ htype)
    exact hmem.mpr ⟨hr, d, hd, by simp [hrtype, hin]⟩
  cases type with
  | grant =>
    rcases objectGrants_cases h with ⟨-, found, hfound, rfl⟩ | ⟨-, found, hfound, rfl⟩
    · cases bulkError with
      | some e => cases hfound
      | none =>
        obtain rfl := Except.ok.inj hfound
        refine ⟨_, rfl, fun r hr => (List.mem_filter.mp hr).1, fun r hr hrtype _ => ?_⟩
        exact List.mem_filter.mpr ⟨hr, beq_iff_eq.mpr hrtype⟩
    · have hmem {r : Record} := mem_merged_static_iff (r := r) (fun place u =>
        u.type == .grant && u.param? "to" == some place.reference) hnodup (fun _ => rfl) hfound
      refine ⟨found, rfl, fun r hr => (hmem.mp hr).1, fun r hr hrtype hreach => ?_⟩
      obtain ⟨g, hg, hto⟩ := hreach.grantee hrtype
      exact hmem.mpr ⟨hr, g, hg, by simp [hrtype, hto]⟩
  | futureGrant => exact hscoped (.inl rfl) h
  | grantOnAll => exact hscoped (.inr rfl) h
  | _ => cases hprivilege

theorem eq_of_listing_static (hprivilege : ¬ type.isPrivilege)
    (h : outcome (listing (.static held bulkError) scope type) = .ok rs) :
    rs = held.filter fun r => Source.isListed type scope.management r.urn := by
  rw [listing_of_not_isPrivilege hprivilege, records_eq_ok_iff] at h
  exact (Except.ok.inj h).symm

theorem consistent_listing_static (hnodup : (held.map Record.urn).Nodup)
    (hnormal : Record.Consistent (Grant.normalizeRemote held))
    (h : outcome (listing (.static held bulkError) scope type) = .ok rs) :
    Record.Consistent rs := by
  by_cases hprivilege : type.isPrivilege
  · obtain ⟨found, rfl, hsub, -⟩ := exists_of_listing_static hnodup hprivilege h
    exact hnormal.mono (Grant.normalizeRemote_subset hsub)
  · obtain rfl := eq_of_listing_static hprivilege h
    exact (Record.consistent_of_nodup hnodup).mono fun r hr => (List.mem_filter.mp hr).1

theorem mem_listing_static_iff (hnodup : (held.map Record.urn).Nodup)
    (h : outcome (listing (.static held bulkError) scope e.urn.type) = .ok rs)
    (hreach : IsInReach scope e.urn) : e ∈ rs ↔ e ∈ Grant.normalizeRemote held := by
  by_cases hprivilege : e.urn.type.isPrivilege
  · obtain ⟨found, rfl, hsub, hfound⟩ := exists_of_listing_static hnodup hprivilege h
    refine ⟨Grant.normalizeRemote_subset hsub e, fun he => ?_⟩
    obtain ⟨r, hr, her⟩ := List.mem_flatMap.mp he
    have htype := (Grant.of_mem_normalizeRecord her).2
    have hrreach : IsInReach scope r.urn := by
      refine ⟨fun hnot => absurd hprivilege (htype ▸ hnot), ?_, ?_⟩
      · rw [← htype, ← Grant.param?_of_mem_normalizeRecord her (by decide)]
        exact hreach.grantee
      · rw [← htype, ← Grant.param?_of_mem_normalizeRecord her (by decide)]
        exact hreach.container
    exact List.mem_flatMap.mpr ⟨r, hfound r hr htype.symm hrreach, her⟩
  · obtain rfl := eq_of_listing_static hprivilege h
    obtain ⟨hpriv, hseen⟩ := hreach.object hprivilege
    rw [Grant.mem_normalizeRemote_iff_mem hpriv, List.mem_filter]
    exact and_iff_left (by simp [Source.isListed, hseen])

/-! ## Declared resources are in reach -/

theorem mem_containers_of_declared {n : Node} (hn : n ∈ graph.nodes) {reference : String} {d : Urn}
    (hin : n.urn.param? "in" = some reference)
    (hd : Urn.ofReference config.account reference = .ok d) (objects : Snapshot) :
    d ∈ containers graph config objects := by
  have hdeclared : d ∈ graph.nodes.filterMap fun n =>
      (n.urn.param? "in").bind fun place => (Urn.ofReference config.account place).toOption := by
    refine List.mem_filterMap.mpr ⟨n, hn, ?_⟩
    rw [hin, Option.bind_some, hd]
    rfl
  have hset := SortedSet.mem_ofList.mpr hdeclared
  rw [containers]
  cases syncsScopedGrants config with
  | true => exact SortedSet.mem_insertMany.mpr (.inl hset)
  | false => exact hset

/-- What is mentioned in the declarations of grants can be read again. -/
def NamesReadably (declarations : List Declaration) : Prop :=
  ∀ d ∈ declarations, d.type.isGrant → ∀ r ∈ d.references.values, r.IsWellFormed

variable {declarations : List Declaration} {n : Node}

theorem priv_of_mem_nodes (hbuild : build declarations config = .ok graph) (hn : n ∈ graph.nodes)
    (hprivilege : ¬ n.urn.type.isPrivilege) : n.urn.param? "priv" = none := by
  by_cases hgrant : n.urn.type.isGrant
  · obtain ⟨spec, hspec, hurn, -, -⟩ := exists_isGrantSpec_of_mem_nodes hbuild hn hgrant
    rw [hurn] at hprivilege ⊢
    cases hspec with
    | onObject => exact absurd rfl hprivilege
    | onObjects type privilege target container grantee option htype =>
      refine absurd ?_ hprivilege
      rcases htype with rfl | rfl
      · rfl
      · rfl
    | ofRole role grantee =>
      have hkey : (if grantee.type = .user then "user" else "role") ≠ "priv" := by
        split
        · decide
        · decide
      exact (Grant.param?_roleUrn _ _ _ _).trans (if_neg hkey)
  · rw [Urn.param?, params_of_mem_nodes hbuild hn hgrant]
    rfl

theorem exists_grantee_of_mem_nodes (hbuild : build declarations config = .ok graph)
    (hformed : NamesReadably declarations) (hn : n ∈ graph.nodes) (htype : n.urn.type = .grant)
    (objects : Snapshot) :
    ∃ g ∈ grantees graph config objects, n.urn.param? "to" = some g.reference := by
  obtain ⟨d, hd, own, hown, s, hs, hurn, -, -⟩ := exists_ingest_of_mem_nodes hbuild hn
  have hdtype : d.type = .grant :=
    (Declaration.type_of_ingest hown hs).symm.trans (hurn ▸ htype)
  rw [Declaration.ingest, hdtype] at hown
  obtain ⟨on, grantee, option, p, -, hto, -, rfl⟩ := Declaration.exists_of_ingestGrant hown hs
  have hlegible := Declaration.isLegible_of_requiredReference
    (hformed d hd (by rw [hdtype]; rfl)) hto
  have hparam : n.urn.param? "to" = some grantee.reference := by
    rw [hurn]
    exact Grant.to_objectUrn _ _ _ _
  have haccount : n.urn.account = config.account := by
    rw [hurn]
    rfl
  have hgrantee : n.urn.grantee? =
      some { grantee with account := config.account, params := .empty } := by
    rw [Urn.grantee?, hparam, haccount]
    show (Urn.ofReference config.account grantee.reference).toOption = _
    rw [Urn.ofReference_of_isLegible hlegible]
    rfl
  exact ⟨_, mem_grantees_iff.mpr (.inl ⟨n, hn, by rw [htype]; rfl, hgrantee⟩), hparam⟩

theorem exists_container_of_mem_nodes (hbuild : build declarations config = .ok graph)
    (hformed : NamesReadably declarations) (hn : n ∈ graph.nodes)
    (htype : n.urn.type = .futureGrant ∨ n.urn.type = .grantOnAll) (objects : Snapshot) :
    ∃ d ∈ containers graph config objects, n.urn.param? "in" = some d.reference := by
  obtain ⟨d, hd, own, hown, s, hs, hurn, -, -⟩ := exists_ingest_of_mem_nodes hbuild hn
  have hdtype : d.type = .futureGrant ∨ d.type = .grantOnAll := by
    rw [← Declaration.type_of_ingest hown hs, ← hurn]
    exact htype
  have hown : d.ingestScopedGrant config.account = .ok own := by
    rcases hdtype with h | h
    · rwa [Declaration.ingest, h] at hown
    · rwa [Declaration.ingest, h] at hown
  obtain ⟨container, grantee, target, option, p, hin, -, -, -, rfl⟩ :=
    Declaration.exists_of_ingestScopedGrant hown hs
  have hgrant : d.type.isGrant := by
    rcases hdtype with h | h
    · rw [h]
      rfl
    · rw [h]
      rfl
  have hlegible := Declaration.isLegible_of_requiredReference (hformed d hd hgrant) hin
  have hparam : n.urn.param? "in" = some container.reference := by
    rw [hurn]
    exact Grant.param?_scopedUrn _ _ _ _ _ _ _
  exact ⟨_, mem_containers_of_declared hn hparam (Urn.ofReference_of_isLegible hlegible _) objects,
    hparam⟩

/-! ## Nothing stands in the way -/

theorem exists_listing_static (hbulk : ∀ e, bulkError = some e → e.kind = .accessDenied) :
    ∃ rs, outcome (listing (.static held bulkError) scope type) = .ok rs := by
  have hscoped (type : ResourceType) :
      ∃ rs, outcome (scopedGrants (.static held bulkError) type scope) = .ok rs := by
    rw [scopedGrants, outcome_bind _ fun _ => steady_pure _, outcome_merged fun _ => rfl]
    exact ⟨_, rfl⟩
  have hgrantees : ∃ rs, outcome (grantsByGrantee (.static held bulkError) scope) = .ok rs := by
    rw [grantsByGrantee, outcome_bind _ fun _ => steady_pure _, outcome_merged fun _ => rfl]
    exact ⟨_, rfl⟩
  by_cases hprivilege : ¬ type.isPrivilege
  · rw [listing_of_not_isPrivilege hprivilege]
    exact ⟨_, records_eq_ok_iff.mpr rfl⟩
  rw [not_not] at hprivilege
  cases type with
  | grant =>
    show ∃ rs, outcome (objectGrants _ scope) = .ok rs
    rw [objectGrants]
    cases scope.listing with
    | perObject => exact hgrantees
    | bulk =>
      cases bulkError with
      | none => exact ⟨_, rfl⟩
      | some e =>
        rw [outcome_ask_bind steady_afterClosed]
        show ∃ rs, outcome (if e.kind = .accessDenied then grantsByGrantee _ scope else _) = .ok rs
        rw [if_pos (hbulk e rfl)]
        exact hgrantees
  | futureGrant => exact hscoped .futureGrant
  | grantOnAll => exact hscoped .grantOnAll
  | _ => cases hprivilege

theorem exists_addListings (hregistry : registry = .builtin)
    (hlisting : ∀ type, ∃ rs, outcome (listing source scope type) = .ok rs) :
    ∃ s', outcome (addListings registry source scope listed s) = .ok s' := by
  rw [addListings, outcome_foldlM fun _ _ => steady_require.bind fun _ =>
    steady_listing.bind fun _ => steady_pure _]
  refine exists_foldlM_eq_ok (fun s type => ?_) listed s
  obtain ⟨rs, hrs⟩ := hlisting type
  rw [outcome_bind _ fun _ => steady_listing.bind fun _ => steady_pure _, outcome_require,
    hregistry, Registry.builtin_require]
  show ∃ s', outcome (listing source scope type >>= _) = .ok s'
  rw [outcome_bind _ fun _ => steady_pure _, hrs]
  exact ⟨_, rfl⟩

end Fetch

namespace Reconciler

open Fetch ResourceGraph

variable {r : Reconciler} {declarations : List Declaration} {graph : ResourceGraph}
  {held : List Record} {bulkError : Option FetchError} {n : Node}

theorem isInReach_of_mem_nodes (hgraph : r.buildGraph declarations = .ok graph)
    (hformed : NamesReadably declarations) (hn : n ∈ graph.nodes) (objects : Snapshot) :
    IsInReach (scopeFor graph r.config objects n.urn.type) n.urn := by
  obtain ⟨hbuild, hscope, -⟩ := buildGraph_eq_ok_iff.mp hgraph
  have hgrants (h : n.urn.type.isGrant) :
      scopeFor graph r.config objects n.urn.type = grantScope graph r.config objects := if_pos h
  refine ⟨fun hprivilege => ?_, fun htype => ?_, fun htype => ?_⟩
  · rw [management_scopeFor]
    exact ⟨priv_of_mem_nodes hbuild hn hprivilege, .inr (checkScope_eq_ok_iff.mp hscope n hn)⟩
  · rw [hgrants (by rw [htype]; rfl)]
    exact exists_grantee_of_mem_nodes hbuild hformed hn htype objects
  · rw [hgrants (by rcases htype with h | h <;> rw [h] <;> rfl)]
    exact exists_container_of_mem_nodes hbuild hformed hn htype objects

theorem exists_fetch (hregistry : r.registry = .builtin)
    (hbulk : ∀ e, bulkError = some e → e.kind = .accessDenied) :
    ∃ s, r.fetch graph (.static held bulkError) = .ok s := by
  show ∃ s, outcome (Fetch.read graph r.registry r.config (.static held bulkError)) = .ok s
  rw [Fetch.read, outcome_bind _ fun _ => steady_addListings]
  obtain ⟨objects, hobjects⟩ := exists_addListings hregistry (fun _ => exists_listing_static hbulk)
  rw [hobjects]
  exact exists_addListings hregistry fun _ => exists_listing_static hbulk

/-- A view read for a graph tells of its nodes what the account holds, or that it holds nothing. -/
theorem get?_of_fetch (hgraph : r.buildGraph declarations = .ok graph)
    (hformed : NamesReadably declarations) (hnodup : (held.map Record.urn).Nodup)
    (hnormal : ((Grant.normalizeRemote held).map Record.urn).Nodup) {s : Snapshot}
    (h : r.fetch graph (.static held bulkError) = .ok s) (hn : n ∈ graph.nodes) :
    s.get? n.urn = (Snapshot.ofRecords (Grant.normalizeRemote held)).get? n.urn := by
  have hconsistent := Record.consistent_of_nodup hnormal
  have htype : n.urn.type ∈ types graph r.config :=
    mem_types_iff.mpr (.inl ⟨n.urn, .inl (List.mem_map_of_mem hn), rfl⟩)
  obtain ⟨objects, hlistings⟩ := exists_listings h
  obtain ⟨rs, hrs, hget⟩ := hlistings n.urn htype
  refine Option.ext fun p => ?_
  rw [hget (consistent_listing_static hnodup hconsistent hrs),
    mem_listing_static_iff hnodup hrs (isInReach_of_mem_nodes hgraph hformed hn objects),
    Snapshot.get?_ofRecords]
  exact (Snapshot.get?_ofList_entry_iff hconsistent).symm

/-- Fetching for a graph shows of each declared resource exactly what the whole account would, with
the privileges that it is read as.  With all types managed nothing stands in the way of fetching, if
the view of all grants fails for lack of access at most. -/
theorem fetch_is_faithful (hgraph : r.buildGraph declarations = .ok graph)
    (hformed : NamesReadably declarations) (hnodup : (held.map Record.urn).Nodup)
    (hnormal : ((Grant.normalizeRemote held).map Record.urn).Nodup) :
    (∀ s, r.fetch graph (.static held bulkError) = .ok s → ∀ n ∈ graph.nodes,
      s.get? n.urn = (Snapshot.ofRecords (Grant.normalizeRemote held)).get? n.urn) ∧
    (r.registry = .builtin → (∀ e, bulkError = some e → e.kind = .accessDenied) →
      ∃ s, r.fetch graph (.static held bulkError) = .ok s) :=
  ⟨fun _ h _ hn => get?_of_fetch hgraph hformed hnodup hnormal h hn, exists_fetch⟩

def asksForAll : Reconciler := ⟨{ Config.ofAccount "A" with grantFetch := .bulk }, .builtin, rfl⟩

def allOnSchema : Record :=
  ⟨Grant.objectUrn "A" "ALL" Declaration.oddSchemaUrn Declaration.oddRoleUrn,
    Declaration.grantProperties false⟩

def usageNode : Node where
  urn := Declaration.usageSpec.urn
  properties := Declaration.usageSpec.properties
  dependencies := .empty
  external := .ofList [Declaration.oddSchemaUrn, Declaration.oddRoleUrn]
  level := 0

theorem buildGraph_usageOnSchema :
    asksForAll.buildGraph [Declaration.usageOnSchema] = .ok ⟨[usageNode]⟩ := by rfl

theorem namesReadably_usageOnSchema : NamesReadably [Declaration.usageOnSchema] :=
  List.forall_mem_singleton.mpr fun _ r hr => by
    have hnamed := Declaration.isWellNamed_usageOnSchema r hr
    cases r with
    | urn => exact hnamed.elim
    | named => exact hnamed

theorem fetch_sees_usage_in_all :
    asksForAll.buildGraph [Declaration.usageOnSchema] = .ok ⟨[usageNode]⟩ ∧
    NamesReadably [Declaration.usageOnSchema] ∧
    ((Grant.normalizeRemote [allOnSchema]).map Record.urn).Nodup ∧
    ∃ s, asksForAll.fetch ⟨[usageNode]⟩ (.static [allOnSchema] (some ⟨.accessDenied, "denied"⟩)) =
        .ok s ∧
      s.get? usageNode.urn = some (Declaration.grantProperties false) := by
  have hnormal : ((Grant.normalizeRemote [allOnSchema]).map Record.urn).Nodup := by decide
  have hheld : (Snapshot.ofRecords (Grant.normalizeRemote [allOnSchema])).get? usageNode.urn =
      some (Declaration.grantProperties false) := by rfl
  obtain ⟨hget, hfetch⟩ := @fetch_is_faithful _ _ _ [allOnSchema] (some ⟨.accessDenied, "denied"⟩)
    buildGraph_usageOnSchema namesReadably_usageOnSchema (List.nodup_singleton _) hnormal
  obtain ⟨s, hs⟩ := hfetch rfl fun e he => Option.some.inj he ▸ rfl
  exact ⟨buildGraph_usageOnSchema, namesReadably_usageOnSchema, hnormal, s, hs,
    (hget s hs _ List.mem_cons_self).trans hheld⟩

end Reconciler
end Reconcile
