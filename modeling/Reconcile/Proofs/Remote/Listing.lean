import Reconcile.Proofs.Diff.Changes
import Reconcile.Proofs.Grant.Address
import Reconcile.Proofs.Remote.Reading
/-!
What a view of the remote shows.  Main statements: `exists_objects`, the two parts that a view is
read in, and `contains_static_iff`, what it shows of the fixed records of a source.
-/

namespace Reconcile

open Fallible

namespace Snapshot

theorem contains_insert_iff {s : Snapshot} {r : Record} {u : Urn} :
    (s.insert r).contains u ↔ r.urn = u ∨ s.contains u := by
  rw [contains_iff, contains_iff]
  show (∃ p, (s.records.insert r.urn r.properties).get? u = some p) ↔ _
  rw [SortedMap.get?_insert]
  by_cases h : r.urn = u
  · simp [h]
  · simp [h, get?]

theorem contains_foldl_insert_iff {rs : List Record} {s : Snapshot} {u : Urn} :
    (rs.foldl insert s).contains u ↔ s.contains u ∨ u ∈ rs.map Record.urn := by
  induction rs generalizing s with
  | nil => simp
  | cons r rs ih =>
    rw [List.foldl_cons, ih, contains_insert_iff, List.map_cons, List.mem_cons, eq_comm (a := u),
      or_comm (a := r.urn = u), or_assoc]

theorem contains_addListing_iff {s : Snapshot} {type : ResourceType} {rs : List Record} {u : Urn} :
    (s.addListing type rs).contains u ↔
      s.contains u ∨ u.type = type ∧ u ∈ rs.map Record.urn := by
  rw [addListing, contains_foldl_insert_iff]
  refine or_congr Iff.rfl ?_
  simp only [List.mem_map, List.mem_filter, beq_iff_eq]
  constructor
  · intro hlisted
    obtain ⟨r, ⟨hr, htype⟩, rfl⟩ := hlisted
    exact ⟨htype, r, hr, rfl⟩
  · intro hlisted
    obtain ⟨htype, r, hr, rfl⟩ := hlisted
    exact ⟨r, ⟨hr, htype⟩, rfl⟩

theorem mem_urns_iff {s : Snapshot} {u : Urn} : u ∈ s.toList.map Record.urn ↔ s.contains u := by
  rw [contains_iff, List.mem_map]
  constructor
  · intro hlisted
    obtain ⟨r, hr, rfl⟩ := hlisted
    exact ⟨_, mem_toList_iff.mp hr⟩
  · intro hget
    obtain ⟨p, hp⟩ := hget
    exact ⟨⟨u, p⟩, mem_toList_iff.mpr hp, rfl⟩

end Snapshot

namespace Fetch

variable {source : Source} {registry : Registry} {scope : FetchScope} {type : ResourceType}
  {place : Option Urn} {call : Call} {u : Urn}

/-! ## Each reading goes its own way -/

theorem steady_records : Steady (records source type place call) := by
  refine (steady_ask source call).bind fun answer => ?_
  cases answer with
  | ok rs => exact steady_pure rs
  | error e => exact steady_throw _

theorem steady_merged {calls : Urn → Call} {places : List Urn} :
    Steady (merged source type calls places) :=
  Steady.bind (.foldlM (fun _ _ => steady_records.bind fun _ => steady_pure _) places _)
    fun _ => steady_pure _

theorem steady_grantsByGrantee : Steady (grantsByGrantee source scope) :=
  steady_merged.bind fun _ => steady_pure _

theorem steady_afterClosed {e : FetchError} :
    Steady (if e.kind = .accessDenied then grantsByGrantee source scope
      else throw (.remoteFetch .grant none e.message)) := by
  split
  · exact steady_grantsByGrantee
  · exact steady_throw _

theorem steady_objectGrants : Steady (objectGrants source scope) := by
  rw [objectGrants]
  split
  · exact steady_grantsByGrantee
  · refine (steady_ask source _).bind fun answer => ?_
    cases answer with
    | ok rs => exact steady_pure _
    | error e => exact steady_afterClosed

theorem steady_scopedGrants : Steady (scopedGrants source type scope) :=
  steady_merged.bind fun _ => steady_pure _

theorem steady_listing : Steady (listing source scope type) := by
  unfold listing
  split
  · exact steady_objectGrants
  · exact steady_scopedGrants
  · exact steady_scopedGrants
  · exact steady_records

theorem steady_require : Steady (registry.require type : M Unit) := by
  rw [Registry.require]
  split
  · exact steady_pure ()
  · exact steady_throw _

theorem steady_addListings {types : List ResourceType} {s : Snapshot} :
    Steady (addListings registry source scope types s) :=
  .foldlM (fun _ _ => steady_require.bind fun _ => steady_listing.bind fun _ => steady_pure _)
    types s

/-! ## What a reading comes to -/

theorem outcome_records : outcome (records source type place call) =
    (source call).mapError fun e => .remoteFetch type place e.message := by
  cases hanswer : source call with
  | ok answer =>
    rw [records, outcome_ask_bind (by rw [hanswer]; exact steady_pure answer), hanswer]
    rfl
  | error e =>
    rw [records, outcome_ask_bind (by rw [hanswer]; exact steady_throw _), hanswer]
    rfl

theorem records_eq_ok_iff {rs : List Record} :
    outcome (records source type place call) = .ok rs ↔ source call = .ok rs := by
  rw [outcome_records, mapError_eq_ok_iff]

theorem outcome_require : outcome (registry.require type : M Unit) = registry.require type := by
  rw [Registry.require]
  split
  · rfl
  · rfl

theorem contains_foldlM_records_iff {calls : Urn → Call} {places : List Urn} {s s' : Snapshot}
    (h : places.foldlM (fun s place => outcome (do
      return (← records source type (some place) (calls place)).foldl Snapshot.insert s)) s =
        .ok s') :
    s'.contains u ↔ s.contains u ∨
      ∃ place ∈ places, ∃ own, source (calls place) = .ok own ∧ u ∈ own.map Record.urn := by
  induction places generalizing s with
  | nil =>
    obtain rfl : s = s' := pure_eq_ok.mp h
    simp
  | cons place places ih =>
    rw [List.foldlM_cons, outcome_bind _ fun _ => steady_pure _] at h
    obtain ⟨later, hlater, h⟩ := bind_eq_ok.mp h
    obtain ⟨own, hown, hlater⟩ := bind_eq_ok.mp hlater
    obtain rfl := pure_eq_ok.mp hlater
    rw [ih h, Snapshot.contains_foldl_insert_iff, List.exists_mem_cons_iff, or_assoc,
      exists_eq_ok_iff (records_eq_ok_iff.mp hown)]

theorem mem_urns_merged_iff {calls : Urn → Call} {places : List Urn} {rs : List Record}
    (h : outcome (merged source type calls places) = .ok rs) :
    u ∈ rs.map Record.urn ↔
      ∃ place ∈ places, ∃ own, source (calls place) = .ok own ∧ u ∈ own.map Record.urn := by
  rw [merged, outcome_bind _ fun _ => steady_pure _,
    outcome_foldlM fun _ _ => steady_records.bind fun _ => steady_pure _] at h
  obtain ⟨all, hall, h⟩ := bind_eq_ok.mp h
  obtain rfl : all.toList = rs := pure_eq_ok.mp h
  rw [Snapshot.mem_urns_iff, contains_foldlM_records_iff hall]
  exact or_iff_right fun h => nomatch h

theorem objectGrants_cases {rs : List Record} (h : outcome (objectGrants source scope) = .ok rs) :
    (scope.listing = .bulk ∧
      ∃ all, source .grantsBulk = .ok all ∧ rs = Grant.normalizeRemote all) ∨
    ((scope.listing = .perObject ∨ ∃ e, source .grantsBulk = .error e) ∧
      ∃ all, outcome (merged source .grant .grantsTo scope.grantees) = .ok all ∧
        rs = Grant.normalizeRemote all) := by
  have hby (h : outcome (grantsByGrantee source scope) = .ok rs) :
      ∃ all, outcome (merged source .grant .grantsTo scope.grantees) = .ok all ∧
        rs = Grant.normalizeRemote all := by
    rw [grantsByGrantee, outcome_bind _ fun _ => steady_pure _] at h
    obtain ⟨all, hall, h⟩ := bind_eq_ok.mp h
    exact ⟨all, hall, (pure_eq_ok.mp h).symm⟩
  rw [objectGrants] at h
  cases hlisting : scope.listing with
  | perObject =>
    rw [hlisting] at h
    exact .inr ⟨.inl rfl, hby h⟩
  | bulk =>
    rw [hlisting] at h
    cases hanswer : source .grantsBulk with
    | ok all =>
      rw [outcome_ask_bind (by rw [hanswer]; exact steady_pure _), hanswer] at h
      exact .inl ⟨rfl, all, rfl, (pure_eq_ok.mp h).symm⟩
    | error e =>
      rw [outcome_ask_bind (by rw [hanswer]; exact steady_afterClosed), hanswer] at h
      by_cases hdenied : e.kind = .accessDenied
      · simp only [hdenied] at h
        exact .inr ⟨.inr ⟨e, rfl⟩, hby h⟩
      · simp only [hdenied] at h
        cases h

theorem scopedGrants_eq_ok {rs : List Record}
    (h : outcome (scopedGrants source type scope) = .ok rs) :
    ∃ all, outcome (merged source type (.scopedGrants type) scope.containers) = .ok all ∧
      rs = Grant.normalizeRemote all := by
  rw [scopedGrants, outcome_bind _ fun _ => steady_pure _] at h
  obtain ⟨all, hall, h⟩ := bind_eq_ok.mp h
  exact ⟨all, hall, (pure_eq_ok.mp h).symm⟩

theorem listing_of_not_isPrivilege (h : ¬ type.isPrivilege) :
    listing source scope type = records source type none (.list type scope) := by
  cases type with
  | grant => exact absurd rfl h
  | futureGrant => exact absurd rfl h
  | grantOnAll => exact absurd rfl h
  | _ => rfl

/-! ## Views -/

section

variable {types : List ResourceType} {s s' : Snapshot}

theorem exists_of_addListings_cons
    (h : outcome (addListings registry source scope (type :: types) s) = .ok s') :
    ∃ rs, outcome (listing source scope type) = .ok rs ∧
      outcome (addListings registry source scope types (s.addListing type rs)) =
        .ok s' := by
  rw [addListings, List.foldlM_cons] at h
  obtain ⟨later, hlater, h⟩ :=
    bind_eq_ok.mp ((outcome_bind _ fun _ => steady_addListings).symm.trans h)
  rw [outcome_bind _ fun _ => steady_listing.bind fun _ => steady_pure _] at hlater
  obtain ⟨-, -, hlater⟩ := bind_eq_ok.mp hlater
  rw [outcome_bind _ fun _ => steady_pure _] at hlater
  obtain ⟨rs, hrs, hlater⟩ := bind_eq_ok.mp hlater
  obtain rfl := pure_eq_ok.mp hlater
  exact ⟨rs, hrs, h⟩

theorem contains_addListings_iff
    (h : outcome (addListings registry source scope types s) = .ok s') :
    s'.contains u ↔ s.contains u ∨ u.type ∈ types ∧
      ∃ rs, outcome (listing source scope u.type) = .ok rs ∧
        u ∈ rs.map Record.urn := by
  induction types generalizing s with
  | nil =>
    obtain rfl : s = s' := pure_eq_ok.mp h
    simp
  | cons type types ih =>
    obtain ⟨rs, hrs, h⟩ := exists_of_addListings_cons h
    rw [ih h, Snapshot.contains_addListing_iff, List.mem_cons, or_and_right, or_assoc]
    refine or_congr Iff.rfl (or_congr (and_congr_right fun htype => ?_) Iff.rfl)
    subst htype
    rw [exists_eq_ok_iff hrs]

theorem exists_listing
    (h : outcome (addListings registry source scope types s) = .ok s')
    (htype : type ∈ types) : ∃ rs, outcome (listing source scope type) = .ok rs := by
  induction types generalizing s with
  | nil => cases htype
  | cons first types ih =>
    obtain ⟨rs, hrs, h⟩ := exists_of_addListings_cons h
    rcases List.mem_cons.mp htype with rfl | htype
    · exact ⟨rs, hrs⟩
    · exact ih h htype

end

variable {graph : ResourceGraph} {config : Config} {s : Snapshot}

/-- The scope in which everything but grants is read. -/
def objectScope (config : Config) : FetchScope :=
  { management := config.managementScope, listing := config.grantFetch }

/-- The scope in which grants are read, once everything else was. -/
def grantScope (graph : ResourceGraph) (config : Config) (objects : Snapshot) : FetchScope :=
  { objectScope config with
    grantees := grantees graph config objects
    containers := containers graph config objects }

def scopeFor (graph : ResourceGraph) (config : Config) (objects : Snapshot) (type : ResourceType) :
    FetchScope :=
  if type.isGrant then grantScope graph config objects else objectScope config

theorem management_scopeFor {objects : Snapshot} {type : ResourceType} :
    (scopeFor graph config objects type).management = config.managementScope := by
  rw [scopeFor]
  split <;> rfl

theorem exists_parts (h : (snapshot graph registry config source).1 = .ok s) :
    ∃ objects : Snapshot,
      outcome (addListings registry source (objectScope config)
        ((types graph config).elements.filter fun t => !t.isGrant) .empty) = .ok objects ∧
      outcome (addListings registry source (grantScope graph config objects)
        ((types graph config).elements.filter ResourceType.isGrant) objects) = .ok s := by
  have h : outcome (read graph registry config source) = .ok s := h
  rw [read, outcome_bind _ fun _ => steady_addListings] at h
  exact bind_eq_ok.mp h

theorem exists_objects (h : (snapshot graph registry config source).1 = .ok s) :
    ∃ objects : Snapshot,
      (∀ u, objects.contains u ↔ ¬ u.type.isGrant ∧ u.type ∈ types graph config ∧
        ∃ rs, source (.list u.type (objectScope config)) = .ok rs ∧ u ∈ rs.map Record.urn) ∧
      (∀ u, ¬ u.type.isGrant → (s.contains u ↔ objects.contains u)) ∧
      ∀ u, u.type.isGrant → u.type ∈ types graph config →
        ∃ rs, outcome (listing source (grantScope graph config objects) u.type) = .ok rs ∧
          (s.contains u ↔ u ∈ rs.map Record.urn) := by
  obtain ⟨objects, hobjects, h⟩ := exists_parts h
  have hheld (u : Urn) : objects.contains u ↔ ¬ u.type.isGrant ∧ u.type ∈ types graph config ∧
      ∃ rs, source (.list u.type (objectScope config)) = .ok rs ∧ u ∈ rs.map Record.urn := by
    rw [contains_addListings_iff hobjects, List.mem_filter, and_comm (a := u.type ∈ _), and_assoc]
    refine (or_iff_right fun hu => nomatch hu).trans ?_
    rw [Bool.not_eq_true', Bool.not_eq_true]
    refine and_congr_right fun htype => and_congr_right fun _ => exists_congr fun rs => ?_
    rw [listing_of_not_isPrivilege
        (mt ResourceType.isGrant_of_isPrivilege (Bool.eq_false_iff.mp htype)),
      records_eq_ok_iff]
  refine ⟨objects, hheld, fun u hu => ?_, fun u hu htype => ?_⟩
  -- The second half lists grants only, so it adds nothing else, and finds no grant there already.
  · rw [contains_addListings_iff h, List.mem_filter]
    exact or_iff_left fun hgrant => hu hgrant.1.2
  · have hmem := List.mem_filter.mpr ⟨htype, hu⟩
    obtain ⟨rs, hrs⟩ := exists_listing h hmem
    refine ⟨rs, hrs, ?_⟩
    rw [contains_addListings_iff h, or_iff_right fun hobject => ((hheld u).mp hobject).1 hu,
      and_iff_right hmem, exists_eq_ok_iff hrs]

/-! ## Fixed records -/

variable {held : List Record} {bulkError : Option FetchError}

theorem list_static_iff : (∃ rs, Source.static held bulkError (.list u.type scope) = .ok rs ∧
    u ∈ rs.map Record.urn) ↔
      u ∈ held.map Record.urn ∧ (u.type.depth = .account ∨ scope.management.contains u) := by
  show (∃ rs, Except.ok (held.filter fun r => Source.isListed _ _ r.urn) = .ok rs ∧ _) ↔ _
  simp only [Except.ok.injEq, exists_eq_left', List.mem_map, List.mem_filter, Source.isListed,
    Bool.and_eq_true, Bool.or_eq_true, beq_iff_eq]
  constructor
  · intro hlisted
    obtain ⟨r, ⟨hr, -, hdepth⟩, rfl⟩ := hlisted
    exact ⟨⟨r, hr, rfl⟩, hdepth⟩
  · intro hheld
    obtain ⟨⟨r, hr, rfl⟩, hdepth⟩ := hheld
    exact ⟨r, ⟨hr, rfl, hdepth⟩, rfl⟩

/-- Of what a source holds, a view shows the resources of the types that are looked for and that
the scope does not hide. -/
theorem contains_static_iff
    (h : (snapshot graph registry config (.static held bulkError)).1 = .ok s)
    (hu : ¬ u.type.isGrant) :
    s.contains u ↔ u ∈ held.map Record.urn ∧ u.type ∈ types graph config ∧
      (u.type.depth = .account ∨ config.managementScope.contains u) := by
  obtain ⟨objects, hobjects, hs, -⟩ := exists_objects h
  rw [hs u hu, hobjects, and_iff_right hu, list_static_iff, and_left_comm]
  rfl

/-! ## The types that are looked for -/

/-- The types of wanted and of synchronised resources are looked for, and those of the resources
that hold or contain synchronised grants, database roles aside. -/
theorem mem_types_iff {type : ResourceType} : type ∈ types graph config ↔
    (∃ u, graph.Wants u ∧ u.type = type) ∨ config.allowlist.contains type ∨
      type = .role ∧ (config.allowlist.contains .grant ∨ config.allowlist.contains .roleGrant) ∨
      (type = .database ∨ type = .schema) ∧ syncsScopedGrants config := by
  have hwants : (∃ u, graph.Wants u ∧ u.type = type) ↔
      type ∈ graph.types ∨ type ∈ graph.externalReferences.elements.map Urn.type := by
    rw [ResourceGraph.types, SortedSet.mem_ofList]
    simp only [ResourceGraph.Wants, or_and_right, exists_or, List.mem_map, SortedSet.mem_def,
      exists_exists_and_eq_and]
  have hroles (s : SortedSet ResourceType) (b : Bool) :
      type ∈ (if b then s.insert .role else s) ↔ type ∈ s ∨ type = .role ∧ b := by
    cases b with
    | true => simp [SortedSet.mem_insert, or_comm]
    | false => simp
  have hplaces (s : SortedSet ResourceType) (b : Bool) :
      type ∈ (if b then (s.insert .database).insert .schema else s) ↔
        type ∈ s ∨ (type = .database ∨ type = .schema) ∧ b := by
    cases b with
    | true =>
      simp only [if_true, SortedSet.mem_insert, and_true]
      rw [← or_assoc, or_comm, or_comm (a := type = .schema)]
    | false => simp
  rw [hwants, SortedSet.contains_iff, ← Bool.or_eq_true]
  show type ∈ (if _ then _ else _) ↔ _
  rw [hplaces, hroles, SortedSet.mem_insertMany, SortedSet.mem_insertMany]
  simp only [or_assoc, SortedSet.mem_def]

end Fetch
end Reconcile
