import Reconcile.Proofs.Remote.Listing
/-!
Object grants read from one view of the account, and grantee by grantee.  Main statement:
`listingsAgree_iff`, when both show the same whatever order the grants are held in.
-/

namespace Reconcile

open Fallible

namespace Record

def entry (r : Record) : Urn × Properties := (r.urn, r.properties)

/-- No address is reported with different properties. -/
def Consistent (rs : List Record) : Prop :=
  ∀ r ∈ rs, ∀ t ∈ rs, r.urn = t.urn → r.properties = t.properties

theorem Consistent.of_mem_iff {rs ts : List Record} (h : Consistent rs)
    (hmem : ∀ r, r ∈ ts ↔ r ∈ rs) : Consistent ts :=
  fun r hr t ht => h r ((hmem r).mp hr) t ((hmem t).mp ht)

theorem consistent_of_nodup {rs : List Record} (h : (rs.map urn).Nodup) : Consistent rs :=
  fun _ hr _ ht hurn => congrArg properties (List.inj_on_of_nodup_map h hr ht hurn)

end Record

namespace Snapshot

variable {rs : List Record} {type : ResourceType} {u : Urn} {p : Properties}

theorem records_foldl_insert (rs : List Record) (s : Snapshot) :
    (rs.foldl insert s).records =
      (rs.map Record.entry).foldl (fun m e => m.insert e.1 e.2) s.records := by
  rw [List.foldl_map]
  exact (List.foldl_hom records fun _ _ => rfl).symm

theorem get?_addListing (htype : ∀ r ∈ rs, r.urn.type = type) (u : Urn) :
    (empty.addListing type rs).get? u = (SortedMap.ofList (rs.map Record.entry)).get? u := by
  have hall : (rs.filter fun r => r.urn.type == type) = rs :=
    List.filter_eq_self.mpr fun r hr => beq_iff_eq.mpr (htype r hr)
  rw [addListing, hall, get?, records_foldl_insert]
  rfl

theorem get?_ofList_entry_iff (h : Record.Consistent rs) :
    (SortedMap.ofList (rs.map Record.entry)).get? u = some p ↔ ⟨u, p⟩ ∈ rs := by
  rw [SortedMap.get?_ofList_iff]
  · rw [List.mem_map]
    constructor
    · intro hmem
      obtain ⟨r, hr, hentry⟩ := hmem
      obtain ⟨rfl, rfl⟩ := Prod.mk.inj hentry
      exact hr
    · exact fun hmem => ⟨_, hmem, rfl⟩
  · intro d hd e he hkey
    obtain ⟨r, hr, rfl⟩ := List.mem_map.mp hd
    obtain ⟨t, ht, rfl⟩ := List.mem_map.mp he
    exact h r hr t ht hkey

theorem mem_toList_foldl_insert_iff (h : Record.Consistent rs) {r : Record} :
    r ∈ (rs.foldl insert empty).toList ↔ r ∈ rs := by
  rw [mem_toList_iff, get?, records_foldl_insert]
  exact get?_ofList_entry_iff h

theorem toList_ext {s t : Snapshot} (h : ∀ r, r ∈ s.toList ↔ r ∈ t.toList) :
    s.toList = t.toList := by
  have hrecords : s.records = t.records := by
    refine SortedMap.ext_get? fun u => Option.ext fun p => ?_
    have hs : (⟨u, p⟩ : Record) ∈ s.toList ↔ s.records.get? u = some p := mem_toList_iff
    have ht : (⟨u, p⟩ : Record) ∈ t.toList ↔ t.records.get? u = some p := mem_toList_iff
    rw [← hs, ← ht, h]
  rw [toList, hrecords]
  rfl

end Snapshot

namespace Grant

variable {r e : Record} {rs ts : List Record}

theorem of_mem_normalizeRecord (h : e ∈ normalizeRecord r) :
    e.properties = r.properties ∧ e.urn.type = r.urn.type := by
  rw [normalizeRecord] at h
  split at h
  · cases h
  · rw [List.mem_singleton.mp h]
    exact ⟨rfl, rfl⟩
  · obtain ⟨p, -, rfl⟩ := List.mem_map.mp h
    exact ⟨rfl, rfl⟩

theorem type_of_mem_normalizeRemote {type : ResourceType} (h : ∀ r ∈ rs, r.urn.type = type) :
    ∀ e ∈ normalizeRemote rs, e.urn.type = type := by
  intro e he
  obtain ⟨r, hr, he⟩ := List.mem_flatMap.mp he
  rw [(of_mem_normalizeRecord he).2, h r hr]

theorem mem_normalizeRemote_congr (h : ∀ r, r ∈ rs ↔ r ∈ ts) :
    e ∈ normalizeRemote rs ↔ e ∈ normalizeRemote ts := by
  simp only [normalizeRemote, List.mem_flatMap, h]

end Grant

namespace Fetch

variable {held order : List Record} {scope : FetchScope} {places : List Urn} {r : Record}

/-- What a view shows of the object grants. -/
def grantView (source : Source) (scope : FetchScope) : Except Error Snapshot :=
  (outcome (objectGrants source scope)).map (Snapshot.empty.addListing .grant)

/-- Whether the object grants are listed at once or by grantee, a view shows the same of them. -/
def ListingsAgree (held : List Record) (scope : FetchScope) : Prop :=
  ∃ s t, grantView (.static held none) { scope with listing := .bulk } = .ok s ∧
    grantView (.static held none) { scope with listing := .perObject } = .ok t ∧
    ∀ u, s.get? u = t.get? u

def heldGrants (held : List Record) : List Record := held.filter fun r => r.urn.type == .grant

def grantsTo (held : List Record) (grantee : Urn) : List Record :=
  held.filter fun r => r.urn.type == .grant && r.urn.param? "to" == some grantee.reference

def mergedGrants (held : List Record) (grantees : List Urn) : List Record :=
  ((grantees.flatMap (grantsTo held)).foldl Snapshot.insert .empty).toList

def viewOf (grants : List Record) : Snapshot :=
  Snapshot.empty.addListing .grant (Grant.normalizeRemote grants)

theorem outcome_merged {source : Source} {type : ResourceType} {calls : Urn → Call}
    {found : Urn → List Record} (hcalls : ∀ place, source (calls place) = .ok (found place))
    (places : List Urn) : outcome (merged source type calls places) =
      .ok ((places.flatMap found).foldl Snapshot.insert .empty).toList := by
  have hstep (s : Snapshot) (place : Urn) : outcome (do
      return (← records source type (some place) (calls place)).foldl Snapshot.insert s) =
        pure ((found place).foldl Snapshot.insert s) := by
    rw [outcome_bind _ fun _ => steady_pure _, outcome_records, hcalls]
    rfl
  rw [merged, outcome_bind _ fun _ => steady_pure _,
    outcome_foldlM fun _ _ => steady_records.bind fun _ => steady_pure _]
  simp only [hstep]
  rw [List.foldlM_pure, List.foldl_flatMap]
  rfl

theorem outcome_merged_static (places : List Urn) :
    outcome (merged (.static held none) .grant .grantsTo places) =
      .ok (mergedGrants held places) := outcome_merged (fun _ => rfl) places

theorem grantView_bulk : grantView (.static held none) { scope with listing := .bulk } =
    .ok (viewOf (heldGrants held)) := by
  rfl

theorem grantView_perObject : grantView (.static held none) { scope with listing := .perObject } =
    .ok (viewOf (mergedGrants held scope.grantees)) := by
  show (outcome (grantsByGrantee _ _)).map _ = _
  rw [grantsByGrantee, outcome_bind _ fun _ => steady_pure _, outcome_merged_static]
  rfl

theorem listingsAgree_iff_forall : ListingsAgree held scope ↔ ∀ u,
    (viewOf (heldGrants held)).get? u = (viewOf (mergedGrants held scope.grantees)).get? u := by
  rw [ListingsAgree, grantView_bulk, grantView_perObject]
  simp

/-! ## What is listed -/

/-- The object grants have addresses of their own, and each is held by one of the grantees. -/
structure GrantsHeldBy (held : List Record) (grantees : List Urn) : Prop where
  nodup : ((heldGrants held).map Record.urn).Nodup
  grantee : ∀ r ∈ heldGrants held, ∃ g ∈ grantees, r.urn.param? "to" = some g.reference

theorem GrantsHeldBy.perm (h : GrantsHeldBy held places) (horder : order.Perm held) :
    GrantsHeldBy order places where
  nodup := ((horder.filter _).map _).nodup_iff.mpr h.nodup
  grantee r hr := h.grantee r ((horder.filter _).mem_iff.mp hr)

theorem GrantsHeldBy.mem_mergedGrants_iff (h : GrantsHeldBy held places) :
    r ∈ mergedGrants held places ↔ r ∈ heldGrants held := by
  have hmem (r : Record) : r ∈ places.flatMap (grantsTo held) ↔ r ∈ heldGrants held := by
    simp only [List.mem_flatMap, grantsTo, heldGrants, List.mem_filter, Bool.and_eq_true,
      beq_iff_eq]
    constructor
    · intro hfound
      obtain ⟨g, -, hr, htype, -⟩ := hfound
      exact ⟨hr, htype⟩
    · intro hheld
      obtain ⟨g, hg, hto⟩ := h.grantee r (List.mem_filter.mpr ⟨hheld.1, beq_iff_eq.mpr hheld.2⟩)
      exact ⟨g, hg, hheld.1, hheld.2, hto⟩
  rw [mergedGrants, Snapshot.mem_toList_foldl_insert_iff, hmem]
  exact (Record.consistent_of_nodup h.nodup).of_mem_iff hmem

/-- By grantee the grants come in one order, whatever order they are held in. -/
theorem GrantsHeldBy.mergedGrants_perm (h : GrantsHeldBy held places) (horder : order.Perm held) :
    mergedGrants order places = mergedGrants held places := by
  refine Snapshot.toList_ext fun r => ?_
  have hheld : r ∈ mergedGrants held places ↔ _ := h.mem_mergedGrants_iff
  have horders : r ∈ mergedGrants order places ↔ _ := (h.perm horder).mem_mergedGrants_iff
  exact horders.trans ((horder.filter _).mem_iff.trans hheld.symm)

theorem type_of_mem_heldGrants : ∀ r ∈ heldGrants held, r.urn.type = .grant :=
  fun _ hr => beq_iff_eq.mp (List.mem_filter.mp hr).2

/-- If the properties of no privilege are in doubt, a view of the object grants shows all privileges
that they stand for, however the grants are ordered. -/
theorem get?_viewOf_iff {grants : List Record} (hmem : ∀ r, r ∈ grants ↔ r ∈ heldGrants held)
    (h : Record.Consistent (Grant.normalizeRemote (heldGrants held))) {u : Urn} {p : Properties} :
    (viewOf grants).get? u = some p ↔ ⟨u, p⟩ ∈ Grant.normalizeRemote (heldGrants held) := by
  have hnormal (e : Record) : e ∈ Grant.normalizeRemote grants ↔ _ :=
    Grant.mem_normalizeRemote_congr hmem
  have htype : ∀ e ∈ Grant.normalizeRemote (heldGrants held), e.urn.type = .grant :=
    Grant.type_of_mem_normalizeRemote type_of_mem_heldGrants
  rw [viewOf, Snapshot.get?_addListing fun e he => htype e ((hnormal e).mp he),
    Snapshot.get?_ofList_entry_iff (h.of_mem_iff hnormal), hnormal]

theorem get?_viewOf_last {front : List Record} {e : Record} (htype : r.urn.type = .grant)
    (he : e ∈ Grant.normalizeRecord r) :
    (viewOf (heldGrants (front ++ [r]))).get? e.urn = some e.properties := by
  have hlast : heldGrants (front ++ [r]) = heldGrants front ++ [r] := by
    rw [heldGrants, List.filter_append, List.filter_singleton, beq_iff_eq.mpr htype]
    rfl
  have hgrants : Grant.normalizeRemote (heldGrants (front ++ [r])) =
      Grant.normalizeRemote (heldGrants front) ++ Grant.normalizeRecord r := by
    rw [hlast, Grant.normalizeRemote, List.flatMap_append, List.flatMap_singleton]
    rfl
  rw [viewOf, Snapshot.get?_addListing
    (Grant.type_of_mem_normalizeRemote type_of_mem_heldGrants), hgrants, List.map_append]
  refine SortedMap.get?_ofList_append ⟨e.entry, List.mem_map_of_mem he, rfl⟩ fun d hd => ?_
  obtain ⟨x, hx, rfl⟩ := List.mem_map.mp hd
  exact (Grant.of_mem_normalizeRecord hx).1.trans (Grant.of_mem_normalizeRecord he).1.symm

/-! ## When the listings agree -/

/-- If the listings agree in every order, the one by grantee shows what any of the grants says,
since each can be the one that is held last. -/
theorem GrantsHeldBy.get?_of_agree (h : GrantsHeldBy held scope.grantees)
    (hagree : ∀ order, order.Perm held → ListingsAgree order scope) {e : Record}
    (he : e ∈ Grant.normalizeRemote (heldGrants held)) :
    (viewOf (mergedGrants held scope.grantees)).get? e.urn = some e.properties := by
  obtain ⟨r, hr, her⟩ := List.mem_flatMap.mp he
  obtain ⟨front, rear, rfl⟩ := List.append_of_mem (List.mem_of_mem_filter hr)
  have horder : (front ++ rear ++ [r]).Perm (front ++ r :: rear) :=
    (List.perm_append_singleton r _).trans List.perm_middle.symm
  have hsame := listingsAgree_iff_forall.mp (hagree _ horder) e.urn
  rw [h.mergedGrants_perm horder] at hsame
  rw [← hsame]
  exact get?_viewOf_last (type_of_mem_heldGrants r hr) her

/-- Both listings show the same in every order exactly if grants that stand for one privilege have
the same properties. -/
theorem listingsAgree_iff (h : GrantsHeldBy held scope.grantees) :
    (∀ order, order.Perm held → ListingsAgree order scope) ↔
      Record.Consistent (Grant.normalizeRemote (heldGrants held)) := by
  constructor
  · intro hagree e he f hf hurn
    have hshown := h.get?_of_agree hagree he
    rw [hurn, h.get?_of_agree hagree hf] at hshown
    exact (Option.some.inj hshown).symm
  · intro hconsistent order horder
    have hbulk (r : Record) : r ∈ heldGrants order ↔ r ∈ heldGrants held :=
      (horder.filter _).mem_iff
    have hperObject (r : Record) : r ∈ mergedGrants order scope.grantees ↔ r ∈ heldGrants held := by
      rw [h.mergedGrants_perm horder, h.mem_mergedGrants_iff]
    refine listingsAgree_iff_forall.mpr fun u => Option.ext fun p => ?_
    rw [get?_viewOf_iff hbulk hconsistent, get?_viewOf_iff hperObject hconsistent]

/-! ## All privileges beside one of them -/

def holderUrn : Urn := .ofRole "A" "R"

def warehouseGrant (privilege : String) (option : Bool) : Record where
  urn := Grant.objectUrn "A" privilege (.ofNames "A" .warehouse [] "WH") holderUrn
  properties := Declaration.grantProperties option

def usageAndAll (option : Bool) : List Record :=
  [warehouseGrant "USAGE" false, warehouseGrant "ALL" option]

def byHolder : FetchScope := { grantees := [holderUrn], listing := .bulk }

theorem heldGrants_usageAndAll (option : Bool) :
    heldGrants (usageAndAll option) = usageAndAll option := by rfl

theorem grantsHeldBy_usageAndAll (option : Bool) :
    GrantsHeldBy (usageAndAll option) byHolder.grantees where
  nodup := by
    show [(warehouseGrant "USAGE" false).urn, (warehouseGrant "ALL" false).urn].Nodup
    decide
  grantee r hr := by
    refine ⟨holderUrn, List.mem_cons_self, ?_⟩
    rw [heldGrants_usageAndAll, usageAndAll, List.mem_pair] at hr
    rcases hr with rfl | rfl
    · exact Grant.to_objectUrn _ _ _ _
    · exact Grant.to_objectUrn _ _ _ _

theorem listingsAgree_usageAndAll : GrantsHeldBy (usageAndAll false) byHolder.grantees ∧
    ∀ order, order.Perm (usageAndAll false) → ListingsAgree order byHolder := by
  refine ⟨grantsHeldBy_usageAndAll false,
    (listingsAgree_iff (grantsHeldBy_usageAndAll false)).mpr fun e he f hf _ => ?_⟩
  have hproperties (e : Record) (he : e ∈ Grant.normalizeRemote (heldGrants (usageAndAll false))) :
      e.properties = Declaration.grantProperties false := by
    obtain ⟨r, hr, he⟩ := List.mem_flatMap.mp he
    rw [heldGrants_usageAndAll, usageAndAll, List.mem_pair] at hr
    rw [(Grant.of_mem_normalizeRecord he).1]
    rcases hr with rfl | rfl
    · rfl
    · rfl
  rw [hproperties e he, hproperties f hf]

/-- Where all privileges may be granted on and `USAGE`, held before them, may not, the listing at
once shows that `USAGE` may.  The listing by grantee takes grants in the order of addresses, in
which `USAGE` comes after them, and shows that it may not. -/
theorem not_listingsAgree_usageAndAll : GrantsHeldBy (usageAndAll true) byHolder.grantees ∧
    ¬ ListingsAgree (usageAndAll true) byHolder := by
  refine ⟨grantsHeldBy_usageAndAll true, fun hagree => ?_⟩
  have hbulk : (viewOf (heldGrants (usageAndAll true))).get? (warehouseGrant "USAGE" false).urn =
      some (Declaration.grantProperties true) := by rfl
  have hperObject : (viewOf (mergedGrants (usageAndAll true) byHolder.grantees)).get?
      (warehouseGrant "USAGE" false).urn = some (Declaration.grantProperties false) := by rfl
  have hsame := listingsAgree_iff_forall.mp hagree (warehouseGrant "USAGE" false).urn
  rw [hbulk, hperObject] at hsame
  have hoption := congrArg (fun p => p.get? "grant_option") (Option.some.inj hsame)
  simp [Declaration.grantProperties] at hoption

end Fetch
end Reconcile
