import Reconcile.Grant.Remote
import Reconcile.Proofs.Collection
import Reconcile.Proofs.Fallible
/-!
Addresses of grants and the resources that they name.  Main statement: `type_of_ofReference`, the
reference of a resource tells its type.
-/

namespace Reconcile

open Fallible

def ResourceType.isPrivilege : ResourceType → Bool
  | .grant | .futureGrant | .grantOnAll => true
  | _ => false

namespace ResourceType

variable {type : ResourceType}

theorem isGrant_of_isPrivilege (h : type.isPrivilege) : type.isGrant := by
  cases type with
  | grant => rfl
  | futureGrant => rfl
  | grantOnAll => rfl
  | _ => cases h

theorem not_isGrant_of_role (h : type = .role ∨ type = .databaseRole) :
    ¬ type.isGrant ∧ type ≠ .account := by
  rcases h with rfl | rfl
  · decide
  · decide

theorem not_isGrant_of_container (h : type = .database ∨ type = .schema) :
    ¬ type.isGrant ∧ type ≠ .account := by
  rcases h with rfl | rfl
  · decide
  · decide

end ResourceType

namespace Urn

open Text

variable {u d : Urn} {account key : String}

theorem slash_not_mem_tag (t : ResourceType) : '/' ∉ t.tag.toList := by cases t <;> decide

theorem readType_tag (t : ResourceType) : readType t.tag.toList = .ok t := by cases t <;> rfl

theorem cutAt?_append {c : Char} {before after : List Char} (h : c ∉ before) :
    cutAt? c (before ++ c :: after) = some (before, after) := by
  induction before with
  | nil => simp [cutAt?]
  | cons b before ih =>
    obtain ⟨hb, hbefore⟩ := not_or.mp (mt List.mem_cons.mpr h)
    simp [cutAt?, Ne.symm hb, ih hbefore]

theorem cutAt?_reference (u : Urn) :
    cutAt? '/' u.reference.toList = some (u.type.tag.toList, u.qualifiedName.toList) := by
  have hlist : u.reference.toList = u.type.tag.toList ++ '/' :: u.qualifiedName.toList := by
    simp [reference]
  rw [hlist, cutAt?_append (slash_not_mem_tag _)]

theorem type_of_readName {type : ResourceType} {s : List Char}
    (h : readName account type s = .ok d) : d.type = type := by
  simp only [readName, bind_eq_ok, pure_eq_ok] at h
  obtain ⟨u, hu, params, -, rfl⟩ := h
  simp only [readPath] at hu
  split at hu
  · cases hu
  · obtain rfl := Except.ok.inj hu
    rfl

theorem param?_withParam (u : Urn) (key key' value : String) :
    (u.withParam key value).param? key' = if key = key' then some value else u.param? key' :=
  SortedMap.get?_insert _ _ _ _

/-- What the reference of a resource is read as has the type of the resource. -/
theorem type_of_ofReference (h : ofReference account u.reference = .ok d) : d.type = u.type := by
  rw [ofReference, cutAt?_reference] at h
  obtain ⟨type, htype, h⟩ := bind_eq_ok.mp h
  obtain rfl := Except.ok.inj ((readType_tag u.type).symm.trans htype)
  exact type_of_readName h

theorem type_eq_of_reference_eq (h : u.reference = d.reference) : u.type = d.type := by
  have hcut := cutAt?_reference u
  rw [h, cutAt?_reference d] at hcut
  have htag := (Prod.mk.inj (Option.some.inj hcut)).1
  have hread := readType_tag d.type
  rw [htag, readType_tag u.type] at hread
  exact Except.ok.inj hread

theorem type_of_grantee? {g : Urn} (hto : u.param? "to" = some d.reference)
    (hg : u.grantee? = some g) : g.type = d.type := by
  have hg : (ofReference u.account d.reference).toOption = some g := by
    rw [grantee?, hto] at hg
    exact hg
  cases hread : ofReference u.account d.reference with
  | error e =>
    rw [hread] at hg
    cases hg
  | ok v =>
    rw [hread] at hg
    obtain rfl := Option.some.inj hg
    exact type_of_ofReference hread

theorem type_of_grantee?_of_none {g : Urn} (hto : u.param? "to" = none)
    (hg : u.grantee? = some g) : g.type = .role ∨ g.type = .user := by
  rw [grantee?, hto] at hg
  cases hrole : u.param? "role" with
  | some role =>
    rw [hrole] at hg
    obtain rfl := Option.some.inj hg
    exact .inl rfl
  | none =>
    rw [hrole] at hg
    obtain ⟨user, -, rfl⟩ := Option.map_eq_some_iff.mp hg
    exact .inr rfl

/-- The parameter is the reference of `d`, and is read as `d`. -/
structure Names (u : Urn) (key : String) (d : Urn) : Prop where
  param : u.param? key = some d.reference
  read : u.paramUrn? key = some d

theorem Names.mem_implied (h : u.Names key d) (hkey : key ∈ referenceKeys) : d ∈ u.implied :=
  List.mem_append_left _ (List.mem_append_right _ (List.mem_filterMap.mpr ⟨key, hkey, h.read⟩))

end Urn

namespace Grant

/-- The address of a granted privilege names its grantee and its container as resources of the
types that these have. -/
structure IsWellShaped (u : Urn) : Prop where
  grantee : u.type = .grant → ∃ d, u.Names "to" d ∧ (d.type = .role ∨ d.type = .databaseRole)
  container : u.type = .futureGrant ∨ u.type = .grantOnAll →
    ∃ d, u.Names "in" d ∧ (d.type = .database ∨ d.type = .schema)

theorem isWellShaped_of_not_isPrivilege {u : Urn} (h : ¬ u.type.isPrivilege) : IsWellShaped u where
  grantee htype := absurd (by rw [htype]; rfl) h
  container htype := by
    rcases htype with htype | htype
    · exact absurd (by rw [htype]; rfl) h
    · exact absurd (by rw [htype]; rfl) h

def IsReadable (account : String) (d : Urn) : Prop := Urn.ofReference account d.reference = .ok d

theorem names_of_isReadable {u d : Urn} {key : String} (hkey : key ≠ "role" ∧ key ≠ "user")
    (hparam : u.param? key = some d.reference) (hd : IsReadable u.account d) : u.Names key d := by
  refine ⟨hparam, ?_⟩
  have hreference : Urn.referenceOf key d.reference = d.reference := by
    simp [Urn.referenceOf, hkey.1, hkey.2]
  show (u.param? key).bind _ = _
  rw [hparam, Option.bind_some, hreference, hd]
  rfl

theorem param?_objectUrn (account privilege key : String) (on grantee : Urn) :
    (objectUrn account privilege on grantee).param? key =
      if "to" = key then some grantee.reference
      else if "priv" = key then some privilege
      else if "on" = key then some on.reference else none := by
  simp only [objectUrn, Urn.param?_withParam]
  rfl

theorem param?_scopedUrn (account privilege key : String) (type target : ResourceType)
    (container grantee : Urn) :
    (scopedUrn account type privilege target container grantee).param? key =
      if "to" = key then some grantee.reference
      else if "priv" = key then some privilege
      else if "on_type" = key then some target.tag
      else if "in" = key then some container.reference else none := by
  simp only [scopedUrn, Urn.param?_withParam]
  rfl

theorem param?_roleUrn (account key : String) (role grantee : Urn) :
    (roleUrn account role grantee).param? key =
      if (if grantee.type = .user then "user" else "role") = key then some grantee.qualifiedName
      else none := Urn.param?_withParam _ _ _ _

theorem to_objectUrn (account privilege : String) (on grantee : Urn) :
    (objectUrn account privilege on grantee).param? "to" = some grantee.reference :=
  param?_objectUrn _ _ _ _ _

theorem priv_objectUrn (account privilege : String) (on grantee : Urn) :
    (objectUrn account privilege on grantee).param? "priv" = some privilege :=
  param?_objectUrn _ _ _ _ _

theorem to_scopedUrn (account privilege : String) (type target : ResourceType)
    (container grantee : Urn) :
    (scopedUrn account type privilege target container grantee).param? "to" =
      some grantee.reference :=
  param?_scopedUrn _ _ _ _ _ _ _

theorem to_roleUrn (account : String) (role grantee : Urn) :
    (roleUrn account role grantee).param? "to" = none := by
  have hkey : (if grantee.type = .user then "user" else "role") ≠ "to" := by
    split
    · decide
    · decide
  rw [param?_roleUrn, if_neg hkey]

theorem isWellShaped_objectUrn {account privilege : String} {on grantee : Urn}
    (hgrantee : grantee.type = .role ∨ grantee.type = .databaseRole)
    (hread : IsReadable account grantee) :
    IsWellShaped (objectUrn account privilege on grantee) where
  grantee _ := ⟨grantee, names_of_isReadable (by decide) (to_objectUrn _ _ _ _) hread,
    hgrantee⟩
  container h := by rcases h with h | h <;> cases h

/-! ## Privileges that stand for themselves -/

/-- The address grants one privilege, neither ownership nor all there are. -/
def IsConcrete (u : Urn) : Prop :=
  ∀ privilege, u.param? "priv" = some privilege →
    Text.upperCase privilege ≠ Privilege.ownership ∧
      ¬ Privilege.isAll (Text.upperCase privilege)

theorem reported_of_isConcrete {u : Urn} (h : IsConcrete u) : reported u = .itself := by
  rw [reported]
  split
  · rfl
  next privilege hprivilege =>
    obtain ⟨howner, hall⟩ := h privilege hprivilege
    simp [howner, hall]

theorem normalizeRemote_of_isConcrete {rs : List Record} (h : ∀ r ∈ rs, IsConcrete r.urn) :
    normalizeRemote rs = rs := by
  induction rs with
  | nil => rfl
  | cons r rs ih =>
    have hr : normalizeRecord r = [r] := by
      rw [normalizeRecord, reported_of_isConcrete (h r List.mem_cons_self)]
    rw [normalizeRemote, List.flatMap_cons, hr]
    exact congrArg (r :: ·) (ih fun r hr => h r (List.mem_cons_of_mem _ hr))

end Grant
end Reconcile
