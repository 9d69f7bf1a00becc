import Reconcile.Declaration.Ingest
import Reconcile.Proofs.Collection
import Reconcile.Proofs.Fallible
/-!
What declarations come to.  Of each shape of a declaration one statement says where the parts of its
specifications come from, as `exists_of_ingestGrant` does for grants on objects.  Main statement:
`isGrantSpec_of_ingest`, the shapes that a declared grant comes to.
-/

namespace Reconcile
namespace Declaration

open Fallible

variable {d : Declaration} {config : Config} {account : String} {specs : List Spec} {s : Spec}

theorem type_of_checkGrantee {grantee : Urn} {t t' : ResourceType}
    (h : d.checkGrantee grantee [t, t'] = .ok ()) : grantee.type = t ∨ grantee.type = t' := by
  rw [checkGrantee] at h
  split at h
  next hallowed => simpa using hallowed
  · cases h

theorem exists_of_ingestGrant (h : d.ingestGrant account = .ok specs) (hs : s ∈ specs) :
    ∃ on grantee option privilege, d.requiredReference account "on" = .ok on ∧
      d.requiredReference account "to" = .ok grantee ∧
      (grantee.type = .role ∨ grantee.type = .databaseRole) ∧
      s = grantSpec (Grant.objectUrn account privilege on grantee) (grantProperties option)
        [on, grantee] := by
  simp only [ingestGrant, bind_eq_ok, pure_eq_ok] at h
  obtain ⟨on, hon, grantee, hgrantee, ⟨⟩, hcheck, option, -, privileges, -, rfl⟩ := h
  obtain ⟨p, -, rfl⟩ := List.mem_map.mp hs
  exact ⟨on, grantee, option, p, hon, hgrantee, type_of_checkGrantee hcheck, rfl⟩

theorem exists_of_ingestScopedGrant (h : d.ingestScopedGrant account = .ok specs) (hs : s ∈ specs) :
    ∃ container grantee target option privilege,
      d.requiredReference account "in" = .ok container ∧
      (container.type = .database ∨ container.type = .schema) ∧
      d.requiredReference account "to" = .ok grantee ∧
      (grantee.type = .role ∨ grantee.type = .databaseRole) ∧
      s = grantSpec (Grant.scopedUrn account d.type privilege target container grantee)
        (grantProperties option) [container, grantee] := by
  simp only [ingestScopedGrant, fail, bind_eq_ok] at h
  obtain ⟨container, hcontainer, h⟩ := h
  split at h
  · cases h
  next htype =>
    simp only [bind_eq_ok] at h
    obtain ⟨grantee, hgrantee, ⟨⟩, hcheck, target, -, h⟩ := h
    split at h
    · cases h
    · simp only [bind_eq_ok, pure_eq_ok] at h
      obtain ⟨option, -, privileges, -, rfl⟩ := h
      obtain ⟨p, -, rfl⟩ := List.mem_map.mp hs
      exact ⟨container, grantee, target, option, p, hcontainer, by tauto, hgrantee,
        type_of_checkGrantee hcheck, rfl⟩

theorem exists_of_ingestRoleGrant (h : d.ingestRoleGrant account = .ok specs) (hs : s ∈ specs) :
    ∃ role grantee, d.requiredReference account "role" = .ok role ∧ role.type = .role ∧
      d.requiredReference account "to" = .ok grantee ∧
      (grantee.type = .role ∨ grantee.type = .user) ∧
      s = grantSpec (Grant.roleUrn account role grantee) .empty [role, grantee] := by
  simp only [ingestRoleGrant, fail, bind_eq_ok] at h
  obtain ⟨role, hrole, grantee, hgrantee, h⟩ := h
  split at h
  · cases h
  next htype =>
    simp only [bind_eq_ok, pure_eq_ok] at h
    obtain ⟨⟨⟩, hcheck, rfl⟩ := h
    exact ⟨role, grantee, hrole, not_not.mp htype, hgrantee, type_of_checkGrantee hcheck,
      List.mem_singleton.mp hs⟩

theorem exists_of_ingestObject (h : d.ingestObject config = .ok specs) (hs : s ∈ specs) :
    ∃ container references, d.resolvedContainer config = .ok container ∧
      d.references.values.mapM (Reference.resolve config.account) = .ok references ∧
      s.urn = .ofNames config.account d.type container d.name ∧
      s.properties = canonicalOwner d.properties ∧
      s.dependencies = (SortedSet.ofList (s.urn.parent?.toList ++ references ++
        ownerDependency config.account d.properties)).erase (.ofAccount config.account) := by
  simp only [ingestObject, fail] at h
  split at h
  · cases h
  · simp only [bind_eq_ok, pure_eq_ok] at h
    obtain ⟨container, hcontainer, references, hreferences, rfl⟩ := h
    obtain rfl := List.mem_singleton.mp hs
    exact ⟨container, references, hcontainer, hreferences, rfl, rfl, rfl⟩

theorem ingest_cases (h : d.ingest config = .ok specs) :
    (d.type = .grant ∧ d.ingestGrant config.account = .ok specs) ∨
      ((d.type = .futureGrant ∨ d.type = .grantOnAll) ∧
        d.ingestScopedGrant config.account = .ok specs) ∨
      (d.type = .roleGrant ∧ d.ingestRoleGrant config.account = .ok specs) ∨
      ¬ d.type.isGrant ∧ d.ingestObject config = .ok specs := by
  rw [ingest] at h
  cases htype : d.type with
  | grant => exact .inl ⟨rfl, by simpa only [htype] using h⟩
  | futureGrant => exact .inr (.inl ⟨.inl rfl, by simpa only [htype] using h⟩)
  | grantOnAll => exact .inr (.inl ⟨.inr rfl, by simpa only [htype] using h⟩)
  | roleGrant => exact .inr (.inr (.inl ⟨rfl, by simpa only [htype] using h⟩))
  | _ => exact .inr (.inr (.inr ⟨Bool.false_ne_true, by simpa only [htype] using h⟩))

/-! ## Grants -/

/-- The specifications that declared grants stand for. -/
inductive IsGrantSpec (account : String) : Spec → Prop where
  | onObject (privilege : String) (on grantee : Urn) (option : Bool)
      (hgrantee : grantee.type = .role ∨ grantee.type = .databaseRole) :
      IsGrantSpec account (grantSpec (Grant.objectUrn account privilege on grantee)
        (grantProperties option) [on, grantee])
  | onObjects (type : ResourceType) (privilege : String) (target : ResourceType)
      (container grantee : Urn) (option : Bool) (htype : type = .futureGrant ∨ type = .grantOnAll)
      (hcontainer : container.type = .database ∨ container.type = .schema)
      (hgrantee : grantee.type = .role ∨ grantee.type = .databaseRole) :
      IsGrantSpec account (grantSpec (Grant.scopedUrn account type privilege target container
        grantee) (grantProperties option) [container, grantee])
  | ofRole (role grantee : Urn) (hrole : role.type = .role)
      (hgrantee : grantee.type = .role ∨ grantee.type = .user) :
      IsGrantSpec account (grantSpec (Grant.roleUrn account role grantee) .empty [role, grantee])

theorem IsGrantSpec.isGrant (h : IsGrantSpec account s) : s.urn.type.isGrant := by
  cases h with
  | onObject => rfl
  | onObjects type privilege target container grantee option htype =>
    rcases htype with rfl | rfl
    · rfl
    · rfl
  | ofRole => rfl

theorem isGrantSpec_of_ingestGrant (h : d.ingestGrant account = .ok specs) (hs : s ∈ specs) :
    IsGrantSpec account s := by
  obtain ⟨on, grantee, option, p, -, -, hgrantee, rfl⟩ := exists_of_ingestGrant h hs
  exact .onObject p on grantee option hgrantee

theorem isGrantSpec_of_ingestScopedGrant (htype : d.type = .futureGrant ∨ d.type = .grantOnAll)
    (h : d.ingestScopedGrant account = .ok specs) (hs : s ∈ specs) : IsGrantSpec account s := by
  obtain ⟨container, grantee, target, option, p, -, hcontainer, -, hgrantee, rfl⟩ :=
    exists_of_ingestScopedGrant h hs
  exact .onObjects d.type p target container grantee option htype hcontainer hgrantee

theorem isGrantSpec_of_ingestRoleGrant (h : d.ingestRoleGrant account = .ok specs)
    (hs : s ∈ specs) : IsGrantSpec account s := by
  obtain ⟨role, grantee, -, hrole, -, hgrantee, rfl⟩ := exists_of_ingestRoleGrant h hs
  exact .ofRole role grantee hrole hgrantee

theorem type_of_ingestObject (h : d.ingestObject config = .ok specs) (hs : s ∈ specs) :
    s.urn.type = d.type := by
  obtain ⟨container, references, -, -, hurn, -, -⟩ := exists_of_ingestObject h hs
  rw [hurn]
  rfl

theorem type_of_ingest (h : d.ingest config = .ok specs) (hs : s ∈ specs) :
    s.urn.type = d.type := by
  rcases ingest_cases h with ⟨htype, h⟩ | ⟨-, h⟩ | ⟨htype, h⟩ | ⟨-, h⟩
  · obtain ⟨on, grantee, option, p, -, -, -, rfl⟩ := exists_of_ingestGrant h hs
    exact htype.symm
  · obtain ⟨container, grantee, target, option, p, -, -, -, -, rfl⟩ :=
      exists_of_ingestScopedGrant h hs
    rfl
  · obtain ⟨role, grantee, -, -, -, -, rfl⟩ := exists_of_ingestRoleGrant h hs
    exact htype.symm
  · exact type_of_ingestObject h hs

/-- A specification of a grant is that of a privilege on an object, of one on many objects, or of a
role. -/
theorem isGrantSpec_of_ingest (h : d.ingest config = .ok specs) (hs : s ∈ specs)
    (hgrant : s.urn.type.isGrant) : IsGrantSpec config.account s := by
  rcases ingest_cases h with ⟨-, h⟩ | ⟨htype, h⟩ | ⟨-, h⟩ | ⟨hobject, h⟩
  · exact isGrantSpec_of_ingestGrant h hs
  · exact isGrantSpec_of_ingestScopedGrant htype h hs
  · exact isGrantSpec_of_ingestRoleGrant h hs
  · rw [type_of_ingestObject h hs] at hgrant
    exact absurd hgrant hobject

theorem ingestObject_of_ingest (h : d.ingest config = .ok specs) (hs : s ∈ specs)
    (hgrant : ¬ s.urn.type.isGrant) : d.ingestObject config = .ok specs := by
  rcases ingest_cases h with ⟨-, h⟩ | ⟨htype, h⟩ | ⟨-, h⟩ | ⟨-, h⟩
  · exact absurd (isGrantSpec_of_ingestGrant h hs).isGrant hgrant
  · exact absurd (isGrantSpec_of_ingestScopedGrant htype h hs).isGrant hgrant
  · exact absurd (isGrantSpec_of_ingestRoleGrant h hs).isGrant hgrant
  · exact h

end Declaration
end Reconcile
