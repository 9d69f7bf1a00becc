import Reconcile.Lifecycle.Render
import Reconcile.Plan.Change
import Reconcile.Proofs.Grant.Dependencies
/-!
The privileges that a declared grant comes to, and the statements about each.  Main statements:
`expand_spec`, a value denotes each privilege once, and `ingest_of_grant`, `render_grant` and
`render_revoke`, what becomes of the privileges.
-/

namespace Reconcile

open Fallible

namespace Privilege

variable {label text : String} {value : Option Json} {type : ResourceType}
  {privileges : List String}

theorem denoted_ne_nil (h : denoted type text = .ok privileges) : privileges ≠ [] := by
  simp only [denoted] at h
  split at h
  · cases h
  · split at h
    · split at h
      · cases h
      next hall =>
        obtain rfl := Except.ok.inj h
        exact mt List.isEmpty_iff.mpr hall
    · obtain rfl := Except.ok.inj h
      exact List.cons_ne_nil _ _

/-- A declared value denotes each privilege once, and at least one. -/
theorem expand_spec (h : expand label value type = .ok privileges) :
    privileges.Nodup ∧ privileges ≠ [] := by
  simp only [expand, mapError_eq_ok_iff, bind_eq_ok] at h
  obtain ⟨names, -, h⟩ := h
  split at h
  · cases h
  next hfilled =>
    simp only [bind_eq_ok, pure_eq_ok] at h
    obtain ⟨all, hall, rfl⟩ := h
    refine ⟨Lists.nodup_eraseDups _, ?_⟩
    obtain ⟨name, hname⟩ := List.exists_mem_of_ne_nil names (mt List.isEmpty_iff.mpr hfilled)
    obtain ⟨own, hown, hdenoted⟩ := Lists.exists_right_of_forall₂ (mapM_eq_ok_iff.mp hall) hname
    obtain ⟨p, hp⟩ := List.exists_mem_of_ne_nil own (denoted_ne_nil hdenoted)
    exact List.ne_nil_of_mem (List.mem_eraseDups.mpr (List.mem_flatten_of_mem hown hp))

end Privilege

namespace Grant

variable {account privilege other : String} {on grantee v : Urn}

theorem objectUrn_inj :
    objectUrn account privilege on grantee = objectUrn account other on grantee ↔
      privilege = other := by
  refine ⟨fun h => ?_, fun h => h ▸ rfl⟩
  have hpriv := priv_objectUrn account privilege on grantee
  rw [h, priv_objectUrn] at hpriv
  exact (Option.some.inj hpriv).symm

theorem ne_objectUrn_of_isNamed (h : v.IsNamed account) :
    v ≠ objectUrn account privilege on grantee := by
  rintro rfl
  have hto := to_objectUrn account privilege on grantee
  rw [Urn.param?, h.params] at hto
  cases hto

def granting (privilege : String) (on grantee : Urn) (option : Bool) : Statement where
  role := ResourceType.grant.defaultRole
  sql :=
    let sql := "GRANT " ++ privilege ++ " ON " ++ on.object ++ " TO " ++ grantee.object
    if option then sql ++ " WITH GRANT OPTION" else sql

def revoking (privilege : String) (on grantee : Urn) : Statement where
  role := ResourceType.grant.defaultRole
  sql := "REVOKE " ++ privilege ++ " ON " ++ on.object ++ " FROM " ++ grantee.object

theorem referenced_of_isReadable {u : Urn} {key : String} (hparam : u.param? key = some v.reference)
    (hv : IsReadable u.account v) : Lifecycle.referenced u key = .ok v := by
  rw [Lifecycle.referenced, Lifecycle.param, hparam]
  exact hv

theorem renderGrant_objectUrn (hon : IsReadable account on) (action : Action)
    (before after : Option Properties) :
    Lifecycle.renderGrant (objectUrn account privilege on grantee) action before after =
      Lifecycle.renderPrivilege (objectUrn account privilege on grantee) action on.object before
        after := by
  rw [Lifecycle.renderGrant,
    referenced_of_isReadable (u := objectUrn account privilege on grantee)
      (param?_objectUrn _ _ "on" _ _) hon]
  rfl

theorem render_grant (hon : IsReadable account on) (hgrantee : IsReadable account grantee)
    (after : Properties) :
    Lifecycle.render (objectUrn account privilege on grantee) .add none (some after) =
      .ok [(granting privilege on grantee (after.isTrue "grant_option")).sql] := by
  show Lifecycle.renderGrant _ _ _ _ = _
  rw [renderGrant_objectUrn hon, Lifecycle.renderPrivilege, Lifecycle.param, priv_objectUrn,
    referenced_of_isReadable (u := objectUrn account privilege on grantee)
      (to_objectUrn _ _ _ _) hgrantee]
  rfl

theorem render_revoke (hon : IsReadable account on) (hgrantee : IsReadable account grantee)
    (before : Properties) :
    Lifecycle.render (objectUrn account privilege on grantee) .remove (some before) none =
      .ok [(revoking privilege on grantee).sql] := by
  show Lifecycle.renderGrant _ _ _ _ = _
  rw [renderGrant_objectUrn hon, Lifecycle.renderPrivilege, Lifecycle.param, priv_objectUrn,
    referenced_of_isReadable (u := objectUrn account privilege on grantee)
      (to_objectUrn _ _ _ _) hgrantee]
  rfl

end Grant

namespace Declaration

variable {d : Declaration} {config : Config} {account key : String} {on grantee v : Urn}

def Names (d : Declaration) (account key : String) (v : Urn) : Prop :=
  ∃ r, d.references.get? key = some r ∧ r.IsWellNamed ∧ r.resolve account = .ok v

theorem Names.requiredReference (h : d.Names account key v) :
    d.requiredReference account key = .ok v := by
  obtain ⟨r, hr, -, hv⟩ := h
  rw [Declaration.requiredReference, hr]
  exact hv

theorem Names.isNamed (h : d.Names account key v) : v.IsNamed account := by
  obtain ⟨r, -, hnamed, hv⟩ := h
  exact Reference.isNamed_of_resolve hnamed hv

/-- A grant on an object comes to one specification for each privilege. -/
theorem ingest_of_grant {option : Bool} {privileges : List String} (htype : d.type = .grant)
    (hon : d.requiredReference config.account "on" = .ok on)
    (hto : d.requiredReference config.account "to" = .ok grantee)
    (hgrantee : grantee.type = .role ∨ grantee.type = .databaseRole)
    (hoption : d.grantOption = .ok option) (hprivileges : d.privileges on.type = .ok privileges) :
    d.ingest config = .ok (privileges.map fun p =>
      grantSpec (Grant.objectUrn config.account p on grantee) (grantProperties option)
        [on, grantee]) := by
  have hcheck : d.checkGrantee grantee [.role, .databaseRole] = .ok () := by
    rw [checkGrantee, if_pos (by simpa using hgrantee)]
  rw [ingest, htype]
  simp only [ingestGrant, bind_eq_ok, pure_eq_ok]
  exact ⟨on, hon, grantee, hto, (), hcheck, option, hoption, privileges, hprivileges, rfl⟩

theorem ingest_of_grant_eq_error (htype : d.type = .grant)
    (hon : d.requiredReference config.account "on" = .ok on)
    (hto : d.requiredReference config.account "to" = .ok grantee)
    (hgrantee : ¬ (grantee.type = .role ∨ grantee.type = .databaseRole)) :
    d.ingest config = .error (.invalidDeclaration d.label (.badGrantee grantee.type)) := by
  have hcheck : d.checkGrantee grantee [.role, .databaseRole] =
      .error (.invalidDeclaration d.label (.badGrantee grantee.type)) := by
    rw [checkGrantee, if_neg (by simpa using hgrantee)]
    rfl
  rw [ingest, htype]
  show d.ingestGrant config.account = _
  rw [ingestGrant, hon, hto]
  show (d.checkGrantee grantee [.role, .databaseRole] >>= _) = _
  rw [hcheck]
  rfl

end Declaration

end Reconcile
