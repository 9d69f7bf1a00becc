import Reconcile.Proofs.Declaration.Address
/-!
What declared grants depend on and what can be read off their addresses.  Main statements:
`mem_implied_objectUrn`, `mem_implied_scopedUrn` and `mem_implied_roleUrn`, and from them
`agreesWithAddress_iff`, where the two agree.
-/

namespace Reconcile

open Fallible

theorem ResourceType.ofName?_of_quotation {s : List Char} (h : '"' ∈ s) : ofName? s = none := by
  rw [ofName?, ofTag?, List.find?_eq_none]
  intro t _ htag
  have htag : t.tag = _ := beq_iff_eq.mp htag
  have htrim : '"' ∈ Text.trim s := by
    obtain ⟨a, b, hs, ha, hb⟩ := Text.exists_trim s
    rw [hs, List.mem_append, List.mem_append] at h
    rcases h with h | h | h
    · exact absurd h (Text.quotation_not_mem_of_blank ha)
    · exact h
    · exact absurd h (Text.quotation_not_mem_of_blank hb)
  have hmem : '"' ∈ t.tag.toList := by
    rw [htag, String.toList_ofList]
    exact List.mem_map.mpr ⟨'"', htrim, rfl⟩
  cases t <;> exact absurd hmem (by decide)

namespace Urn

open Text

variable {account : String} {u v : Urn}

/-- The address is that of a resource of the account that its name alone tells from others. -/
structure IsNamed (account : String) (u : Urn) : Prop where
  account : u.account = account
  params : u.params = .empty
  legible : u.IsLegible

theorem IsNamed.isReadable (h : u.IsNamed account) : Grant.IsReadable account u := by
  rw [Grant.IsReadable, ofReference_reference h.legible h.params, ← h.account]

theorem IsNamed.container (h : u.IsNamed account) (hdepth : u.type.pathLength = 0) :
    u.container = .account := by
  refine Container.names_injective ?_
  rw [List.length_eq_zero_iff.mp (h.legible.depth.trans hdepth)]
  rfl

theorem isNamed_ofAccount (account : String) : (ofAccount account).IsNamed account where
  account := rfl
  params := rfl
  legible := by
    refine ⟨rfl, hasGuardedNames_ofNames (fun h => ?_) (List.forall_mem_nil _) (by decide),
      hasGuardedKeys_empty⟩
    exact absurd h (by decide)

theorem qualifiedName_of_account (h : u.container = .account) : u.qualifiedName = u.name.text := by
  rw [qualifiedName, h]
  rfl

/-- Nothing can be read of a name that has a slash in it: such a name stands in quotes, which no
type does. -/
theorem ofReference_of_slash {a : Identifier} (h : '/' ∈ a.text.toList) :
    (ofReference account a.text).toOption = none := by
  rcases a.isPlain_or_exists_cons with hplain | ⟨rest, hrest⟩
  · exact absurd h (Identifier.not_mem_of_isPlain hplain (by decide))
  · rw [ofReference]
    cases hcut : cutAt? '/' a.text.toList with
    | none => rfl
    | some p =>
      obtain ⟨kind, name⟩ := p
      have hkind : '"' ∈ kind := by
        have hcons := (eq_of_cutAt? hcut).symm.trans hrest
        cases kind with
        | nil => exact absurd (List.cons.inj hcons).1 (by decide)
        | cons c kind => exact (List.cons.inj hcons).1 ▸ List.mem_cons_self
      show (readType kind >>= _).toOption = none
      rw [readType, ResourceType.ofName?_of_quotation hkind]
      rfl

/-- Outside databases an address depends on what its parameters name and on the role that it hands
on. -/
theorem mem_implied_iff (h : u.container = .account) : v ∈ u.implied ↔
    (∃ key ∈ referenceKeys, u.paramUrn? key = some v) ∨ u.grantedRole? = some v := by
  have hparent : u.parent? = none := by
    rw [parent?, h]
  rw [implied, hparent, List.mem_append, List.mem_append, List.mem_filterMap]
  simp

theorem paramUrn?_of_none {key : String} (h : u.param? key = none) : u.paramUrn? key = none := by
  rw [paramUrn?, h]
  rfl

end Urn

namespace Grant

variable {account privilege : String} {type target : ResourceType}
  {on container role grantee v : Urn}

theorem mem_implied_objectUrn (hon : IsReadable account on)
    (hgrantee : IsReadable account grantee) :
    v ∈ (objectUrn account privilege on grantee).implied ↔ v = on ∨ v = grantee := by
  have param (key : String) := param?_objectUrn account privilege key on grantee
  have hon := (names_of_isReadable (by decide) (param "on") hon).read
  have hto := (names_of_isReadable (by decide) (param "to") hgrantee).read
  have hin := Urn.paramUrn?_of_none (param "in")
  have hrole := Urn.paramUrn?_of_none (param "role")
  have huser := Urn.paramUrn?_of_none (param "user")
  have hgranted : (objectUrn account privilege on grantee).grantedRole? = none := rfl
  rw [Urn.mem_implied_iff rfl, hgranted]
  simp [Urn.referenceKeys, hon, hto, hin, hrole, huser, eq_comm]

theorem mem_implied_scopedUrn (htype : type = .futureGrant ∨ type = .grantOnAll)
    (hcontainer : IsReadable account container) (hgrantee : IsReadable account grantee) :
    v ∈ (scopedUrn account type privilege target container grantee).implied ↔
      v = container ∨ v = grantee := by
  have param (key : String) := param?_scopedUrn account privilege key type target container grantee
  have hon := Urn.paramUrn?_of_none (param "on")
  have hto := (names_of_isReadable (by decide) (param "to") hgrantee).read
  have hin := (names_of_isReadable (by decide) (param "in") hcontainer).read
  have hrole := Urn.paramUrn?_of_none (param "role")
  have huser := Urn.paramUrn?_of_none (param "user")
  have hgranted :
      (scopedUrn account type privilege target container grantee).grantedRole? = none := by
    rw [Urn.grantedRole?]
    rcases htype with rfl | rfl
    · rfl
    · rfl
  rw [Urn.mem_implied_iff rfl, hgranted]
  simp [Urn.referenceKeys, hon, hto, hin, hrole, huser, eq_comm, or_comm]

def granteeKey (grantee : Urn) : String := if grantee.type = .user then "user" else "role"

/-- The grantee of a role is looked up by its name, unless a slash in the name passes for the end of
a type. -/
theorem paramUrn?_roleUrn (htype : grantee.type = .role ∨ grantee.type = .user)
    (hnamed : grantee.IsNamed account) :
    (roleUrn account role grantee).paramUrn? (granteeKey grantee) =
      if '/' ∈ grantee.name.text.toList then none else some grantee := by
  have hcontainer : grantee.container = .account := by
    refine hnamed.container ?_
    rcases htype with h | h
    · rw [h]
      rfl
    · rw [h]
      rfl
  have hparam : (roleUrn account role grantee).param? (granteeKey grantee) =
      some grantee.name.text := by
    rw [param?_roleUrn, granteeKey, if_pos rfl, Urn.qualifiedName_of_account hcontainer]
  show ((roleUrn account role grantee).param? _).bind _ = _
  rw [hparam, Option.bind_some]
  show (Urn.ofReference account (Urn.referenceOf _ _)).toOption = _
  split
  next hslash =>
    have hwhole : Urn.referenceOf (granteeKey grantee) grantee.name.text = grantee.name.text := by
      simp [Urn.referenceOf, hslash]
    rw [hwhole, Urn.ofReference_of_slash hslash]
  next hslash =>
    have hreference :
        Urn.referenceOf (granteeKey grantee) grantee.name.text = grantee.reference := by
      rw [Urn.reference, Urn.qualifiedName_of_account hcontainer]
      rcases htype with h | h
      · simp [Urn.referenceOf, granteeKey, h, hslash, ResourceType.tag]
      · simp [Urn.referenceOf, granteeKey, h, hslash, ResourceType.tag]
    rw [hreference, hnamed.isReadable]
    rfl

theorem mem_implied_roleUrn (hrole : role.type = .role ∧ role.IsNamed account)
    (hgrantee : (grantee.type = .role ∨ grantee.type = .user) ∧ grantee.IsNamed account) :
    v ∈ (roleUrn account role grantee).implied ↔
      v = role ∨ v = grantee ∧ '/' ∉ grantee.name.text.toList := by
  have hread : (roleUrn account role grantee).paramUrn? (granteeKey grantee) = _ :=
    paramUrn?_roleUrn hgrantee.1 hgrantee.2
  have hgranted : (roleUrn account role grantee).grantedRole? = some role := by
    have hcontainer := hrole.2.container (by rw [hrole.1]; rfl)
    show some (Urn.mk account .role .account role.name .empty) = some role
    rw [← hrole.2.account, ← hrole.1, ← hcontainer, ← hrole.2.params]
  have hparams :
      (∃ key ∈ Urn.referenceKeys, (roleUrn account role grantee).paramUrn? key = some v) ↔
        (roleUrn account role grantee).paramUrn? (granteeKey grantee) = some v := by
    refine ⟨?_, fun h => ⟨granteeKey grantee, ?_, h⟩⟩
    · rintro ⟨key, -, hv⟩
      by_cases hkey : granteeKey grantee = key
      · rwa [hkey]
      · have hnone := (param?_roleUrn account key role grantee).trans (if_neg hkey)
        rw [Urn.paramUrn?_of_none hnone] at hv
        cases hv
    · rw [granteeKey]
      split
      · decide
      · decide
  rw [Urn.mem_implied_iff rfl, hgranted, hparams, hread]
  by_cases hslash : '/' ∈ grantee.name.text.toList
  · simp [hslash, eq_comm]
  · simp [hslash, eq_comm, or_comm]

end Grant

namespace Reference

def IsWellNamed : Reference → Prop
  | urn _ => False
  | named _ name container =>
    Identifier.IsWellFormed name ∧ ∀ n ∈ container, Identifier.IsWellFormed n

theorem isNamed_of_resolve {r : Reference} {account : String} {v : Urn} (hr : r.IsWellNamed)
    (h : r.resolve account = .ok v) : v.IsNamed account := by
  cases r with
  | urn u => exact hr.elim
  | named type name container =>
    rw [resolve] at h
    split at h
    · obtain rfl := Except.ok.inj h
      exact Urn.isNamed_ofAccount account
    · split at h
      · cases h
      next hlength =>
        obtain rfl := Except.ok.inj h
        have hlength : container.length = type.pathLength := not_not.mp hlength
        have hle : container.length ≤ 2 := hlength ▸ type.pathLength_le
        refine ⟨rfl, rfl, ?_, Urn.hasGuardedNames_ofNames hr.1 hr.2 hle, Urn.hasGuardedKeys_empty⟩
        show (Container.ofNames container).names.length = _
        rw [Container.length_names_ofNames hle, hlength]
        rfl

/-- The resource is mentioned by well-formed names, or by an address that can be read again. -/
def IsWellFormed : Reference → Prop
  | urn u => u.IsLegible
  | named type name container => (named type name container).IsWellNamed

theorem isLegible_of_resolve {r : Reference} {account : String} {v : Urn} (hr : r.IsWellFormed)
    (h : r.resolve account = .ok v) : v.IsLegible := by
  cases r with
  | urn u =>
    obtain rfl := Except.ok.inj h
    exact hr
  | named type name container =>
    have hnamed : (named type name container).IsWellNamed := hr
    exact (isNamed_of_resolve hnamed h).legible

end Reference

/-- The specification depends on what its address implies, the account aside. -/
def Spec.AgreesWithAddress (s : Spec) : Prop :=
  ∀ v, v ∈ s.dependencies ↔ v ∈ s.urn.implied ∧ v.type ≠ .account

namespace Declaration

variable {d : Declaration} {config : Config} {account key : String} {specs : List Spec} {s : Spec}
  {v : Urn}

theorem exists_of_requiredReference (h : d.requiredReference account key = .ok v) :
    ∃ r ∈ d.references.values, r.resolve account = .ok v := by
  rw [requiredReference] at h
  split at h
  next r hr => exact ⟨r, List.mem_map.mpr ⟨(key, r), SortedMap.get?_eq_some_iff.mp hr, rfl⟩, h⟩
  · cases h

theorem isNamed_of_requiredReference (hnamed : ∀ r ∈ d.references.values, r.IsWellNamed)
    (h : d.requiredReference account key = .ok v) : v.IsNamed account := by
  obtain ⟨r, hr, hv⟩ := exists_of_requiredReference h
  exact Reference.isNamed_of_resolve (hnamed r hr) hv

theorem isLegible_of_requiredReference (hformed : ∀ r ∈ d.references.values, r.IsWellFormed)
    (h : d.requiredReference account key = .ok v) : v.IsLegible := by
  obtain ⟨r, hr, hv⟩ := exists_of_requiredReference h
  exact Reference.isLegible_of_resolve (hformed r hr) hv

section

variable {privilege : String} {type target : ResourceType} {urn on container role grantee : Urn}
  {properties : Properties} {dependencies : List Urn}

theorem mem_dependencies_grantSpec : v ∈ (grantSpec urn properties dependencies).dependencies ↔
    v ∈ dependencies ∧ v.type ≠ .account := by
  simp [grantSpec, SortedSet.mem_ofList]

theorem agreesWithAddress_grantSpec : (grantSpec urn properties dependencies).AgreesWithAddress ↔
    ∀ v, v.type ≠ .account → (v ∈ dependencies ↔ v ∈ urn.implied) := by
  refine forall_congr' fun v => ?_
  rw [mem_dependencies_grantSpec]
  exact and_congr_left_iff

theorem agreesWithAddress_objectUrn (hon : on.IsNamed account)
    (hgrantee : grantee.IsNamed account) :
    (grantSpec (Grant.objectUrn account privilege on grantee) properties
      [on, grantee]).AgreesWithAddress := by
  refine agreesWithAddress_grantSpec.mpr fun v _ => ?_
  rw [Grant.mem_implied_objectUrn hon.isReadable hgrantee.isReadable, List.mem_pair]

theorem agreesWithAddress_scopedUrn (htype : type = .futureGrant ∨ type = .grantOnAll)
    (hcontainer : container.IsNamed account) (hgrantee : grantee.IsNamed account) :
    (grantSpec (Grant.scopedUrn account type privilege target container grantee) properties
      [container, grantee]).AgreesWithAddress := by
  refine agreesWithAddress_grantSpec.mpr fun v _ => ?_
  rw [Grant.mem_implied_scopedUrn htype hcontainer.isReadable hgrantee.isReadable, List.mem_pair]

theorem agreesWithAddress_roleUrn_iff (hrole : role.type = .role ∧ role.IsNamed account)
    (hgrantee : (grantee.type = .role ∨ grantee.type = .user) ∧ grantee.IsNamed account) :
    (grantSpec (Grant.roleUrn account role grantee) properties [role, grantee]).AgreesWithAddress ↔
      ('/' ∈ grantee.name.text.toList → grantee = role) := by
  have himplied (v : Urn) : v ∈ (Grant.roleUrn account role grantee).implied ↔ _ :=
    Grant.mem_implied_roleUrn hrole hgrantee
  rw [agreesWithAddress_grantSpec]
  constructor
  · intro hagree hslash
    have hnot : grantee.type ≠ .account := by
      rcases hgrantee.1 with h | h
      · simp [h]
      · simp [h]
    have hmem := (hagree grantee hnot).mp (by simp)
    exact ((himplied grantee).mp hmem).resolve_right fun h => h.2 hslash
  · intro hsame v _
    rw [himplied, List.mem_pair]
    by_cases hslash : '/' ∈ grantee.name.text.toList
    · rw [hsame hslash]
      tauto
    · simp [hslash]

end

/-- A declared grant depends on what its address implies, except if a role is granted to another
role, or to a user, that has a slash in its name. -/
theorem agreesWithAddress_iff (h : d.ingest config = .ok specs) (hgrant : d.type.isGrant)
    (hnamed : ∀ r ∈ d.references.values, r.IsWellNamed) (hs : s ∈ specs) :
    s.AgreesWithAddress ↔ (d.type = .roleGrant → ∀ role grantee,
      d.requiredReference config.account "role" = .ok role →
      d.requiredReference config.account "to" = .ok grantee →
      '/' ∈ grantee.name.text.toList → grantee = role) := by
  have named {key : String} {v : Urn} (h : d.requiredReference config.account key = .ok v) :
      v.IsNamed config.account := isNamed_of_requiredReference hnamed h
  rcases ingest_cases h with ⟨htype, h⟩ | ⟨htype, h⟩ | ⟨htype, h⟩ | ⟨hobject, -⟩
  · obtain ⟨on, grantee, option, p, hon, hto, -, rfl⟩ := exists_of_ingestGrant h hs
    refine iff_of_true (agreesWithAddress_objectUrn (named hon) (named hto)) fun hrole => ?_
    rw [htype] at hrole
    cases hrole
  · obtain ⟨container, grantee, target, option, p, hin, -, hto, -, rfl⟩ :=
      exists_of_ingestScopedGrant h hs
    refine iff_of_true (agreesWithAddress_scopedUrn htype (named hin) (named hto)) fun hrole => ?_
    rw [hrole] at htype
    rcases htype with htype | htype
    · cases htype
    · cases htype
  · obtain ⟨role, grantee, hrole, hroletype, hto, hgranteetype, rfl⟩ :=
      exists_of_ingestRoleGrant h hs
    rw [agreesWithAddress_roleUrn_iff ⟨hroletype, named hrole⟩ ⟨hgranteetype, named hto⟩]
    constructor
    · intro hsame _ role' grantee' hrole' hto'
      obtain rfl := Except.ok.inj (hrole.symm.trans hrole')
      obtain rfl := Except.ok.inj (hto.symm.trans hto')
      exact hsame
    · intro hsame
      exact hsame htype role grantee hrole hto
  · exact absurd hgrant hobject

/-! ## Names that mean something in an address -/

def usageOnSchema : Declaration where
  type := .grant
  name := ""
  container := []
  properties := SortedMap.empty.insert "priv" (.string "usage")
  references := (SortedMap.empty.insert "on" (.named .schema "a?b/c.d" ["d\"b"])).insert "to"
    (.named .databaseRole "\"read & \"\"write\"\"\"" ["d\"b"])

def oddSchemaUrn : Urn := .ofNames "A" .schema ["d\"b"] "a?b/c.d"

def oddRoleUrn : Urn := .ofNames "A" .databaseRole ["d\"b"] "\"read & \"\"write\"\"\""

def usageSpec : Spec :=
  grantSpec (Grant.objectUrn "A" "USAGE" oddSchemaUrn oddRoleUrn) (grantProperties false)
    [oddSchemaUrn, oddRoleUrn]

theorem ingest_usageOnSchema : usageOnSchema.ingest (.ofAccount "A") = .ok [usageSpec] := by rfl

theorem isWellNamed_usageOnSchema : ∀ r ∈ usageOnSchema.references.values, r.IsWellNamed := by
  have hdatabase : ∀ n ∈ ["d\"b"], Identifier.IsWellFormed n :=
    List.forall_mem_singleton.mpr fun h => absurd h (by decide)
  refine List.forall_mem_cons.mpr ⟨⟨fun h => absurd h (by decide), hdatabase⟩,
    List.forall_mem_singleton.mpr ⟨fun _ => ⟨"read & \"write\"".toList, by decide⟩, hdatabase⟩⟩

theorem usageSpec_agreesWithAddress :
    usageOnSchema.ingest (.ofAccount "A") = .ok [usageSpec] ∧ usageOnSchema.type.isGrant ∧
    (∀ r ∈ usageOnSchema.references.values, r.IsWellNamed) ∧ usageSpec.AgreesWithAddress := by
  refine ⟨ingest_usageOnSchema, rfl, isWellNamed_usageOnSchema, ?_⟩
  exact (agreesWithAddress_iff ingest_usageOnSchema rfl isWellNamed_usageOnSchema
    List.mem_cons_self).mpr fun htype => nomatch htype

def grantedTo (name : String) : Declaration where
  type := .roleGrant
  name := ""
  container := []
  properties := .empty
  references := (SortedMap.empty.insert "role" (.named .role "R" [])).insert "to"
    (.named .role name [])

def roleGrantSpec (name : String) : Spec :=
  grantSpec (Grant.roleUrn "A" (.ofRole "A" "R") (.ofRole "A" name)) .empty
    [.ofRole "A" "R", .ofRole "A" name]

/-- The role that another one is granted to is not found in the address if there is a slash in its
name. -/
theorem roleGrantSpec_not_agreesWithAddress :
    (grantedTo "a/b").ingest (.ofAccount "A") = .ok [roleGrantSpec "a/b"] ∧
    (∀ r ∈ (grantedTo "a/b").references.values, r.IsWellNamed) ∧
    Urn.ofRole "A" "a/b" ∈ (roleGrantSpec "a/b").dependencies ∧
    Urn.ofRole "A" "a/b" ∉ (roleGrantSpec "a/b").urn.implied ∧
    ¬ (roleGrantSpec "a/b").AgreesWithAddress := by
  have hnamed : ∀ r ∈ (grantedTo "a/b").references.values, r.IsWellNamed :=
    List.forall_mem_cons.mpr ⟨⟨fun h => absurd h (by decide), List.forall_mem_nil _⟩,
      List.forall_mem_singleton.mpr ⟨fun h => absurd h (by decide), List.forall_mem_nil _⟩⟩
  have hmem : Urn.ofRole "A" "a/b" ∈ (roleGrantSpec "a/b").dependencies := by decide
  have hnot : Urn.ofRole "A" "a/b" ∉ (roleGrantSpec "a/b").urn.implied := by decide
  exact ⟨rfl, hnamed, hmem, hnot, fun hagree => hnot ((hagree _).mp hmem).1⟩

end Declaration
end Reconcile
