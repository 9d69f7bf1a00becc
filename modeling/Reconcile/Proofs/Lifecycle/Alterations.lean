import Reconcile.Proofs.Lifecycle.Verbs
import Reconcile.Proofs.Grant.Address
/-!
What the statements of a change do to the fields of a resource.  Main statements:
`brings_unsatisfied`, fields that are not as desired are set or unset, each once, and no others, and
`isWritten_of_render_object` and `isWritten_of_render_privilege`, how this is written.
-/

namespace Reconcile

open Fallible

/-! ## Fields that are not as desired -/

/-- The field is given or desired empty, and `current` has it otherwise. -/
def Differs (desired current : Properties) (key : String) (v : Json) : Prop :=
  desired.get? key = some v ∧
    if v.isNull then ∃ w, current.get? key = some w ∧ ¬ w.isNull
    else ∀ w, current.get? key = some w → ¬ v.same w

namespace ResourceType

variable {t : ResourceType}

def flags : ResourceType → List String
  | view => ["secure"]
  | grant | futureGrant | grantOnAll => ["grant_option"]
  | _ => []

def isSetTo (t : ResourceType) (key : String) (v : Json) : Bool :=
  if t.flags.contains key then v.isTrue else !v.isNull

/-- Fields of resources that are compared and altered. -/
def IsAltered (t : ResourceType) (key : String) : Prop := key ≠ "owner" ∧ key ∉ t.writeOnlyFields

def unsatisfied (t : ResourceType) (desired current : Properties) : List (String × Json) :=
  (Sql.delta (some current) desired).filter fun e => !t.writeOnlyFields.contains e.1

end ResourceType

theorem ResourceType.unsatisfied_eq_delta {t : ResourceType} (h : t.writeOnlyFields = [])
    (desired current : Properties) :
    t.unsatisfied desired current = Sql.delta (some current) desired := by
  rw [unsatisfied, h]
  exact List.filter_eq_self.mpr fun _ _ => rfl

theorem Json.null_same (v : Json) : Json.null.same v = v.isNull := by
  cases v <;> simp [Json.same, Json.isNull]

theorem Json.eq_true_of_isTrue {v : Json} (h : v.isTrue) : v = .bool true := by
  cases v with
  | bool b => exact congrArg Json.bool h
  | _ => cases h

section Unsatisfied

variable {t : ResourceType} {desired current : Properties} {key : String} {v : Json}

theorem differs_iff : Differs desired current key v ↔
    desired.get? key = some v ∧ ¬ Sql.satisfies (current.get? key) v := by
  refine and_congr_right fun _ => ?_
  by_cases hnull : v.isNull
  · obtain rfl : v = .null := by
      cases v with
      | null => rfl
      | _ => cases hnull
    rw [if_pos hnull]
    cases current.get? key <;> simp [Sql.satisfies, Json.null_same, Json.isNull]
  · rw [if_neg hnull]
    cases current.get? key <;> simp [Sql.satisfies, hnull]

theorem mem_unsatisfied_iff : (key, v) ∈ t.unsatisfied desired current ↔
    t.IsAltered key ∧ Differs desired current key v := by
  simp only [ResourceType.unsatisfied, Sql.delta, List.mem_filter, ResourceType.IsAltered,
    Option.bind_some, differs_iff, SortedMap.get?_eq_some_iff, Bool.and_eq_true, bne_iff_ne,
    Bool.not_eq_true', Bool.not_eq_true, List.contains_eq_mem, decide_eq_false_iff_not]
  tauto

theorem nodup_unsatisfied : ((t.unsatisfied desired current).map (·.1)).Nodup :=
  desired.nodup_keys.sublist ((List.filter_sublist.trans List.filter_sublist).map _)

theorem changedFields_eq :
    Diff.changedFields t desired current = (t.unsatisfied desired current).map (·.1) := by
  rw [Diff.changedFields, ResourceType.unsatisfied, List.filter_map]
  rfl

end Unsatisfied

/-! ## Alterations -/

/-- What one statement does to the fields of a resource. -/
inductive Alteration where
  | set (fields : List (String × Json))
  | unset (fields : List String)
  | flag (field : String) (on : Bool)

namespace Alteration

def sets : Alteration → List (String × Json)
  | set fields => fields
  | unset _ => []
  | flag field on => if on then [(field, .bool true)] else []

def unsets : Alteration → List String
  | set _ => []
  | unset fields => fields
  | flag field on => if on then [] else [field]

def fields (a : Alteration) : List String := a.sets.map (·.1) ++ a.unsets

/-- How an alteration of a resource is written.  Only the right to grant a privilege on is not
altered by `ALTER`. -/
inductive IsWritten (urn : Urn) : Alteration → String → Prop where
  | set {fields : List (String × Json)} (h : fields ≠ []) : IsWritten urn (.set fields)
      ("ALTER " ++ urn.object ++ " SET" ++
        String.join (fields.map fun e => Sql.assignment e.1 e.2))
  | unset {fields : List String} (h : fields ≠ []) : IsWritten urn (.unset fields)
      ("ALTER " ++ urn.object ++ " UNSET " ++ ", ".intercalate (fields.map Text.upperCase))
  | secure (h : urn.type = .view) (on : Bool) : IsWritten urn (.flag "secure" on)
      ("ALTER " ++ urn.object ++ (if on then " SET" else " UNSET") ++ " SECURE")
  | grantOption {privilege : String} (h : urn.type.isPrivilege)
      (hpriv : urn.param? "priv" = some privilege) (target grantee : String) :
      IsWritten urn (.flag "grant_option" true)
      ("GRANT " ++ privilege ++ " ON " ++ target ++ " TO " ++ grantee ++ " WITH GRANT OPTION")
  | revokeOption {privilege : String} (h : urn.type.isPrivilege)
      (hpriv : urn.param? "priv" = some privilege) (target grantee : String) :
      IsWritten urn (.flag "grant_option" false)
      ("REVOKE GRANT OPTION FOR " ++ privilege ++ " ON " ++ target ++ " FROM " ++ grantee)

end Alteration

theorem Alteration.IsWritten.verb {urn : Urn} {a : Alteration} {sql : String}
    (h : a.IsWritten urn sql) (hgrant : ¬ urn.type.isGrant) : verb sql = "ALTER" := by
  cases h with
  | set => rw [String.append_assoc, String.append_assoc, verb_alter]
  | unset => rw [String.append_assoc, String.append_assoc, verb_alter]
  | secure => rw [String.append_assoc, String.append_assoc, verb_alter]
  | grantOption h => exact absurd (ResourceType.isGrant_of_isPrivilege h) hgrant
  | revokeOption h => exact absurd (ResourceType.isGrant_of_isPrivilege h) hgrant

/-- The alterations set or unset each field of `desired` that `current` has otherwise, once, and
touch no other field. -/
structure Brings (t : ResourceType) (desired current : Properties) (as : List Alteration) :
    Prop where
  once : (as.flatMap Alteration.fields).Nodup
  sets_iff : ∀ key v, (key, v) ∈ as.flatMap Alteration.sets ↔
    t.IsAltered key ∧ Differs desired current key v ∧ t.isSetTo key v
  unsets_iff : ∀ key, key ∈ as.flatMap Alteration.unsets ↔
    t.IsAltered key ∧ ∃ v, Differs desired current key v ∧ ¬ t.isSetTo key v

theorem Brings.mem_fields_iff {t : ResourceType} {desired current : Properties}
    {as : List Alteration} {key : String} (h : Brings t desired current as) :
    key ∈ as.flatMap Alteration.fields ↔ t.IsAltered key ∧ ∃ v, Differs desired current key v := by
  have hfields : key ∈ as.flatMap Alteration.fields ↔
      (∃ v, (key, v) ∈ as.flatMap Alteration.sets) ∨ key ∈ as.flatMap Alteration.unsets := by
    have hsplit :=
      (List.flatMap_append_perm as (fun a => a.sets.map (·.1)) Alteration.unsets).mem_iff (a := key)
    rw [List.mem_append, ← List.map_flatMap] at hsplit
    exact hsplit.symm.trans (or_congr_left (by simp))
  rw [hfields, h.unsets_iff]
  simp only [h.sets_iff]
  constructor
  · rintro (⟨v, haltered, hv, -⟩ | ⟨haltered, v, hv, -⟩)
    · exact ⟨haltered, v, hv⟩
    · exact ⟨haltered, v, hv⟩
  · rintro ⟨haltered, v, hv⟩
    by_cases hset : t.isSetTo key v
    · exact .inl ⟨v, haltered, hv, hset⟩
    · exact .inr ⟨haltered, v, hv, hset⟩

namespace Alteration

variable {urn : Urn} {t : ResourceType} {properties : List (String × Json)}

def clauses (properties : List (String × Json)) : List Alteration :=
  let given := properties.filter fun e => !e.2.isNull
  let missing := (properties.filter fun e => e.2.isNull).map (·.1)
  (if given.isEmpty then [] else [.set given]) ++ (if missing.isEmpty then [] else [.unset missing])

def bringing (t : ResourceType) (properties : List (String × Json)) : List Alteration :=
  (properties.filter fun e => t.flags.contains e.1).map (fun e => .flag e.1 e.2.isTrue) ++
    clauses (properties.filter fun e => !t.flags.contains e.1)

theorem bringing_eq_clauses (h : t.flags = []) : bringing t properties = clauses properties := by
  rw [bringing, h]
  simp

theorem isWritten_alter (urn : Urn) (properties : List (String × Json)) :
    List.Forall₂ (IsWritten urn) (clauses properties) (Sql.alter urn.object properties) := by
  refine List.rel_append ?_ ?_
  · split
    · exact .nil
    next hgiven => exact .cons (.set (mt List.isEmpty_iff.mpr hgiven)) .nil
  · have hmissing : ((properties.filter fun e => e.2.isNull).map (·.1)).isEmpty =
        (properties.filter fun e => e.2.isNull).isEmpty := List.isEmpty_map
    rw [hmissing]
    split
    · exact .nil
    next hsome =>
      have hwritten : IsWritten urn (.unset _) _ :=
        .unset (mt List.isEmpty_iff.mpr (hmissing.symm ▸ hsome))
      rw [List.map_map] at hwritten
      exact .cons hwritten .nil

theorem isWritten_alterView (h : urn.type = .view) (properties : List (String × Json)) :
    List.Forall₂ (IsWritten urn) (bringing .view properties)
      (Lifecycle.alterView urn properties) := by
  have hflags (e : String × Json) : ResourceType.view.flags.contains e.1 = (e.1 == "secure") := by
    simp [ResourceType.flags, Bool.beq_eq_decide_eq]
  rw [Lifecycle.alterView, List.partition_eq_filter_filter, bringing]
  simp only [hflags]
  refine List.rel_append ?_ (isWritten_alter urn _)
  rw [List.forall₂_map_left_iff, List.forall₂_map_right_iff, List.forall₂_same]
  intro e he
  have hsecure : e.1 = "secure" := by simpa using (List.mem_filter.mp he).2
  rw [hsecure]
  exact .secure h e.2.isTrue

theorem flatMap_ite_isEmpty {α β : Type} (f : Alteration → List α) (g : List β → Alteration)
    (h : f (g []) = []) (l : List β) :
    (if l.isEmpty then [] else [g l]).flatMap f = f (g l) := by
  cases l with
  | nil => exact h.symm
  | cons b l => exact List.append_nil _

theorem sets_clauses :
    (clauses properties).flatMap sets = properties.filter fun e => !e.2.isNull := by
  rw [clauses, List.flatMap_append, flatMap_ite_isEmpty sets set rfl,
    flatMap_ite_isEmpty sets unset rfl]
  exact List.append_nil _

theorem unsets_clauses : (clauses properties).flatMap unsets =
    (properties.filter fun e => e.2.isNull).map (·.1) := by
  rw [clauses, List.flatMap_append, flatMap_ite_isEmpty unsets set rfl,
    flatMap_ite_isEmpty unsets unset rfl]
  rfl

theorem perm_fields_clauses :
    ((clauses properties).flatMap fields).Perm (properties.map (·.1)) := by
  have hfields : (clauses properties).flatMap fields =
      (properties.filter fun e => !e.2.isNull).map (·.1) ++
        (properties.filter fun e => e.2.isNull).map (·.1) := by
    rw [clauses, List.flatMap_append, flatMap_ite_isEmpty fields set rfl,
      flatMap_ite_isEmpty fields unset rfl, fields, fields, unsets, List.append_nil]
    rfl
  have hsplit := List.filter_append_perm (fun e : String × Json => e.2.isNull) properties
  rw [hfields, ← List.map_append]
  exact (List.perm_append_comm.trans hsplit).map _

theorem sets_flags : (properties.map fun e => flag e.1 e.2.isTrue).flatMap sets =
    properties.filter fun e => e.2.isTrue := by
  induction properties with
  | nil => rfl
  | cons e l ih =>
    rw [List.map_cons, List.flatMap_cons, ih, List.filter_cons]
    by_cases htrue : e.2.isTrue
    · rw [if_pos htrue, sets, if_pos htrue, ← Json.eq_true_of_isTrue htrue]
      rfl
    · rw [if_neg htrue, sets, if_neg htrue]
      rfl

theorem unsets_flags : (properties.map fun e => flag e.1 e.2.isTrue).flatMap unsets =
    (properties.filter fun e => !e.2.isTrue).map (·.1) := by
  induction properties with
  | nil => rfl
  | cons e l ih =>
    rw [List.map_cons, List.flatMap_cons, ih, List.filter_cons, unsets]
    cases e.2.isTrue with
    | false => rfl
    | true => rfl

theorem fields_flags :
    (properties.map fun e => flag e.1 e.2.isTrue).flatMap fields = properties.map (·.1) := by
  have hfields (field : String) (on : Bool) : (flag field on).fields = [field] := by
    cases on with
    | false => rfl
    | true => rfl
  rw [List.flatMap_map]
  simp only [hfields]
  exact List.flatMap_pure_eq_map _ _

theorem perm_fields_bringing :
    ((bringing t properties).flatMap fields).Perm (properties.map (·.1)) := by
  rw [bringing, List.flatMap_append, fields_flags]
  refine (perm_fields_clauses.append_left _).trans ?_
  rw [← List.map_append]
  exact (List.filter_append_perm _ _).map _

theorem mem_sets_bringing {e : String × Json} :
    e ∈ (bringing t properties).flatMap sets ↔ e ∈ properties ∧ t.isSetTo e.1 e.2 := by
  rw [bringing, List.flatMap_append, sets_flags, sets_clauses, ResourceType.isSetTo]
  simp only [List.mem_append, List.mem_filter]
  by_cases hflag : t.flags.contains e.1
  · simp only [hflag, if_true, Bool.not_true, Bool.false_eq_true, and_true, and_false, false_and,
      or_false]
  · simp only [hflag, if_false, Bool.not_false, Bool.false_eq_true, and_true, and_false, false_and,
      false_or]

theorem mem_unsets_bringing {key : String} : key ∈ (bringing t properties).flatMap unsets ↔
    ∃ v, (key, v) ∈ properties ∧ ¬ t.isSetTo key v := by
  rw [bringing, List.flatMap_append, unsets_flags, unsets_clauses]
  by_cases hflag : key ∈ t.flags
  · simp [ResourceType.isSetTo, hflag]
  · simp [ResourceType.isSetTo, hflag]

end Alteration

theorem brings_unsatisfied (t : ResourceType) (desired current : Properties) :
    Brings t desired current (Alteration.bringing t (t.unsatisfied desired current)) where
  once := Alteration.perm_fields_bringing.nodup_iff.mpr nodup_unsatisfied
  sets_iff key v := by rw [Alteration.mem_sets_bringing, mem_unsatisfied_iff, and_assoc]
  unsets_iff key := by
    rw [Alteration.mem_unsets_bringing]
    simp only [mem_unsatisfied_iff, and_assoc, exists_and_left]

/-! ## Statements of a change -/

namespace Lifecycle

open Alteration

variable {urn : Urn} {desired current : Properties} {sql : List String}

theorem isWritten_of_render_object (hgrant : ¬ urn.type.isGrant)
    (h : render urn .change (some current) (some desired) = .ok sql) :
    List.Forall₂ (IsWritten urn) (bringing urn.type (urn.type.unsatisfied desired current))
      sql := by
  unfold render at h
  cases htype : urn.type with
  | account =>
    rw [htype] at h
    obtain rfl := Except.ok.inj h
    have hobject : urn.object = "ACCOUNT" := if_pos htype
    rw [bringing_eq_clauses rfl, ResourceType.unsatisfied_eq_delta rfl, ← hobject]
    exact isWritten_alter _ _
  | table =>
    rw [htype] at h
    obtain rfl := Except.ok.inj h
    rw [bringing_eq_clauses rfl, ResourceType.unsatisfied_eq_delta rfl]
    exact isWritten_alter _ _
  | view =>
    rw [htype] at h
    obtain rfl := Except.ok.inj h
    rw [ResourceType.unsatisfied_eq_delta rfl]
    exact isWritten_alterView htype _
  | grant => exact absurd (htype ▸ rfl) hgrant
  | futureGrant => exact absurd (htype ▸ rfl) hgrant
  | grantOnAll => exact absurd (htype ▸ rfl) hgrant
  | roleGrant => exact absurd (htype ▸ rfl) hgrant
  | _ =>
    rw [htype] at h
    obtain rfl := Except.ok.inj h
    rw [bringing_eq_clauses rfl, htype]
    exact isWritten_alter _ _

theorem param_eq_ok_iff {key value : String} :
    param urn key = .ok value ↔ urn.param? key = some value := by
  rw [param]
  cases urn.param? key with
  | none => simp
  | some w => simp

theorem not_hasGrantOption {v : Json} (hdiffers : Differs desired current "grant_option" v)
    (htrue : v.isTrue) : hasGrantOption (some current) = false := by
  obtain rfl := Json.eq_true_of_isTrue htrue
  have hother : ∀ w, current.get? "grant_option" = some w → ¬ (Json.bool true).same w := hdiffers.2
  rw [hasGrantOption, Properties.isTrue]
  cases hcurrent : current.get? "grant_option" with
  | none => rfl
  | some w =>
    by_contra hw
    obtain rfl := Json.eq_true_of_isTrue (eq_true_of_ne_false hw)
    exact hother _ hcurrent (Json.same_refl _)

theorem isWritten_of_renderPrivilege {v : Json} {target : String} (htype : urn.type.isPrivilege)
    (hdiffers : Differs desired current "grant_option" v)
    (h : renderPrivilege urn .change target (some current) (some desired) = .ok sql) :
    List.Forall₂ (IsWritten urn) [.flag "grant_option" v.isTrue] sql := by
  have hafter : hasGrantOption (some desired) = v.isTrue := by
    rw [hasGrantOption, Properties.isTrue, hdiffers.1]
  simp only [renderPrivilege, bind_eq_ok, param_eq_ok_iff] at h
  obtain ⟨privilege, hpriv, grantee, -, h⟩ := h
  rw [hafter] at h
  cases htrue : v.isTrue with
  | true =>
    rw [htrue, not_hasGrantOption hdiffers htrue] at h
    obtain rfl := pure_eq_ok.mp h
    exact .cons (.grantOption htype hpriv _ _) .nil
  | false =>
    rw [htrue] at h
    obtain rfl := pure_eq_ok.mp h
    exact .cons (.revokeOption htype hpriv _ _) .nil

theorem flags_of_isPrivilege {t : ResourceType} (h : t.isPrivilege) :
    t.flags = ["grant_option"] := by
  cases t with
  | grant => rfl
  | futureGrant => rfl
  | grantOnAll => rfl
  | _ => cases h

theorem bringing_of_isPrivilege {t : ResourceType} {properties : List (String × Json)}
    (h : t.isPrivilege) (hkeys : (properties.map (·.1)).Nodup) (hsome : properties ≠ [])
    (honly : ∀ e ∈ properties, e.1 = "grant_option") :
    ∃ v, ("grant_option", v) ∈ properties ∧
      bringing t properties = [.flag "grant_option" v.isTrue] := by
  obtain ⟨e, rest, rfl⟩ := List.exists_cons_of_ne_nil hsome
  obtain rfl : rest = [] := by
    refine List.eq_nil_iff_forall_not_mem.mpr fun d hd => ?_
    have hkey : d.1 = e.1 :=
      (honly d (List.mem_cons_of_mem _ hd)).trans (honly e List.mem_cons_self).symm
    have hmem : d.1 ∈ rest.map (·.1) := List.mem_map_of_mem hd
    rw [hkey] at hmem
    exact (List.nodup_cons.mp hkeys).1 hmem
  obtain ⟨key, v⟩ := e
  obtain rfl : key = "grant_option" := honly _ List.mem_cons_self
  refine ⟨v, List.mem_singleton_self _, ?_⟩
  rw [bringing, flags_of_isPrivilege h]
  rfl

theorem isWritten_of_render_privilege (hprivilege : urn.type.isPrivilege)
    (hsome : urn.type.unsatisfied desired current ≠ [])
    (honly : ∀ e ∈ urn.type.unsatisfied desired current, e.1 = "grant_option")
    (h : render urn .change (some current) (some desired) = .ok sql) :
    List.Forall₂ (IsWritten urn) (bringing urn.type (urn.type.unsatisfied desired current))
      sql := by
  obtain ⟨v, hv, hbringing⟩ :=
    bringing_of_isPrivilege hprivilege nodup_unsatisfied hsome honly
  have hdiffers := (mem_unsatisfied_iff.mp hv).2
  rw [hbringing]
  cases htype : urn.type with
  | grant =>
    rw [render, htype] at h
    obtain ⟨on, -, h⟩ := bind_eq_ok.mp h
    exact isWritten_of_renderPrivilege hprivilege hdiffers h
  | futureGrant =>
    rw [render, htype] at h
    simp only [renderScopedGrant, bind_eq_ok] at h
    obtain ⟨name, -, type, -, container, -, h⟩ := h
    exact isWritten_of_renderPrivilege hprivilege hdiffers h
  | grantOnAll =>
    rw [render, htype] at h
    simp only [renderScopedGrant, bind_eq_ok] at h
    obtain ⟨name, -, type, -, container, -, h⟩ := h
    exact isWritten_of_renderPrivilege hprivilege hdiffers h
  | _ =>
    rw [htype] at hprivilege
    cases hprivilege

end Lifecycle

end Reconcile
