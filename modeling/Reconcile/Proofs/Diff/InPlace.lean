import Reconcile.Proofs.Lifecycle.Alterations
import Reconcile.Proofs.Diff.Canonical
import Reconcile.Proofs.Diff.Steps
/-!
Changes in place.  Main statements: `inPlace_of_nodeChange`, a change or a handover alters what is
not as desired and nothing else, and `alters_what_differs`, the same of objects with the statements
spelled out.
-/

namespace Reconcile

open Fallible Lifecycle

namespace Diff

variable {urn : Urn} {desired current : Properties} {step : Step} {node : Node}
  {remote : Option Properties} {config : Config} {c : Change}

/-- The statements of an action in place: first what alters fields of the resource, then what hands
it over, all run by the role that controls it. -/
structure IsInPlace (urn : Urn) (desired current : Properties) (action : Action)
    (statements : List Statement) (as : List Alteration) (heir : Option String) : Prop where
  written : ∃ sql, List.Forall₂ (Alteration.IsWritten urn) as sql ∧
    statements = runAs (urn.type.controller current)
      (sql ++ heir.toList.map (transferOwnership urn))
  brings : Brings urn.type desired current as
  altered_iff : as ≠ [] ↔ action = .change
  heir_iff : ∀ owner, heir = some owner ↔
    desired.text? "owner" = some owner ∧ current.text? "owner" ≠ some owner

theorem newOwner?_eq_some_iff {owner : String} : newOwner? desired current = some owner ↔
    desired.text? "owner" = some owner ∧ current.text? "owner" ≠ some owner := by
  rw [newOwner?, Option.filter_eq_some_iff, bne_iff_ne, ne_comm]

theorem runAs_append (role : String) (sql later : List String) :
    runAs role (sql ++ later) = runAs role sql ++ runAs role later := List.map_append

theorem bringing_eq_nil_iff {t : ResourceType} {properties : List (String × Json)} :
    Alteration.bringing t properties = [] ↔ properties = [] := by
  refine ⟨fun h => ?_, fun h => h ▸ rfl⟩
  have hperm : ((Alteration.bringing t properties).flatMap Alteration.fields).Perm
      (properties.map (·.1)) := Alteration.perm_fields_bringing
  rw [h] at hperm
  exact List.map_eq_nil_iff.mp hperm.symm.eq_nil

theorem eq_grant_option_of_mutable {t : ResourceType} {field : String} (hgrant : t.isGrant)
    (h : t.mutability field = .mutable) : t.isPrivilege ∧ field = "grant_option" := by
  cases t with
  | grant | futureGrant | grantOnAll =>
    refine ⟨rfl, ?_⟩
    by_contra hne
    rw [ResourceType.mutability, if_neg hne] at h
    cases h
  | roleGrant => cases h
  | _ => cases hgrant

theorem isWritten_of_render_change {sql : List String}
    (hsome : urn.type.unsatisfied desired current ≠ [])
    (hmutable : ∀ field ∈ changedFields urn.type desired current,
      urn.type.mutability field = .mutable)
    (h : render urn .change (some current) (some desired) = .ok sql) :
    List.Forall₂ (Alteration.IsWritten urn)
      (Alteration.bringing urn.type (urn.type.unsatisfied desired current)) sql := by
  by_cases hgrant : urn.type.isGrant
  · have honly : ∀ e ∈ urn.type.unsatisfied desired current,
        urn.type.isPrivilege ∧ e.1 = "grant_option" := by
      intro e he
      refine eq_grant_option_of_mutable hgrant (hmutable e.1 ?_)
      rw [changedFields_eq]
      exact List.mem_map_of_mem he
    obtain ⟨e, he⟩ := List.exists_mem_of_ne_nil _ hsome
    exact isWritten_of_render_privilege (honly e he).1 hsome (fun e he => (honly e he).2) h
  · exact isWritten_of_render_object hgrant h

theorem inPlace_of_update (h : update urn desired current = .ok step)
    (haction : step.action = .change ∨ step.action = .transfer) :
    IsInPlace urn desired current step.action step.statements
      (Alteration.bringing urn.type (urn.type.unsatisfied desired current))
      (newOwner? desired current) := by
  have hstatements (sql : List String) : runAs (urn.type.controller current) sql ++
      handing urn desired current = runAs (urn.type.controller current)
        (sql ++ (newOwner? desired current).toList.map (transferOwnership urn)) :=
    (runAs_append _ _ _).symm
  have hfields : changedFields urn.type desired current = [] ↔
      urn.type.unsatisfied desired current = [] := by
    rw [changedFields_eq, List.map_eq_nil_iff]
  rcases update_cases h with ⟨_, -, -, rfl⟩ | ⟨-, _, _, -, -, rfl⟩ | ⟨hnone, rfl | rfl⟩ |
    ⟨hsome, hmutable, sql, hsql, rfl⟩
  · rcases haction with h | h <;> cases h
  · rcases haction with h | h <;> cases h
  · rcases haction with h | h <;> cases h
  · have hnil := hfields.mp hnone
    refine ⟨⟨[], ?_, ?_⟩, brings_unsatisfied _ _ _, ?_, fun _ => newOwner?_eq_some_iff⟩
    · rw [hnil]
      exact .nil
    · exact hstatements []
    · rw [ne_eq, bringing_eq_nil_iff]
      exact iff_of_false (fun h => h hnil) nofun
  · have hchanged := mt hfields.mpr hsome
    refine ⟨⟨sql, isWritten_of_render_change hchanged hmutable hsql, hstatements sql⟩,
      brings_unsatisfied _ _ _, ?_, fun _ => newOwner?_eq_some_iff⟩
    rw [ne_eq, bringing_eq_nil_iff]
    exact iff_of_true hchanged rfl

theorem inPlace_of_nodeChange (h : nodeChange node remote config = .ok c)
    (haction : c.action = .change ∨ c.action = .transfer) :
    ∃ current as heir, currentState node.urn.type remote = some current ∧
      c.before = some current ∧ c.after = some (node.urn.type.canonical node.properties) ∧
      IsInPlace node.urn (node.urn.type.canonical node.properties) current c.action c.statements
        as heir := by
  obtain ⟨step, hstep, rfl⟩ := nodeChange_eq_ok_iff.mp h
  cases hcurrent : currentState node.urn.type remote with
  | none =>
    rw [hcurrent] at hstep
    simp only [stepTo, bind_eq_ok, pure_eq_ok] at hstep
    obtain ⟨statements, -, rfl⟩ := hstep
    rcases haction with h | h <;> cases h
  | some current =>
    rw [hcurrent] at hstep
    exact ⟨current, _, _, rfl, rfl, rfl, inPlace_of_update hstep haction⟩

/-! ## Objects -/

theorem exists_of_get?_canonical {t : ResourceType} {p : Properties} {key : String} {v : Json}
    (hgrant : ¬ t.isGrant) (hkey : key ≠ "owner") (h : (t.canonical p).get? key = some v) :
    ∃ w, p.get? key = some w := by
  have hmissing : t.missingValue? key = none := by
    cases t with
    | grant => exact absurd rfl hgrant
    | futureGrant => exact absurd rfl hgrant
    | grantOnAll => exact absurd rfl hgrant
    | _ => rfl
  rw [ResourceType.get?_canonical_of_ne t p (Ne.symm hkey), hmissing, Option.or_none] at h
  obtain ⟨w, hw, -⟩ := Option.map_eq_some_iff.mp h
  exact ⟨w, hw⟩

/-- A change or a handover of an object sets and unsets each declared field that is not as desired,
once, and no other; it hands the object over at the end if the owner is not the desired one.  All of
it runs as the role that controls the object. -/
theorem alters_what_differs (hgrant : ¬ node.urn.type.isGrant)
    (h : nodeChange node remote config = .ok c)
    (haction : c.action = .change ∨ c.action = .transfer) :
    ∃ desired current as sql heir,
      desired = node.urn.type.canonical node.properties ∧ c.after = some desired ∧
      currentState node.urn.type remote = some current ∧ c.before = some current ∧
      c.statements = runAs ((current.text? "owner").getD node.urn.type.defaultRole)
        (sql ++ heir.toList.map (transferOwnership node.urn)) ∧
      List.Forall₂ (Alteration.IsWritten node.urn) as sql ∧ (∀ s ∈ sql, verb s = "ALTER") ∧
      Brings node.urn.type desired current as ∧
      (∀ key ∈ as.flatMap Alteration.fields, ∃ v, node.properties.get? key = some v) ∧
      (sql ≠ [] ↔ c.action = .change) ∧
      ∀ owner, heir = some owner ↔
        desired.text? "owner" = some owner ∧ current.text? "owner" ≠ some owner := by
  obtain ⟨current, as, heir, hcurrent, hbefore, hafter, hin⟩ := inPlace_of_nodeChange h haction
  obtain ⟨sql, hwritten, hstatements⟩ := hin.written
  refine ⟨_, current, as, sql, heir, rfl, hafter, hcurrent, hbefore, hstatements, hwritten, ?_,
    hin.brings, ?_, ?_, hin.heir_iff⟩
  · intro s hs
    obtain ⟨a, -, ha⟩ := Lists.exists_left_of_forall₂ hwritten hs
    exact ha.verb hgrant
  · intro key hkey
    obtain ⟨halters, v, hv⟩ := hin.brings.mem_fields_iff.mp hkey
    exact exists_of_get?_canonical hgrant halters.1 hv.1
  · rw [← hin.altered_iff]
    exact not_congr (by cases hwritten <;> simp)

def declaredView : Node where
  urn := .ofNames "A" .view ["DB", "S"] "V"
  properties := .ofList [("as_", .string "SELECT 1"), ("change_tracking", .null),
    ("comment", .string "new"), ("owner", .string "analyst"), ("secure", .bool true)]
  dependencies := .empty
  external := .empty
  level := 0

def reportedView : Properties := .ofList [("as_", .string "SELECT 1"),
  ("change_tracking", .bool true), ("comment", .string "old"), ("tag", .string "T")]

theorem alters_declaredView :
    ∃ c, nodeChange declaredView (some reportedView) (.ofAccount "A") = .ok c ∧
      c.action = .change ∧
      c.statements = runAs "SYSADMIN" ["ALTER VIEW DB.S.V SET SECURE",
        "ALTER VIEW DB.S.V SET COMMENT = $$new$$", "ALTER VIEW DB.S.V UNSET CHANGE_TRACKING",
        "GRANT OWNERSHIP ON VIEW DB.S.V TO ROLE ANALYST COPY CURRENT GRANTS"] ∧
      ∃ desired current as, c.after = some desired ∧ c.before = some current ∧
        Brings .view desired current as := by
  have hc : nodeChange declaredView (some reportedView) (.ofAccount "A") = .ok _ := rfl
  obtain ⟨desired, current, as, sql, heir, -, hafter, -, hbefore, -, -, -, hbrings, -⟩ :=
    alters_what_differs (by decide) hc (.inl rfl)
  exact ⟨_, hc, rfl, rfl, desired, current, as, hafter, hbefore, hbrings⟩

end Diff
end Reconcile
