import Reconcile.Proofs.Diff.Canonical
import Reconcile.Proofs.Diff.Steps
import Reconcile.Proofs.Lifecycle.Verbs
/-!
Who owns a resource while a change runs.  Main statement: `custody_iff`, every statement of a change
runs as the role that owns the resource by then, and the last one leaves it with its desired owner.
-/

namespace Reconcile

open Fallible Lifecycle

def ResourceType.ownerOf (t : ResourceType) (p : Properties) : String :=
  p.owner?.getD t.defaultRole

/-- The statement may be run by its role while the resource has the first owner, or does not exist,
and leaves the resource with the second one. -/
inductive Passes (urn : Urn) : Option String → Statement → Option String → Prop where
  | create {role sql : String} (h : Creates urn sql)
      (hrole : isSystemRole role ∨ role = urn.type.defaultRole) :
      Passes urn none ⟨role, sql⟩ (some role)
  | alter {owner sql : String} (h : verb sql = "ALTER") :
      Passes urn (some owner) ⟨owner, sql⟩ (some owner)
  | drop (owner : String) : Passes urn (some owner) ⟨owner, drop urn⟩ none
  | handOver (owner heir : String) :
      Passes urn (some owner) ⟨owner, transferOwnership urn heir⟩ (some heir)

/-- The statements may be run one after another, and take the resource from one owner to the
other. -/
inductive Custody (urn : Urn) : Option String → List Statement → Option String → Prop where
  | nil (owner : Option String) : Custody urn owner [] owner
  | cons {before between after : Option String} {s : Statement} {rest : List Statement}
      (h : Passes urn before s between) (hrest : Custody urn between rest after) :
      Custody urn before (s :: rest) after

variable {urn : Urn} {before between after other : Option String} {s : Statement}
  {statements rest : List Statement}

theorem transferOwnership_inj {heir later : String}
    (h : transferOwnership urn heir = transferOwnership urn later) : heir = later := by
  unfold transferOwnership at h
  have hstart := (String.append_left_inj " COPY CURRENT GRANTS").mp h
  exact (String.append_right_inj _).mp hstart

theorem Passes.functional (h : Passes urn before s after) (h' : Passes urn before s other) :
    after = other := by
  generalize hs : s = s' at h'
  -- Of a resource that has an owner, the first word tells what the statement does.
  have hverb : verb s.sql = verb s'.sql := by rw [hs]
  cases h with
  | create =>
    cases h' with
    | create => exact congrArg (fun s => some s.role) hs
  | alter halter =>
    have hword := halter.symm.trans hverb
    cases h' with
    | alter => rfl
    | drop => exact absurd (hword.trans (verb_drop urn)) (by decide)
    | handOver owner heir => exact absurd (hword.trans (verb_transferOwnership heir)) (by decide)
  | drop =>
    have hword := (verb_drop urn).symm.trans hverb
    cases h' with
    | alter halter => exact absurd (hword.trans halter) (by decide)
    | drop => rfl
    | handOver owner heir => exact absurd (hword.trans (verb_transferOwnership heir)) (by decide)
  | handOver owner heir =>
    have hword := (verb_transferOwnership heir).symm.trans hverb
    cases h' with
    | alter halter => exact absurd (hword.trans halter) (by decide)
    | drop => exact absurd (hword.trans (verb_drop urn)) (by decide)
    | handOver => exact congrArg some (transferOwnership_inj (congrArg Statement.sql hs))

theorem Custody.functional (h : Custody urn before statements after)
    (h' : Custody urn before statements other) : after = other := by
  induction h with
  | nil => cases h' with
    | nil => rfl
  | cons h _ ih => cases h' with
    | cons h' hrest =>
      obtain rfl := h.functional h'
      exact ih hrest

theorem Custody.append (h : Custody urn before statements between)
    (hrest : Custody urn between rest after) : Custody urn before (statements ++ rest) after := by
  induction h with
  | nil => exact hrest
  | cons h _ ih => exact .cons h (ih hrest)

theorem Custody.single (h : Passes urn before s after) : Custody urn before [s] after :=
  .cons h (.nil _)

theorem Custody.of_alters {owner : String} {sql : List String}
    (h : ∀ s ∈ sql, verb s = "ALTER") :
    Custody urn (some owner) (Diff.runAs owner sql) (some owner) := by
  induction sql with
  | nil => exact .nil _
  | cons s sql ih =>
    exact .cons (.alter (h s List.mem_cons_self)) (ih fun s hs => h s (List.mem_cons_of_mem _ hs))

/-! ## Owners in canonical form -/

namespace ResourceType

variable {t : ResourceType} {p : Properties}

theorem text?_canonical_owner (h : t.hasOwner) :
    (t.canonical p).text? "owner" = some (t.ownerOf p) := by
  rw [Properties.text?, get?_canonical_owner, if_pos h]
  rfl

theorem controller_eq_ownerOf (h : t.hasOwner) : t.controller (t.canonical p) = t.ownerOf p := by
  rw [controller_canonical, if_pos h, ownerOf]

theorem not_isGrant_of_hasOwner (h : t.hasOwner) : ¬ t.isGrant ∧ t ≠ .account := by
  revert h
  cases t <;> decide

end ResourceType

namespace Diff

variable {node : Node} {remote : Option Properties} {config : Config} {c : Change} {step : Step}
  {desired current : Properties}

theorem custody_of_creation (howner : urn.type.hasOwner)
    (h : creation urn (urn.type.canonical desired) = .ok statements) :
    Custody urn none statements (some (urn.type.ownerOf desired)) := by
  obtain ⟨hgrant, haccount⟩ := ResourceType.not_isGrant_of_hasOwner howner
  obtain ⟨sql, hsql, rfl⟩ := creation_eq_ok_iff.mp h
  obtain ⟨s, rfl, hs⟩ := exists_creates_of_render hgrant haccount hsql
  rw [ResourceType.creator, ResourceType.heir?, ResourceType.text?_canonical_owner howner,
    Option.filter_some]
  dsimp only
  by_cases hsystem : isSystemRole (urn.type.ownerOf desired)
  · rw [if_pos hsystem, hsystem]
    exact .single (.create hs (.inl hsystem))
  · rw [if_neg hsystem, eq_false_of_ne_true hsystem]
    exact .cons (.create hs (.inr rfl)) (.single (.handOver _ _))

theorem custody_of_removal (howner : urn.type.hasOwner)
    (h : removal urn (urn.type.canonical current) = .ok statements) :
    Custody urn (some (urn.type.ownerOf current)) statements none := by
  obtain ⟨hgrant, haccount⟩ := ResourceType.not_isGrant_of_hasOwner howner
  obtain ⟨sql, hsql, rfl⟩ := removal_eq_ok_iff.mp h
  obtain rfl := Except.ok.inj ((render_remove hgrant haccount).symm.trans hsql)
  rw [ResourceType.controller_eq_ownerOf howner]
  exact .single (.drop _)

theorem custody_of_handing (howner : urn.type.hasOwner) :
    Custody urn (some (urn.type.ownerOf current))
      (handing urn (urn.type.canonical desired) (urn.type.canonical current))
      (some (urn.type.ownerOf desired)) := by
  rw [handing, ResourceType.controller_eq_ownerOf howner, newOwner?,
    ResourceType.text?_canonical_owner howner, ResourceType.text?_canonical_owner howner,
    Option.filter_some]
  by_cases hsame : urn.type.ownerOf desired = urn.type.ownerOf current
  · rw [hsame, bne_self_eq_false]
    exact .nil _
  · have hother : (some (urn.type.ownerOf desired) != some (urn.type.ownerOf current)) = true :=
      bne_iff_ne.mpr fun h => hsame (Option.some.inj h)
    rw [hother]
    exact .single (.handOver _ _)

theorem custody_of_update (howner : urn.type.hasOwner)
    (h : update urn (urn.type.canonical desired) (urn.type.canonical current) = .ok step)
    (haccepted : step.rejection = none) (haction : step.action ≠ .noop) :
    Custody urn (some (urn.type.ownerOf current)) step.statements
      (some (urn.type.ownerOf desired)) := by
  rcases update_cases h with ⟨_, -, -, rfl⟩ |
    ⟨-, dropping, creating, hdropping, hcreating, rfl⟩ | ⟨-, rfl | rfl⟩ | ⟨-, -, sql, hsql, rfl⟩
  · cases haccepted
  · exact (custody_of_removal howner hdropping).append (custody_of_creation howner hcreating)
  · exact absurd rfl haction
  · exact custody_of_handing howner
  · have halters : ∀ s ∈ sql, verb s = "ALTER" := fun s hs =>
      verb_of_render_change (ResourceType.not_isGrant_of_hasOwner howner).1 hsql hs
    rw [ResourceType.controller_eq_ownerOf howner]
    exact (Custody.of_alters halters).append (custody_of_handing howner)

/-- A change that is not refused passes the resource from its owner, or from nobody if it does not
exist, to its desired owner, each statement run by whoever may run it. -/
theorem custody_iff {final : Option String} (howner : node.urn.type.hasOwner)
    (h : nodeChange node remote config = .ok c) (haccepted : c.rejection = none)
    (haction : c.action ≠ .noop) :
    Custody node.urn (remote.map node.urn.type.ownerOf) c.statements final ↔
      final = some (node.urn.type.ownerOf node.properties) := by
  have hcustody : Custody node.urn (remote.map node.urn.type.ownerOf) c.statements
      (some (node.urn.type.ownerOf node.properties)) := by
    obtain ⟨step, hstep, rfl⟩ := nodeChange_eq_ok_iff.mp h
    have halways : node.urn.type.alwaysExists = false :=
      beq_eq_false_iff_ne.mpr (ResourceType.not_isGrant_of_hasOwner howner).2
    cases remote with
    | none =>
      simp only [currentState, halways, Option.orElse_none, Bool.false_eq_true, if_false,
        Option.map_none, stepTo, bind_eq_ok, pure_eq_ok] at hstep
      obtain ⟨statements, hstatements, rfl⟩ := hstep
      exact custody_of_creation howner hstatements
    | some current => exact custody_of_update howner hstep haccepted haction
  constructor
  · intro hfinal
    exact Custody.functional hfinal hcustody
  · rintro rfl
    exact hcustody

def declaredWarehouse : Node where
  urn := .ofNames "A" .warehouse [] "WH"
  properties := .ofList [("initially_suspended", .bool true), ("owner", .string "loader")]
  dependencies := .empty
  external := .empty
  level := 0

def reportedWarehouse : Properties := .ofList [("owner", .string "Analyst")]

theorem custody_declaredWarehouse :
    ∃ c, nodeChange declaredWarehouse (some reportedWarehouse) (.ofAccount "A") = .ok c ∧
      c.action = .replace ∧ c.rejection = none ∧
      c.statements = [⟨"ANALYST", "DROP WAREHOUSE WH"⟩,
        ⟨"SYSADMIN", "CREATE WAREHOUSE WH INITIALLY_SUSPENDED = TRUE"⟩,
        ⟨"SYSADMIN", "GRANT OWNERSHIP ON WAREHOUSE WH TO ROLE LOADER COPY CURRENT GRANTS"⟩] ∧
      Custody declaredWarehouse.urn (some "ANALYST") c.statements (some "LOADER") := by
  have hc : nodeChange declaredWarehouse (some reportedWarehouse) (.ofAccount "A") = .ok _ := rfl
  exact ⟨_, hc, rfl, rfl, rfl, (custody_iff (by decide) hc rfl (by decide)).mpr rfl⟩

end Diff
end Reconcile
