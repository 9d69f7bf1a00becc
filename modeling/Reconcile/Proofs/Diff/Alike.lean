import Reconcile.Proofs.Diff.Canonical
import Reconcile.Proofs.Diff.Changes
import Reconcile.Proofs.Graph.Rearranged
/-!
The change of a resource does not depend on the signs of zeros, but for the values that it sets.
Main statement: `exists_nodeChange_of_alike`.
-/

namespace Reconcile

open Fallible

/-! ## Statements -/

namespace Sql

theorem satisfies_unsigned (current : Option Json) (v : Json) :
    satisfies current v.unsigned = satisfies current v := by
  cases current with
  | none => exact v.isNull_unsigned
  | some c => exact Json.same_unsigned_left v c

def unsignedEntry (e : String × Json) : String × Json := (e.1, e.2.unsigned)

theorem delta_unsigned (before : Option Properties) (p : Properties) :
    delta before p.unsigned = (delta before p).map unsignedEntry :=
  Lists.filter_map_of (fun e => by simp [satisfies_unsigned]) p.entries

theorem length_alter_unsigned (target : String) (fields : List (String × Json)) :
    (alter target (fields.map unsignedEntry)).length = (alter target fields).length := by
  have hsets : (fields.map unsignedEntry).filter (fun e => !e.2.isNull) =
      (fields.filter fun e => !e.2.isNull).map unsignedEntry :=
    Lists.filter_map_of (fun e => by simp [unsignedEntry]) fields
  have hunsets : (fields.map unsignedEntry).filter (fun e => e.2.isNull) =
      (fields.filter fun e => e.2.isNull).map unsignedEntry :=
    Lists.filter_map_of (fun e => by simp [unsignedEntry]) fields
  simp only [alter, hsets, hunsets, List.isEmpty_map, List.length_append]
  congr 1
  · split <;> rfl
  · split <;> rfl

end Sql

namespace Lifecycle

variable (urn : Urn) (action : Action) (before : Option Properties) (p : Properties)

def count? (statements : Except Error (List String)) : Option Nat :=
  statements.toOption.map List.length

theorem toOption_column_unsigned (v : Json) :
    (column urn v.unsigned).toOption = (column urn v).toOption := by
  cases v with
  | object ms =>
    have hmember (key : String) : ((Json.object ms).unsigned.member? key).bind Json.asString? =
        ((Json.object ms).member? key).bind Json.asString? := by
      rw [Json.member?_unsigned]
      cases (Json.object ms).member? key <;> simp
    have hnull : ((Json.object ms).unsigned.member? "not_null").map Json.isTrue =
        ((Json.object ms).member? "not_null").map Json.isTrue := by
      rw [Json.member?_unsigned, Option.map_map]
      refine Option.map_congr fun v _ => v.isTrue_unsigned
    have hobject : (Json.object ms).unsigned = .object (Json.unsignedMembers ms) := by
      rw [Json.unsigned]
    rw [hobject] at hmember hnull ⊢
    simp only [column, hmember, hnull]
  | _ => simp [Json.unsigned, column, invalid, Except.toOption]

theorem toOption_columns_unsigned :
    (columns urn p.unsigned).toOption = (columns urn p).toOption := by
  have harray : (p.unsigned.get? "columns").bind Json.asArray? =
      ((p.get? "columns").bind Json.asArray?).map (List.map Json.unsigned) := by
    rw [Properties.get?_unsigned]
    cases p.get? "columns" with
    | none => rfl
    | some v => exact v.asArray?_unsigned
  simp only [columns, harray]
  cases (p.get? "columns").bind Json.asArray? with
  | none => rfl
  | some cs =>
    cases cs with
    | nil => rfl
    | cons c cs =>
      show (((c :: cs).map Json.unsigned).mapM (column urn)).toOption = _
      rw [List.mapM_map]
      exact toOption_mapM_congr (toOption_column_unsigned urn)

theorem query?_unsigned : ResourceType.query? p.unsigned = ResourceType.query? p :=
  p.text?_unsigned "as_"

theorem count?_single (statement : Except Error String) :
    count? (do return [← statement]) = statement.toOption.map fun _ => 1 := by
  cases statement with
  | error e => rfl
  | ok sql => rfl

theorem count?_renderObject_unsigned : count? (renderObject urn action before (some p.unsigned)) =
    count? (renderObject urn action before (some p)) := by
  cases action with
  | change =>
    have hfields : (Sql.delta before p.unsigned).filter (fun e =>
        !urn.type.writeOnlyFields.contains e.1) =
        ((Sql.delta before p).filter fun e => !urn.type.writeOnlyFields.contains e.1).map
          Sql.unsignedEntry := by
      rw [Sql.delta_unsigned]
      exact Lists.filter_map_of (fun _ => rfl) _
    show some (Sql.alter urn.object (List.filter _ _)).length = _
    rw [hfields, Sql.length_alter_unsigned]
    rfl
  | _ => rfl

theorem count?_renderTable_unsigned : count? (renderTable urn action before (some p.unsigned)) =
    count? (renderTable urn action before (some p)) := by
  cases action with
  | add =>
    show count? (do return [← createTable urn p.unsigned]) =
      count? (do return [← createTable urn p])
    rw [count?_single, count?_single]
    simp only [createTable, query?_unsigned]
    cases ResourceType.query? p with
    | some query => rfl
    | none =>
      simp only [toOption_bind, toOption_columns_unsigned]
      cases (columns urn p).toOption <;> rfl
  | change =>
    show some (Sql.alter urn.object _).length = _
    rw [Sql.delta_unsigned, Sql.length_alter_unsigned]
    rfl
  | _ => rfl

theorem length_alterView_unsigned (fields : List (String × Json)) :
    (alterView urn (fields.map Sql.unsignedEntry)).length = (alterView urn fields).length := by
  have hsecure : (fields.map Sql.unsignedEntry).filter (fun e => e.1 == "secure") =
      (fields.filter fun e => e.1 == "secure").map Sql.unsignedEntry :=
    Lists.filter_map_of (fun _ => rfl) fields
  have hothers : (fields.map Sql.unsignedEntry).filter (not ∘ fun e => e.1 == "secure") =
      (fields.filter (not ∘ fun e => e.1 == "secure")).map Sql.unsignedEntry :=
    Lists.filter_map_of (fun _ => rfl) fields
  simp only [alterView, List.partition_eq_filter_filter, hsecure, hothers, List.length_append,
    List.length_map, Sql.length_alter_unsigned]

theorem count?_renderView_unsigned : count? (renderView urn action before (some p.unsigned)) =
    count? (renderView urn action before (some p)) := by
  cases action with
  | add =>
    show count? (do return [← createView urn p.unsigned]) =
      count? (do return [← createView urn p])
    rw [count?_single, count?_single]
    simp only [createView, query?_unsigned]
    cases ResourceType.query? p <;> rfl
  | change =>
    show some (alterView urn _).length = _
    rw [Sql.delta_unsigned, length_alterView_unsigned]
    rfl
  | _ => rfl

theorem hasGrantOption_unsigned : hasGrantOption (some p.unsigned) = hasGrantOption (some p) :=
  p.isTrue_unsigned "grant_option"

theorem renderPrivilege_unsigned (target : String) :
    renderPrivilege urn action target before (some p.unsigned) =
      renderPrivilege urn action target before (some p) := by
  unfold renderPrivilege
  rw [hasGrantOption_unsigned]

theorem count?_render_unsigned : count? (render urn action before (some p.unsigned)) =
    count? (render urn action before (some p)) := by
  unfold render
  cases urn.type with
  | account =>
    cases action with
    | change =>
      show some (Sql.alter "ACCOUNT" _).length = _
      rw [Sql.delta_unsigned, Sql.length_alter_unsigned]
      rfl
    | _ => rfl
  | table => exact count?_renderTable_unsigned urn action before p
  | view => exact count?_renderView_unsigned urn action before p
  | grant => simp only [renderGrant, renderPrivilege_unsigned]
  | futureGrant => simp only [renderScopedGrant, renderPrivilege_unsigned]
  | grantOnAll => simp only [renderScopedGrant, renderPrivilege_unsigned]
  | roleGrant => rfl
  | _ => exact count?_renderObject_unsigned urn action before p

end Lifecycle

/-! ## Changes -/

/-- Changes that differ in the signs of zeros at most; with the same zeros they are the same. -/
structure Change.Alike (c d : Change) : Prop where
  urn : c.urn = d.urn
  action : c.action = d.action
  level : c.level = d.level
  before : c.before = d.before
  after : c.after.map Properties.unsigned = d.after.map Properties.unsigned
  roles : c.statements.map Statement.role = d.statements.map Statement.role
  session : c.session = d.session
  dependsOn : c.dependsOn = d.dependsOn
  rejection : c.rejection = d.rejection
  exact : c.after = d.after → c = d

theorem Change.Alike.refl (c : Change) : c.Alike c :=
  ⟨rfl, rfl, rfl, rfl, rfl, rfl, rfl, rfl, rfl, fun _ => rfl⟩

namespace Diff

variable (urn : Urn) (desired current : Properties) {config : Config}

def Step.outline (s : Step) : Action × List String × Option String :=
  (s.action, s.statements.map Statement.role, s.rejection)

theorem map_role_runAs (role : String) (sql : List String) :
    (runAs role sql).map Statement.role = List.replicate sql.length role := by
  rw [runAs, List.map_map]
  exact List.map_const'

theorem roles_creation : (creation urn desired).toOption.map (List.map Statement.role) =
    (Lifecycle.count? (Lifecycle.render urn .add none (some desired))).map fun n =>
      List.replicate n (urn.type.creator desired) ++
        (handOver (urn.type.creator desired) urn (ResourceType.heir? desired)).map
          Statement.role := by
  rw [creation, toOption_bind, Lifecycle.count?]
  cases Lifecycle.render urn .add none (some desired) with
  | error e => rfl
  | ok sql =>
    show some (List.map Statement.role (_ ++ _)) = some _
    rw [List.map_append, map_role_runAs]

theorem roles_creation_unsigned :
    (creation urn desired.unsigned).toOption.map (List.map Statement.role) =
      (creation urn desired).toOption.map (List.map Statement.role) := by
  have hcreator : urn.type.creator desired.unsigned = urn.type.creator desired := by
    rw [ResourceType.creator, ResourceType.creator, Properties.text?_unsigned]
  have hheir : ResourceType.heir? desired.unsigned = ResourceType.heir? desired := by
    rw [ResourceType.heir?, ResourceType.heir?, Properties.text?_unsigned]
  rw [roles_creation, roles_creation, Lifecycle.count?_render_unsigned, hcreator, hheir]

theorem changedFields_unsigned (type : ResourceType) :
    changedFields type desired.unsigned current = changedFields type desired current := by
  rw [changedFields, changedFields, Sql.delta_unsigned, List.map_map]
  rfl

theorem newOwner?_unsigned : newOwner? desired.unsigned current = newOwner? desired current := by
  rw [newOwner?, newOwner?, Properties.text?_unsigned]

theorem outline_creation_unsigned (action : Action) (before : List Statement) :
    (do return { action, statements := before ++ (← creation urn desired.unsigned) }
      : Except Error Step).toOption.map Step.outline =
    (do return { action, statements := before ++ (← creation urn desired) }
      : Except Error Step).toOption.map Step.outline := by
  have houtline (x : Except Error (List Statement)) :
      (do return { action, statements := before ++ (← x) } : Except Error Step).toOption.map
        Step.outline = (x.toOption.map (List.map Statement.role)).map fun roles =>
          (action, before.map Statement.role ++ roles, none) := by
    cases x with
    | error e => rfl
    | ok statements => exact congrArg (fun r => some (action, r, none)) List.map_append
  rw [houtline, houtline, roles_creation_unsigned]

theorem outline_update_unsigned : (update urn desired.unsigned current).toOption.map Step.outline =
    (update urn desired current).toOption.map Step.outline := by
  simp only [update, changedFields_unsigned, newOwner?_unsigned]
  split
  · rfl
  split
  · cases removal urn current with
    | error e => rfl
    | ok dropping => exact outline_creation_unsigned urn desired .replace dropping
  split
  · rfl
  · have houtline (x : Except Error (List String)) (role : String) (later : List Statement) :
        (do return { action := .change, statements := runAs role (← x) ++ later }
          : Except Error Step).toOption.map Step.outline = (Lifecycle.count? x).map fun n =>
            (.change, List.replicate n role ++ later.map Statement.role, none) := by
      cases x with
      | error e => rfl
      | ok sql =>
        show some (Action.change, (runAs role sql ++ later).map Statement.role, none) = some _
        rw [List.map_append, map_role_runAs]
    rw [houtline, houtline, Lifecycle.count?_render_unsigned]

/-- What is done with a resource does not depend on the signs of zeros, but for the values that are
set. -/
theorem outline_stepTo_unsigned (state : Option Properties) :
    (stepTo urn desired.unsigned state).toOption.map Step.outline =
      (stepTo urn desired state).toOption.map Step.outline := by
  cases state with
  | none => exact outline_creation_unsigned urn desired .add []
  | some current => exact outline_update_unsigned urn desired current

theorem sessionNeeds_unsigned : sessionNeeds urn desired.unsigned config =
    sessionNeeds urn desired config := by
  have hwarehouse : urn.type.needsWarehouse desired.unsigned = urn.type.needsWarehouse desired := by
    rw [ResourceType.needsWarehouse, ResourceType.needsWarehouse, Lifecycle.query?_unsigned]
  rw [sessionNeeds, sessionNeeds, hwarehouse]

variable {n m : Node} {remote : Option Properties} {c : Change}

theorem exists_nodeChange_of_alike (h : n.Alike m) (hc : nodeChange n remote config = .ok c) :
    ∃ d, nodeChange m remote config = .ok d ∧ c.Alike d := by
  obtain ⟨urn, p, dependencies, external, level⟩ := n
  obtain ⟨urn', q, dependencies', external', level'⟩ := m
  obtain ⟨hurn, hproperties, hdependencies, hexternal, hlevel⟩ := h
  dsimp only at hurn hproperties hdependencies hexternal hlevel
  subst hurn hdependencies hexternal hlevel
  obtain ⟨step, hstep, rfl⟩ := nodeChange_eq_ok_iff.mp hc
  have hdesired : (urn.type.canonical p).unsigned = (urn.type.canonical q).unsigned := by
    rw [← ResourceType.canonical_unsigned, hproperties, ResourceType.canonical_unsigned]
  have houtline := outline_stepTo_unsigned urn (urn.type.canonical p) (currentState urn.type remote)
  rw [hdesired, outline_stepTo_unsigned, hstep] at houtline
  obtain ⟨step', hstep', hsame⟩ := Option.map_eq_some_iff.mp houtline
  have hstep' := toOption_eq_some_iff.mp hstep'
  have hsession : sessionNeeds urn (urn.type.canonical p) config =
      sessionNeeds urn (urn.type.canonical q) config := by
    rw [← sessionNeeds_unsigned, hdesired, sessionNeeds_unsigned]
  refine ⟨_, nodeChange_eq_ok_iff.mpr ⟨step', hstep', rfl⟩, ?_⟩
  exact {
    urn := rfl
    action := (congrArg Prod.fst hsame).symm
    level := rfl
    before := rfl
    after := congrArg some hdesired
    roles := (congrArg (fun o => o.2.1) hsame).symm
    session := hsession
    dependsOn := rfl
    rejection := (congrArg (fun o => o.2.2) hsame).symm
    exact := fun hafter => by
      have hcanonical : urn.type.canonical p = urn.type.canonical q := Option.some.inj hafter
      rw [← hcanonical, hstep] at hstep'
      obtain rfl := Except.ok.inj hstep'
      simp only [changeOf, hcanonical] }

end Diff
end Reconcile
