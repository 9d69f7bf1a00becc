import Reconcile.Plan.Json
import Reconcile.Proofs.Json.Canonical
import Reconcile.Proofs.Json.Record
import Reconcile.Proofs.Json.RoundTrip
/-!
A written plan is read back as the changes that it was written from.  Main statement:
`Plan.imported?_exported`, with the depth of property values up to which this holds.
-/

namespace Reconcile

open Json

/-! ## Changes -/

theorem Statement.ofJson?_toJson (s : Statement) : ofJson? s.toJson = some s := rfl

theorem SessionNeeds.ofJson?_toJson (s : SessionNeeds) : ofJson? s.toJson = some s := by
  obtain ⟨warehouse, schema⟩ := s
  cases warehouse <;> cases schema <;> rfl

namespace Change

def values (c : Change) : List Json :=
  (c.before.toList ++ c.after.toList).flatMap SortedMap.values

def members (c : Change) : List (String × Json) :=
  let dependsOn := c.dependsOn.map fun u => Json.string u.text
  [("urn", .string c.urn.text), ("action", .string c.action.text), ("level", .ofNat c.level)] ++
    optionalMember "before" (c.before.map Properties.toJson) ++
    optionalMember "after" (c.after.map Properties.toJson) ++
    [("statements", .array (c.statements.map Statement.toJson)), ("session", c.session.toJson)] ++
    optionalMember "depends_on" (if dependsOn.isEmpty then none else some (.array dependsOn)) ++
    optionalMember "rejection" (c.rejection.map .string)

theorem toJson_eq (c : Change) : c.toJson = .object c.members := rfl

theorem fields?_toJson (c : Change) : c.toJson.fields? fieldNames = some c.members := by
  refine fields?_object ?_ (by decide)
  show List.Sublist _ (["urn", "action", "level"] ++ ["before"] ++ ["after"] ++
    ["statements", "session"] ++ ["depends_on"] ++ ["rejection"])
  simp only [List.map_append]
  exact (((((List.Sublist.refl _).append (names_optionalMember _ _)).append
    (names_optionalMember _ _)).append (List.Sublist.refl _)).append
      (names_optionalMember _ _)).append (names_optionalMember _ _)

theorem lookup_members (c : Change) :
    c.members.lookup "urn" = some (.string c.urn.text) ∧
      c.members.lookup "action" = some (.string c.action.text) ∧
      c.members.lookup "level" = some (.ofNat c.level) ∧
      c.members.lookup "before" = c.before.map Properties.toJson ∧
      c.members.lookup "after" = c.after.map Properties.toJson ∧
      c.members.lookup "statements" = some (.array (c.statements.map Statement.toJson)) ∧
      c.members.lookup "session" = some c.session.toJson ∧
      c.members.lookup "depends_on" = (if c.dependsOn = [] then none else
        some (.array (c.dependsOn.map fun u => Json.string u.text))) ∧
      c.members.lookup "rejection" = c.rejection.map .string := by
  simp [members, List.lookup_append, lookup_optionalMember, List.lookup_cons]

theorem readDependsOn (c : Change)
    (h : ∀ u ∈ c.dependsOn, Urn.ofJson? (.string u.text) = some u) :
    optional? c.members "depends_on" [] (decodeList? Urn.ofJson?) = some c.dependsOn := by
  obtain ⟨-, -, -, -, -, -, -, hlookup, -⟩ := c.lookup_members
  rw [optional?, hlookup]
  by_cases hnil : c.dependsOn = []
  · rw [if_pos hnil, hnil]
  · rw [if_neg hnil]
    exact decodeList?_map h

theorem ofJson?_toJson {c : Change}
    (hurns : ∀ u ∈ c.urn :: c.dependsOn, Urn.parse? u.text = some u)
    (hvalues : ∀ v ∈ c.values, v.canonical = v) (hlevel : c.level < UInt64.size) :
    ofJson? c.toJson = some c := by
  obtain ⟨hurn, haction, hlvl, hbefore, hafter, hstatements, hsession, -, hrejection⟩ :=
    c.lookup_members
  have hbags {p : Properties} (hp : p ∈ c.before.toList ++ c.after.toList) :
      Properties.ofJson? p.toJson = some p :=
    Properties.ofJson?_toJson fun v hv => hvalues v (List.mem_flatMap.mpr ⟨p, hp, hv⟩)
  have rurn : required? c.members "urn" Urn.ofJson? = some c.urn := by
    rw [required?, hurn]
    exact hurns c.urn List.mem_cons_self
  have raction : required? c.members "action" Action.ofJson? = some c.action := by
    rw [required?, haction]
    exact c.action.ofText?_text
  have rlevel : required? c.members "level" decodeCount? = some c.level := by
    rw [required?, hlvl]
    exact decodeCount?_ofNat hlevel
  have rbefore : optional? c.members "before" none (decodeOption? Properties.ofJson?) =
      some c.before :=
    optional?_of_lookup hbefore (fun p hp => hbags (by simp [Option.mem_def.mp hp]))
      (by simp [Properties.toJson])
  have rafter : optional? c.members "after" none (decodeOption? Properties.ofJson?) =
      some c.after :=
    optional?_of_lookup hafter (fun p hp => hbags (by simp [Option.mem_def.mp hp]))
      (by simp [Properties.toJson])
  have rstatements : optional? c.members "statements" [] (decodeList? Statement.ofJson?) =
      some c.statements := by
    rw [optional?, hstatements]
    exact decodeList?_map fun s _ => s.ofJson?_toJson
  have rsession : optional? c.members "session" {} SessionNeeds.ofJson? = some c.session := by
    rw [optional?, hsession]
    exact c.session.ofJson?_toJson
  have rdepends := c.readDependsOn fun u hu => hurns u (List.mem_cons_of_mem _ hu)
  have rrejection : optional? c.members "rejection" none (decodeOption? decodeString?) =
      some c.rejection :=
    optional?_of_lookup hrejection (fun _ _ => rfl) (by simp)
  rw [ofJson?, fields?_toJson]
  simp only [Option.bind_eq_bind, Option.bind_some, Option.pure_def, rurn, raction, rlevel, rbefore,
    rafter, rstatements, rsession, rdepends, rrejection]

/-! ## What stands in a record -/

theorem forall_mem_values {c : Change} {P : Json → Prop} : (∀ v ∈ c.values, P v) ↔
    (∀ p ∈ c.before, ∀ v ∈ p.values, P v) ∧ ∀ p ∈ c.after, ∀ v ∈ p.values, P v := by
  simp only [values, List.forall_mem_flatMap, List.forall_mem_append, Option.mem_toList,
    Option.mem_def]

theorem forall_mem_members {c : Change} {P : Json → Prop} : (∀ m ∈ c.members, P m.2) ↔
    P (.string c.urn.text) ∧ P (.string c.action.text) ∧ P (.ofNat c.level) ∧
      (∀ p ∈ c.before, P p.toJson) ∧ (∀ p ∈ c.after, P p.toJson) ∧
      P (.array (c.statements.map Statement.toJson)) ∧ P c.session.toJson ∧
      (c.dependsOn ≠ [] → P (.array (c.dependsOn.map fun u => Json.string u.text))) ∧
      ∀ reason ∈ c.rejection, P (.string reason) := by
  simp only [members, List.forall_mem_append, forall_mem_optionalMember, List.forall_mem_cons]
  simp [and_assoc]

theorem depth_statement (s : Statement) : s.toJson.depth ≤ 1 := by
  simp [Statement.toJson, depth, membersDepth]

theorem depth_session (s : SessionNeeds) : s.toJson.depth ≤ 2 := by
  obtain ⟨warehouse, schema⟩ := s
  cases warehouse <;> cases schema <;>
    simp [SessionNeeds.toJson, optionalMember, depth, membersDepth, itemsDepth]

theorem depth_bag_le_iff {p : Properties} {n : Nat} :
    p.toJson.depth ≤ n + 1 ↔ ∀ v ∈ p.values, v.depth ≤ n := by
  rw [Properties.toJson, depth_object_le_iff, SortedMap.values, List.forall_mem_map]

/-- A record is two levels deeper than the values in its bags, if they are deep at all. -/
theorem depth_toJson_le_iff (c : Change) {n : Nat} (hn : 1 ≤ n) :
    c.toJson.depth ≤ n + 1 + 1 ↔ ∀ v ∈ c.values, v.depth ≤ n := by
  have hstatements : (Json.array (c.statements.map Statement.toJson)).depth ≤ n + 1 :=
    depth_array_le_iff.mpr (List.forall_mem_map.mpr fun s _ => (depth_statement s).trans hn)
  have hsession : c.session.toJson.depth ≤ n + 1 := (depth_session c.session).trans (by omega)
  have hdepends : (Json.array (c.dependsOn.map fun u => Json.string u.text)).depth ≤ n + 1 :=
    depth_array_le_iff.mpr (List.forall_mem_map.mpr fun u _ => Nat.zero_le _)
  have htext (s : String) : (Json.string s).depth ≤ n + 1 := Nat.zero_le _
  have hcount (k : Nat) : (ofNat k).depth ≤ n + 1 := Nat.zero_le _
  rw [toJson_eq, depth_object_le_iff, forall_mem_members (P := fun v => v.depth ≤ n + 1),
    forall_mem_values]
  simp only [htext, hcount, hstatements, hsession, hdepends, depth_bag_le_iff, true_and, and_true,
    implies_true]

theorem isWhole_toJson {c : Change} (hvalues : ∀ v ∈ c.values, v.isWhole)
    (hlevel : c.level < UInt64.size) : c.toJson.isWhole := by
  obtain ⟨hbefore, hafter⟩ := forall_mem_values.mp hvalues
  have hbag {p : Properties} (h : ∀ v ∈ p.values, v.isWhole) : p.toJson.isWhole :=
    isWhole_object_iff.mpr (List.forall_mem_map.mp h)
  have hcount : (ofNat c.level).isWhole := by
    have hleast : Int64.minValue.toInt ≤ (c.level : Int) :=
      Int.le_trans (show Int64.minValue.toInt ≤ 0 by decide) (Int.natCast_nonneg _)
    rw [ofNat, isWhole, Number.isInteger, Bool.and_eq_true, decide_eq_true_iff,
      decide_eq_true_iff]
    exact ⟨hleast, Int.ofNat_lt.mpr hlevel⟩
  rw [toJson_eq, isWhole_object_iff, forall_mem_members (P := fun v => v.isWhole)]
  refine ⟨rfl, rfl, hcount, fun p hp => hbag (hbefore p hp), fun p hp => hbag (hafter p hp),
    ?_, ?_, fun _ => ?_, fun _ _ => rfl⟩
  · exact isWhole_array_iff.mpr (List.forall_mem_map.mpr fun s _ => rfl)
  · obtain ⟨-, -, -, -, -, -, ⟨warehouse, schema⟩, -, -⟩ := c
    cases warehouse <;> cases schema <;> rfl
  · exact isWhole_array_iff.mpr (List.forall_mem_map.mpr fun u _ => rfl)

end Change

namespace Plan

variable {p : Plan}

/-- The text of a plan is read as the records of its changes as long as no property value is too
deep: it stands in the list of the changes, in a record and in a bag. -/
theorem parse?_exported (hvalues : ∀ c ∈ p.actionable, ∀ v ∈ c.values, v.isWhole)
    (hlevels : ∀ c ∈ p.actionable, c.level < UInt64.size) :
    parse? p.exported =
      if ∀ c ∈ p.actionable, ∀ v ∈ c.values, v.depth + 3 ≤ nestingLimit then
        some (.array (p.actionable.map Change.toJson))
      else none := by
  have hwhole : (Json.array (p.actionable.map Change.toJson)).isWhole :=
    isWhole_array_iff.mpr (List.forall_mem_map.mpr fun c hc =>
      Change.isWhole_toJson (hvalues c hc) (hlevels c hc))
  have hdepth : (Json.array (p.actionable.map Change.toJson)).depth ≤ nestingLimit ↔
      ∀ c ∈ p.actionable, ∀ v ∈ c.values, v.depth + 3 ≤ nestingLimit := by
    have hlimit : nestingLimit = 124 + 1 + 1 + 1 := rfl
    rw [hlimit, depth_array_le_iff, List.forall_mem_map]
    refine forall₂_congr fun c _ => ?_
    rw [c.depth_toJson_le_iff (by decide)]
    simp
  rw [exported, parse?_renderIndented hwhole]
  exact if_congr hdepth rfl rfl

/-! ## A plan with lists inside one another -/

def nested : Nat → Json
  | 0 => .null
  | n + 1 => .array [nested n]

theorem depth_nested (n : Nat) : (nested n).depth = n := by
  induction n with
  | zero => rfl
  | succ n ih => rw [nested, depth, itemsDepth, ih, itemsDepth, Nat.max_zero]

theorem isWhole_nested (n : Nat) : (nested n).isWhole := by
  induction n with
  | zero => rfl
  | succ n ih => rw [nested, isWhole, areWhole, ih]; rfl

theorem canonical_nested (n : Nat) : (nested n).canonical = nested n := by
  induction n with
  | zero => simp [nested, canonical]
  | succ n ih => rw [nested, canonical, canonicalItems, ih, canonicalItems]

def creating (property : Json) : Plan where
  changes := [{
    urn := .ofRole "A" "R"
    action := .add
    level := 0
    before := none
    after := some (.ofList [("k", property)])
    statements := []
    session := {}
    dependsOn := []
    rejection := none }]
  ordered := List.pairwise_singleton _ _

theorem parse?_ofRole : Urn.parse? (Urn.ofRole "A" "R").text = some (.ofRole "A" "R") := rfl

theorem urns_creating (property : Json) : ∀ c ∈ (creating property).actionable,
    ∀ u ∈ c.urn :: c.dependsOn, Urn.parse? u.text = some u :=
  List.forall_mem_singleton.mpr (List.forall_mem_singleton.mpr parse?_ofRole)

theorem levels_creating (property : Json) :
    ∀ c ∈ (creating property).actionable, c.level < UInt64.size :=
  List.forall_mem_singleton.mpr (Nat.zero_lt_succ _)

theorem forall_creating {property : Json} (P : Json → Prop) :
    (∀ c ∈ (creating property).actionable, ∀ v ∈ c.values, P v) ↔ P property :=
  List.forall_mem_singleton.trans List.forall_mem_singleton

theorem values_creating_nested (n : Nat) : ∀ c ∈ (creating (nested n)).actionable,
    ∀ v ∈ c.values, v.isWhole ∧ v.canonical = v :=
  (forall_creating fun v => v.isWhole ∧ v.canonical = v).mpr
    ⟨isWhole_nested n, canonical_nested n⟩

theorem depth_creating_nested {n : Nat} : (∀ c ∈ (creating (nested n)).actionable,
    ∀ v ∈ c.values, v.depth + 3 ≤ nestingLimit) ↔ n + 3 ≤ nestingLimit := by
  rw [forall_creating fun v => v.depth + 3 ≤ nestingLimit, depth_nested]

/-! ## Reading a plan back -/

/-- A written plan is read back as exactly its changes that touch the remote, in their order,
unless a property value is deeper than the reader goes; then it is not read at all. -/
theorem imported?_exported (p : Plan)
    (hurns : ∀ c ∈ p.actionable, ∀ u ∈ c.urn :: c.dependsOn, Urn.parse? u.text = some u)
    (hvalues : ∀ c ∈ p.actionable, ∀ v ∈ c.values, v.isWhole ∧ v.canonical = v)
    (hlevels : ∀ c ∈ p.actionable, c.level < UInt64.size) :
    imported? p.exported =
      if ∀ c ∈ p.actionable, ∀ v ∈ c.values, v.depth + 3 ≤ nestingLimit then some p.actionable
      else none := by
  have hread : decodeList? Change.ofJson? (.array (p.actionable.map Change.toJson)) =
      some p.actionable :=
    decodeList?_map fun c hc =>
      Change.ofJson?_toJson (hurns c hc) (fun v hv => (hvalues c hc v hv).2) (hlevels c hc)
  rw [imported?, parse?_exported (fun c hc v hv => (hvalues c hc v hv).1) hlevels]
  split
  · exact hread
  · rfl

theorem imported?_creating :
    (∀ c ∈ (creating (nested 124)).actionable, ∀ v ∈ c.values, v.isWhole ∧ v.canonical = v) ∧
      imported? (creating (nested 124)).exported = some (creating (nested 124)).actionable := by
  have hread := imported?_exported (creating (nested 124)) (urns_creating _)
    (values_creating_nested 124) (levels_creating _)
  rw [if_pos (depth_creating_nested.mpr (by decide))] at hread
  exact ⟨values_creating_nested 124, hread⟩

/-- With one list more the text of the plan is not read. -/
theorem imported?_creating_deeper :
    (∀ c ∈ (creating (nested 125)).actionable, ∀ u ∈ c.urn :: c.dependsOn,
      Urn.parse? u.text = some u) ∧
    (∀ c ∈ (creating (nested 125)).actionable, ∀ v ∈ c.values, v.isWhole ∧ v.canonical = v) ∧
      imported? (creating (nested 125)).exported ≠ some (creating (nested 125)).actionable := by
  have hdeep := mt depth_creating_nested.mp (show ¬125 + 3 ≤ nestingLimit by decide)
  have hwhole := fun c hc v hv => (values_creating_nested 125 c hc v hv).1
  refine ⟨urns_creating _, values_creating_nested 125, ?_⟩
  rw [imported?, parse?_exported hwhole (levels_creating _), if_neg hdeep]
  nofun

end Plan
end Reconcile
