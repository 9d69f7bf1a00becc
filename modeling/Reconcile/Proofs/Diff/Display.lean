import Reconcile.Proofs.Diff.InPlace
import Reconcile.Proofs.Properties
/-!
What is shown of a change in place.  Main statements: `shows_what_runs_iff`, the fields that are
shown are those that the statements touch exactly if no field is desired otherwise that is never
reported, and `shows_untouched_password`, a change that shows one.
-/

namespace Reconcile

open Fallible

theorem Json.same_comm (v w : Json) : v.same w = w.same v := by
  rw [Bool.eq_iff_iff, same_iff, same_iff, eq_comm]

namespace FieldDiff

variable {key : String} {before : Option Json} {after : Json} {d : FieldDiff}

theorem isSome_between : (between key before after).isSome = !Sql.satisfies before after := by
  cases before with
  | none =>
    rw [between, Sql.satisfies]
    cases after.isNull with
    | true => rfl
    | false => rfl
  | some v =>
    rw [between, Sql.satisfies, Json.same_comm]
    cases after.same v with
    | true => rfl
    | false => rfl

theorem of_between (h : between key before after = some d) :
    d.key = key ∧ d.before? = before ∧ d.after? = some after := by
  cases before with
  | none =>
    rw [between] at h
    split at h
    · cases h
    · obtain rfl := Option.some.inj h
      exact ⟨rfl, rfl, rfl⟩
  | some v =>
    rw [between] at h
    split at h
    · cases h
    · obtain rfl := Option.some.inj h
      exact ⟨rfl, rfl, rfl⟩

end FieldDiff

namespace Change

variable {c : Change} {desired current : Properties} {d : FieldDiff}

theorem fieldDiffs_of_inPlace (haction : c.action = .change ∨ c.action = .transfer)
    (hbefore : c.before = some current) (hafter : c.after = some desired) :
    c.fieldDiffs = desired.entries.filterMap fun e =>
      FieldDiff.between e.1 (current.get? e.1) e.2 := by
  rw [fieldDiffs, hbefore, hafter]
  rcases haction with h | h
  · rw [h]
  · rw [h]

theorem map_key_filterMap_between (entries : List (String × Json)) :
    (entries.filterMap fun e => FieldDiff.between e.1 (current.get? e.1) e.2).map FieldDiff.key =
      (entries.filter fun e => !Sql.satisfies (current.get? e.1) e.2).map (·.1) := by
  induction entries with
  | nil => rfl
  | cons e entries ih =>
    have hshown : (FieldDiff.between e.1 (current.get? e.1) e.2).isSome =
        !Sql.satisfies (current.get? e.1) e.2 := FieldDiff.isSome_between
    rw [List.filterMap_cons, List.filter_cons, ← hshown]
    cases hd : FieldDiff.between e.1 (current.get? e.1) e.2 with
    | none => exact ih
    | some d => exact congrArg₂ List.cons (FieldDiff.of_between hd).1 ih

/-- What is shown of a change in place are the desired values that are not satisfied, each once,
beside the current ones. -/
theorem fieldDiffs_spec (haction : c.action = .change ∨ c.action = .transfer)
    (hbefore : c.before = some current) (hafter : c.after = some desired) :
    (c.fieldDiffs.map FieldDiff.key).Nodup ∧
    (∀ key, key ∈ c.fieldDiffs.map FieldDiff.key ↔ ∃ v, Differs desired current key v) ∧
    ∀ d ∈ c.fieldDiffs, d.before? = current.get? d.key ∧ d.after? = desired.get? d.key := by
  rw [fieldDiffs_of_inPlace haction hbefore hafter, map_key_filterMap_between]
  refine ⟨desired.nodup_keys.sublist (List.filter_sublist.map _), fun key => ?_, fun d hd => ?_⟩
  · simp [differs_iff, SortedMap.get?_eq_some_iff]
  · obtain ⟨e, he, hbetween⟩ := List.mem_filterMap.mp hd
    obtain ⟨hkey, hold, hnew⟩ := FieldDiff.of_between hbetween
    rw [hkey, hold, hnew, SortedMap.get?_eq_some_iff.mpr he]
    exact ⟨rfl, rfl⟩

/-- The fields shown for the change are those that its statements touch, and the owner exactly if
the resource is handed over. -/
def ShowsWhatRuns (c : Change) (as : List Alteration) (heir : Option String) : Prop :=
  ∀ key, key ∈ c.fieldDiffs.map FieldDiff.key ↔
    key ∈ as.flatMap Alteration.fields ∨ key = "owner" ∧ heir.isSome

end Change

namespace Diff

variable {node : Node} {remote : Option Properties} {config : Config} {c : Change}
  {t : ResourceType} {desired current p q : Properties}

theorem exists_differs_owner_iff :
    (∃ v, Differs (t.canonical p) (t.canonical q) "owner" v) ↔
      ∃ owner, (t.canonical p).text? "owner" = some owner ∧
        (t.canonical q).text? "owner" ≠ some owner := by
  have hsame (o o' : String) : ¬ (Json.string o).same (.string o') ↔ o' ≠ o := by
    rw [Json.same, beq_iff_eq, eq_comm]
  simp only [differs_iff, Properties.text?, ResourceType.get?_canonical_owner]
  cases t.hasOwner with
  | false => simp
  | true => simp [Sql.satisfies, Json.asString?, -Bool.not_eq_true, hsame]

theorem owner_not_mem_writeOnlyFields (t : ResourceType) : "owner" ∉ t.writeOnlyFields := by
  cases t <;> decide

theorem exists_canonical_of_currentState (h : currentState t remote = some current) :
    ∃ q, current = t.canonical q := by
  obtain ⟨q, -, rfl⟩ := Option.map_eq_some_iff.mp h
  exact ⟨q, rfl⟩

/-- The statements of a change in place touch what is shown exactly if no field that is never
reported is desired otherwise than it is reported. -/
theorem showsWhatRuns_iff_of_inPlace {as : List Alteration} {heir : Option String} {action : Action}
    {statements : List Statement} {urn : Urn}
    (hshown : ∀ key, key ∈ c.fieldDiffs.map FieldDiff.key ↔
      ∃ v, Differs (urn.type.canonical p) (urn.type.canonical q) key v)
    (hin : IsInPlace urn (urn.type.canonical p) (urn.type.canonical q) action statements as heir) :
    c.ShowsWhatRuns as heir ↔ ∀ key ∈ urn.type.writeOnlyFields, ∀ v,
      ¬ Differs (urn.type.canonical p) (urn.type.canonical q) key v := by
  have howner : heir.isSome ↔
      ∃ v, Differs (urn.type.canonical p) (urn.type.canonical q) "owner" v := by
    rw [exists_differs_owner_iff, Option.isSome_iff_exists]
    exact exists_congr hin.heir_iff
  have hruns (key : String) : (key ∈ as.flatMap Alteration.fields ∨ key = "owner" ∧ heir.isSome) ↔
      key ∉ urn.type.writeOnlyFields ∧
        ∃ v, Differs (urn.type.canonical p) (urn.type.canonical q) key v := by
    rw [hin.brings.mem_fields_iff, ResourceType.IsAltered, howner]
    by_cases hkey : key = "owner"
    · subst hkey
      simp [owner_not_mem_writeOnlyFields]
    · simp [hkey]
  simp only [Change.ShowsWhatRuns, hshown, hruns]
  constructor
  · intro h key hkey v hv
    exact ((h key).mp ⟨v, hv⟩).1 hkey
  · intro h key
    refine ⟨?_, And.right⟩
    rintro ⟨v, hv⟩
    exact ⟨fun hkey => h key hkey v hv, v, hv⟩

/-- Of a change in place the fields are shown that its statements touch, each once with its two
values, exactly if no field that is never reported is desired otherwise.  Nothing is shown of a
resource that is as desired. -/
theorem shows_what_runs_iff (h : nodeChange node remote config = .ok c) :
    (c.action = .noop → c.fieldDiffs = []) ∧
    (c.action = .change ∨ c.action = .transfer → ∃ desired current as heir,
      desired = node.urn.type.canonical node.properties ∧ c.after = some desired ∧
      currentState node.urn.type remote = some current ∧ c.before = some current ∧
      IsInPlace node.urn desired current c.action c.statements as heir ∧
      (c.fieldDiffs.map FieldDiff.key).Nodup ∧
      (∀ d ∈ c.fieldDiffs, d.before? = current.get? d.key ∧ d.after? = desired.get? d.key) ∧
      (c.ShowsWhatRuns as heir ↔
        ∀ key ∈ node.urn.type.writeOnlyFields, ∀ v, ¬ Differs desired current key v)) := by
  refine ⟨fun hnoop => ?_, fun haction => ?_⟩
  · rw [Change.fieldDiffs, hnoop]
  · obtain ⟨current, as, heir, hcurrent, hbefore, hafter, hin⟩ := inPlace_of_nodeChange h haction
    obtain ⟨hnodup, hshown, hvalues⟩ := Change.fieldDiffs_spec haction hbefore hafter
    obtain ⟨q, rfl⟩ := exists_canonical_of_currentState hcurrent
    exact ⟨_, _, as, heir, rfl, hafter, hcurrent, hbefore, hin, hnodup, hvalues,
      showsWhatRuns_iff_of_inPlace hshown hin⟩

def declaredUser : Node where
  urn := .ofNames "A" .user [] "BOB"
  properties := .ofList [("comment", .null), ("default_role", .string "analyst"),
    ("owner", .string "HR")]
  dependencies := .empty
  external := .empty
  level := 0

def reportedUser : Properties := .ofList [("comment", .string "old")]

theorem shows_what_runs_declaredUser :
    ∃ c desired current as heir,
      nodeChange declaredUser (some reportedUser) (.ofAccount "A") = .ok c ∧ c.action = .change ∧
      c.statements = runAs "USERADMIN" ["ALTER USER BOB SET DEFAULT_ROLE = ANALYST",
        "ALTER USER BOB UNSET COMMENT",
        "GRANT OWNERSHIP ON USER BOB TO ROLE HR COPY CURRENT GRANTS"] ∧
      c.fieldDiffs = [.changed "comment" (.string "old") .null,
        .added "default_role" (.string "ANALYST"),
        .changed "owner" (.string "USERADMIN") (.string "HR")] ∧
      IsInPlace declaredUser.urn desired current c.action c.statements as heir ∧
      c.ShowsWhatRuns as heir := by
  have hc : nodeChange declaredUser (some reportedUser) (.ofAccount "A") = .ok _ := rfl
  obtain ⟨-, hchange⟩ := shows_what_runs_iff hc
  obtain ⟨desired, current, as, heir, rfl, -, -, -, hin, -, -, hshows⟩ := hchange (.inl rfl)
  refine ⟨_, _, current, as, heir, hc, rfl, rfl, rfl, hin, hshows.mpr ?_⟩
  intro key hkey v hv
  obtain rfl := List.mem_singleton.mp hkey
  cases hv.1

def declaredPassword : Node where
  urn := .ofNames "A" .user [] "ANN"
  properties := .ofList [("default_role", .string "analyst"), ("password", .string "hunter2")]
  dependencies := .empty
  external := .empty
  level := 0

/-- The password is shown, and no statement touches it. -/
theorem shows_untouched_password :
    ∃ c, nodeChange declaredPassword (some .empty) (.ofAccount "A") = .ok c ∧
      c.action = .change ∧
      c.statements = [⟨"USERADMIN", "ALTER USER ANN SET DEFAULT_ROLE = ANALYST"⟩] ∧
      c.fieldDiffs = [.added "default_role" (.string "ANALYST"),
        .added "password" (.string "hunter2")] ∧
      ∀ desired current as heir,
        IsInPlace declaredPassword.urn desired current c.action c.statements as heir →
          ¬ c.ShowsWhatRuns as heir := by
  refine ⟨_, rfl, rfl, rfl, rfl, fun desired current as heir hin hshows => ?_⟩
  have hshown : "password" ∈ [.added "default_role" (.string "ANALYST"),
      .added "password" (.string "hunter2")].map FieldDiff.key := by decide
  rcases (hshows "password").mp hshown with htouched | ⟨howner, -⟩
  · exact (hin.brings.mem_fields_iff.mp htouched).1.2 (List.mem_singleton_self _)
  · exact absurd howner (by decide)

end Diff
end Reconcile
