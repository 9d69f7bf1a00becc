import Reconcile.Proofs.Diff.Settled
/-!
What becomes of the containers of wanted resources.  Main statements:
`removes_no_container_iff`, when a plan leaves all of them alone, and
`removes_database_of_declared_table`, a plan that does not.
-/

namespace Reconcile

def Urn.Encloses (d u : Urn) : Prop :=
  u.parent? = some d ∨ ∃ p, u.parent? = some p ∧ p.parent? = some d

theorem Urn.type_of_parent? {d u : Urn} (h : u.parent? = some d) :
    d.type = .database ∨ d.type = .schema := by
  rw [parent?] at h
  split at h
  · cases h
  · cases h
    exact .inl rfl
  · cases h
    exact .inr rfl

theorem Urn.Encloses.supportsRemove {d u : Urn} (h : d.Encloses u) : d.type.supportsRemove := by
  have htype : d.type = .database ∨ d.type = .schema := by
    rcases h with h | ⟨p, -, h⟩
    · exact type_of_parent? h
    · exact type_of_parent? h
  rcases htype with htype | htype
  · rw [htype]
    rfl
  · rw [htype]
    rfl

namespace ResourceGraph

variable {g : ResourceGraph}

/-- A container around a wanted resource is wanted too, unless it is around one that is only
expected to exist. -/
theorem WellFormed.wants_of_encloses (h : g.WellFormed) {u d : Urn} (hu : g.Wants u)
    (hd : d.Encloses u) : g.Wants d ∨ ∃ r ∈ g.externalReferences, d.Encloses r := by
  rcases hu with hu | hu
  · rcases hd with hd | ⟨p, hp, hd⟩
    · exact .inl (h.wants_parent hu hd)
    · rcases h.wants_parent hu hp with hpn | hpe
      · exact .inl (h.wants_parent hpn hd)
      · exact .inr ⟨p, hpe, .inl hd⟩
  · exact .inr ⟨u, hu, hd⟩

end ResourceGraph

namespace Diff

open ResourceGraph

variable {declarations : List Declaration} {built config : Config} {graph : ResourceGraph}
  {snapshot : Snapshot} {registry : Registry} {p : Plan}

theorem not_wants_of_isCandidate {u : Urn} (h : isCandidate graph config u) : ¬ graph.Wants u := by
  obtain ⟨-, hdecl, hext, -, -⟩ := isCandidate_iff.mp h
  rintro (hu | hu)
  · exact hdecl (contains_iff.mpr hu)
  · exact hext (SortedSet.contains_iff.mpr hu)

/-- A plan leaves the direct containers of declared resources alone.  It leaves every container
around a wanted resource alone exactly if each reported one around a resource that is only expected
to exist is wanted itself, or is exempt from removal for another reason. -/
theorem removes_no_container_iff (hbuild : build declarations built = .ok graph)
    (hplan : plan graph snapshot registry config = .ok p) :
    (∀ c ∈ p.changes, c.action = .remove → ∀ n ∈ graph.nodes, n.urn.parent? ≠ some c.urn) ∧
    ((∀ c ∈ p.changes, c.action = .remove → ∀ u, graph.Wants u → ¬ c.urn.Encloses u) ↔
      ∀ u ∈ graph.externalReferences, ∀ d : Urn, d.Encloses u → snapshot.contains d →
        graph.Wants d ∨ ¬ config.allowlist.contains d.type ∨
          ¬ config.managementScope.contains d ∨ isSystemManaged d) := by
  have hwf := wellFormed_of_build hbuild
  have hremoved {c : Change} (hc : c ∈ p.changes) (haction : c.action = .remove) :
      isCandidate graph config c.urn :=
    ((exists_removal_iff hplan).mp ⟨c, hc, haction, rfl⟩).2.1
  refine ⟨fun c hc haction n hn hparent => ?_, fun h u hu d hd hreported => ?_,
    fun h c hc haction u hu hencloses => ?_⟩
  · exact not_wants_of_isCandidate (hremoved hc haction)
      (hwf.wants_parent (List.mem_map_of_mem hn) hparent)
  · by_contra hnone
    push Not at hnone
    obtain ⟨hwants, hallowed, hscope, hmanaged⟩ := hnone
    have hcand : isCandidate graph config d := by
      refine isCandidate_iff.mpr ⟨hallowed, fun hmem => ?_, fun hmem => ?_, hscope, hmanaged⟩
      · exact hwants (.inl (contains_iff.mp hmem))
      · exact hwants (.inr (SortedSet.contains_iff.mp hmem))
    obtain ⟨c, hc, haction, rfl⟩ :=
      (exists_removal_iff hplan).mpr ⟨hreported, hcand, hd.supportsRemove⟩
    exact h c hc haction u (.inr hu) hd
  · have hcand := hremoved hc haction
    obtain ⟨r, hr, hencloses⟩ :=
      (hwf.wants_of_encloses hu hencloses).resolve_left (not_wants_of_isCandidate hcand)
    have hreported := ((exists_removal_iff hplan).mp ⟨c, hc, haction, rfl⟩).1
    obtain ⟨hallowed, -, -, hscope, hmanaged⟩ := isCandidate_iff.mp hcand
    rcases h r hr c.urn hencloses hreported with hw | hw | hw | hw
    · exact not_wants_of_isCandidate hcand hw
    · exact hw hallowed
    · exact hw hscope
    · exact hmanaged hw

/-! ## A table whose database is removed -/

def databaseUrn : Urn := .ofNames "A" .database [] "DB"

def schemaUrn : Urn := .ofNames "A" .schema ["DB"] "S"

def tableUrn : Urn := .ofNames "A" .table ["DB", "S"] "T"

def tableProperties : Properties := SortedMap.empty.insert "columns" (.array [.string "ID NUMBER"])

def declaredTable : Declaration where
  type := .table
  name := "T"
  container := ["DB", "S"]
  properties := tableProperties
  references := .empty

def tableNode : Node where
  urn := tableUrn
  properties := tableProperties
  dependencies := .empty
  external := .ofList [schemaUrn]
  level := 0

def syncDatabases : Config := { account := "A", syncResources := some [.database] }

def reported : Snapshot :=
  .ofRecords [⟨databaseUrn, .empty⟩, ⟨schemaUrn, .empty⟩, ⟨tableUrn, tableProperties⟩]

theorem build_declaredTable : build [declaredTable] syncDatabases = .ok ⟨[tableNode]⟩ := by rfl

def tablePlan : Plan := .ofChanges [
  changeOf tableNode (some (ResourceType.table.canonical tableProperties)) syncDatabases
    { action := .noop },
  removalOf [databaseUrn] 1 ⟨databaseUrn, .empty⟩ [⟨"SYSADMIN", "DROP DATABASE DB"⟩]]

theorem isCandidate_database : isCandidate ⟨[tableNode]⟩ syncDatabases databaseUrn = true := by
  rw [isCandidate, isSystemManaged]
  rfl

theorem candidates_reported : candidates ⟨[tableNode]⟩ reported .builtin syncDatabases =
    .ok [⟨databaseUrn, .empty⟩] := by
  have hfound : reported.toList.filter (fun r => isCandidate ⟨[tableNode]⟩ syncDatabases r.urn) =
      [⟨databaseUrn, .empty⟩] := by
    show [Record.mk databaseUrn .empty, ⟨schemaUrn, .empty⟩, ⟨tableUrn, tableProperties⟩].filter
      (fun r => isCandidate ⟨[tableNode]⟩ syncDatabases r.urn) = _
    rw [List.filter_cons, if_pos isCandidate_database]
    rfl
  rw [candidates, hfound]
  rfl

theorem plan_declaredTable :
    plan ⟨[tableNode]⟩ reported .builtin syncDatabases = .ok tablePlan := by
  have hreferences : checkReferences ⟨[tableNode]⟩ reported = .ok () := by rfl
  have hremote : remoteState tableUrn ⟨[tableNode]⟩ reported = some tableProperties := by rfl
  have hnodes : nodeChanges ⟨[tableNode]⟩ reported .builtin syncDatabases =
      .ok [changeOf tableNode (some (ResourceType.table.canonical tableProperties)) syncDatabases
        { action := .noop }] := by
    refine nodeChanges_eq_ok_iff.mpr (.cons ⟨rfl, ?_⟩ .nil)
    show nodeChange tableNode (remoteState tableUrn _ _) syncDatabases = _
    rw [hremote]
    exact nodeChange_settled syncDatabases rfl
  have hremovals : removals ⟨[tableNode]⟩ reported .builtin syncDatabases 1 =
      .ok [removalOf [databaseUrn] 1 ⟨databaseUrn, .empty⟩
        [⟨"SYSADMIN", "DROP DATABASE DB"⟩]] :=
    removals_eq_ok_iff.mpr ⟨_, candidates_reported, .cons rfl .nil⟩
  exact plan_eq_ok_iff.mpr ⟨hreferences, _, hnodes, _, hremovals, rfl⟩

theorem encloses_tableUrn : databaseUrn.Encloses tableUrn := .inr ⟨schemaUrn, rfl, rfl⟩

/-- A database is removed although a table in it is declared. -/
theorem removes_database_of_declared_table :
    ∃ g p, build [declaredTable] syncDatabases = .ok g ∧
      plan g reported .builtin syncDatabases = .ok p ∧
      ∃ c ∈ p.changes, c.action = .remove ∧ ∃ u, g.Wants u ∧ c.urn.Encloses u := by
  refine ⟨_, _, build_declaredTable, plan_declaredTable, ?_⟩
  refine ⟨removalOf [databaseUrn] 1 ⟨databaseUrn, .empty⟩ [⟨"SYSADMIN", "DROP DATABASE DB"⟩],
    ?_, rfl, tableUrn, ?_, encloses_tableUrn⟩
  · exact mem_ofChanges.mpr (by simp)
  · exact .inl List.mem_cons_self

/-- The database is around a schema that is only expected to exist, and nothing exempts it. -/
theorem reported_database_is_not_exempt :
    build [declaredTable] syncDatabases = .ok ⟨[tableNode]⟩ ∧
    plan ⟨[tableNode]⟩ reported .builtin syncDatabases = .ok tablePlan ∧
    ¬ ∀ u ∈ ResourceGraph.externalReferences ⟨[tableNode]⟩, ∀ d : Urn, d.Encloses u →
      reported.contains d → ResourceGraph.Wants ⟨[tableNode]⟩ d ∨
        ¬ syncDatabases.allowlist.contains d.type ∨
        ¬ syncDatabases.managementScope.contains d ∨ isSystemManaged d := by
  refine ⟨build_declaredTable, plan_declaredTable, fun hexempt => ?_⟩
  have hkeeps := (removes_no_container_iff build_declaredTable plan_declaredTable).2.mpr hexempt
  refine hkeeps (removalOf [databaseUrn] 1 ⟨databaseUrn, .empty⟩
    [⟨"SYSADMIN", "DROP DATABASE DB"⟩]) ?_ rfl tableUrn ?_ encloses_tableUrn
  · exact mem_ofChanges.mpr (by simp)
  · exact .inl List.mem_cons_self

end Diff
end Reconcile
