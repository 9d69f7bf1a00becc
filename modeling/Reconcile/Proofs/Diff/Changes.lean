import Reconcile.Diff.Basic
import Reconcile.Proofs.Fallible
import Reconcile.Proofs.Graph.Build
/-!
What a plan is made of.  Main statements: `plan_eq_ok_iff`, a plan holds the changes of the nodes
and the removals, and `exists_removal_iff`, what is removed is exactly what is reported and a
candidate.
-/

namespace Reconcile

open Fallible

namespace Snapshot

theorem contains_iff {s : Snapshot} {urn : Urn} :
    s.contains urn ↔ ∃ p, s.get? urn = some p := SortedMap.contains_iff

theorem mem_toList_iff {s : Snapshot} {r : Record} :
    r ∈ s.toList ↔ s.get? r.urn = some r.properties := by
  rw [get?, SortedMap.get?_eq_some_iff, toList, List.mem_map]
  constructor
  · intro hentry
    obtain ⟨e, he, rfl⟩ := hentry
    exact he
  · intro h
    exact ⟨_, h, rfl⟩

theorem nodup_toList (s : Snapshot) : (s.toList.map Record.urn).Nodup := by
  rw [toList, List.map_map]
  exact s.records.nodup_keys

theorem records_ofRecords (records : List Record) :
    (ofRecords records).records = .ofList (records.map fun r => (r.urn, r.properties)) := by
  rw [ofRecords, SortedMap.ofList, List.foldl_map]
  exact (List.foldl_hom Snapshot.records fun _ _ => rfl).symm

theorem get?_ofRecords (records : List Record) (urn : Urn) :
    (ofRecords records).get? urn =
      (SortedMap.ofList (records.map fun r => (r.urn, r.properties))).get? urn := by
  rw [get?, records_ofRecords]

theorem contains_ofRecords_iff (records : List Record) {urn : Urn} :
    (ofRecords records).contains urn ↔ urn ∈ records.map Record.urn := by
  rw [contains, records_ofRecords, SortedMap.contains_ofList_iff, List.map_map]
  rfl

end Snapshot

namespace Diff

variable {graph : ResourceGraph} {snapshot : Snapshot} {registry : Registry} {config : Config}
  {removable : ResourceType → Bool}

/-! ## Changes of nodes -/

theorem stepTo_ne_remove {urn : Urn} {desired : Properties} {current : Option Properties}
    {step : Step} (h : stepTo urn desired current = .ok step) : step.action ≠ .remove := by
  cases current with
  | none =>
    simp only [stepTo, bind_eq_ok, pure_eq_ok] at h
    obtain ⟨_, -, rfl⟩ := h
    simp
  | some current =>
    simp only [stepTo, update] at h
    split at h
    · obtain rfl := pure_eq_ok.mp h
      simp
    split at h
    · simp only [bind_eq_ok, pure_eq_ok] at h
      obtain ⟨_, -, _, -, rfl⟩ := h
      simp
    split at h
    · split at h
      · obtain rfl := pure_eq_ok.mp h
        simp
      · obtain rfl := pure_eq_ok.mp h
        simp
    · simp only [bind_eq_ok, pure_eq_ok] at h
      obtain ⟨_, -, rfl⟩ := h
      simp

def changeOf (node : Node) (current : Option Properties) (config : Config) (step : Step) :
    Change where
  urn := node.urn
  action := step.action
  level := node.level
  before := current
  after := some (node.urn.type.canonical node.properties)
  statements := step.statements
  session := sessionNeeds node.urn (node.urn.type.canonical node.properties) config
  dependsOn := node.dependencies.elements
  rejection := step.rejection

theorem nodeChange_eq_ok_iff {node : Node} {remote : Option Properties} {c : Change} :
    nodeChange node remote config = .ok c ↔
      ∃ step, stepTo node.urn (node.urn.type.canonical node.properties)
          (currentState node.urn.type remote) = .ok step ∧
        c = changeOf node (currentState node.urn.type remote) config step := by
  simp only [nodeChange, bind_eq_ok, pure_eq_ok, eq_comm (b := c)]
  rfl

theorem urn_of_nodeChange {node : Node} {remote : Option Properties} {c : Change}
    (h : nodeChange node remote config = .ok c) : c.urn = node.urn := by
  obtain ⟨step, -, rfl⟩ := nodeChange_eq_ok_iff.mp h
  rfl

theorem nodeChanges_eq_ok_iff {changes : List Change} :
    nodeChanges graph snapshot registry config = .ok changes ↔
      List.Forall₂ (fun n c => registry.require n.urn.type = .ok () ∧
        nodeChange n (remoteState n.urn graph snapshot) config = .ok c) graph.nodes changes := by
  simp only [nodeChanges, mapM_eq_ok_iff, bind_eq_ok, exists_unit_iff]

/-! ## Removals -/

theorem isCandidate_iff {urn : Urn} : isCandidate graph config urn ↔
    config.allowlist.contains urn.type ∧ ¬ graph.contains urn ∧
      ¬ graph.externalReferences.contains urn ∧ config.managementScope.contains urn ∧
      ¬ isSystemManaged urn := by
  simp [isCandidate, and_assoc]

theorem candidates_eq_ok_iff {records : List Record} :
    candidates graph snapshot registry config removable = .ok records ↔
      (∀ r ∈ snapshot.toList, isCandidate graph config r.urn →
        registry.require r.urn.type = .ok ()) ∧
      records = snapshot.toList.filter fun r =>
        isCandidate graph config r.urn && removable r.urn.type := by
  rw [candidates]
  simp only [bind_eq_ok, pure_eq_ok, exists_unit_iff, forM_eq_ok_iff, List.mem_filter, and_imp,
    List.filter_filter, eq_comm (b := records)]
  simp only [Bool.and_comm]

theorem mem_candidates_iff {records : List Record}
    (h : candidates graph snapshot registry config removable = .ok records) {r : Record} :
    r ∈ records ↔ snapshot.get? r.urn = some r.properties ∧
      isCandidate graph config r.urn ∧ removable r.urn.type := by
  rw [(candidates_eq_ok_iff.mp h).2, List.mem_filter, Snapshot.mem_toList_iff, Bool.and_eq_true]

theorem nodup_candidates {records : List Record}
    (h : candidates graph snapshot registry config removable = .ok records) :
    (records.map Record.urn).Nodup := by
  rw [(candidates_eq_ok_iff.mp h).2]
  exact snapshot.nodup_toList.sublist (List.filter_sublist.map Record.urn)

def removalOf (removed : List Urn) (level : Nat) (r : Record) (statements : List Statement) :
    Change where
  urn := r.urn
  action := .remove
  level
  before := some (r.urn.type.canonical r.properties)
  after := none
  statements
  session := {}
  dependsOn := dependents removed r.urn
  rejection := none

theorem removalChange_eq_ok_iff {removed : List Urn} {level : Nat} {r : Record} {c : Change} :
    removalChange removed level r = .ok c ↔
      ∃ statements, removal r.urn (r.urn.type.canonical r.properties) = .ok statements ∧
        c = removalOf removed level r statements := by
  simp only [removalChange, bind_eq_ok, pure_eq_ok, eq_comm (b := c)]
  rfl

theorem urn_of_removalChange {removed : List Urn} {level : Nat} {r : Record} {c : Change}
    (h : removalChange removed level r = .ok c) : c.urn = r.urn := by
  obtain ⟨_, -, rfl⟩ := removalChange_eq_ok_iff.mp h
  rfl

theorem removals_eq_ok_iff {base : Nat} {changes : List Change} :
    removals graph snapshot registry config base removable = .ok changes ↔
      ∃ records, candidates graph snapshot registry config removable = .ok records ∧
        List.Forall₂ (fun r c => removalChange (records.map Record.urn)
          (base + depths (records.map Record.urn) r.urn) r = .ok c) records changes := by
  simp only [removals, bind_eq_ok, mapM_eq_ok_iff]

/-! ## The whole plan -/

theorem plan_eq_ok_iff {p : Plan} : plan graph snapshot registry config removable = .ok p ↔
    checkReferences graph snapshot = .ok () ∧
      ∃ nodes, nodeChanges graph snapshot registry config = .ok nodes ∧
      ∃ gone, removals graph snapshot registry config graph.height removable = .ok gone ∧
        p = .ofChanges (nodes ++ gone) := by
  simp only [plan, bind_eq_ok, pure_eq_ok, exists_unit_iff, eq_comm (b := p)]

theorem mem_ofChanges {changes : List Change} {c : Change} :
    c ∈ (Plan.ofChanges changes).changes ↔ c ∈ changes := (Plan.perm_ofChanges changes).mem_iff

theorem map_urn_nodeChanges {changes : List Change}
    (h : nodeChanges graph snapshot registry config = .ok changes) :
    changes.map Change.urn = graph.nodes.map Node.urn :=
  Lists.map_eq_of_forall₂ (nodeChanges_eq_ok_iff.mp h) fun _ _ hn => urn_of_nodeChange hn.2

theorem map_urn_removals {base : Nat} {changes : List Change} {records : List Record}
    (h : List.Forall₂ (fun r c => removalChange (records.map Record.urn)
      (base + depths (records.map Record.urn) r.urn) r = .ok c) records changes) :
    changes.map Change.urn = records.map Record.urn :=
  Lists.map_eq_of_forall₂ h fun _ _ hr => urn_of_removalChange hr

theorem nodup_urns (hwf : graph.WellFormed) {p : Plan}
    (h : plan graph snapshot registry config removable = .ok p) :
    (p.changes.map Change.urn).Nodup := by
  obtain ⟨-, nodes, hnodes, gone, hgone, rfl⟩ := plan_eq_ok_iff.mp h
  obtain ⟨records, hrecords, hall⟩ := removals_eq_ok_iff.mp hgone
  have hperm := (Plan.perm_ofChanges (nodes ++ gone)).map Change.urn
  rw [hperm.nodup_iff, List.map_append, map_urn_nodeChanges hnodes, map_urn_removals hall]
  refine List.nodup_append'.mpr ⟨hwf.nodup, nodup_candidates hrecords, ?_⟩
  intro urn hnode hremoved
  obtain ⟨r, hr, rfl⟩ := List.mem_map.mp hremoved
  obtain ⟨-, hcand, -⟩ := (mem_candidates_iff hrecords).mp hr
  exact (isCandidate_iff.mp hcand).2.1 (ResourceGraph.contains_iff.mpr hnode)

theorem exists_nodeChange {p : Plan} (h : plan graph snapshot registry config removable = .ok p)
    {n : Node} (hn : n ∈ graph.nodes) :
    ∃ c ∈ p.changes, nodeChange n (remoteState n.urn graph snapshot) config = .ok c := by
  obtain ⟨-, nodes, hnodes, gone, -, rfl⟩ := plan_eq_ok_iff.mp h
  obtain ⟨c, hc, -, hnc⟩ := Lists.exists_right_of_forall₂ (nodeChanges_eq_ok_iff.mp hnodes) hn
  exact ⟨c, mem_ofChanges.mpr (List.mem_append_left _ hc), hnc⟩

/-- Every change is that of a node or of a reported candidate. -/
theorem change_cases {p : Plan} (h : plan graph snapshot registry config removable = .ok p)
    {c : Change} (hc : c ∈ p.changes) :
    (∃ n ∈ graph.nodes, nodeChange n (remoteState n.urn graph snapshot) config = .ok c) ∨
    ∃ r : Record, snapshot.get? r.urn = some r.properties ∧ isCandidate graph config r.urn ∧
      removable r.urn.type ∧ ∃ removed level, removalChange removed level r = .ok c := by
  obtain ⟨-, nodes, hnodes, gone, hgone, rfl⟩ := plan_eq_ok_iff.mp h
  obtain ⟨records, hrecords, hall⟩ := removals_eq_ok_iff.mp hgone
  rcases List.mem_append.mp (mem_ofChanges.mp hc) with hc | hc
  · obtain ⟨n, hn, -, hnc⟩ := Lists.exists_left_of_forall₂ (nodeChanges_eq_ok_iff.mp hnodes) hc
    exact .inl ⟨n, hn, hnc⟩
  · obtain ⟨r, hr, hrc⟩ := Lists.exists_left_of_forall₂ hall hc
    obtain ⟨hget, hcand, hsupports⟩ := (mem_candidates_iff hrecords).mp hr
    exact .inr ⟨r, hget, hcand, hsupports, _, _, hrc⟩

theorem exists_record {p : Plan} (h : plan graph snapshot registry config removable = .ok p)
    {c : Change} (hc : c ∈ p.changes) (hremove : c.action = .remove) :
    ∃ r : Record, snapshot.get? r.urn = some r.properties ∧ isCandidate graph config r.urn ∧
      removable r.urn.type ∧ ∃ removed level, removalChange removed level r = .ok c := by
  rcases change_cases h hc with ⟨n, -, hn⟩ | hr
  · obtain ⟨step, hstep, rfl⟩ := nodeChange_eq_ok_iff.mp hn
    exact absurd hremove (stepTo_ne_remove hstep)
  · exact hr

theorem exists_removal {p : Plan} (h : plan graph snapshot registry config removable = .ok p)
    {r : Record} (hget : snapshot.get? r.urn = some r.properties)
    (hcand : isCandidate graph config r.urn) (hsupports : removable r.urn.type) :
    ∃ c ∈ p.changes, c.action = .remove ∧
      ∃ removed level, removalChange removed level r = .ok c := by
  obtain ⟨-, nodes, hnodes, gone, hgone, rfl⟩ := plan_eq_ok_iff.mp h
  obtain ⟨records, hrecords, hall⟩ := removals_eq_ok_iff.mp hgone
  have hr : r ∈ records := (mem_candidates_iff hrecords).mpr ⟨hget, hcand, hsupports⟩
  obtain ⟨c, hc, hrc⟩ := Lists.exists_right_of_forall₂ hall hr
  refine ⟨c, mem_ofChanges.mpr (List.mem_append_right _ hc), ?_, _, _, hrc⟩
  obtain ⟨_, -, rfl⟩ := removalChange_eq_ok_iff.mp hrc
  rfl

theorem exists_removal_iff {p : Plan} (h : plan graph snapshot registry config removable = .ok p)
    {urn : Urn} : (∃ c ∈ p.changes, c.action = .remove ∧ c.urn = urn) ↔
      snapshot.contains urn ∧ isCandidate graph config urn ∧ removable urn.type := by
  rw [Snapshot.contains_iff]
  constructor
  · intro hremoved
    obtain ⟨c, hc, hremove, rfl⟩ := hremoved
    obtain ⟨r, hget, hcand, hsupports, _, _, hrc⟩ := exists_record h hc hremove
    rw [urn_of_removalChange hrc]
    exact ⟨⟨_, hget⟩, hcand, hsupports⟩
  · intro hcandidate
    obtain ⟨⟨properties, hget⟩, hcand, hsupports⟩ := hcandidate
    obtain ⟨c, hc, hremove, _, _, hrc⟩ :=
      exists_removal h (r := ⟨urn, properties⟩) hget hcand hsupports
    exact ⟨c, hc, hremove, urn_of_removalChange hrc⟩

end Diff
end Reconcile
