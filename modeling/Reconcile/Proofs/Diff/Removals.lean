import Reconcile.Proofs.Diff.Containers
import Reconcile.Proofs.Diff.Layered
import Reconcile.Proofs.Graph.Levels
/-!
The order of removals.  Main statement: `removals_ordered`, every removal gets its level from the
queue, and stands right above the removals that have to go first.
-/

namespace Reconcile
namespace Diff

open Dependency ResourceGraph

variable {graph : ResourceGraph} {snapshot : Snapshot} {registry : Registry} {config : Config}
  {removable : ResourceType → Bool} {removed : List Urn} {base : Nat} {changes : List Change}

/-- `v` is removed too and names `u`, so it has to go before `u`. -/
def GoesAfter (removed : List Urn) (u v : Urn) : Prop := v ∈ removed ∧ u ∈ v.implied ∧ v ≠ u

theorem needs_dependents (removed : List Urn) : Needs (dependents removed) = GoesAfter removed := by
  funext u v
  exact propext mem_dependents_iff

/-- `d` removes the record `r`, on a level that the queue found for it. -/
structure IsRemovalOf (removed : List Urn) (base : Nat) (r : Record) (d : Change) : Prop where
  made : removalChange removed (base + depths removed r.urn) r = .ok d
  urn : d.urn = r.urn
  action : d.action = .remove
  dependsOn : d.dependsOn = dependents removed d.urn
  level : ∃ n, (layers (dependents removed) removed).lookup d.urn = some n ∧ d.level = base + n ∧
    IsHeight (GoesAfter removed) d.urn n

theorem isRemovalOf_of_removalChange (hnodup : removed.Nodup) {r : Record} {d : Change}
    (hr : r.urn ∈ removed)
    (h : removalChange removed (base + depths removed r.urn) r = .ok d) :
    IsRemovalOf removed base r d := by
  obtain ⟨_, -, rfl⟩ := removalChange_eq_ok_iff.mp h
  refine ⟨h, rfl, rfl, rfl, ?_⟩
  obtain ⟨n, hn⟩ :=
    exists_layer hnodup (closed_dependents removed) (acyclic_dependents removed) hr
  have hlookup := (lookup_layers_iff hnodup).mpr hn
  have hdepth : depths removed r.urn = n := by simp only [depths, hlookup, Option.getD_some]
  refine ⟨n, hlookup, congrArg (base + ·) hdepth, ?_⟩
  rw [← needs_dependents]
  exact isHeight_of_mem_layers hnodup hn

theorem IsRemovalOf.unique {r : Record} {c d : Change} (hc : IsRemovalOf removed base r c)
    (hd : IsRemovalOf removed base r d) : c = d := Except.ok.inj (hc.made.symm.trans hd.made)

theorem forall₂_isRemovalOf {records : List Record} (hnodup : (records.map Record.urn).Nodup)
    (h : List.Forall₂ (fun r c => removalChange (records.map Record.urn)
      (base + depths (records.map Record.urn) r.urn) r = .ok c) records changes) :
    List.Forall₂ (fun r c => r ∈ records ∧ IsRemovalOf (records.map Record.urn) base r c)
      records changes := by
  refine List.forall₂_iff_get.mpr ⟨h.length_eq, fun i hi hj => ?_⟩
  have hmem : records.get ⟨i, hi⟩ ∈ records := List.get_mem records ⟨i, hi⟩
  exact ⟨hmem, isRemovalOf_of_removalChange hnodup (List.mem_map_of_mem hmem) (h.get hi hj)⟩

/-- The changes of declared resources stay below the first level after them. -/
theorem level_lt_height_of_nodeChanges
    (h : nodeChanges graph snapshot registry config = .ok changes) {c : Change} (hc : c ∈ changes) :
    c.action ≠ .remove ∧ c.level < graph.height := by
  obtain ⟨n, hn, -, hnc⟩ := Lists.exists_left_of_forall₂ (nodeChanges_eq_ok_iff.mp h) hc
  obtain ⟨step, hstep, rfl⟩ := nodeChange_eq_ok_iff.mp hnc
  exact ⟨stepTo_ne_remove hstep, level_lt_height hn⟩

/-- The removals of a comparison, whatever the lifecycles allow to be removed: the records that are
candidates, each with a level from the queue, which never counts below zero.  A removal that names
another one stands below it and is listed in it, nothing else is listed, and the level of a removal
is the length of the longest chain of removals that have to go first, above the given level. -/
theorem removals_ordered
    (h : removals graph snapshot registry config base removable = .ok changes) :
    ∃ removed,
      (candidates graph snapshot registry config removable).map (·.map Record.urn) = .ok removed ∧
      changes.map Change.urn = removed ∧ removed.Nodup ∧
      (∀ s x n, Steps (.start (dependents removed) removed) s → s.queue.head? = some (x, n) →
        ∀ u ∈ removed, (dependents removed u).count x ≤ s.missing u) ∧
      (∀ d ∈ changes, d.action = .remove ∧
        ∃ n, (layers (dependents removed) removed).lookup d.urn = some n ∧ d.level = base + n ∧
          IsHeight (GoesAfter removed) d.urn n) ∧
      (∀ r ∈ changes, ∀ d ∈ changes, r ≠ d → d.urn ∈ r.urn.implied →
        r.level < d.level ∧ r.urn ∈ d.dependsOn) ∧
      (∀ d ∈ changes, ∀ u ∈ d.dependsOn,
        ∃ r ∈ changes, r.urn = u ∧ r ≠ d ∧ d.urn ∈ r.urn.implied) ∧
      (graph.height ≤ base → ∀ n ∈ graph.nodes, ∀ d ∈ changes, n.level < d.level) := by
  obtain ⟨records, hrecords, hall⟩ := removals_eq_ok_iff.mp h
  have hurns := map_urn_removals hall
  have hnodup := nodup_candidates hrecords
  have hremoval : ∀ d ∈ changes, d.urn ∈ records.map Record.urn ∧
      ∃ r ∈ records, IsRemovalOf (records.map Record.urn) base r d := by
    intro d hd
    obtain ⟨r, hr, -, hof⟩ :=
      Lists.exists_left_of_forall₂ (forall₂_isRemovalOf hnodup hall) hd
    exact ⟨hof.urn ▸ List.mem_map_of_mem hr, r, hr, hof⟩
  refine ⟨records.map Record.urn, by rw [hrecords]; rfl, hurns, hnodup, ?_, ?_, ?_, ?_, ?_⟩
  · exact fun s x n hs hhead u hu => count_le_missing hnodup hs hhead hu
  · intro d hd
    obtain ⟨-, r, -, hof⟩ := hremoval d hd
    exact ⟨hof.action, hof.level⟩
  · intro r hr d hd hne hnames
    obtain ⟨hrmem, _, -, hrof⟩ := hremoval r hr
    obtain ⟨-, _, -, hdof⟩ := hremoval d hd
    have hurn : r.urn ≠ d.urn := fun heq =>
      hne (List.inj_on_of_nodup_map (hurns ▸ hnodup) hr hd heq)
    have hfirst : GoesAfter (records.map Record.urn) d.urn r.urn := ⟨hrmem, hnames, hurn⟩
    obtain ⟨m, -, hrlevel, hm⟩ := hrof.level
    obtain ⟨n, -, hdlevel, hn⟩ := hdof.level
    have hlt := hm.lt_of_rel hn hfirst
    refine ⟨by omega, ?_⟩
    rw [hdof.dependsOn]
    exact mem_dependents_iff.mpr hfirst
  · intro d hd u hu
    obtain ⟨-, _, -, hof⟩ := hremoval d hd
    rw [hof.dependsOn, mem_dependents_iff, ← hurns] at hu
    obtain ⟨hmem, hnames, hne⟩ := hu
    obtain ⟨r, hr, rfl⟩ := List.mem_map.mp hmem
    exact ⟨r, hr, rfl, fun heq => hne (congrArg Change.urn heq), hnames⟩
  · intro hbase n hn d hd
    obtain ⟨-, _, -, hof⟩ := hremoval d hd
    obtain ⟨k, -, hlevel, -⟩ := hof.level
    have hheight := level_lt_height hn
    omega

/-! ## Removals within a plan -/

/-- The records that a plan removes, and what else is in it. -/
structure SplitsOff (graph : ResourceGraph) (config : Config) (p : Plan) (records : List Record) :
    Prop where
  nodup : (records.map Record.urn).Nodup
  candidate : ∀ r ∈ records, isCandidate graph config r.urn
  removed : ∀ r ∈ records, ∃ d ∈ p.changes,
    IsRemovalOf (records.map Record.urn) graph.height r d
  cases : ∀ c ∈ p.changes, (c.action ≠ .remove ∧ c.level < graph.height) ∨
    ∃ r ∈ records, IsRemovalOf (records.map Record.urn) graph.height r c

theorem exists_splitsOff {p : Plan} (h : plan graph snapshot registry config removable = .ok p) :
    ∃ records, candidates graph snapshot registry config removable = .ok records ∧
      SplitsOff graph config p records := by
  obtain ⟨-, nodes, hnodes, gone, hgone, rfl⟩ := plan_eq_ok_iff.mp h
  obtain ⟨records, hrecords, hall⟩ := removals_eq_ok_iff.mp hgone
  have hnodup := nodup_candidates hrecords
  have hremovals := forall₂_isRemovalOf hnodup hall
  refine ⟨records, hrecords, hnodup, fun r hr => ?_, fun r hr => ?_, fun c hc => ?_⟩
  · exact ((mem_candidates_iff hrecords).mp hr).2.1
  · obtain ⟨d, hd, -, hof⟩ := Lists.exists_right_of_forall₂ hremovals hr
    exact ⟨d, mem_ofChanges.mpr (List.mem_append_right _ hd), hof⟩
  · rcases List.mem_append.mp (mem_ofChanges.mp hc) with hc | hc
    · exact .inl (level_lt_height_of_nodeChanges hnodes hc)
    · obtain ⟨r, hr, -, hof⟩ := Lists.exists_left_of_forall₂ hremovals hc
      exact .inr ⟨r, hr, hof⟩

/-! ## A database with all that it holds -/

def syncContainers : Config :=
  { account := "A", syncResources := some [.database, .schema, .table] }

theorem candidates_containers : candidates ⟨[]⟩ reported .builtin syncContainers =
    .ok [⟨databaseUrn, .empty⟩, ⟨schemaUrn, .empty⟩, ⟨tableUrn, tableProperties⟩] := by
  refine candidates_eq_ok_iff.mpr ⟨fun r _ _ => Registry.builtin_require r.urn.type, ?_⟩
  refine (List.filter_eq_self.mpr fun r hr => ?_).symm
  have hr : r ∈ [Record.mk databaseUrn .empty, ⟨schemaUrn, .empty⟩, ⟨tableUrn, tableProperties⟩] :=
    hr
  simp only [List.mem_cons, List.not_mem_nil, or_false] at hr
  rcases hr with rfl | rfl | rfl
  all_goals
    rw [isCandidate, isSystemManaged]
    rfl

def containerRemovals : List Change :=
  let removed := [databaseUrn, schemaUrn, tableUrn]
  [removalOf removed 2 ⟨databaseUrn, .empty⟩ [⟨"SYSADMIN", "DROP DATABASE DB"⟩],
    removalOf removed 1 ⟨schemaUrn, .empty⟩ [⟨"SYSADMIN", "DROP SCHEMA DB.S"⟩],
    removalOf removed 0 ⟨tableUrn, tableProperties⟩ [⟨"SYSADMIN", "DROP TABLE DB.S.T"⟩]]

theorem removals_containers :
    removals ⟨[]⟩ reported .builtin syncContainers 0 = .ok containerRemovals :=
  removals_eq_ok_iff.mpr
    ⟨_, candidates_containers, .cons rfl (.cons rfl (.cons rfl .nil))⟩

theorem isHeight_databaseUrn :
    removals ⟨[]⟩ reported .builtin syncContainers 0 = .ok containerRemovals ∧
    IsHeight (GoesAfter [databaseUrn, schemaUrn, tableUrn]) databaseUrn 2 := by
  obtain ⟨removed, -, hurns, -, -, hlevels, -⟩ := removals_ordered removals_containers
  obtain rfl : [databaseUrn, schemaUrn, tableUrn] = removed := hurns
  obtain ⟨-, n, -, hlevel, hheight⟩ := hlevels _ List.mem_cons_self
  have hlevel : 2 = 0 + n := hlevel
  obtain rfl : n = 2 := by omega
  exact ⟨removals_containers, hheight⟩

end Diff
end Reconcile
