import Reconcile.Proofs.Plan
import Reconcile.Proofs.Run.Turn
/-!
Runs of layered plans.  Main statements: `exists_isRun`, such a run takes the turns of its plan one
after another, and `IsRun.taken_report`, each turn is taken as if the whole report were known.
-/

namespace Reconcile

theorem Status.blocks_iff {s : Status} : s.blocks ↔ s ≠ .applied := by
  cases s with
  | _ => simp [Status.blocks, Status.isApplied]

/-- Whether the change at `urn` ended and did not apply. -/
def Report.stopped (r : Report) (urn : Urn) : Bool :=
  (r.outcome? urn).any fun o => o.status.blocks

namespace Run

variable {σ : Type}

/-! ## Statuses -/

theorem get?_note_of_forall_ne (ended : SortedMap Urn Status) {outcomes : List Outcome} {u : Urn}
    (h : ∀ o ∈ outcomes, o.urn ≠ u) : (note ended outcomes).get? u = ended.get? u := by
  induction outcomes generalizing ended with
  | nil => rfl
  | cons o rest ih =>
    show (note (ended.insert o.urn o.status) rest).get? u = ended.get? u
    rw [ih _ fun o ho => h o (List.mem_cons_of_mem _ ho)]
    exact SortedMap.get?_insert_of_ne _ (h o List.mem_cons_self) _

theorem get?_note_of_mem (ended : SortedMap Urn Status) {outcomes : List Outcome}
    (hnodup : (outcomes.map Outcome.urn).Nodup) {o : Outcome} (ho : o ∈ outcomes) :
    (note ended outcomes).get? o.urn = some o.status := by
  induction outcomes generalizing ended with
  | nil => cases ho
  | cons e rest ih =>
    obtain ⟨hnot, hnodup⟩ := List.nodup_cons.mp hnodup
    show (note (ended.insert e.urn e.status) rest).get? o.urn = some o.status
    rcases List.mem_cons.mp ho with rfl | ho
    · have hne : ∀ d ∈ rest, d.urn ≠ o.urn := by
        intro d hd hurn
        exact hnot (hurn ▸ List.mem_map_of_mem hd)
      rw [get?_note_of_forall_ne _ hne]
      exact SortedMap.get?_insert_self _ _ _
    · exact ih _ hnodup ho

theorem isBlocked_note_iff {outcomes : List Outcome}
    (hnodup : (outcomes.map Outcome.urn).Nodup) {u : Urn} :
    isBlocked (note .empty outcomes) u ↔ ∃ o ∈ outcomes, o.urn = u ∧ o.status ≠ .applied := by
  unfold isBlocked
  by_cases hmem : ∃ o ∈ outcomes, o.urn = u
  · obtain ⟨o, ho, rfl⟩ := hmem
    rw [get?_note_of_mem _ hnodup ho, Option.any_some, Status.blocks_iff]
    constructor
    · intro h
      exact ⟨o, ho, rfl, h⟩
    · intro hother
      obtain ⟨d, hd, hurn, h⟩ := hother
      rw [← List.inj_on_of_nodup_map hnodup hd ho hurn]
      exact h
  · have hne : ∀ o ∈ outcomes, o.urn ≠ u := fun o ho hurn => hmem ⟨o, ho, hurn⟩
    rw [get?_note_of_forall_ne _ hne, SortedMap.get?_empty]
    refine iff_of_false Bool.false_ne_true ?_
    intro hended
    obtain ⟨o, ho, hurn, -⟩ := hended
    exact hne o ho hurn

/-! ## A run of a layered plan -/

/-- The turns of a plan, each taken knowing how the ones before it ended. -/
structure IsRun (transport : Transport σ) (options : Options) (plan : Plan)
    (turns : List (Turn σ)) (report : Report) : Prop where
  layered : plan.IsLayered
  changes : turns.map Turn.change = plan.changes
  outcomes : report.outcomes = turns.map Turn.outcome
  taken : ∀ earlier t later, turns = earlier ++ t :: later →
    Taken transport options (isBlocked (note .empty (earlier.map Turn.outcome))) t

namespace IsRun

variable {transport : Transport σ} {options : Options} {plan : Plan} {report : Report}
  {turns earlier later : List (Turn σ)} {s t : Turn σ}
  (h : IsRun transport options plan turns report)

include h

theorem change_mem (ht : t ∈ turns) : t.change ∈ plan.changes :=
  h.changes ▸ List.mem_map_of_mem ht

theorem outcome_urn (ht : t ∈ turns) : t.outcome.urn = t.change.urn := by
  obtain ⟨earlier, later, hsplit⟩ := List.append_of_mem ht
  exact (h.taken earlier t later hsplit).urn

theorem map_urn : (turns.map Turn.outcome).map Outcome.urn = plan.changes.map Change.urn := by
  rw [← h.changes, List.map_map, List.map_map]
  exact List.map_congr_left fun t ht => h.outcome_urn ht

theorem nodup : ((turns.map Turn.outcome).map Outcome.urn).Nodup := by
  rw [h.map_urn]
  exact h.layered.nodup

theorem outcome?_of_mem (ht : t ∈ turns) : report.outcome? t.change.urn = some t.outcome := by
  rw [Report.outcome?, h.outcomes]
  have hmem : t.outcome ∈ turns.map Turn.outcome := List.mem_map_of_mem ht
  cases hfind : (turns.map Turn.outcome).find? fun o => o.urn == t.change.urn with
  | none =>
    have hne := List.find?_eq_none.mp hfind t.outcome hmem
    rw [h.outcome_urn ht] at hne
    simp at hne
  | some o =>
    have hurn : o.urn = t.change.urn := by simpa using List.find?_some hfind
    rw [List.inj_on_of_nodup_map h.nodup (List.mem_of_find?_eq_some hfind) hmem
      (hurn.trans (h.outcome_urn ht).symm)]

theorem exists_turn_of_mem {u : Urn} (hu : u ∈ plan.changes.map Change.urn) :
    ∃ s ∈ turns, s.change.urn = u := by
  rw [← h.changes, List.map_map] at hu
  exact List.mem_map.mp hu

theorem stopped_iff {u : Urn} :
    report.stopped u ↔ ∃ s ∈ turns, s.change.urn = u ∧ s.outcome.status ≠ .applied := by
  constructor
  · intro hstopped
    unfold Report.stopped at hstopped
    cases ho : report.outcome? u with
    | none =>
      rw [ho] at hstopped
      cases hstopped
    | some o =>
      rw [ho, Option.any_some, Status.blocks_iff] at hstopped
      rw [Report.outcome?, h.outcomes] at ho
      obtain ⟨s, hs, rfl⟩ := List.mem_map.mp (List.mem_of_find?_eq_some ho)
      have hurn : s.outcome.urn = u := by simpa using List.find?_some ho
      exact ⟨s, hs, (h.outcome_urn hs).symm.trans hurn, hstopped⟩
  · intro hturn
    obtain ⟨s, hs, rfl, hstatus⟩ := hturn
    rw [Report.stopped, h.outcome?_of_mem hs]
    exact Status.blocks_iff.mpr hstatus

/-- The changes that a change depends on had their turns before it. -/
theorem mem_earlier (hsplit : turns = earlier ++ t :: later) (hs : s ∈ turns)
    (hdep : s.change.urn ∈ t.change.dependsOn) : s ∈ earlier := by
  have ht : t ∈ turns := hsplit ▸ List.mem_append_right _ List.mem_cons_self
  have hlower := h.layered.lower _ (h.change_mem ht) _ (h.change_mem hs) hdep
  have hpairwise : turns.Pairwise fun a b => a.change.level ≤ b.change.level := by
    have hlevels := plan.pairwise_level
    rw [← h.changes, List.pairwise_map] at hlevels
    exact hlevels
  rw [hsplit] at hs hpairwise
  rcases List.mem_append.mp hs with hs | hs
  · exact hs
  · -- What comes later is on no lower level.
    exfalso
    rcases List.mem_cons.mp hs with rfl | hs
    · exact Nat.lt_irrefl _ hlower
    · have hle := (List.pairwise_cons.mp (List.pairwise_append.mp hpairwise).2.1).1 s hs
      omega

theorem taken_report (hsplit : turns = earlier ++ t :: later) :
    Taken transport options report.stopped t := by
  refine (h.taken earlier t later hsplit).congr fun d hd => Bool.eq_iff_iff.mpr ?_
  have hearlier : earlier.Sublist turns := hsplit ▸ List.sublist_append_left _ _
  rw [isBlocked_note_iff (h.nodup.sublist ((hearlier.map _).map _)), h.stopped_iff]
  constructor
  · intro hended
    obtain ⟨o, ho, rfl, hstatus⟩ := hended
    obtain ⟨s, hs, rfl⟩ := List.mem_map.mp ho
    exact ⟨s, hearlier.subset hs, (h.outcome_urn (hearlier.subset hs)).symm, hstatus⟩
  · intro hturn
    obtain ⟨s, hs, rfl, hstatus⟩ := hturn
    have hs' := h.mem_earlier hsplit hs hd
    exact ⟨s.outcome, List.mem_map_of_mem hs', h.outcome_urn hs, hstatus⟩

end IsRun

theorem exists_isRun {plan : Plan} (transport : Transport σ) {options : Options}
    {confirm : String → Answer} (remote : σ) (hlayered : plan.IsLayered)
    (hconfirmed : isConfirmed plan options confirm) :
    ∃ turns final, Chained { remote } turns final ∧
      (execute plan transport options confirm remote).report.statements = final.log ∧
      (execute plan transport options confirm remote).remote = final.remote ∧
      IsRun transport options plan turns
        (execute plan transport options confirm remote).report := by
  have horder : runLevels transport options .empty (plan.levels.map (·.2)) { remote } =
      runInOrder transport options .empty plan.changes { remote } := by
    rw [runLevels_eq_runInOrder _ fun _ hl _ hc _ hd => hlayered.not_mem_level hl hc hd,
      plan.flatten_levels]
  obtain ⟨turns, hchanges, houtcomes, hchained, htaken⟩ :=
    exists_turns .empty plan.changes { remote }
  refine ⟨turns, _, hchained, ?_, ?_, hlayered, hchanges, ?_, htaken⟩
  all_goals
    rw [execute, if_pos hconfirmed, horder]
  exact houtcomes

end Run
end Reconcile
