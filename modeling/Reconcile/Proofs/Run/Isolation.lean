import Reconcile.Proofs.Diff.Layered
import Reconcile.Proofs.Run.Layered
/-!
What a failure does to the rest of a run.  Main statement: `execute_isolates_failures`, a change is
skipped exactly if one that it depends on did not apply.
-/

namespace Reconcile
namespace Run

open Relation

variable {σ : Type}

/-- From the change at `u` a path of dependencies leads through skipped changes to a failed one. -/
inductive Impeded (plan : Plan) (report : Report) : Urn → Prop
  | failed {u v : Urn} {o : Outcome} {error : String} (hdep : plan.DependsOn u v)
      (ho : report.outcome? v = some o) (hfailed : o.status = .failed error) :
      Impeded plan report u
  | skipped {u v : Urn} {o : Outcome} {reason : String} (hdep : plan.DependsOn u v)
      (ho : report.outcome? v = some o) (hskipped : o.status = .skipped reason)
      (hv : Impeded plan report v) : Impeded plan report u

/-- The end of a turn is exactly what the ends of the changes that it depends on, and the answers to
what it sent, make it. -/
structure Isolated (transport : Transport σ) (options : Options) (plan : Plan) (report : Report)
    (earlier : List (Turn σ)) (t : Turn σ) : Prop where
  urn : t.outcome.urn = t.change.urn
  talk : Talk transport options t.change.urn t.before t.said t.after
  rejected {text : String} : t.change.rejection = some text → t.outcome.status = .failed text
  skipped_iff : t.change.rejection = none →
    ((∃ reason, t.outcome.status = .skipped reason) ↔
      ∃ d ∈ t.change.dependsOn, report.stopped d)
  impeded_iff : t.change.rejection = none →
    ((∃ reason, t.outcome.status = .skipped reason) ↔ Impeded plan report t.change.urn)
  reason {reason : String} : t.outcome.status = .skipped reason →
    ∃ d, t.change.dependsOn.find? report.stopped = some d ∧
      reason = s!"dependency {d} did not apply"
  applied_iff : t.change.rejection = none → (∀ d ∈ t.change.dependsOn, ¬ report.stopped d) →
    (t.outcome.status = .applied ↔ t.change.action = .noop ∨
      t.said = allAccepted (needed options t.change.session t.before.session
        t.change.statements))
  /-- What does not apply failed at the first command that was refused. -/
  failed : t.change.rejection = none → (∀ d ∈ t.change.dependsOn, ¬ report.stopped d) →
    t.outcome.status ≠ .applied →
    ∃ sent c e unsent, t.said = allAccepted sent ++ [(c, .error e)] ∧
      needed options t.change.session t.before.session t.change.statements =
        sent ++ c :: unsent ∧
      t.outcome.status = .failed (Error.execution t.change.urn (.refused c.sql e)).message
  silent : (t.change.rejection ≠ none ∨ (∃ reason, t.outcome.status = .skipped reason) ∨
    t.change.action = .noop) → t.said = [] ∧ t.after = t.before
  /-- Nothing is sent before all that the change depends on has applied. -/
  ordered : t.said ≠ [] → ∀ v, TransGen plan.DependsOn t.change.urn v →
    ∃ s ∈ earlier, s.change.urn = v ∧ s.outcome.status = .applied

namespace IsRun

variable {transport : Transport σ} {options : Options} {plan : Plan} {report : Report}
  {turns earlier later : List (Turn σ)} {s t : Turn σ}
  (h : IsRun transport options plan turns report)

include h

/-! ## Failures -/

theorem dependsOn_iff (ht : t ∈ turns) {v : Urn} :
    plan.DependsOn t.change.urn v ↔
      v ∈ t.change.dependsOn ∧ v ∈ plan.changes.map Change.urn := by
  constructor
  · intro hdep
    obtain ⟨c, hc, hurn, hv, hmem⟩ := hdep
    obtain rfl := h.layered.eq_of_urn_eq hc (h.change_mem ht) hurn
    exact ⟨hv, hmem⟩
  · intro hboth
    obtain ⟨hv, hmem⟩ := hboth
    exact ⟨t.change, h.change_mem ht, rfl, hv, hmem⟩

theorem dependsOn_turn (ht : t ∈ turns) (hs : s ∈ turns)
    (hdep : s.change.urn ∈ t.change.dependsOn) : plan.DependsOn t.change.urn s.change.urn :=
  (h.dependsOn_iff ht).mpr ⟨hdep, List.mem_map_of_mem (h.change_mem hs)⟩

theorem impeded_of_stopped (hsplit : turns = earlier ++ t :: later) {d : Urn}
    (hd : d ∈ t.change.dependsOn) (hstopped : report.stopped d) :
    Impeded plan report t.change.urn := by
  induction hn : earlier.length using Nat.strongRecOn generalizing earlier t later d with
  | ind n ih =>
    have ht : t ∈ turns := hsplit ▸ List.mem_append_right _ List.mem_cons_self
    obtain ⟨s, hs, rfl, hstatus⟩ := h.stopped_iff.mp hstopped
    have hdep := h.dependsOn_turn ht hs hd
    have ho := h.outcome?_of_mem hs
    obtain ⟨first, between, rfl⟩ := List.append_of_mem (h.mem_earlier hsplit hs hd)
    have hsplit' : turns = first ++ s :: (between ++ t :: later) := by
      rw [hsplit, List.append_assoc, List.cons_append]
    have hlt : first.length < n := by
      rw [← hn, List.length_append, List.length_cons]
      omega
    cases hend : s.outcome.status with
    | applied => exact absurd hend hstatus
    | failed error => exact .failed hdep ho hend
    | skipped reason =>
      obtain ⟨e, he⟩ := (h.taken_report hsplit').exists_of_skipped hend
      refine .skipped hdep ho hend ?_
      exact ih _ hlt hsplit' (List.mem_of_find?_eq_some he.2.1) (List.find?_some he.2.1) rfl

theorem stopped_of_impeded (ht : t ∈ turns) (himpeded : Impeded plan report t.change.urn) :
    ∃ d ∈ t.change.dependsOn, report.stopped d := by
  cases himpeded with
  | @failed _ v o error hdep ho hfailed =>
    refine ⟨v, ((h.dependsOn_iff ht).mp hdep).1, ?_⟩
    rw [Report.stopped, ho, Option.any_some, Status.blocks_iff, hfailed]
    exact Status.noConfusion
  | @skipped _ v o reason hdep ho hskipped _ =>
    refine ⟨v, ((h.dependsOn_iff ht).mp hdep).1, ?_⟩
    rw [Report.stopped, ho, Option.any_some, Status.blocks_iff, hskipped]
    exact Status.noConfusion

theorem applied_of_dependsOn (hsplit : turns = earlier ++ t :: later)
    (hnone : t.change.dependsOn.find? report.stopped = none) {v : Urn}
    (hdep : plan.DependsOn t.change.urn v) :
    ∃ s ∈ earlier, s.change.urn = v ∧ s.outcome.status = .applied := by
  have ht : t ∈ turns := hsplit ▸ List.mem_append_right _ List.mem_cons_self
  obtain ⟨hv, hmem⟩ := (h.dependsOn_iff ht).mp hdep
  obtain ⟨s, hs, rfl⟩ := h.exists_turn_of_mem hmem
  refine ⟨s, h.mem_earlier hsplit hs hv, rfl, ?_⟩
  by_contra hstatus
  exact List.find?_eq_none.mp hnone _ hv (h.stopped_iff.mpr ⟨s, hs, rfl, hstatus⟩)

theorem applied_of_transGen (hsplit : turns = earlier ++ t :: later)
    (hnone : t.change.dependsOn.find? report.stopped = none) {v : Urn}
    (hdep : TransGen plan.DependsOn t.change.urn v) :
    ∃ s ∈ earlier, s.change.urn = v ∧ s.outcome.status = .applied := by
  induction hdep with
  | single hdep => exact h.applied_of_dependsOn hsplit hnone hdep
  | tail _ hdep ih =>
    obtain ⟨s, hs, rfl, happlied⟩ := ih
    obtain ⟨first, between, rfl⟩ := List.append_of_mem hs
    have hsplit' : turns = first ++ s :: (between ++ t :: later) := by
      rw [hsplit, List.append_assoc, List.cons_append]
    have hnone' := (h.taken_report hsplit').find?_of_applied happlied
    obtain ⟨r, hr, hurn, hend⟩ := h.applied_of_dependsOn hsplit' hnone' hdep
    exact ⟨r, List.mem_append_left _ hr, hurn, hend⟩

theorem isolated (hsplit : turns = earlier ++ t :: later) :
    Isolated transport options plan report earlier t := by
  have ht : t ∈ turns := hsplit ▸ List.mem_append_right _ List.mem_cons_self
  have htaken := h.taken_report hsplit
  have hfind (hgo : ∀ d ∈ t.change.dependsOn, ¬ report.stopped d) :
      t.change.dependsOn.find? report.stopped = none :=
    List.find?_eq_none.mpr hgo
  have hskipped (hrejection : t.change.rejection = none) :
      (∃ reason, t.outcome.status = .skipped reason) ↔
        ∃ d ∈ t.change.dependsOn, report.stopped d := by
    constructor
    · intro hskip
      obtain ⟨reason, hstatus⟩ := hskip
      obtain ⟨d, -, hd, -⟩ := htaken.exists_of_skipped hstatus
      exact ⟨d, List.mem_of_find?_eq_some hd, List.find?_some hd⟩
    · intro hstop
      obtain ⟨d, hd, hstopped⟩ := hstop
      obtain ⟨e, he⟩ := Option.isSome_iff_exists.mp (List.find?_isSome.mpr ⟨d, hd, hstopped⟩)
      exact ⟨_, htaken.skipped_of_find? hrejection he⟩
  constructor
  case urn => exact htaken.urn
  case talk => exact htaken.talk
  case rejected => exact htaken.failed_of_rejection
  case skipped_iff => exact hskipped
  case impeded_iff =>
    intro hrejection
    rw [hskipped hrejection]
    constructor
    · intro hstop
      obtain ⟨d, hd, hstopped⟩ := hstop
      exact h.impeded_of_stopped hsplit hd hstopped
    · exact h.stopped_of_impeded ht
  case reason =>
    intro reason hstatus
    obtain ⟨d, -, hd, hreason⟩ := htaken.exists_of_skipped hstatus
    exact ⟨d, hd, hreason⟩
  case applied_iff => exact fun hrejection hgo => htaken.applied_iff hrejection (hfind hgo)
  case failed => exact fun hrejection hgo => htaken.exists_refused hrejection (hfind hgo)
  case silent => exact htaken.silent
  case ordered =>
    intro hsaid v hdep
    exact h.applied_of_transGen hsplit (htaken.find?_of_said hsaid) hdep

end IsRun

/-- In a run that goes on, over one session, a rejected change fails, another is skipped exactly if
one that it depends on did not apply, and the rest apply exactly if all that they need is accepted;
a statement is sent only after all that its change depends on has applied.  Every comparison gives
a plan of the shape that this takes, whatever the lifecycles allow to be removed and also under
another configuration than that of the graph. -/
theorem execute_isolates_failures :
    (∀ (declarations : List Declaration) (graph : ResourceGraph) (snapshot : Snapshot)
      (registry : Registry) (config config' : Config) (removable : ResourceType → Bool)
      (plan : Plan), ResourceGraph.build declarations config = .ok graph →
      Diff.plan graph snapshot registry config' removable = .ok plan → plan.IsLayered) ∧
    ∀ {σ : Type} (plan : Plan) (transport : Transport σ) (options : Options)
      (confirm : String → Answer) (remote : σ),
      plan.IsLayered → isConfirmed plan options confirm →
      ∃ (turns : List (Turn σ)) (final : Progress σ),
        turns.map Turn.change = plan.changes ∧
        Chained { remote } turns final ∧
        (execute plan transport options confirm remote).report.outcomes =
          turns.map Turn.outcome ∧
        (execute plan transport options confirm remote).report.statements = final.log ∧
        (execute plan transport options confirm remote).remote = final.remote ∧
        ∀ earlier t later, turns = earlier ++ t :: later →
          Isolated transport options plan
            (execute plan transport options confirm remote).report earlier t := by
  constructor
  · intro declarations graph snapshot registry config config' removable plan hbuild hplan
    exact Diff.isLayered_of_plan (ResourceGraph.wellFormed_of_build hbuild) hplan
  · intro σ plan transport options confirm remote hlayered hconfirmed
    obtain ⟨turns, final, hchained, hlog, hremote, hrun⟩ :=
      exists_isRun transport remote hlayered hconfirmed
    exact ⟨turns, final, hrun.changes, hchained, hrun.outcomes, hlog, hremote,
      fun _ _ _ hsplit => hrun.isolated hsplit⟩

/-! ## A database that cannot be created -/

def declaredDatabase : Declaration where
  type := .database
  name := "D"
  container := []
  properties := .empty
  references := .empty

def declaredSchema : Declaration where
  type := .schema
  name := "S"
  container := ["D"]
  properties := .empty
  references := .empty

def databaseNode : Node where
  urn := .ofNames "A" .database [] "D"
  properties := .empty
  dependencies := .empty
  external := .empty
  level := 0

def schemaNode : Node where
  urn := .ofNames "A" .schema ["D"] "S"
  properties := .empty
  dependencies := .ofList [databaseNode.urn]
  external := .empty
  level := 1

def databaseCreation : Change :=
  Diff.changeOf databaseNode none (.ofAccount "A")
    { action := .add, statements := [⟨"SYSADMIN", "CREATE DATABASE D"⟩] }

def schemaCreation : Change :=
  Diff.changeOf schemaNode none (.ofAccount "A")
    { action := .add, statements := [⟨"SYSADMIN", "CREATE SCHEMA D.S"⟩] }

def creations : Plan := .ofChanges [databaseCreation, schemaCreation]

def refusing : Transport (List String) where
  connect sent := (.ok (), sent)
  send sql sent :=
    if sql = "CREATE DATABASE D" then (.error ⟨none, "no"⟩, sent) else (.ok (), sent ++ [sql])

theorem build_databaseAndSchema :
    ResourceGraph.build [declaredDatabase, declaredSchema] (.ofAccount "A") =
      .ok ⟨[databaseNode, schemaNode]⟩ := by rfl

theorem plan_databaseAndSchema :
    Diff.plan ⟨[databaseNode, schemaNode]⟩ .empty .builtin (.ofAccount "A") =
      .ok creations := by rfl

theorem changes_creations : creations.changes = [databaseCreation, schemaCreation] := by
  have hprecedes : databaseCreation.precedes schemaCreation := by rfl
  exact List.mergeSort_of_pairwise (List.pairwise_pair.mpr hprecedes)

theorem send_refusing (p : Progress (List String)) :
    (send refusing {} "CREATE DATABASE D" p).1 ≠ .ok () := by
  unfold send
  cases hconnected : p.connected with
  | _ => simp [refusing]

theorem not_applied_of_refused {report : Report} {earlier : List (Turn (List String))}
    {t : Turn (List String)} (h : Isolated refusing {} creations report earlier t)
    (hchange : t.change = databaseCreation) (hsession : t.before.session = {}) :
    t.outcome.status ≠ .applied := by
  intro happlied
  have hrejection : t.change.rejection = none := by
    rw [hchange]
    rfl
  have hgo : ∀ d ∈ t.change.dependsOn, ¬ report.stopped d := by
    rw [hchange]
    intro d hd
    cases hd
  rcases (h.applied_iff hrejection hgo).mp happlied with hnoop | hsaid
  · rw [hchange] at hnoop
    cases hnoop
  · have hmem : (Command.statement "CREATE DATABASE D", .ok ()) ∈ t.said := by
      rw [hsaid, hchange, hsession]
      exact List.mem_map_of_mem (by decide)
    obtain ⟨p, hp⟩ := h.talk.exists_send hmem
    exact send_refusing p hp

theorem skips_schema_of_refused_database :
    ResourceGraph.build [declaredDatabase, declaredSchema] (.ofAccount "A") =
      .ok ⟨[databaseNode, schemaNode]⟩ ∧
    Diff.plan ⟨[databaseNode, schemaNode]⟩ .empty .builtin (.ofAccount "A") = .ok creations ∧
    isConfirmed creations {} (fun _ => .accepted) ∧
    ∃ first second : Turn (List String),
      first.change = databaseCreation ∧ second.change = schemaCreation ∧
      (execute creations refusing {} (fun _ => .accepted) []).report.outcomes =
        [first.outcome, second.outcome] ∧
      first.outcome.status ≠ .applied ∧
      second.outcome.status =
        .skipped s!"dependency {databaseNode.urn} did not apply" ∧
      second.said = [] := by
  have hlayered : creations.IsLayered :=
    execute_isolates_failures.1 _ _ _ _ _ _ _ _ build_databaseAndSchema plan_databaseAndSchema
  have hconfirmed : isConfirmed creations {} (fun _ => .accepted) := by
    unfold isConfirmed
    cases question? creations {} with
    | _ => rfl
  obtain ⟨turns, final, hchanges, hchained, houtcomes, -, -, hall⟩ :=
    execute_isolates_failures.2 creations refusing {} (fun _ => .accepted) [] hlayered hconfirmed
  rw [changes_creations] at hchanges
  obtain ⟨first, rest, rfl, hfirst, hrest⟩ := List.map_eq_cons_iff.mp hchanges
  obtain ⟨second, rest, rfl, hsecond, hrest⟩ := List.map_eq_cons_iff.mp hrest
  obtain rfl := List.map_eq_nil_iff.mp hrest
  have hdatabase := hall [] first [second] rfl
  have hschema := hall [first] second [] rfl
  have hsession : first.before.session = {} := by
    rw [hchained.1]
  have hstatus := not_applied_of_refused hdatabase hfirst hsession
  have hstopped :
      (execute creations refusing {} (fun _ => .accepted) []).report.stopped databaseNode.urn := by
    have hurn : first.outcome.urn = databaseNode.urn := by
      rw [hdatabase.urn, hfirst]
      rfl
    unfold Report.stopped Report.outcome?
    rw [houtcomes, List.map_cons, List.find?_cons, hurn, beq_self_eq_true]
    exact Status.blocks_iff.mpr hstatus
  have hneeds : second.change.dependsOn = [databaseNode.urn] := by
    rw [hsecond]
    rfl
  have hrejection : second.change.rejection = none := by
    rw [hsecond]
    rfl
  have hskipped : ∃ reason, second.outcome.status = .skipped reason := by
    refine (hschema.skipped_iff hrejection).mpr ⟨databaseNode.urn, ?_, hstopped⟩
    rw [hneeds]
    exact List.mem_cons_self
  obtain ⟨reason, hreason⟩ := hskipped
  obtain ⟨d, hd, rfl⟩ := hschema.reason hreason
  rw [hneeds] at hd
  obtain rfl := List.mem_singleton.mp (List.mem_of_find?_eq_some hd)
  exact ⟨build_databaseAndSchema, plan_databaseAndSchema, hconfirmed, first, second, hfirst,
    hsecond, houtcomes, hstatus, hreason, (hschema.silent (.inr (.inl ⟨_, hreason⟩))).1⟩
end Run
end Reconcile
