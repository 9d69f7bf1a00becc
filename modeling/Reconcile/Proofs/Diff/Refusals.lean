import Reconcile.Proofs.Diff.Confinement
import Reconcile.Proofs.Diff.References
import Reconcile.Proofs.Diff.Steps
/-!
What planning fails with, and what it refuses without failing.  Main statement:
`plan_fails_fatally`.
-/

namespace Reconcile

open Fallible ResourceGraph

namespace Diff

variable {node : Node} {remote : Option Properties} {config : Config} {graph : ResourceGraph}
  {snapshot : Snapshot} {registry : Registry}

/-- The first field of a node whose desired value could be reached only by a replacement that is
refused. -/
def refusedField? (node : Node) (remote : Option Properties) : Option String :=
  (currentState node.urn.type remote).bind fun current =>
    (changedFields node.urn.type (node.urn.type.canonical node.properties) current).find? fun k =>
      node.urn.type.mutability k == .forbidsReplace

def refusal (urn : Urn) (field : String) : String := (Error.replaceNotSupported urn field).message

theorem stepTo_of_refused {field : String} (h : refusedField? node remote = some field) :
    stepTo node.urn (node.urn.type.canonical node.properties)
        (currentState node.urn.type remote) =
      .ok { action := .replace, rejection := some (refusal node.urn field) } := by
  rw [refusedField?, Option.bind_eq_some_iff] at h
  obtain ⟨current, hcurrent, hfield⟩ := h
  simp only [hcurrent, stepTo, update, hfield]
  rfl

theorem nodeChange_of_refused {field : String} (h : refusedField? node remote = some field) :
    nodeChange node remote config =
      .ok (changeOf node (currentState node.urn.type remote) config
        { action := .replace, rejection := some (refusal node.urn field) }) :=
  nodeChange_eq_ok_iff.mpr ⟨_, stepTo_of_refused h, rfl⟩

theorem rejection_of_not_refused {step : Step} (hnone : refusedField? node remote = none)
    (h : stepTo node.urn (node.urn.type.canonical node.properties)
      (currentState node.urn.type remote) = .ok step) : step.rejection = none := by
  rw [refusedField?] at hnone
  cases hcurrent : currentState node.urn.type remote with
  | none =>
    rw [hcurrent] at h
    simp only [stepTo, bind_eq_ok, pure_eq_ok] at h
    obtain ⟨_, -, rfl⟩ := h
    rfl
  | some current =>
    rw [hcurrent] at h hnone
    rcases update_cases h with ⟨field, hfield, hforbids, -⟩ | ⟨-, _, _, -, -, rfl⟩ |
      ⟨-, rfl | rfl⟩ | ⟨-, -, _, -, rfl⟩
    · exact absurd (beq_iff_eq.mpr hforbids) (List.find?_eq_none.mp hnone field hfield)
    · rfl
    · rfl
    · rfl
    · rfl

theorem rejection_of_nodeChange {c : Change} (h : nodeChange node remote config = .ok c) :
    c.rejection = (refusedField? node remote).map (refusal node.urn) := by
  cases hfield : refusedField? node remote with
  | some field =>
    obtain rfl := Except.ok.inj ((nodeChange_of_refused hfield).symm.trans h)
    rfl
  | none =>
    obtain ⟨step, hstep, rfl⟩ := nodeChange_eq_ok_iff.mp h
    exact rejection_of_not_refused hfield hstep

/-- A failure to make the statements of an action that the type has statements for. -/
def IsRenderFailure (e : Error) : Prop :=
  ∃ urn action before after, Lifecycle.Renders urn.type after action ∧
    Lifecycle.render urn action before after = .error e

theorem IsRenderFailure.ne_execution {e : Error} (h : IsRenderFailure e) (urn : Urn)
    (fault : ExecutionFault) : e ≠ .execution urn fault := by
  obtain ⟨u, action, before, after, hrenders, hfails⟩ := h
  have hother : FailsIn (· ≠ .execution urn fault) (Lifecycle.render u action before after) :=
    Lifecycle.failsIn_render_of_renders (fun _ _ heq => nomatch heq) (fun _ heq => nomatch heq)
      hrenders
  exact hother e hfails

/-- Statements are asked for only where there are some, whatever a node wants and the remote
holds. -/
theorem isRenderFailure_of_nodeChange {e : Error} (h : nodeChange node remote config = .error e) :
    IsRenderFailure e :=
  failsIn_nodeChange (fun urn action before after hrenders _ hfails =>
    ⟨urn, action, before, after, hrenders, hfails⟩) e h

theorem isRenderFailure_of_removals {base : Nat} {e : Error}
    (h : removals graph snapshot registry config base = .error e) :
    (∃ type, e = .missingLifecycle type) ∨ IsRenderFailure e := by
  have hfails : FailsIn (fun e => (∃ type, e = .missingLifecycle type) ∨ IsRenderFailure e)
      (removals graph snapshot registry config base) :=
    failsIn_removals (fun urn action before after hrenders _ hfails =>
      .inr ⟨urn, action, before, after, hrenders, hfails⟩) fun type => .inl ⟨type, rfl⟩
  exact hfails e h

end Diff

theorem Error.Category.isFatal_iff {c : Category} :
    c.isFatal ↔ c = .config ∨ c = .plan ∨ c = .fetch := by
  cases c <;> decide

namespace Reconciler

open Diff

variable {r : Reconciler} {declarations : List Declaration} {source : Source} {p : Plan}

theorem failsIn_plan : FailsIn (fun e => e.category.isFatal) (r.plan declarations source) := by
  have hrender (urn : Urn) (action : Action) (before after : Option Properties) :
      Lifecycle.Renders urn.type after action →
        FailsIn (fun e => e.category.isFatal) (Lifecycle.render urn action before after) :=
    Lifecycle.failsIn_render_of_renders (fun _ _ => rfl) fun _ => rfl
  have hbuild : FailsIn (fun e => e.category.isFatal)
      (ResourceGraph.build declarations r.config) :=
    failsIn_build (fun _ _ => rfl) (fun _ => rfl) (fun _ => rfl) fun _ => rfl
  refine (failsIn_buildGraph hbuild (fun _ _ => rfl) (fun _ _ => rfl)
    fun _ => rfl).bind fun graph => ?_
  refine (Fetch.failsIn_snapshot (fun _ => rfl) fun _ _ _ => rfl).bind fun snapshot => ?_
  refine FailsIn.bind (fun e he => ?_) fun _ => ?_
  · obtain ⟨_, -, _, -, -, rfl⟩ := exists_of_checkReferences_eq_error he
    rfl
  refine (failsIn_nodeChanges hrender fun _ => rfl).bind fun changes => ?_
  exact (failsIn_removals hrender fun _ => rfl).bind fun gone => failsIn_ok _

/-- A change is rejected exactly if it is that of a node whose replacement is refused. -/
theorem rejection_iff (h : r.plan declarations source = .ok p) :
    ∃ graph snapshot, r.buildGraph declarations = .ok graph ∧
      r.fetch graph source = .ok snapshot ∧
      ∀ c ∈ p.changes, ∀ message, c.rejection = some message ↔
        ∃ n ∈ graph.nodes, n.urn = c.urn ∧
          ∃ field, refusedField? n (remoteState n.urn graph snapshot) = some field ∧
            refusal n.urn field = message := by
  obtain ⟨graph, hgraph, snapshot, hsnapshot, hplan⟩ := plan_eq_ok_iff.mp h
  obtain ⟨hbuild, -, -⟩ := buildGraph_eq_ok_iff.mp hgraph
  have hwf := wellFormed_of_build hbuild
  refine ⟨graph, snapshot, hgraph, hsnapshot, fun c hc message => ?_⟩
  rcases change_cases hplan hc with ⟨n, hn, hnc⟩ | ⟨d, -, hcand, -, _, _, hdc⟩
  · rw [rejection_of_nodeChange hnc, Option.map_eq_some_iff, urn_of_nodeChange hnc]
    constructor
    · exact fun hfield => ⟨n, hn, rfl, hfield⟩
    · rintro ⟨m, hm, hurn, hfield⟩
      rwa [hwf.eq_of_urn_eq hm hn hurn] at hfield
  · obtain ⟨_, -, rfl⟩ := removalChange_eq_ok_iff.mp hdc
    refine iff_of_false (fun hsome => nomatch hsome) ?_
    rintro ⟨n, hn, hurn, -⟩
    exact (isCandidate_iff.mp hcand).2.1
      (ResourceGraph.contains_iff.mpr (List.mem_map.mpr ⟨n, hn, hurn⟩))

/-- What planning fails with is about the configuration, the manifest or the reading of the remote.
No statements are asked for that a type does not have, and a replacement that is refused is a
rejection of that one change. -/
theorem plan_fails_fatally (r : Reconciler) (declarations : List Declaration) (source : Source) :
    (∀ e, r.plan declarations source = .error e →
      e.category = .config ∨ e.category = .plan ∨ e.category = .fetch) ∧
    (∀ node remote e, nodeChange node remote r.config = .error e →
      IsRenderFailure e ∧ ∀ urn fault, e ≠ .execution urn fault) ∧
    (∀ graph snapshot base e, removals graph snapshot r.registry r.config base = .error e →
      ((∃ type, e = .missingLifecycle type) ∨ IsRenderFailure e) ∧
        ∀ urn fault, e ≠ .execution urn fault) ∧
    (∀ node remote field, refusedField? node remote = some field →
      ∃ c, nodeChange node remote r.config = .ok c ∧ c.action = .replace ∧ c.statements = [] ∧
        c.rejection = some (Error.replaceNotSupported node.urn field).message) ∧
    ∀ p, r.plan declarations source = .ok p →
      ∃ graph snapshot, r.buildGraph declarations = .ok graph ∧
        r.fetch graph source = .ok snapshot ∧
        ∀ c ∈ p.changes, ∀ message, c.rejection = some message ↔
          ∃ n ∈ graph.nodes, n.urn = c.urn ∧
            ∃ field, refusedField? n (remoteState n.urn graph snapshot) = some field ∧
              refusal n.urn field = message := by
  refine ⟨fun e he => Error.Category.isFatal_iff.mp (failsIn_plan e he), fun node remote e he => ?_,
    fun graph snapshot base e he => ?_, fun node remote field hfield => ?_,
    fun p hp => rejection_iff hp⟩
  · have hrender := isRenderFailure_of_nodeChange he
    exact ⟨hrender, hrender.ne_execution⟩
  · have hfailure := isRenderFailure_of_removals he
    refine ⟨hfailure, fun urn fault => ?_⟩
    rcases hfailure with ⟨type, rfl⟩ | hrender
    · exact fun heq => nomatch heq
    · exact hrender.ne_execution urn fault
  · exact ⟨_, nodeChange_of_refused hfield, rfl, rfl, rfl⟩

/-! ## A database that would have to be replaced -/

def transientDatabase : Declaration where
  type := .database
  name := "DB"
  container := []
  properties := SortedMap.empty.insert "transient" (.bool true)
  references := .empty

def transientNode : Node where
  urn := databaseUrn
  properties := transientDatabase.properties
  dependencies := .empty
  external := .empty
  level := 0

def refusedReplacement : Change :=
  changeOf transientNode (some (ResourceType.database.canonical .empty)) (.ofAccount "A")
    { action := .replace, rejection := some (refusal databaseUrn "transient") }

theorem plan_transientDatabase :
    plain.plan [transientDatabase] (.static [⟨databaseUrn, .empty⟩] none) =
      .ok (.ofChanges [refusedReplacement]) := by rfl

theorem rejects_transientDatabase :
    plain.plan [transientDatabase] (.static [⟨databaseUrn, .empty⟩] none) =
      .ok (.ofChanges [refusedReplacement]) ∧
    refusedReplacement.rejection = some (refusal databaseUrn "transient") ∧
    ∃ n : Node, n.urn = databaseUrn ∧ ∃ remote, (refusedField? n remote).isSome := by
  obtain ⟨-, -, -, -, hrejected⟩ :=
    plan_fails_fatally plain [transientDatabase] (.static [⟨databaseUrn, .empty⟩] none)
  obtain ⟨graph, snapshot, -, -, hiff⟩ := hrejected _ plan_transientDatabase
  have hmem : refusedReplacement ∈ (Plan.ofChanges [refusedReplacement]).changes :=
    mem_ofChanges.mpr List.mem_cons_self
  obtain ⟨n, -, hurn, field, hfield, -⟩ := (hiff _ hmem _).mp rfl
  exact ⟨plan_transientDatabase, rfl, n, hurn, _, by rw [hfield]; rfl⟩

end Reconciler
end Reconcile
