import Mathlib.Algebra.GroupWithZero.Nat
import Mathlib.Algebra.Order.BigOperators.Group.List
import Mathlib.Algebra.Order.Group.Nat
import Mathlib.Logic.Function.Basic
import Mathlib.Logic.Relation
import Reconcile.Proofs.Run.Observed
/-!
A plan in the hands of several workers, each with a session of its own that it keeps from level to
level.  They take the changes of a level in any order, and what they send comes to the remote in any
order.  Main statements: `wellFounded_step` and `done_or_exists_step`, such a run comes to its end
and not before all is done, and `execute_steps`, to carry out one change after another is such a
run.
-/

namespace Reconcile
namespace Run

open Relation

structure Worker where
  connected : Bool := false
  session : SessionState := {}

def Progress.worker {σ : Type} (p : Progress σ) : Worker := ⟨p.connected, p.session⟩

/-- What is left to do for a change. -/
structure Work where
  pending : List Command
  later : List Statement
  accepted : List Executed

inductive Phase (ι : Type) where
  | waiting
  | running (worker : ι) (work : Work)
  | ended (outcome : Outcome)

structure Job (ι : Type) where
  change : Change
  phase : Phase ι

def Job.ofChange {ι : Type} (c : Change) : Job ι := ⟨c, .waiting⟩

def Job.outcome? {ι : Type} (job : Job ι) : Option Outcome :=
  match job.phase with
  | .ended outcome => some outcome
  | _ => none

/-- A run with several workers. -/
structure Pool (ι σ : Type) where
  remote : σ
  workers : ι → Worker
  log : List Executed
  ended : SortedMap Urn Status
  past : List Outcome
  jobs : List (Job ι)
  upcoming : List (List Change)

/-- How a change ends for which nothing is sent, given how those of lower levels ended. -/
def idleStatus? (ended : SortedMap Urn Status) (c : Change) : Option Status :=
  match c.rejection, c.dependsOn.find? (isBlocked ended) with
  | some reason, _ => some (.failed reason)
  | none, some d => some (.skipped s!"dependency {d} did not apply")
  | none, none => if c.action = .noop then some .applied else none

variable {ι σ : Type} {transport : Transport σ} {options : Options} {c : Change} {w : ι}

theorem runChange_of_idle {ended : SortedMap Urn Status} {status : Status}
    (h : idleStatus? ended c = some status) (p : Progress σ) :
    runChange transport options ended c p = (c.outcome status, p) := by
  cases hrejection : c.rejection with
  | some reason =>
    simp only [idleStatus?, hrejection] at h
    cases h
    simp only [runChange, hrejection]
  | none =>
    cases hblocked : c.dependsOn.find? (isBlocked ended) with
    | some d =>
      simp only [idleStatus?, hrejection, hblocked] at h
      cases h
      simp only [runChange, hrejection, hblocked]
    | none =>
      simp only [idleStatus?, hrejection, hblocked, Option.ite_none_right_eq_some] at h
      obtain ⟨hnoop, hstatus⟩ := h
      cases hstatus
      simp only [runChange, hrejection, hblocked, if_pos hnoop]

theorem runChange_of_busy {ended : SortedMap Urn Status} (h : idleStatus? ended c = none)
    (p : Progress σ) :
    runChange transport options ended c p =
      let (sent, q) := runStatements transport options c.urn c.session c.statements p
      ({ c.outcome (statusOf c.urn sent.refusal) with statements := sent.accepted }, q) := by
  cases hrejection : c.rejection with
  | some reason =>
    simp only [idleStatus?, hrejection] at h
    cases h
  | none =>
    cases hblocked : c.dependsOn.find? (isBlocked ended) with
    | some d =>
      simp only [idleStatus?, hrejection, hblocked] at h
      cases h
    | none =>
      have hbusy : ¬ c.action = .noop := by
        intro hnoop
        simp only [idleStatus?, hrejection, hblocked, if_pos hnoop] at h
        cases h
      simp only [runChange, hrejection, hblocked, if_neg hbusy]

/-! ## One step -/

namespace Pool

/-- What a worker sees of the run. -/
def view (s : Pool ι σ) (w : ι) : Progress σ :=
  ⟨s.remote, (s.workers w).connected, (s.workers w).session, s.log⟩

def put [DecidableEq ι] (s : Pool ι σ) (w : ι) (p : Progress σ) (jobs : List (Job ι)) :
    Pool ι σ :=
  { s with
    remote := p.remote
    workers := Function.update s.workers w p.worker
    log := p.log
    jobs }

def outcomes (s : Pool ι σ) : List Outcome := s.past ++ s.jobs.filterMap Job.outcome?

def next (s : Pool ι σ) (changes : List Change) (rest : List (List Change)) : Pool ι σ :=
  { s with
    ended := note s.ended (s.jobs.filterMap Job.outcome?)
    past := s.outcomes
    jobs := changes.map .ofChange
    upcoming := rest }

def AllEnded (s : Pool ι σ) : Prop := ∀ job ∈ s.jobs, job.outcome?.isSome

structure Done (s : Pool ι σ) : Prop where
  jobs : s.AllEnded
  upcoming : s.upcoming = []

def start (plan : Plan) (remote : σ) : Pool ι σ where
  remote := remote
  workers _ := {}
  log := []
  ended := .empty
  past := []
  jobs := []
  upcoming := plan.levels.map (·.2)

end Pool

inductive Move (transport : Transport σ) (options : Options) (c : Change) (w : ι) :
    Phase ι → Progress σ → Phase ι → Progress σ → Prop
  | connect {p : Progress σ} {work : Work} {remote : σ} (hlive : options.dryRun = false)
      (hpending : work.pending ≠ []) (hclosed : p.connected = false)
      (hopen : transport.connect p.remote = (.ok (), remote)) :
      Move transport options c w (.running w work) p (.running w work)
        { p with remote, connected := true }
  | prepare {p : Progress σ} {s : Statement} {later : List Statement}
      {accepted : List Executed} :
      Move transport options c w (.running w ⟨[], s :: later, accepted⟩) p
        (.running w ⟨commands options p.session c.session s, later, accepted⟩) p
  | accept {p q : Progress σ} {d : Command} {rest : List Command} {later : List Statement}
      {accepted : List Executed} (hsend : send transport options d.sql p = (.ok (), q)) :
      Move transport options c w (.running w ⟨d :: rest, later, accepted⟩) p
        (.running w ⟨rest, later, accepted ++ [⟨c.urn, (d.commit q.session).role, d.sql⟩]⟩)
        (q.accept c.urn d)
  | refuse {p q : Progress σ} {d : Command} {rest : List Command} {later : List Statement}
      {accepted : List Executed} {e : SessionError}
      (hsend : send transport options d.sql p = (.error e, q)) :
      Move transport options c w (.running w ⟨d :: rest, later, accepted⟩) p
        (.ended { c.outcome (statusOf c.urn (some (.refused d.sql e))) with
          statements := accepted }) q
  | finish {p : Progress σ} {accepted : List Executed} :
      Move transport options c w (.running w ⟨[], [], accepted⟩) p
        (.ended { c.outcome .applied with statements := accepted }) p

/-- What may happen next in a run with several workers. -/
inductive Step [DecidableEq ι] (transport : Transport σ) (options : Options) :
    Pool ι σ → Pool ι σ → Prop
  | settle {s : Pool ι σ} {before after : List (Job ι)} {c : Change} {status : Status}
      (hjobs : s.jobs = before ++ ⟨c, .waiting⟩ :: after)
      (hidle : idleStatus? s.ended c = some status) :
      Step transport options s
        { s with jobs := before ++ ⟨c, .ended (c.outcome status)⟩ :: after }
  | take {s : Pool ι σ} {before after : List (Job ι)} {c : Change} {w : ι}
      (hjobs : s.jobs = before ++ ⟨c, .waiting⟩ :: after)
      (hbusy : idleStatus? s.ended c = none)
      (hfree : ∀ job ∈ s.jobs, ∀ work, job.phase ≠ .running w work) :
      Step transport options s
        { s with jobs := before ++ ⟨c, .running w ⟨[], c.statements, []⟩⟩ :: after }
  | work {s : Pool ι σ} {before after : List (Job ι)} {c : Change} {w : ι}
      {phase phase' : Phase ι} {q : Progress σ}
      (hjobs : s.jobs = before ++ ⟨c, phase⟩ :: after)
      (hmove : Move transport options c w phase (s.view w) phase' q) :
      Step transport options s (s.put w q (before ++ ⟨c, phase'⟩ :: after))
  | advance {s : Pool ι σ} {changes : List Change} {rest : List (List Change)}
      (hended : s.AllEnded) (hupcoming : s.upcoming = changes :: rest) :
      Step transport options s (s.next changes rest)

/-! ## One change after another -/

abbrev Moves (transport : Transport σ) (options : Options) (c : Change) (w : ι) :
    Phase ι × Progress σ → Phase ι × Progress σ → Prop :=
  ReflTransGen fun x y => Move transport options c w x.1 x.2 y.1 y.2

theorem sendAll_moves (commands : List Command) (later : List Statement) {p q : Progress σ}
    {sent : Sent} {accepted : List Executed}
    (h : sendAll transport options c.urn commands p = (sent, q)) :
    Moves transport options c w (.running w ⟨commands, later, accepted⟩, p)
      (match sent.refusal with
        | none => .running w ⟨[], later, accepted ++ sent.accepted⟩
        | some fault => .ended { c.outcome (statusOf c.urn (some fault)) with
            statements := accepted ++ sent.accepted }, q) := by
  induction commands generalizing p sent accepted with
  | nil =>
    cases h
    rw [List.append_nil]
  | cons d rest ih =>
    rw [sendAll] at h
    split at h
    next e r hsend =>
      cases h
      rw [List.append_nil]
      exact .single (.refuse hsend)
    next r hsend =>
      obtain ⟨rfl, rfl⟩ := Prod.mk.inj h
      have hrest : Moves transport options c w (.running w ⟨rest, later,
          accepted ++ [⟨c.urn, (d.commit r.session).role, d.sql⟩]⟩, r.accept c.urn d) _ := ih rfl
      rw [List.append_assoc] at hrest
      exact .head (.accept hsend) hrest

theorem runStatements_moves (statements : List Statement) {p q : Progress σ} {sent : Sent}
    {accepted : List Executed}
    (h : runStatements transport options c.urn c.session statements p = (sent, q)) :
    Moves transport options c w (.running w ⟨[], statements, accepted⟩, p)
      (.ended { c.outcome (statusOf c.urn sent.refusal) with
        statements := accepted ++ sent.accepted }, q) := by
  induction statements generalizing p sent accepted with
  | nil =>
    cases h
    rw [List.append_nil]
    exact .single .finish
  | cons s rest ih =>
    rw [runStatements] at h
    have hprepare : Moves transport options c w
        (.running w ⟨[], s :: rest, accepted⟩, p)
        (.running w ⟨commands options p.session c.session s, rest, accepted⟩, p) :=
      .single .prepare
    split at h
    next first fault r hsent =>
      cases h
      exact hprepare.trans (sendAll_moves _ rest hsent)
    next first r hsent =>
      obtain ⟨rfl, rfl⟩ := Prod.mk.inj h
      have hrest : Moves transport options c w
          (.running w ⟨[], rest, accepted ++ first⟩, r) _ := ih rfl
      rw [List.append_assoc] at hrest
      exact hprepare.trans ((sendAll_moves _ rest hsent).trans hrest)

section

variable [DecidableEq ι] {s : Pool ι σ}

abbrev Steps (transport : Transport σ) (options : Options) : Pool ι σ → Pool ι σ → Prop :=
  ReflTransGen (Step transport options)

@[simp]
theorem Pool.view_put (p : Progress σ) (jobs : List (Job ι)) : (s.put w p jobs).view w = p := by
  simp [view, put, Progress.worker]

@[simp]
theorem Pool.put_put (p q : Progress σ) (jobs jobs' : List (Job ι)) :
    (s.put w p jobs).put w q jobs' = s.put w q jobs' := by
  simp [put]

theorem Pool.put_view (jobs : List (Job ι)) : s.put w (s.view w) jobs = { s with jobs } := by
  simp [put, view, Progress.worker]

theorem Moves.steps {before after : List (Job ι)} {x y : Phase ι × Progress σ}
    (h : Moves transport options c w x y) (hview : s.view w = x.2)
    (hjobs : s.jobs = before ++ ⟨c, x.1⟩ :: after) :
    Steps transport options s (s.put w y.2 (before ++ ⟨c, y.1⟩ :: after)) := by
  induction h with
  | refl =>
    rw [← hview, Pool.put_view, ← hjobs]
  | @tail y z _ hmove ih =>
    refine ih.tail ?_
    rw [← Pool.put_put (s := s) y.2 z.2 (before ++ ⟨c, y.1⟩ :: after)]
    exact .work rfl (by rwa [Pool.view_put])

theorem runChange_steps {before after : List (Job ι)} {q : Progress σ} {outcome : Outcome}
    (hjobs : s.jobs = before ++ ⟨c, .waiting⟩ :: after)
    (hfree : ∀ job ∈ s.jobs, ∀ work, job.phase ≠ .running w work)
    (h : runChange transport options s.ended c (s.view w) = (outcome, q)) :
    Steps transport options s (s.put w q (before ++ ⟨c, .ended outcome⟩ :: after)) := by
  cases hidle : idleStatus? s.ended c with
  | some status =>
    rw [runChange_of_idle hidle] at h
    obtain ⟨rfl, rfl⟩ := Prod.mk.inj h
    rw [Pool.put_view]
    exact .single (.settle hjobs hidle)
  | none =>
    rw [runChange_of_busy hidle] at h
    obtain ⟨rfl, rfl⟩ := Prod.mk.inj h
    have hmoves : Moves transport options c w (.running w ⟨[], c.statements, []⟩, s.view w) _ :=
      runStatements_moves c.statements rfl
    exact .head (.take hjobs hidle hfree) (Moves.steps (s := { s with jobs := _ }) hmoves rfl rfl)

theorem runLevel_steps (changes : List Change) {done : List (Job ι)} {q : Progress σ}
    {outcomes : List Outcome} (hdone : ∀ job ∈ done, job.outcome?.isSome)
    (hjobs : s.jobs = done ++ changes.map .ofChange)
    (h : runLevel transport options s.ended changes (s.view w) = (outcomes, q)) :
    ∃ jobs, Steps transport options s (s.put w q jobs) ∧ (∀ job ∈ jobs, job.outcome?.isSome) ∧
      jobs.filterMap Job.outcome? = done.filterMap Job.outcome? ++ outcomes := by
  induction changes generalizing s done outcomes with
  | nil =>
    cases h
    rw [List.map_nil, List.append_nil] at hjobs
    refine ⟨done, ?_, hdone, (List.append_nil _).symm⟩
    rw [Pool.put_view, ← hjobs]
  | cons c rest ih =>
    -- Between two changes the worker has none in hand: those before have ended, and the rest waits.
    have hfree : ∀ job ∈ s.jobs, ∀ work, job.phase ≠ .running w work := by
      intro job hjob work hrunning
      rw [hjobs, List.map_cons] at hjob
      rcases List.mem_append.mp hjob with hjob | hjob
      · have hended := hdone job hjob
        rw [Job.outcome?, hrunning] at hended
        cases hended
      · rcases List.mem_cons.mp hjob with rfl | hjob
        · cases hrunning
        · obtain ⟨d, -, rfl⟩ := List.mem_map.mp hjob
          cases hrunning
    cases hrun : runChange transport options s.ended c (s.view w) with
    | mk outcome r =>
      rw [runLevel, hrun] at h
      obtain ⟨rfl, rfl⟩ := Prod.mk.inj h
      let job : Job ι := ⟨c, .ended outcome⟩
      have hfirst : Steps transport options s (s.put w r (done ++ job :: rest.map .ofChange)) :=
        runChange_steps hjobs hfree hrun
      have hdone' : ∀ other ∈ done ++ [job], other.outcome?.isSome := by
        rw [List.forall_mem_append, List.forall_mem_singleton]
        exact ⟨hdone, rfl⟩
      obtain ⟨jobs, hsteps, hended, houtcomes⟩ :=
        ih (s := s.put w r (done ++ job :: rest.map .ofChange)) hdone'
          (List.append_cons _ _ _) (by rw [Pool.view_put]; rfl)
      rw [Pool.put_put] at hsteps
      refine ⟨jobs, hfirst.trans hsteps, hended, ?_⟩
      rw [houtcomes, List.filterMap_append, List.append_assoc]
      rfl

theorem runLevels_steps (transport : Transport σ) (options : Options)
    (levels : List (List Change)) (hended : s.AllEnded) (hupcoming : s.upcoming = levels) :
    ∃ t : Pool ι σ, Steps transport options s t ∧ t.Done ∧
      t.outcomes = s.outcomes ++ (runLevels transport options
        (note s.ended (s.jobs.filterMap Job.outcome?)) levels (s.view w)).1 ∧
      t.view w = (runLevels transport options
        (note s.ended (s.jobs.filterMap Job.outcome?)) levels (s.view w)).2 := by
  induction levels generalizing s with
  | nil => exact ⟨s, .refl, ⟨hended, hupcoming⟩, (List.append_nil _).symm, rfl⟩
  | cons changes rest ih =>
    cases hrun : runLevel transport options (s.next changes rest).ended changes (s.view w) with
    | mk first q =>
      obtain ⟨jobs, hsteps, hlevel, houtcomes⟩ :=
        runLevel_steps (s := s.next changes rest) changes (List.forall_mem_nil _) rfl hrun
      have houtcomes : jobs.filterMap Job.outcome? = first := houtcomes
      have hrun : runLevel transport options (note s.ended (s.jobs.filterMap Job.outcome?)) changes
          (s.view w) = (first, q) := hrun
      obtain ⟨t, hlater, hdone, hall, hview⟩ :=
        ih (s := (s.next changes rest).put w q jobs) hlevel rfl
      have hpast : ((s.next changes rest).put w q jobs).outcomes = s.outcomes ++ first :=
        congrArg (s.outcomes ++ ·) houtcomes
      have hnoted : note ((s.next changes rest).put w q jobs).ended (jobs.filterMap Job.outcome?) =
          note (note s.ended (s.jobs.filterMap Job.outcome?)) first :=
        congrArg (note _) houtcomes
      have hjobs : ((s.next changes rest).put w q jobs).jobs = jobs := rfl
      rw [Pool.view_put, hjobs, hnoted] at hall hview
      rw [runLevels, hrun]
      refine ⟨t, .head (.advance hended hupcoming) (hsteps.trans hlater), hdone, ?_, hview⟩
      rw [hall, hpast, List.append_assoc]

/-- The report of one worker is that of a run with several, of which one does everything. -/
theorem execute_steps (plan : Plan) (transport : Transport σ) (options : Options)
    (confirm : String → Answer) (remote : σ) (hconfirmed : isConfirmed plan options confirm)
    (w : ι) :
    ∃ t : Pool ι σ, Steps transport options (.start plan remote) t ∧ t.Done ∧
      t.outcomes = (execute plan transport options confirm remote).report.outcomes ∧
      t.log = (execute plan transport options confirm remote).report.statements ∧
      t.remote = (execute plan transport options confirm remote).remote := by
  obtain ⟨t, hsteps, hdone, houtcomes, hview⟩ := runLevels_steps (w := w) (s := .start plan remote)
    transport options _ (List.forall_mem_nil _) rfl
  rw [execute, if_pos hconfirmed]
  exact ⟨t, hsteps, hdone, houtcomes, congrArg Progress.log hview,
    congrArg Progress.remote hview⟩

/-! ## To the end -/

end

theorem length_commands_le (options : Options) (session : SessionState) (needs : SessionNeeds)
    (s : Statement) :
    (commands options session needs s).length ≤ 5 := by
  have hfilter : (session.switchesFor s.role needs options.useSecondaryRoles).length ≤
      (SessionState.wanted s.role needs options.useSecondaryRoles).length := by
    rw [SessionState.switchesFor_eq_filter]
    exact List.length_filter_le _ _
  have hwanted : (SessionState.wanted s.role needs options.useSecondaryRoles).length ≤ 4 := by
    obtain ⟨warehouse, schema⟩ := needs
    cases options.useSecondaryRoles <;> cases warehouse <;> cases schema <;>
      simp [SessionState.wanted]
  rw [commands, List.length_append, List.length_map, List.length_singleton]
  omega

def Worker.weight (worker : Worker) : Nat := if worker.connected then 1 else 2

theorem Worker.weight_pos (worker : Worker) : 0 < worker.weight := by
  rw [weight]
  split <;> decide

theorem Worker.weight_le {worker worker' : Worker} (h : worker.connected → worker'.connected) :
    worker'.weight ≤ worker.weight := by
  by_cases hopen : worker.connected
  · rw [weight, weight, if_pos hopen, if_pos (h hopen)]
  · rw [weight, weight, if_neg hopen]
    split <;> decide

def Change.weight (c : Change) : Nat := 6 * c.statements.length + 3

def Job.weight (workers : ι → Worker) (job : Job ι) : Nat :=
  match job.phase with
  | .waiting => Change.weight job.change
  | .running w work => work.pending.length + 6 * work.later.length + (workers w).weight
  | .ended _ => 0

/-- What every step takes something from. -/
def Pool.weight (s : Pool ι σ) : Nat :=
  (s.jobs.map (Job.weight s.workers)).sum +
    (s.upcoming.map fun changes => 1 + (changes.map Change.weight).sum).sum

theorem send_connected (transport : Transport σ) (options : Options) (sql : String)
    {p : Progress σ} (h : p.connected) :
    (send transport options sql p).2.connected := by
  cases hdry : options.dryRun with
  | true => rwa [send, hdry, if_pos rfl]
  | false =>
    cases hsend : send transport options sql p with
    | mk answer q =>
      rcases send_cases hdry hsend with ⟨_, _, hclosed, -⟩ | ⟨_, _, -, -, rfl⟩
      · cases h.symm.trans hclosed
      · rfl

theorem Move.connected {phase phase' : Phase ι} {p q : Progress σ}
    (h : Move transport options c w phase p phase' q) (hp : p.connected) : q.connected := by
  cases h with
  | connect => rfl
  | prepare => exact hp
  | @accept _ r d _ _ _ hsend =>
    have hr := send_connected transport options d.sql hp
    rwa [hsend] at hr
  | @refuse _ r d _ _ _ _ hsend =>
    have hr := send_connected transport options d.sql hp
    rwa [hsend] at hr
  | finish => exact hp

theorem Job.weight_le {workers workers' : ι → Worker} (job : Job ι)
    (h : ∀ v, (workers v).connected → (workers' v).connected) :
    job.weight workers' ≤ job.weight workers := by
  obtain ⟨c, phase⟩ := job
  cases phase with
  | waiting => exact Nat.le_refl _
  | ended => exact Nat.le_refl _
  | running w work => exact Nat.add_le_add_left (Worker.weight_le (h w)) _

theorem Move.weight_lt {workers workers' : ι → Worker} {phase phase' : Phase ι}
    {p q : Progress σ} (h : Move transport options c w phase p phase' q)
    (hp : workers w = p.worker) (hq : workers' w = q.worker) :
    Job.weight workers' ⟨c, phase'⟩ < Job.weight workers ⟨c, phase⟩ := by
  have hweight : (workers' w).weight ≤ (workers w).weight := by
    rw [hp, hq]
    exact Worker.weight_le h.connected
  cases h with
  | connect _ _ hclosed =>
    refine Nat.add_lt_add_left ?_ _
    rw [hp, hq, Worker.weight, Worker.weight, Progress.worker, Progress.worker, hclosed,
      if_pos rfl, if_neg Bool.false_ne_true]
    exact Nat.one_lt_two
  | @prepare _ s later =>
    show (commands options p.session c.session s).length + 6 * later.length + (workers' w).weight <
      0 + 6 * (later.length + 1) + (workers w).weight
    have hlength := length_commands_le options p.session c.session s
    omega
  | @accept _ _ _ rest later =>
    show rest.length + 6 * later.length + (workers' w).weight <
      (rest.length + 1) + 6 * later.length + (workers w).weight
    omega
  | refuse => exact Nat.lt_add_left _ (workers w).weight_pos
  | finish => exact Nat.lt_add_left _ (workers w).weight_pos

theorem exists_move (transport : Transport σ) (options : Options) (c : Change) (w : ι)
    (work : Work) (p : Progress σ) :
    ∃ phase q, Move transport options c w (.running w work) p phase q := by
  obtain ⟨pending, later, accepted⟩ := work
  cases pending with
  | cons d rest =>
    cases hsend : send transport options d.sql p with
    | mk answer q =>
      cases answer with
      | ok => exact ⟨_, _, .accept hsend⟩
      | error e => exact ⟨_, _, .refuse hsend⟩
  | nil =>
    cases later with
    | nil => exact ⟨_, _, .finish⟩
    | cons s later => exact ⟨_, _, .prepare⟩

theorem sum_weight_lt {workers workers' : ι → Worker} {before after : List (Job ι)}
    {job job' : Job ι} (hopen : ∀ v, (workers v).connected → (workers' v).connected)
    (hjob : job'.weight workers' < job.weight workers) :
    ((before ++ job' :: after).map (Job.weight workers')).sum <
      ((before ++ job :: after).map (Job.weight workers)).sum := by
  have hbefore : (before.map (Job.weight workers')).sum ≤ (before.map (Job.weight workers)).sum :=
    List.sum_le_sum fun job _ => job.weight_le hopen
  have hafter : (after.map (Job.weight workers')).sum ≤ (after.map (Job.weight workers)).sum :=
    List.sum_le_sum fun job _ => job.weight_le hopen
  simp only [List.map_append, List.map_cons, List.sum_append, List.sum_cons]
  omega

section

variable [DecidableEq ι]

theorem Step.weight_lt {s t : Pool ι σ} (h : Step transport options s t) :
    t.weight < s.weight := by
  cases h with
  | settle hjobs _ =>
    refine Nat.add_lt_add_right ?_ _
    rw [hjobs]
    exact sum_weight_lt (fun _ h => h) (Nat.zero_lt_succ _)
  | @take before after c w hjobs _ _ =>
    refine Nat.add_lt_add_right ?_ _
    rw [hjobs]
    refine sum_weight_lt (fun _ h => h) ?_
    show 0 + 6 * c.statements.length + (s.workers w).weight < 6 * c.statements.length + 3
    have hweight : (s.workers w).weight ≤ 2 := by
      rw [Worker.weight]
      split <;> decide
    omega
  | @work before after c w phase phase' q hjobs hmove =>
    refine Nat.add_lt_add_right ?_ _
    rw [hjobs]
    -- What the worker does to its session makes the other jobs no heavier.
    refine sum_weight_lt (fun v hv => ?_) (hmove.weight_lt rfl (Function.update_self _ _ _))
    show (Function.update s.workers w q.worker v).connected
    by_cases hvw : v = w
    · subst hvw
      rw [Function.update_self]
      exact hmove.connected hv
    · rwa [Function.update_of_ne hvw]
  | @advance changes rest _ hupcoming =>
    have hjobs : ((s.next changes rest).jobs.map (Job.weight s.workers)) =
        changes.map Change.weight := List.map_map
    rw [Pool.weight, Pool.weight, hupcoming, List.map_cons, List.sum_cons]
    show ((s.next changes rest).jobs.map (Job.weight s.workers)).sum + _ < _
    rw [hjobs]
    show _ + (rest.map fun changes => 1 + (changes.map Change.weight).sum).sum < _
    omega

theorem wellFounded_step (transport : Transport σ) (options : Options) :
    WellFounded fun t s : Pool ι σ => Step transport options s t :=
  Subrelation.wf (fun h => h.weight_lt) (measure Pool.weight).wf

theorem done_or_exists_step [Nonempty ι] (transport : Transport σ) (options : Options)
    (s : Pool ι σ) : s.Done ∨ ∃ t, Step transport options s t := by
  by_cases hrunning : ∃ job ∈ s.jobs, ∃ w work, job.phase = .running w work
  · obtain ⟨⟨c, phase⟩, hjob, w, work, rfl⟩ := hrunning
    obtain ⟨before, after, hjobs⟩ := List.append_of_mem hjob
    obtain ⟨phase, q, hmove⟩ := exists_move transport options c w work (s.view w)
    exact .inr ⟨_, .work hjobs hmove⟩
  · by_cases hwaiting : ∃ job ∈ s.jobs, job.phase = .waiting
    · obtain ⟨⟨c, phase⟩, hjob, rfl⟩ := hwaiting
      obtain ⟨before, after, hjobs⟩ := List.append_of_mem hjob
      cases hidle : idleStatus? s.ended c with
      | some status => exact .inr ⟨_, .settle hjobs hidle⟩
      | none =>
        obtain ⟨w⟩ : Nonempty ι := inferInstance
        exact .inr ⟨_, .take (w := w) hjobs hidle fun job hjob work hphase =>
          hrunning ⟨job, hjob, w, work, hphase⟩⟩
    · have hended : s.AllEnded := by
        rintro ⟨c, phase⟩ hjob
        cases phase with
        | waiting => exact absurd ⟨_, hjob, rfl⟩ hwaiting
        | running w work => exact absurd ⟨_, hjob, w, work, rfl⟩ hrunning
        | ended => rfl
      cases hupcoming : s.upcoming with
      | nil => exact .inl ⟨hended, hupcoming⟩
      | cons changes rest => exact .inr ⟨_, .advance hended hupcoming⟩

theorem exists_done [Nonempty ι] (transport : Transport σ) (options : Options) (s : Pool ι σ) :
    ∃ t, Steps transport options s t ∧ t.Done := by
  have hwf : WellFounded fun t s : Pool ι σ => Step transport options s t :=
    wellFounded_step transport options
  induction s using hwf.induction
  next s ih =>
  rcases done_or_exists_step transport options s with hdone | ⟨t, hstep⟩
  · exact ⟨s, .refl, hdone⟩
  · obtain ⟨u, hsteps, hdone⟩ := ih t hstep
    exact ⟨u, .head hstep hsteps, hdone⟩

end

end Run
end Reconcile
