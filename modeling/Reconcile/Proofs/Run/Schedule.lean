import Reconcile.Proofs.Run.Isolation
import Reconcile.Proofs.Run.Pool
/-!
How changes end does not depend on who carries them out, and when.  Main statement:
`execute_schedule_independent`, where the answer to a statement depends on its text alone, several
workers come to the same outcomes as one.
-/

namespace Reconcile

def Outcome.unrecorded (o : Outcome) : Outcome := { o with statements := [] }

namespace Run

open SessionState

variable {ι σ : Type} {transport : Transport σ} {options : Options}
  {opening : Except SessionError Unit} {answer : String → Except SessionError Unit}
  {ended : SortedMap Urn Status} {c : Change} {w : ι}

/-! ## What will be refused -/

section

variable (options : Options) (opening : Except SessionError Unit)
  (answer : String → Except SessionError Unit)

def reply (sql : String) : Except SessionError Unit :=
  if options.dryRun then .ok ()
  else do
    opening
    answer sql

def fault? (d : Command) : Option ExecutionFault :=
  match reply options opening answer d.sql with
  | .ok () => none
  | .error e => some (.refused d.sql e)

/-- The first of commands that is refused. -/
def firstFault? (commands : List Command) : Option ExecutionFault :=
  commands.findSome? (fault? options opening answer)

def demands (needs : SessionNeeds) (statements : List Statement) : List Command :=
  statements.flatMap fun s =>
    (wanted s.role needs options.useSecondaryRoles).map .switch ++ [.statement s.sql]

/-- How a change ends, given how those of lower levels ended. -/
def destiny (ended : SortedMap Urn Status) (c : Change) : Status :=
  (idleStatus? ended c).getD
    (statusOf c.urn (firstFault? options opening answer (demands options c.session c.statements)))

def outlook (ended : SortedMap Urn Status) : List (List Change) → List Outcome
  | [] => []
  | changes :: rest =>
    let outcomes := changes.map fun c => c.outcome (destiny options opening answer ended c)
    outcomes ++ outlook (note ended outcomes) rest

/-! ## What a worker relies on -/

/-- All that a worker has in effect was accepted, so it would be accepted again. -/
structure Reliable (worker : Worker) : Prop where
  connected : worker.connected → opening = .ok ()
  effect : ∀ v : Switch, worker.session.lacks v = false →
    reply options opening answer v.sql = .ok ()

/-- A change comes to the end that it is to have. -/
def OnCourse (ended : SortedMap Urn Status) (c : Change) : Phase ι → Prop
  | .waiting => True
  | .running _ work => idleStatus? ended c = none ∧
      firstFault? options opening answer (work.pending ++ demands options c.session work.later) =
        firstFault? options opening answer (demands options c.session c.statements)
  | .ended o => o.unrecorded = c.outcome (destiny options opening answer ended c)

structure Pool.OnCourse (total : List Outcome) (s : Pool ι σ) : Prop where
  workers : ∀ w, Reliable options opening answer (s.workers w)
  jobs : ∀ job ∈ s.jobs, Run.OnCourse options opening answer s.ended job.change job.phase
  outlook : s.past.map Outcome.unrecorded ++
    outlook options opening answer s.ended (s.jobs.map Job.change :: s.upcoming) = total

end

theorem reliable_new : Reliable options opening answer {} where
  connected := fun h => nomatch h
  effect := fun v h => by
    cases v with
    | _ => cases h

theorem SessionState.of_lacks_commit {s : SessionState} {v u : Switch}
    (h : (s.commit v).lacks u = false) : u = v ∨ s.lacks u = false := by
  cases v <;> cases u <;> simp_all [lacks, commit]

theorem Reliable.accept {q : Progress σ} {urn : Urn} {d : Command}
    (h : Reliable options opening answer q.worker)
    (hreply : reply options opening answer d.sql = .ok ()) :
    Reliable options opening answer (q.accept urn d).worker := by
  refine ⟨h.connected, fun u hu => ?_⟩
  cases d with
  | statement => exact h.effect u hu
  | switch v =>
    rcases SessionState.of_lacks_commit (s := q.session) (v := v) hu with rfl | hu
    · exact hreply
    · exact h.effect u hu

theorem Reliable.send (hsteady : transport.Steady opening answer) {sql : String}
    {p q : Progress σ} {got : Except SessionError Unit}
    (h : Reliable options opening answer p.worker)
    (hsend : send transport options sql p = (got, q)) :
    got = reply options opening answer sql ∧ Reliable options opening answer q.worker := by
  cases hdry : options.dryRun with
  | true =>
    rw [Run.send, hdry, if_pos rfl] at hsend
    obtain ⟨rfl, rfl⟩ := Prod.mk.inj hsend
    rw [reply, hdry, if_pos rfl]
    exact ⟨rfl, h⟩
  | false =>
    rw [reply, hdry, if_neg Bool.false_ne_true]
    rcases send_cases hdry hsend with ⟨e, remote, -, hconnect, rfl, rfl⟩ |
      ⟨opened, remote, hopen, hanswer, rfl⟩
    · have hopening : opening = .error e := by rw [← hsteady.connect p.remote, hconnect]
      refine ⟨?_, h⟩
      rw [hopening]
      rfl
    · have hopening : opening = .ok () := by
        rcases hopen with ⟨hconnected, -⟩ | ⟨-, hconnect⟩
        · exact h.connected hconnected
        · rw [← hsteady.connect p.remote, hconnect]
      have hgot := hsteady.send sql opened
      rw [hanswer] at hgot
      refine ⟨?_, fun _ => hopening, h.effect⟩
      rw [hopening]
      exact hgot

/-! ## The first refusal -/

theorem firstFault?_append (first later : List Command) :
    firstFault? options opening answer (first ++ later) =
      (firstFault? options opening answer first).or (firstFault? options opening answer later) :=
  List.findSome?_append

theorem findSome?_filter_of {α β : Type} {f : α → Option β} {p : α → Bool} {l : List α}
    (h : ∀ a ∈ l, p a = false → f a = none) : (l.filter p).findSome? f = l.findSome? f := by
  induction l with
  | nil => rfl
  | cons a rest ih =>
    obtain ⟨ha, hrest⟩ := List.forall_mem_cons.mp h
    cases hp : p a with
    | true => rw [List.filter_cons_of_pos hp, List.findSome?_cons, List.findSome?_cons, ih hrest]
    | false =>
      rw [List.filter_cons_of_neg (by simp [hp]), List.findSome?_cons, ha hp, ih hrest]

/-- A reliable worker leaves out nothing that would be refused. -/
theorem Reliable.firstFault?_commands {worker : Worker}
    (h : Reliable options opening answer worker) (needs : SessionNeeds) (s : Statement) :
    firstFault? options opening answer (commands options worker.session needs s) =
      firstFault? options opening answer (demands options needs [s]) := by
  have hswitches : ∀ v ∈ wanted s.role needs options.useSecondaryRoles,
      worker.session.lacks v = false → fault? options opening answer (.switch v) = none := by
    intro v _ hv
    rw [fault?, Command.sql, h.effect v hv]
  rw [commands, demands, List.flatMap_singleton, firstFault?_append, firstFault?_append,
    switchesFor_eq_filter]
  congr 1
  rw [firstFault?, firstFault?, List.findSome?_map, List.findSome?_map]
  exact findSome?_filter_of hswitches

theorem Move.onCourse (hsteady : transport.Steady opening answer) {phase phase' : Phase ι}
    {p q : Progress σ} (hmove : Move transport options c w phase p phase' q)
    (hworker : Reliable options opening answer p.worker)
    (hphase : OnCourse options opening answer ended c phase) :
    Reliable options opening answer q.worker ∧
      OnCourse options opening answer ended c phase' := by
  cases hmove with
  | connect _ _ _ hopen =>
    have hopening := hsteady.connect p.remote
    rw [hopen] at hopening
    exact ⟨⟨fun _ => hopening.symm, hworker.effect⟩, hphase⟩
  | @prepare _ s later _ =>
    obtain ⟨hbusy, hfault⟩ := hphase
    refine ⟨hworker, hbusy, ?_⟩
    have hsplit : demands options c.session (s :: later) =
        demands options c.session [s] ++ demands options c.session later := by
      rw [demands, demands, demands, List.flatMap_singleton, List.flatMap_cons]
    rw [← hfault, List.nil_append, hsplit, firstFault?_append, firstFault?_append]
    have hfirst := hworker.firstFault?_commands c.session s
    exact congrArg (Option.or · _) hfirst
  | @accept _ r d rest later _ hsend =>
    obtain ⟨hbusy, hfault⟩ := hphase
    obtain ⟨hreply, hr⟩ := hworker.send hsteady hsend
    refine ⟨hr.accept hreply.symm, hbusy, ?_⟩
    rw [← hfault, List.cons_append, firstFault?, firstFault?, List.findSome?_cons, fault?, ← hreply]
  | @refuse _ _ d rest later _ e hsend =>
    obtain ⟨hbusy, hfault⟩ := hphase
    obtain ⟨hreply, hr⟩ := hworker.send hsteady hsend
    refine ⟨hr, ?_⟩
    -- All that comes before in what is demanded is answered well, so this is the first refusal.
    have hfirst : firstFault? options opening answer (demands options c.session c.statements) =
        some (.refused d.sql e) := by
      rw [← hfault, List.cons_append, firstFault?, List.findSome?_cons, fault?, ← hreply]
    show c.outcome _ = c.outcome _
    rw [destiny, hbusy, hfirst]
    rfl
  | finish =>
    obtain ⟨hbusy, hfault⟩ := hphase
    refine ⟨hworker, ?_⟩
    show c.outcome _ = c.outcome _
    rw [destiny, hbusy, ← hfault]
    rfl

/-! ## A step of the run -/

theorem note_unrecorded (outcomes : List Outcome) :
    note ended (outcomes.map Outcome.unrecorded) = note ended outcomes :=
  List.foldl_map

theorem unrecorded_of_ended {jobs : List (Job ι)} (hended : ∀ job ∈ jobs, job.outcome?.isSome)
    (hjobs : ∀ job ∈ jobs, OnCourse options opening answer ended job.change job.phase) :
    (jobs.filterMap Job.outcome?).map Outcome.unrecorded =
      (jobs.map Job.change).map fun c => c.outcome (destiny options opening answer ended c) := by
  induction jobs with
  | nil => rfl
  | cons job rest ih =>
    obtain ⟨hjob, hrest⟩ := List.forall_mem_cons.mp hended
    obtain ⟨hcourse, hcourses⟩ := List.forall_mem_cons.mp hjobs
    obtain ⟨c, phase⟩ := job
    cases phase with
    | waiting => cases hjob
    | running => cases hjob
    | ended o => exact congrArg₂ List.cons hcourse (ih hrest hcourses)

theorem Pool.OnCourse.replace {total : List Outcome} {s : Pool ι σ}
    {before after : List (Job ι)} {phase phase' : Phase ι} {workers : ι → Worker}
    (hs : s.OnCourse options opening answer total)
    (hworkers : ∀ w, Reliable options opening answer (workers w))
    (hjobs : s.jobs = before ++ ⟨c, phase⟩ :: after)
    (hphase : Run.OnCourse options opening answer s.ended c phase →
      Run.OnCourse options opening answer s.ended c phase') (remote : σ) (log : List Executed) :
    Pool.OnCourse options opening answer total
      { s with remote, workers, log, jobs := before ++ ⟨c, phase'⟩ :: after } := by
  have hall := hs.jobs
  rw [hjobs, List.forall_mem_append, List.forall_mem_cons] at hall
  obtain ⟨hbefore, hjob, hafter⟩ := hall
  refine ⟨hworkers, ?_, ?_⟩
  · exact List.forall_mem_append.mpr ⟨hbefore, List.forall_mem_cons.mpr ⟨hphase hjob, hafter⟩⟩
  · have hchanges : (before ++ ⟨c, phase'⟩ :: after).map Job.change = s.jobs.map Job.change := by
      rw [hjobs, List.map_append, List.map_append]
      rfl
    rw [hchanges]
    exact hs.outlook

theorem Pool.OnCourse.unrecorded_of_done {total : List Outcome} {s : Pool ι σ}
    (hs : s.OnCourse options opening answer total) (hdone : s.Done) :
    s.outcomes.map Outcome.unrecorded = total := by
  rw [outcomes, List.map_append, unrecorded_of_ended hdone.jobs hs.jobs, ← hs.outlook,
    hdone.upcoming, Run.outlook, Run.outlook, List.append_nil]

section

variable [DecidableEq ι] {s t : Pool ι σ}

theorem Step.onCourse (hsteady : transport.Steady opening answer)
    (hstep : Step transport options s t) {total : List Outcome}
    (hs : s.OnCourse options opening answer total) :
    t.OnCourse options opening answer total := by
  cases hstep with
  | @settle before after c status hjobs hidle =>
    refine hs.replace hs.workers hjobs (fun _ => ?_) s.remote s.log
    show c.outcome _ = c.outcome _
    rw [destiny, hidle]
    rfl
  | @take before after c w hjobs hbusy hfree =>
    refine hs.replace hs.workers hjobs (fun _ => ?_) s.remote s.log
    exact ⟨hbusy, rfl⟩
  | @work before after c w phase phase' q hjobs hmove =>
    have hc : (⟨c, phase⟩ : Job ι) ∈ s.jobs := hjobs ▸ List.mem_append_right _ List.mem_cons_self
    obtain ⟨hworker, hphase⟩ := hmove.onCourse hsteady (hs.workers w) (hs.jobs _ hc)
    refine hs.replace (fun v => ?_) hjobs (fun _ => hphase) q.remote q.log
    by_cases hvw : v = w
    · rw [hvw, Function.update_self]
      exact hworker
    · rw [Function.update_of_ne hvw]
      exact hs.workers v
  | @advance changes rest hended hupcoming =>
    -- The level came to what it was to come to, so the next one is looked upon as before.
    have houtcomes := unrecorded_of_ended hended hs.jobs
    have houtlook := hs.outlook
    refine ⟨hs.workers, fun job hjob => ?_, ?_⟩
    · obtain ⟨c, -, rfl⟩ := List.mem_map.mp hjob
      trivial
    · have hchanges : (s.next changes rest).jobs.map Job.change = changes := by
        show (changes.map Job.ofChange).map Job.change = changes
        rw [List.map_map]
        exact List.map_id changes
      rw [Run.outlook, hupcoming, ← houtcomes, note_unrecorded, ← List.append_assoc] at houtlook
      rw [hchanges, ← houtlook]
      show (s.past ++ _).map _ ++ _ = _
      rw [List.map_append]
      rfl

theorem Steps.onCourse (hsteady : transport.Steady opening answer) {plan : Plan} {remote : σ}
    (hsteps : Steps transport options (.start plan remote) s) :
    s.OnCourse options opening answer
      (outlook options opening answer .empty ([] :: plan.levels.map (·.2))) := by
  induction hsteps with
  | refl => exact ⟨fun _ => reliable_new, List.forall_mem_nil _, rfl⟩
  | tail _ hstep ih => exact hstep.onCourse hsteady ih

/-- Where the answers depend on the statements alone, it makes no difference how many workers there
are, which of them takes a change, and when: they come to an end, they stop only when all is done,
and the outcomes are then those of one worker who does everything in the order of the plan. -/
theorem execute_schedule_independent [Nonempty ι] (plan : Plan) (transport : Transport σ)
    (options : Options) (confirm : String → Answer) (remote : σ)
    (hsteady : transport.Steady opening answer) (hconfirmed : isConfirmed plan options confirm)
    (hsteps : Steps transport options (.start plan remote) s) :
    Acc (fun t s => Step transport options s t) s ∧
    (s.Done ∨ ∃ t, Step transport options s t) ∧
    (s.Done → s.outcomes.map Outcome.unrecorded =
      (execute plan transport options confirm remote).report.outcomes.map
        Outcome.unrecorded) := by
  refine ⟨(wellFounded_step transport options).apply s,
    done_or_exists_step transport options s, fun hdone => ?_⟩
  obtain ⟨w⟩ : Nonempty ι := inferInstance
  obtain ⟨t, ht, htdone, houtcomes, -⟩ :=
    execute_steps plan transport options confirm remote hconfirmed w
  rw [← houtcomes, (ht.onCourse hsteady).unrecorded_of_done htdone,
    (hsteps.onCourse hsteady).unrecorded_of_done hdone]

theorem schedule_of_refusing :
    refusing.Steady (.ok ())
      (fun sql => if sql = "CREATE DATABASE D" then .error ⟨none, "no"⟩ else .ok ()) ∧
    isConfirmed creations {} (fun _ => .accepted) ∧
    ∃ t : Pool Bool (List String), Steps refusing {} (.start creations []) t ∧ t.Done ∧
      t.outcomes.map Outcome.unrecorded =
        (execute creations refusing {} (fun _ => .accepted) []).report.outcomes.map
          Outcome.unrecorded := by
  have hsteady : refusing.Steady (.ok ())
      fun sql => if sql = "CREATE DATABASE D" then .error ⟨none, "no"⟩ else .ok () := by
    refine ⟨fun _ => rfl, fun sql sent => ?_⟩
    show (if sql = "CREATE DATABASE D" then (.error ⟨none, "no"⟩, sent)
      else (.ok (), sent ++ [sql]) : Except SessionError Unit × List String).1 = _
    split
    · rfl
    · rfl
  have hconfirmed := isConfirmed_of_accepted creations {}
  obtain ⟨t, hsteps, hdone⟩ := exists_done refusing {} (.start creations [] : Pool Bool _)
  obtain ⟨-, -, hsame⟩ := execute_schedule_independent creations refusing {} (fun _ => .accepted) []
    hsteady hconfirmed hsteps
  exact ⟨hsteady, hconfirmed, t, hsteps, hdone, hsame hdone⟩

end

end Run
end Reconcile
