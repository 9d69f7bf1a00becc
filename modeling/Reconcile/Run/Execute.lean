import Reconcile.Run.Report
import Reconcile.Run.Session
import Reconcile.Run.Transport
/-!
Carrying out a plan, level by level.  A change is skipped if one that it depends on did not apply,
and a change that fails does not keep others from running.  One session serves the whole run; it is
opened when the first statement is sent.
-/

namespace Reconcile
namespace Run

structure Options where
  dryRun : Bool := false
  /-- How many changes of a level may run at a time; the order of outcomes is the same for any
  number. -/
  jobs : Nat := 8
  useSecondaryRoles : Bool := true
deriving DecidableEq, Repr

structure Progress (σ : Type) where
  remote : σ
  connected : Bool := false
  session : SessionState := {}
  log : List Executed := []

/-- A statement as it is sent: a switch, or one of a change. -/
inductive Command where
  | switch (switch : Switch)
  | statement (sql : String)
deriving DecidableEq, Repr

def Command.sql : Command → String
  | switch s => s.sql
  | statement sql => sql

def Command.commit (s : SessionState) : Command → SessionState
  | switch w => s.commit w
  | statement _ => s

section

variable {σ : Type} (transport : Transport σ) (options : Options)

/-- Send a statement, opening the session first if there is none. -/
def send (sql : String) (p : Progress σ) : Except SessionError Unit × Progress σ :=
  if options.dryRun then (.ok (), p)
  else
    let (opened, remote) := if p.connected then (.ok (), p.remote) else transport.connect p.remote
    match opened with
    | .error e => (.error e, { p with remote })
    | .ok () =>
      let (answer, remote) := transport.send sql remote
      (answer, { p with remote, connected := true })

structure Sent where
  accepted : List Executed
  refusal : Option ExecutionFault

def sendAll (urn : Urn) : List Command → Progress σ → Sent × Progress σ
  | [], p => (⟨[], none⟩, p)
  | c :: rest, p =>
    match send transport options c.sql p with
    | (.error e, p) => (⟨[], some (.refused c.sql e)⟩, p)
    | (.ok (), p) =>
      let session := c.commit p.session
      let entry : Executed := ⟨urn, session.role, c.sql⟩
      let (sent, p) := sendAll urn rest { p with session, log := p.log ++ [entry] }
      ({ sent with accepted := entry :: sent.accepted }, p)

/-- The switches that a statement needs, and the statement. -/
def commands (session : SessionState) (needs : SessionNeeds) (s : Statement) : List Command :=
  (session.switchesFor s.role needs options.useSecondaryRoles).map .switch ++ [.statement s.sql]

def runStatements (urn : Urn) (needs : SessionNeeds) :
    List Statement → Progress σ → Sent × Progress σ
  | [], p => (⟨[], none⟩, p)
  | s :: rest, p =>
    match sendAll transport options urn (commands options p.session needs s) p with
    | (⟨accepted, some fault⟩, p) => (⟨accepted, some fault⟩, p)
    | (⟨accepted, none⟩, p) =>
      let (sent, p) := runStatements urn needs rest p
      ({ sent with accepted := accepted ++ sent.accepted }, p)

def statusOf (urn : Urn) : Option ExecutionFault → Status
  | none => .applied
  | some fault => .failed (Error.execution urn fault).message

/-- Whether the change under an address is known not to have applied. -/
def isBlocked (ended : SortedMap Urn Status) (urn : Urn) : Bool :=
  (ended.get? urn).any Status.blocks

/-- Carry out a change, given how the changes of lower levels ended. -/
def runChange (ended : SortedMap Urn Status) (c : Change) (p : Progress σ) :
    Outcome × Progress σ :=
  match c.rejection, c.dependsOn.find? (isBlocked ended) with
  | some reason, _ => (c.outcome (.failed reason), p)
  | none, some d => (c.outcome (.skipped s!"dependency {d} did not apply"), p)
  | none, none =>
    if c.action = .noop then (c.outcome .applied, p)
    else
      let (sent, p) := runStatements transport options c.urn c.session c.statements p
      ({ c.outcome (statusOf c.urn sent.refusal) with statements := sent.accepted }, p)

def runLevel (ended : SortedMap Urn Status) :
    List Change → Progress σ → List Outcome × Progress σ
  | [], p => ([], p)
  | c :: rest, p =>
    let (outcome, p) := runChange transport options ended c p
    let (outcomes, p) := runLevel ended rest p
    (outcome :: outcomes, p)

def note (ended : SortedMap Urn Status) (outcomes : List Outcome) : SortedMap Urn Status :=
  outcomes.foldl (fun m o => m.insert o.urn o.status) ended

def runLevels (ended : SortedMap Urn Status) :
    List (List Change) → Progress σ → List Outcome × Progress σ
  | [], p => ([], p)
  | changes :: rest, p =>
    let (outcomes, p) := runLevel transport options ended changes p
    let (later, p) := runLevels (note ended outcomes) rest p
    (outcomes ++ later, p)

end

/-! ## Asking first -/

inductive Answer where
  | accepted
  | declined
  /-- There was no answer; this counts as a refusal. -/
  | failed
deriving DecidableEq, Repr

/-- The question before a run that touches the remote. -/
def question? (plan : Plan) (options : Options) : Option String :=
  if options.dryRun || plan.isNoop then none
  else some s!"Apply {plan.actionable.length} change(s)?"

def isConfirmed (plan : Plan) (options : Options) (confirm : String → Answer) : Bool :=
  match question? plan options with
  | none => true
  | some question => confirm question == .accepted

def declined (plan : Plan) (options : Options) : Report where
  dryRun := options.dryRun
  outcomes := plan.changes.map fun c => c.outcome (.skipped "apply declined")
  statements := []

/-! ## Watching -/

/-- What can be seen of a run while it goes on. -/
inductive Event where
  | levelStart (level count : Nat)
  | changeEnd (urn : Urn) (status : Status)
  | levelEnd (level : Nat)
deriving DecidableEq, Repr

def levelEvents (level : Nat) (outcomes : List Outcome) : List Event :=
  .levelStart level outcomes.length :: outcomes.map (fun o => .changeEnd o.urn o.status) ++
    [.levelEnd level]

def events (outcomes : List Outcome) : List Event :=
  (outcomes.map Outcome.level).eraseDups.flatMap fun level =>
    levelEvents level (outcomes.filter fun o => o.level == level)

/-! ## The whole run -/

structure Finished (σ : Type) where
  report : Report
  events : List Event
  question : Option String
  remote : σ

/-- Carry out a plan if `confirm` allows it. -/
def execute {σ : Type} (plan : Plan) (transport : Transport σ) (options : Options)
    (confirm : String → Answer) (remote : σ) : Finished σ :=
  let question := question? plan options
  if isConfirmed plan options confirm then
    let (outcomes, p) :=
      runLevels transport options .empty (plan.levels.map (·.2)) { remote }
    ⟨⟨options.dryRun, outcomes, p.log⟩, events outcomes, question, p.remote⟩
  else ⟨declined plan options, [], question, remote⟩

end Run
end Reconcile
