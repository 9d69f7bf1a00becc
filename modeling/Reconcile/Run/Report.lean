import Reconcile.Plan.Basic
/-!
What became of the changes of a plan.
-/

namespace Reconcile

inductive Status where
  | applied
  /-- A statement was refused, or the plan had rejected the change. -/
  | failed (error : String)
  /-- It was not tried, since it depends on a change that did not apply or the run was declined. -/
  | skipped (reason : String)
deriving DecidableEq, Repr

namespace Status

def isApplied : Status → Bool
  | applied => true
  | _ => false

def blocks (s : Status) : Bool := !s.isApplied

def label : Status → String
  | applied => "applied"
  | failed _ => "failed"
  | skipped _ => "skipped"

end Status

/-- A statement that was accepted, or would have been sent in a dry run. -/
structure Executed where
  urn : Urn
  role : Option String
  sql : String
deriving DecidableEq, Repr

structure Outcome where
  urn : Urn
  action : Action
  level : Nat
  status : Status
  statements : List Executed
deriving DecidableEq, Repr

def Change.outcome (c : Change) (status : Status) : Outcome :=
  ⟨c.urn, c.action, c.level, status, []⟩

/-- What became of a plan: an outcome for each change, in plan order, and all statements in the
order in which they were sent. -/
structure Report where
  dryRun : Bool
  outcomes : List Outcome
  statements : List Executed
deriving DecidableEq, Repr

structure RunSummary where
  added : Nat := 0
  changed : Nat := 0
  replaced : Nat := 0
  transferred : Nat := 0
  removed : Nat := 0
  unchanged : Nat := 0
  skipped : Nat := 0
  failed : Nat := 0
deriving DecidableEq, Repr

namespace RunSummary

def add (s : RunSummary) (action : Action) (status : Status) : RunSummary :=
  match status, action with
  | .failed _, _ => { s with failed := s.failed + 1 }
  | .skipped _, _ => { s with skipped := s.skipped + 1 }
  | .applied, .add => { s with added := s.added + 1 }
  | .applied, .change => { s with changed := s.changed + 1 }
  | .applied, .replace => { s with replaced := s.replaced + 1 }
  | .applied, .transfer => { s with transferred := s.transferred + 1 }
  | .applied, .remove => { s with removed := s.removed + 1 }
  | .applied, .noop => { s with unchanged := s.unchanged + 1 }

def totalChanges (s : RunSummary) : Nat :=
  s.added + s.changed + s.replaced + s.transferred + s.removed

def total (s : RunSummary) : Nat := s.totalChanges + s.unchanged + s.skipped + s.failed

def isSuccess (s : RunSummary) : Bool := s.failed == 0 && s.skipped == 0

theorem total_add (s : RunSummary) (action : Action) (status : Status) :
    (s.add action status).total = s.total + 1 := by
  cases status <;> cases action <;> simp [add, total, totalChanges] <;> omega

theorem isSuccess_add (s : RunSummary) (action : Action) (status : Status) :
    (s.add action status).isSuccess = (s.isSuccess && status.isApplied) := by
  cases status <;> cases action <;> simp [add, isSuccess, Status.isApplied]

end RunSummary

namespace Report

def summary (r : Report) : RunSummary := r.outcomes.foldl (fun s o => s.add o.action o.status) {}

def failures (r : Report) : List Outcome := r.outcomes.filter fun o => !o.status.isApplied

def outcome? (r : Report) (urn : Urn) : Option Outcome := r.outcomes.find? fun o => o.urn == urn

def isSuccess (r : Report) : Bool := r.summary.isSuccess

end Report
end Reconcile
