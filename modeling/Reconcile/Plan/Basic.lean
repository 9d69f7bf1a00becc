import Reconcile.Config
import Reconcile.Plan.Change
/-!
Plans: changes in the order in which they run.
-/

namespace Reconcile

structure Plan where
  changes : List Change
  ordered : changes.Pairwise fun a b => a.precedes b

structure PlanSummary where
  add : Nat
  change : Nat
  replace : Nat
  transfer : Nat
  remove : Nat
  noop : Nat
  rejected : Nat
deriving DecidableEq, Repr

def PlanSummary.actionable (s : PlanSummary) : Nat :=
  s.add + s.change + s.replace + s.transfer + s.remove

namespace Plan

/-- The plan of changes in any order; changes of one level and one address keep theirs. -/
def ofChanges (changes : List Change) : Plan where
  changes := changes.mergeSort Change.precedes
  ordered := List.pairwise_mergeSort Change.precedes_trans Change.precedes_total changes

theorem perm_ofChanges (changes : List Change) : (ofChanges changes).changes.Perm changes :=
  List.mergeSort_perm changes Change.precedes

def actionable (p : Plan) : List Change := p.changes.filter Change.isActionable

def isNoop (p : Plan) : Bool := p.actionable.isEmpty

def get? (p : Plan) (urn : Urn) : Option Change := p.changes.find? fun c => c.urn == urn

/-- The levels that have changes, lowest first, with their changes. -/
def levels (p : Plan) : List (Nat × List Change) :=
  (p.changes.map Change.level).eraseDups.map fun level =>
    (level, p.changes.filter fun c => c.level == level)

def count (p : Plan) (action : Action) : Nat := p.changes.countP fun c => c.action == action

def summary (p : Plan) : PlanSummary where
  add := p.count .add
  change := p.count .change
  replace := p.count .replace
  transfer := p.count .transfer
  remove := p.count .remove
  noop := p.count .noop
  rejected := p.changes.countP Change.isRejected

def isForbidden (allowed : SortedSet ResourceType) (c : Change) : Bool :=
  c.action == .remove && !allowed.contains c.urn.type

def validateRemovals (p : Plan) (allowed : SortedSet ResourceType) : Except Error Unit :=
  match p.changes.find? (isForbidden allowed) with
  | some c => .error (.unsupportedSync c.urn.type (some c.urn))
  | none => .ok ()

end Plan
end Reconcile
