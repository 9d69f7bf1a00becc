import Reconcile.Error
import Reconcile.Properties
/-!
A planned change: what happens to one resource, the statements that do it, and the fields in which
the resource is seen to change.
-/

namespace Reconcile

/-- A statement and the role that has to run it. -/
structure Statement where
  role : String
  sql : String
deriving DecidableEq, Repr

structure SessionNeeds where
  warehouse : Option String := none
  schema : Option (String × String) := none
deriving DecidableEq, Repr

/-- A planned change of one resource. -/
structure Change where
  urn : Urn
  action : Action
  level : Nat
  before : Option Properties
  after : Option Properties
  statements : List Statement
  session : SessionNeeds
  /-- The changes that have to be applied before this one runs. -/
  dependsOn : List Urn
  /-- Why the change cannot be carried out, if it cannot. -/
  rejection : Option String
deriving DecidableEq

/-- A field in which a change is seen. -/
inductive FieldDiff where
  | added (key : String) (value : Json)
  | changed (key : String) (before after : Json)
  | removed (key : String) (value : Json)
deriving DecidableEq

namespace FieldDiff

def key : FieldDiff → String
  | added k _ | changed k _ _ | removed k _ => k

def symbol : FieldDiff → String
  | added .. => "+"
  | changed .. => "~"
  | removed .. => "-"

def before? : FieldDiff → Option Json
  | added .. => none
  | changed _ v _ | removed _ v => some v

def after? : FieldDiff → Option Json
  | added _ v | changed _ _ v => some v
  | removed .. => none

/-- How a field comes to a desired value; nothing if it has it, or is neither given nor wanted. -/
def between (key : String) (before : Option Json) (after : Json) : Option FieldDiff :=
  match before with
  | some v => if v.same after then none else some (changed key v after)
  | none => if after.isNull then none else some (added key after)

end FieldDiff

namespace Change

def given (p : Properties) : List (String × Json) := p.entries.filter fun e => !e.2.isNull

/-- The fields to show for the change: all desired ones of a new resource, all former ones of a
removed one, and otherwise the desired ones that differ. -/
def fieldDiffs (c : Change) : List FieldDiff :=
  match c.action, c.before, c.after with
  | .add, _, some after => (given after).map fun e => .added e.1 e.2
  | .remove, some before, _ => (given before).map fun e => .removed e.1 e.2
  | .change, some before, some after
  | .replace, some before, some after
  | .transfer, some before, some after =>
    after.entries.filterMap fun e => FieldDiff.between e.1 (before.get? e.1) e.2
  | _, _, _ => []

def isRejected (c : Change) : Bool := c.rejection.isSome

def isActionable (c : Change) : Bool := c.action.isMutation

def order : Change → Change → Ordering :=
  compareLex (compareOn level) (compareOn urn)

theorem order_trans : Std.TransCmp order :=
  inferInstanceAs (Std.TransCmp (compareLex (compareOn level) (compareOn urn)))

def precedes (a b : Change) : Bool := (order a b).isLE

theorem precedes_trans (a b c : Change) (hab : precedes a b) (hbc : precedes b c) :
    precedes a c :=
  have := order_trans
  Std.TransCmp.isLE_trans hab hbc

theorem precedes_total (a b : Change) : precedes a b || precedes b a := by
  have := order_trans
  rw [precedes, precedes, @Std.OrientedCmp.eq_swap _ order _ b a]
  cases order a b <;> rfl

end Change
end Reconcile
