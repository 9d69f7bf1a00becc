import Reconcile.Sql.Literal
/-!
Clauses that set properties, and the statements that alter them.
-/

namespace Reconcile
namespace Sql

def assignment (key : String) (v : Json) : String :=
  " " ++ Text.upperCase key ++ " = " ++ value key v

/-- The properties that a clause spells out: not null, not the owner and not in `skip`. -/
def isClauseField (skip : List String) (key : String) (v : Json) : Bool :=
  !v.isNull && key != "owner" && !skip.contains key

def propertyClause (properties : Properties) (skip : List String) : String :=
  String.join ((properties.filter (isClauseField skip)).entries.map fun e => assignment e.1 e.2)

/-- Whether a reported value satisfies a desired one.  A field that is not reported satisfies only
null. -/
def satisfies (current : Option Json) (desired : Json) : Bool :=
  match current with
  | some current => desired.same current
  | none => desired.isNull

def delta (before : Option Properties) (after : Properties) : List (String × Json) :=
  after.entries.filter fun e =>
    e.1 != "owner" && !satisfies (before.bind fun b => b.get? e.1) e.2

/-- The statements that bring fields of `target` to new values: one sets those that have a value,
one unsets the others. -/
def alter (target : String) (fields : List (String × Json)) : List String :=
  let sets := fields.filter fun e => !e.2.isNull
  let unsets := fields.filter fun e => e.2.isNull
  (if sets.isEmpty then []
    else ["ALTER " ++ target ++ " SET" ++ String.join (sets.map fun e => assignment e.1 e.2)]) ++
  (if unsets.isEmpty then []
    else ["ALTER " ++ target ++ " UNSET " ++
      ", ".intercalate (unsets.map fun e => Text.upperCase e.1)])

end Sql
end Reconcile
