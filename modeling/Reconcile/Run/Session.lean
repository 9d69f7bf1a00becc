import Reconcile.Plan.Change
/-!
What a session has in effect, and the switches that bring it to what a statement needs.  A switch
counts only once it was accepted, so one that failed is tried again.
-/

namespace Reconcile

inductive Switch where
  | secondaryRoles
  | role (name : String)
  | warehouse (name : String)
  | schema (database name : String)
deriving DecidableEq, Repr

def Switch.sql : Switch → String
  | .secondaryRoles => "USE SECONDARY ROLES ALL"
  | .role name => s!"USE ROLE {name}"
  | .warehouse name => s!"USE WAREHOUSE {name}"
  | .schema database name => s!"USE SCHEMA {database}.{name}"

/-- What a session has in effect, as far as it was set. -/
structure SessionState where
  role : Option String := none
  warehouse : Option String := none
  schema : Option (String × String) := none
  secondaryRoles : Bool := false
deriving DecidableEq, Repr

namespace SessionState

def commit (s : SessionState) : Switch → SessionState
  | .secondaryRoles => { s with secondaryRoles := true }
  | .role name => { s with role := some name }
  | .warehouse name => { s with warehouse := some name }
  | .schema database name => { s with schema := some (database, name) }

/-- The switches before a statement that `role` runs. -/
def switchesFor (s : SessionState) (role : String) (needs : SessionNeeds)
    (secondaryRoles : Bool) : List Switch :=
  (if secondaryRoles && !s.secondaryRoles then [.secondaryRoles] else []) ++
  (if s.role != some role then [.role role] else []) ++
  (match needs.warehouse with
    | some w => if s.warehouse != some w then [.warehouse w] else []
    | none => []) ++
  (match needs.schema with
    | some (d, n) => if s.schema != some (d, n) then [.schema d n] else []
    | none => [])

end SessionState
end Reconcile
