import Reconcile.Text.Ascii
import Reconcile.Text.Blank
/-!
The closed set of resource types, their tags and keywords, and where each lives.
-/

namespace Reconcile

/-- A kind of resource.  The order of the constructors is the order of types everywhere. -/
inductive ResourceType where
  | account
  | database
  | schema
  | role
  | databaseRole
  | warehouse
  | user
  | table
  | view
  | grant
  | futureGrant
  | grantOnAll
  | roleGrant
deriving DecidableEq, Repr, Inhabited

/-- How many containers enclose a resource inside the account. -/
inductive Depth where
  | account
  | database
  | schema
deriving DecidableEq, Repr

namespace Depth

def pathLength : Depth → Nat
  | account => 0
  | database => 1
  | schema => 2

end Depth

namespace ResourceType

def all : List ResourceType :=
  [account, database, schema, role, databaseRole, warehouse, user, table, view, grant, futureGrant,
    grantOnAll, roleGrant]

theorem mem_all (t : ResourceType) : t ∈ all := by cases t <;> decide

instance : Ord ResourceType := ⟨compareOn ResourceType.ctorIdx⟩

instance : Std.TransOrd ResourceType :=
  inferInstanceAs (Std.TransCmp (compareOn ResourceType.ctorIdx))

instance : Std.LawfulEqOrd ResourceType where
  compare_self {_} := Std.compare_self (α := Nat)
  eq_of_compare {a b} h := by
    have : a.ctorIdx = b.ctorIdx := Std.compare_eq_iff_eq.mp h
    revert this
    cases a <;> cases b <;> simp [ResourceType.ctorIdx]

/-- The name of the type in manifests and addresses. -/
def tag : ResourceType → String
  | account => "account"
  | database => "database"
  | schema => "schema"
  | role => "role"
  | databaseRole => "database_role"
  | warehouse => "warehouse"
  | user => "user"
  | table => "table"
  | view => "view"
  | grant => "grant"
  | futureGrant => "future_grant"
  | grantOnAll => "grant_on_all"
  | roleGrant => "role_grant"

def ofTag? (s : String) : Option ResourceType := all.find? fun t => t.tag == s

/-- The type named by a text in any case, with blanks at the ends and with spaces or hyphens in
place of underscores. -/
def ofName? (s : List Char) : Option ResourceType :=
  let name := (Text.trim s).map fun c =>
    if c = ' ' || c = '-' then '_' else Text.lower c
  ofTag? (String.ofList name)

def keyword : ResourceType → String
  | account => "ACCOUNT"
  | database => "DATABASE"
  | schema => "SCHEMA"
  | role => "ROLE"
  | databaseRole => "DATABASE ROLE"
  | warehouse => "WAREHOUSE"
  | user => "USER"
  | table => "TABLE"
  | view => "VIEW"
  | grant | futureGrant | grantOnAll => "GRANT"
  | roleGrant => "ROLE GRANT"

def depth : ResourceType → Depth
  | schema | databaseRole => .database
  | table | view => .schema
  | _ => .account

def pathLength (t : ResourceType) : Nat := t.depth.pathLength

def isGrant : ResourceType → Bool
  | grant | futureGrant | grantOnAll | roleGrant => true
  | _ => false

end ResourceType
end Reconcile
