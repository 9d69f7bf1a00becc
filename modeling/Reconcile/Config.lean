import Reconcile.Collection.SortedSet
import Reconcile.Error
/-!
The configuration of a run, and the part of the account that it lets a run manage.
-/

namespace Reconcile

inductive Scope where
  | account
  | database
  | schema
deriving DecidableEq, Repr

inductive GrantListing where
  | bulk
  | perObject
deriving DecidableEq, Repr

inductive Edition where
  | standard
  | enterprise
  | businessCritical
deriving DecidableEq, Repr

def Scope.text : Scope → String
  | account => "account"
  | database => "database"
  | schema => "schema"

def GrantListing.text : GrantListing → String
  | bulk => "bulk"
  | perObject => "per_object"

def Edition.text : Edition → String
  | standard => "standard"
  | enterprise => "enterprise"
  | businessCritical => "business_critical"

structure Config where
  name : Option String := none
  account : String := ""
  scope : Scope := .account
  /-- The managed database; also the default for containers that are not given. -/
  database : Option String := none
  /-- The managed schema; also the default for containers that are not given. -/
  schema : Option String := none
  /-- The types whose undeclared resources are removed. -/
  syncResources : Option (List ResourceType) := none
  dryRun : Bool := false
  threads : Nat := 8
  grantFetch : GrantListing := .perObject
  useSecondaryRoles : Bool := true
  /-- The warehouse for statements that need one. -/
  warehouse : Option String := none
  edition : Edition := .enterprise
deriving DecidableEq, Repr

/-- The part of an account that a run may touch; a missing name stands for any. -/
inductive ManagementScope where
  | account
  | database (database : Option Identifier)
  | schema (database schema : Option Identifier)
deriving DecidableEq, Repr

namespace ManagementScope

/-- Whether a name is the wanted one, or any name where none is wanted. -/
def admits (wanted actual : Option Identifier) : Bool :=
  match wanted, actual with
  | none, actual => actual.isSome
  | some w, some a => w == a
  | some _, none => false

def contains (scope : ManagementScope) (urn : Urn) : Bool :=
  match scope with
  | account => true
  | database d =>
    match urn.type, urn.type.depth with
    | .database, _ => admits d urn.name
    | _, .account => false
    | _, _ => admits d urn.container.database?
  | schema d s =>
    match urn.type, urn.type.depth with
    | .schema, _ => admits d urn.container.database? && admits s urn.name
    | _, .schema => admits d urn.container.database? && admits s urn.container.schema?
    | _, _ => false

def label : ManagementScope → String
  | account => "account"
  | database none => "database"
  | database (some d) => s!"database {d.text}"
  | schema (some d) (some s) => s!"schema {d.text}.{s.text}"
  | schema none (some s) => s!"schema {s.text}"
  | schema _ none => "schema"

end ManagementScope

namespace Config

def ofAccount (account : String) : Config := { account }

def fault? (c : Config) : Option ConfigFault :=
  if (Text.trim c.account.toList).isEmpty then some .noAccount
  else if c.threads = 0 then some .noThreads
  else if c.syncResources = some [] then some .emptySync
  else
    match c.scope with
    | .account =>
      if c.database.isSome || c.schema.isSome then
        some (.containerInAccountScope c.database c.schema)
      else none
    | .database => if c.schema.isSome then some .schemaInDatabaseScope else none
    | .schema => none

def validate (c : Config) : Except Error Unit :=
  match c.fault? with
  | some f => .error (.invalidConfig f)
  | none => .ok ()

def managementScope (c : Config) : ManagementScope :=
  let database := c.database.map Identifier.ofText
  match c.scope with
  | .account => .account
  | .database => .database database
  | .schema => .schema database (c.schema.map Identifier.ofText)

/-- The types whose undeclared resources may be removed. -/
def allowlist (c : Config) : SortedSet ResourceType := .ofList (c.syncResources.getD [])

def defaultContainer (c : Config) : List (Option String) := [c.database, c.schema]

end Config
end Reconcile
