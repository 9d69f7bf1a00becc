import Reconcile.Error
import Reconcile.Properties
/-!
What sets the resource types apart: who creates them, which fields can be altered, how their
properties are brought to one form, and what their statements need.
-/

namespace Reconcile

/-- How a field of an existing resource may change. -/
inductive Mutability where
  | mutable
  | immutable
  /-- Changed only by a replacement that would lose data, which is refused. -/
  | forbidsReplace
deriving DecidableEq, Repr

def Mutability.text : Mutability → String
  | mutable => "mutable"
  | immutable => "immutable"
  | forbidsReplace => "forbids_replace"

namespace ResourceType

/-- The role that creates resources of the type unless a system role owns them. -/
def defaultRole : ResourceType → String
  | account => "ACCOUNTADMIN"
  | role | user | roleGrant => "USERADMIN"
  | grant | futureGrant | grantOnAll => "SECURITYADMIN"
  | _ => "SYSADMIN"

def hasOwner (t : ResourceType) : Bool := t != account && !t.isGrant

/-- Whether undeclared resources of the type may be dropped. -/
def supportsRemove (t : ResourceType) : Bool := t != account

/-- Whether a resource of the type exists even if the remote does not report it. -/
def alwaysExists (t : ResourceType) : Bool := t == account

/-- Fields that are sent on creation and never reported back. -/
def writeOnlyFields : ResourceType → List String
  | user => ["password"]
  | _ => []

def keywordFields : ResourceType → List String
  | database | schema => ["transient"]
  | _ => []

def structuralFields : List String := ["columns", "as_", "transient"]

def mutability (t : ResourceType) (field : String) : Mutability :=
  match t with
  | database | schema => if field = "transient" then .forbidsReplace else .mutable
  | warehouse => if field = "initially_suspended" then .immutable else .mutable
  | table => if structuralFields.contains field then .forbidsReplace else .mutable
  | view => if field = "as_" ∨ field = "columns" then .immutable else .mutable
  | grant | futureGrant | grantOnAll =>
    if field = "grant_option" then .mutable else .immutable
  | roleGrant => .immutable
  | account | role | databaseRole | user => .mutable

/-- The spelling of a warehouse size: capitals without separators. -/
def canonicalSize (size : String) : String :=
  String.ofList ((size.toList.map Text.upper).filter fun c => c != '-' && c != '_')

/-- Properties in the form in which they are compared. -/
def normalize (t : ResourceType) (p : Properties) : Properties :=
  match t with
  | warehouse =>
    (p.upperCase ["warehouse_type", "scaling_policy"]).mapText "warehouse_size" canonicalSize
  | user =>
    p.upperCase ["default_role", "default_warehouse", "default_secondary_roles", "login_name"]
  | grant | futureGrant | grantOnAll =>
    if p.contains "grant_option" then p else p.insert "grant_option" (.bool false)
  | _ => p

def query? (p : Properties) : Option String := p.text? "as_"

def needsWarehouse (t : ResourceType) (p : Properties) : Bool := t == table && (query? p).isSome

def needsSchema (t : ResourceType) : Bool := t == view

def aboveOne (p : Properties) (field : String) : Bool :=
  match p.natural? field with
  | some n => 1 < n
  | none => false

/-- The given fields that the standard edition does not have. -/
def enterpriseFeatures (t : ResourceType) (p : Properties) : List String :=
  match t with
  | database | schema => ["data_retention_time_in_days"].filter (aboveOne p)
  | warehouse =>
    ["min_cluster_count", "max_cluster_count"].filter (aboveOne p) ++
      ["enable_query_acceleration"].filter p.isTrue
  | _ => []

end ResourceType

/-- The types that a run knows how to manage. -/
structure Registry where
  types : List ResourceType
deriving DecidableEq, Repr

namespace Registry

def builtin : Registry := ⟨ResourceType.all⟩

def manages (r : Registry) (t : ResourceType) : Bool := r.types.contains t

def require (r : Registry) (t : ResourceType) : Except Error Unit :=
  if r.manages t then .ok () else .error (.missingLifecycle t)

theorem builtin_require (t : ResourceType) : builtin.require t = .ok () :=
  if_pos (List.contains_iff_mem.mpr t.mem_all)

end Registry
end Reconcile
