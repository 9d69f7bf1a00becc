import Reconcile.Config
import Reconcile.Remote.Snapshot
/-!
The read side of the account.  A source answers calls, each for the records of one shape.
-/

namespace Reconcile

/-- What a reading may and shall look at. -/
structure FetchScope where
  management : ManagementScope := .account
  /-- Whose grants are listed where that is done by grantee. -/
  grantees : List Urn := []
  /-- The databases and schemas whose grants on future and on all objects are listed. -/
  containers : List Urn := []
  listing : GrantListing := .perObject
deriving DecidableEq, Repr

inductive Call where
  /-- All resources of a type that can be seen in a scope. -/
  | list (type : ResourceType) (scope : FetchScope)
  | grantsBulk
  | grantsTo (grantee : Urn)
  /-- The grants on future or on all objects of a database or schema. -/
  | scopedGrants (type : ResourceType) (container : Urn)
deriving DecidableEq, Repr

def Call.text : Call → String
  | list type scope => s!"list {type.tag} in {scope.management.label}"
  | grantsBulk => "grants_bulk"
  | grantsTo grantee => s!"grants_to {grantee}"
  | scopedGrants type container => s!"scoped_grants {type.tag} {container}"

/-- A remote whose answers depend on the call alone. -/
abbrev Source := Call → Except FetchError (List Record)

namespace Source

/-- Whether a listing of a type shows a resource: the scope confines types that live inside a
database only. -/
def isListed (type : ResourceType) (scope : ManagementScope) (urn : Urn) : Bool :=
  urn.type == type && (type.depth == .account || scope.contains urn)

def ofRecords (records : List Record) : Source
  | .list type scope => .ok (records.filter fun r => isListed type scope.management r.urn)
  | .grantsBulk => .ok (records.filter fun r => r.urn.type == .grant)
  | .grantsTo grantee => .ok <| records.filter fun r =>
    r.urn.type == .grant && r.urn.param? "to" == some grantee.reference
  | .scopedGrants type container => .ok <| records.filter fun r =>
    r.urn.type == type && r.urn.param? "in" == some container.reference

/-- The source that holds fixed records and whose view of all object grants fails with an error,
if there is one. -/
def static (records : List Record) (bulkError : Option FetchError) : Source
  | .grantsBulk =>
    match bulkError with
    | some e => .error e
    | none => ofRecords records .grantsBulk
  | call => ofRecords records call

end Source
end Reconcile
