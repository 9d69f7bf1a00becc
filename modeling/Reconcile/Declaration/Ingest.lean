import Reconcile.Declaration.Basic
import Reconcile.Grant.Basic
/-!
Turning declarations into specifications.  A declared grant becomes one specification for each of
its privileges; any other declaration becomes one.
-/

namespace Reconcile
namespace Declaration

/-- The specification of a grant that depends on `dependencies`, the account aside. -/
def grantSpec (urn : Urn) (properties : Properties) (dependencies : List Urn) : Spec where
  urn
  properties
  dependencies := .ofList (dependencies.filter fun d => d.type != .account)

/-- The properties of a granted privilege; all else is in its address. -/
def grantProperties (grantOption : Bool) : Properties :=
  SortedMap.empty.insert "grant_option" (.bool grantOption)

def grantOption (d : Declaration) : Except Error Bool :=
  match d.properties.get? "grant_option" with
  | none | some .null => .ok false
  | some (.bool b) => .ok b
  | some other => d.fail (.grantOptionNotBoolean other)

def checkGrantee (d : Declaration) (grantee : Urn) (allowed : List ResourceType) :
    Except Error Unit :=
  if allowed.contains grantee.type then .ok () else d.fail (.badGrantee grantee.type)

def privileges (d : Declaration) (type : ResourceType) : Except Error (List String) :=
  Privilege.expand d.label (d.properties.get? "priv") type

/-- One specification for each privilege on an object. -/
def ingestGrant (d : Declaration) (account : String) : Except Error (List Spec) := do
  let on ← d.requiredReference account "on"
  let grantee ← d.requiredReference account "to"
  d.checkGrantee grantee [.role, .databaseRole]
  let option ← d.grantOption
  let privileges ← d.privileges on.type
  return privileges.map fun p =>
    grantSpec (Grant.objectUrn account p on grantee) (grantProperties option) [on, grantee]

def targetType (d : Declaration) : Except Error ResourceType :=
  match d.properties.get? "on_type" with
  | some (.string t) => Urn.readType t.toList
  | _ => d.fail .missingTargetType

/-- One specification for each privilege on the objects of a container. -/
def ingestScopedGrant (d : Declaration) (account : String) : Except Error (List Spec) := do
  let container ← d.requiredReference account "in"
  if container.type ≠ .database ∧ container.type ≠ .schema then d.fail .badGrantContainer
  let grantee ← d.requiredReference account "to"
  d.checkGrantee grantee [.role, .databaseRole]
  let type ← d.targetType
  if type.depth = .account ∨ type.isGrant then d.fail (.notBulkGrantable type)
  let option ← d.grantOption
  let privileges ← d.privileges type
  return privileges.map fun p =>
    grantSpec (Grant.scopedUrn account d.type p type container grantee) (grantProperties option)
      [container, grantee]

def ingestRoleGrant (d : Declaration) (account : String) : Except Error (List Spec) := do
  let role ← d.requiredReference account "role"
  let grantee ← d.requiredReference account "to"
  if role.type ≠ .role then d.fail .notARole
  d.checkGrantee grantee [.role, .user]
  return [grantSpec (Grant.roleUrn account role grantee) .empty [role, grantee]]

def canonicalOwner (properties : Properties) : Properties :=
  match properties.text? "owner" with
  | some owner => properties.insert "owner" (.string (Identifier.normalize owner))
  | none => properties

/-- The declared owner, as a dependency unless every account has it. -/
def ownerDependency (account : String) (properties : Properties) : List Urn :=
  match properties.text? "owner" with
  | some owner =>
    if isSystemRole (Identifier.normalize owner) then [] else [.ofRole account owner]
  | none => []

def ingestObject (d : Declaration) (config : Config) : Except Error (List Spec) := do
  if (Text.trim d.name.toList).isEmpty then d.fail .emptyName
  let container ← d.resolvedContainer config
  let urn := Urn.ofNames config.account d.type container d.name
  let references ← d.references.values.mapM (Reference.resolve config.account)
  let owner := ownerDependency config.account d.properties
  let dependencies := urn.parent?.toList ++ references ++ owner
  return [{
    urn
    properties := canonicalOwner d.properties
    dependencies := (SortedSet.ofList dependencies).erase (.ofAccount config.account) }]

/-- The specifications that a declaration stands for. -/
def ingest (d : Declaration) (config : Config) : Except Error (List Spec) :=
  match d.type with
  | .grant => d.ingestGrant config.account
  | .futureGrant | .grantOnAll => d.ingestScopedGrant config.account
  | .roleGrant => d.ingestRoleGrant config.account
  | _ => d.ingestObject config

end Declaration
end Reconcile
