import Reconcile.Urn.Implied
import Reconcile.Privilege
/-!
Addresses of grants.  Every privilege, or role, that is granted is a resource of its own, told from
others by parameters that name the target and the grantee.
-/

namespace Reconcile
namespace Grant

def leafName : String := "GRANT"

def base (account : String) (type : ResourceType) : Urn := .ofNames account type [] leafName

def objectUrn (account privilege : String) (on grantee : Urn) : Urn :=
  (((base account .grant).withParam "on" on.reference).withParam "priv" privilege).withParam
    "to" grantee.reference

/-- A privilege on all future, or all existing, objects of a type in a container. -/
def scopedUrn (account : String) (type : ResourceType) (privilege : String)
    (targetType : ResourceType) (container grantee : Urn) : Urn :=
  ((((base account type).withParam "in" container.reference).withParam
    "on_type" targetType.tag).withParam "priv" privilege).withParam "to" grantee.reference

def roleUrn (account : String) (role grantee : Urn) : Urn :=
  let key := if grantee.type = .user then "user" else "role"
  (Urn.mk account .roleGrant .account role.name .empty).withParam key grantee.qualifiedName

end Grant
end Reconcile
