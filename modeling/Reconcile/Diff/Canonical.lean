import Reconcile.Lifecycle.Rules
/-!
The form in which properties are compared, and the roles that an owner stands for.
-/

namespace Reconcile

def Properties.owner? (p : Properties) : Option String :=
  (p.text? "owner").map Identifier.normalize

namespace ResourceType

/-- Properties in the form in which they are compared: in the type's own normal form, and with an
owner exactly if resources of the type have one. -/
def canonical (t : ResourceType) (p : Properties) : Properties :=
  let p := t.normalize p
  if t.hasOwner then p.insert "owner" (.string (p.owner?.getD t.defaultRole)) else p.erase "owner"

/-- The role that controls a resource with canonical properties: its owner, or the role for its
type. -/
def controller (t : ResourceType) (p : Properties) : String := (p.text? "owner").getD t.defaultRole

/-- The role that creates a resource with canonical properties.  An owner that is no system role
may not exist when the resource is created, so the role for the type creates it. -/
def creator (t : ResourceType) (p : Properties) : String :=
  match p.text? "owner" with
  | some owner => if isSystemRole owner then owner else t.defaultRole
  | none => t.defaultRole

def heir? (p : Properties) : Option String :=
  (p.text? "owner").filter fun owner => !isSystemRole owner

end ResourceType
end Reconcile
