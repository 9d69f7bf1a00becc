import Reconcile.Urn.Reader
/-!
What can be read off an address alone: the resources it depends on, and for a grant the grantee and
the type of its target.
-/

namespace Reconcile
namespace Urn

/-- The parameters that name other resources, in the order in which dependencies are listed. -/
def referenceKeys : List String := ["on", "to", "in", "role", "user"]

/-- The reference that a parameter holds; a bare name after `role` or `user` is of that type. -/
def referenceOf (key value : String) : String :=
  if (key = "role" || key = "user") && !value.toList.contains '/' then key ++ "/" ++ value
  else value

def paramUrn? (u : Urn) (key : String) : Option Urn := do
  (ofReference u.account (referenceOf key (← u.param? key))).toOption

/-- The role that a role grant hands on. -/
def grantedRole? (u : Urn) : Option Urn :=
  if u.type = .roleGrant then some ⟨u.account, .role, .account, u.name, .empty⟩ else none

/-- The resources that the address depends on: its container, what its parameters name, and the
role of a role grant. -/
def implied (u : Urn) : List Urn :=
  u.parent?.toList ++ referenceKeys.filterMap u.paramUrn? ++ u.grantedRole?.toList

def grantee? (u : Urn) : Option Urn :=
  match u.param? "to", u.param? "role", u.param? "user" with
  | some grantee, _, _ => (ofReference u.account grantee).toOption
  | none, some role, _ => some (ofRole u.account role)
  | none, none, user => user.map fun user => ofNames u.account .user [] user

def targetType? (u : Urn) : Option ResourceType :=
  match u.param? "on_type" with
  | some type => ResourceType.ofName? type.toList
  | none => do
    let (kind, _) ← Text.cutAt? '/' (← u.param? "on").toList
    ResourceType.ofName? kind

end Urn
end Reconcile
