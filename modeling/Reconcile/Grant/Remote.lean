import Reconcile.Grant.Basic
import Reconcile.Remote.Snapshot
/-!
Remote grants in the shape into which declared grants expand: one record for each privilege, and
none for ownership, which is read from the owned object.
-/

namespace Reconcile
namespace Grant

/-- The privileges that a reported privilege stands for, and whether it stands for itself. -/
inductive Reported where
  | nothing
  | itself
  | several (privileges : List String)

def reported (urn : Urn) : Reported :=
  match urn.param? "priv" with
  | none => .itself
  | some privilege =>
    let name := Text.upperCase privilege
    if name = Privilege.ownership then .nothing
    else if Privilege.isAll name then
      .several ((urn.targetType?.map Privilege.allOn).getD [])
    else .itself

/-- The records that a reported record stands for. -/
def normalizeRecord (r : Record) : List Record :=
  match reported r.urn with
  | .nothing => []
  | .itself => [r]
  | .several privileges => privileges.map fun p => { r with urn := r.urn.withParam "priv" p }

/-- Records in the shape of declared ones. -/
def normalizeRemote (records : List Record) : List Record := records.flatMap normalizeRecord

end Grant
end Reconcile
