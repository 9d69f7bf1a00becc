import Reconcile.Graph
import Reconcile.Remote.Snapshot
/-!
Resources that are there without being created by anyone, and the check that every reference to
something undeclared is to something that exists.
-/

namespace Reconcile
namespace Diff

/-- Whether a resource comes with the account, or with a database that is declared, reported or the
account's own. -/
def existsImplicitly (urn : Urn) (graph : ResourceGraph) (snapshot : Snapshot) : Bool :=
  match urn.type with
  | .account => true
  | .role => isSystemRole urn.name.text
  | .database => urn.name.text == systemDatabase
  | .schema =>
    systemSchemas.contains urn.name.text &&
      urn.parent?.any fun db =>
        graph.contains db || snapshot.contains db || db.name.text == systemDatabase
  | _ => false

/-- What the remote holds under an address; nothing is known of the properties of a resource that
exists implicitly. -/
def remoteState (urn : Urn) (graph : ResourceGraph) (snapshot : Snapshot) : Option Properties :=
  (snapshot.get? urn).orElse fun _ =>
    if existsImplicitly urn graph snapshot then some .empty else none

def isResolved (graph : ResourceGraph) (snapshot : Snapshot) (reference : Urn) : Bool :=
  snapshot.contains reference || existsImplicitly reference graph snapshot

def checkReferences (graph : ResourceGraph) (snapshot : Snapshot) : Except Error Unit :=
  graph.nodes.forM fun node =>
    match node.external.elements.find? fun r => !isResolved graph snapshot r with
    | some reference => .error (.unresolvedReference node.urn reference)
    | none => .ok ()

end Diff
end Reconcile
