import Reconcile.Diff.Existence
import Reconcile.Diff.Removal
import Reconcile.Plan.Basic
/-!
The plan that brings the remote to the desired state: one change for every declared resource, and
removals of what is no longer declared.
-/

namespace Reconcile
namespace Diff

def nodeChanges (graph : ResourceGraph) (snapshot : Snapshot) (registry : Registry)
    (config : Config) : Except Error (List Change) :=
  graph.nodes.mapM fun node => do
    registry.require node.urn.type
    nodeChange node (remoteState node.urn graph snapshot) config

def plan (graph : ResourceGraph) (snapshot : Snapshot) (registry : Registry) (config : Config)
    (removable : ResourceType → Bool := ResourceType.supportsRemove) : Except Error Plan := do
  checkReferences graph snapshot
  let changes ← nodeChanges graph snapshot registry config
  let removals ← removals graph snapshot registry config graph.height removable
  return .ofChanges (changes ++ removals)

end Diff
end Reconcile
