import Reconcile.Diff.Update
import Reconcile.Remote.Snapshot
import Reconcile.Urn.Nesting
/-!
Removing what is reported and no longer declared.  Removals run after everything else, and among
them whatever depends on another removed resource goes first.
-/

namespace Reconcile
namespace Diff

def isAccountOwned (urn : Urn) : Bool :=
  let inSystemDatabase := urn.container.database?.any fun d => d.text == systemDatabase
  match urn.type with
  | .account => true
  | .role | .roleGrant => isSystemRole urn.name.text
  | .database => urn.name.text == systemDatabase
  | .schema => inSystemDatabase || systemSchemas.contains urn.name.text
  | _ => inSystemDatabase

def isGranteeType (t : ResourceType) : Bool := t == .role || t == .databaseRole || t == .user

/-- Whether a resource is never removed: it belongs to the account itself, or it is a grant on or in
something that does. -/
def isSystemManaged (urn : Urn) : Bool :=
  match urn.type with
  | .grant | .futureGrant | .grantOnAll =>
    urn.implied.attach.any fun d => !isGranteeType d.val.type && isSystemManaged d.val
  | _ => isAccountOwned urn
termination_by urn.weight
decreasing_by exact Urn.weight_lt_of_mem_implied d.property

/-! ## Candidates -/

/-- The reported resources to remove: of synchronised types, in the scope, neither declared nor
referenced, and not the account's own. -/
def isCandidate (graph : ResourceGraph) (config : Config) (urn : Urn) : Bool :=
  config.allowlist.contains urn.type && !graph.contains urn &&
    !graph.externalReferences.contains urn && config.managementScope.contains urn &&
    !isSystemManaged urn

/-- The records to remove.  Which types may be removed is up to their lifecycles. -/
def candidates (graph : ResourceGraph) (snapshot : Snapshot) (registry : Registry)
    (config : Config) (removable : ResourceType → Bool := ResourceType.supportsRemove) :
    Except Error (List Record) := do
  let found := snapshot.toList.filter fun r => isCandidate graph config r.urn
  found.forM fun r => registry.require r.urn.type
  return found.filter fun r => removable r.urn.type

/-! ## Order -/

/-- The removed resources that name `urn`, each as often as it does; they have to go first. -/
def dependents (removed : List Urn) (urn : Urn) : List Urn :=
  removed.flatMap fun r => (r.implied.filter fun d => d == urn && r != urn).map fun _ => r

/-- The level of each removal above the first one: what nothing else depends on goes first.
Resources that name one another in a circle would go last, on one level. -/
def depths (removed : List Urn) : Urn → Nat :=
  let layers := Dependency.layers (dependents removed) removed
  let last := (layers.map (·.2)).foldl max 0 + 1
  fun urn => (layers.lookup urn).getD last

def removalChange (removed : List Urn) (level : Nat) (r : Record) : Except Error Change := do
  let current := r.urn.type.canonical r.properties
  return {
    urn := r.urn
    action := .remove
    level
    before := some current
    after := none
    statements := ← removal r.urn current
    session := {}
    dependsOn := dependents removed r.urn
    rejection := none }

/-- The changes that remove what is not declared, on levels from `base` on. -/
def removals (graph : ResourceGraph) (snapshot : Snapshot) (registry : Registry) (config : Config)
    (base : Nat) (removable : ResourceType → Bool := ResourceType.supportsRemove) :
    Except Error (List Change) := do
  let records ← candidates graph snapshot registry config removable
  let removed := records.map Record.urn
  let depth := depths removed
  records.mapM fun r => removalChange removed (base + depth r.urn) r

end Diff
end Reconcile
