import Reconcile.Config
import Reconcile.Diff.Canonical
import Reconcile.Graph
import Reconcile.Lifecycle.Render
import Reconcile.Plan.Change
/-!
The change that brings one resource from its remote state to its desired state.
-/

namespace Reconcile
namespace Diff

structure Step where
  action : Action
  statements : List Statement := []
  rejection : Option String := none

def runAs (role : String) (sql : List String) : List Statement := sql.map fun s => ⟨role, s⟩

def handOver (role : String) (urn : Urn) (owner : Option String) : List Statement :=
  runAs role (owner.toList.map (Lifecycle.transferOwnership urn))

def creation (urn : Urn) (desired : Properties) : Except Error (List Statement) := do
  let role := urn.type.creator desired
  let sql ← Lifecycle.render urn .add none (some desired)
  return runAs role sql ++ handOver role urn (ResourceType.heir? desired)

def removal (urn : Urn) (current : Properties) : Except Error (List Statement) := do
  return runAs (urn.type.controller current) (← Lifecycle.render urn .remove (some current) none)

/-- The fields whose desired values the current ones do not satisfy, apart from the owner and from
fields that are never reported. -/
def changedFields (type : ResourceType) (desired current : Properties) : List String :=
  ((Sql.delta (some current) desired).map (·.1)).filter fun k => !type.writeOnlyFields.contains k

def newOwner? (desired current : Properties) : Option String :=
  (desired.text? "owner").filter fun owner => some owner != current.text? "owner"

def update (urn : Urn) (desired current : Properties) : Except Error Step := do
  let fields := changedFields urn.type desired current
  let role := urn.type.controller current
  let handing := handOver role urn (newOwner? desired current)
  match fields.find? fun k => urn.type.mutability k == .forbidsReplace with
  | some field =>
    return { action := .replace, rejection := some (Error.replaceNotSupported urn field).message }
  | none =>
    if fields.any fun k => urn.type.mutability k == .immutable then
      return {
        action := .replace
        statements := (← removal urn current) ++ (← creation urn desired)
      }
    else if fields.isEmpty then
      if handing.isEmpty then return { action := .noop }
      else return { action := .transfer, statements := handing }
    else
      let sql ← Lifecycle.render urn .change (some current) (some desired)
      return { action := .change, statements := runAs role sql ++ handing }

def sessionNeeds (urn : Urn) (desired : Properties) (config : Config) : SessionNeeds where
  warehouse :=
    if urn.type.needsWarehouse desired then config.warehouse.map Identifier.normalize else none
  schema :=
    match urn.container with
    | .schema d s => if urn.type.needsSchema then some (d.text, s.text) else none
    | _ => none

/-- The current state of a resource in canonical form; a resource that always exists has one even
if it is not reported. -/
def currentState (type : ResourceType) (remote : Option Properties) : Option Properties :=
  (remote.orElse fun _ => if type.alwaysExists then some .empty else none).map type.canonical

def stepTo (urn : Urn) (desired : Properties) : Option Properties → Except Error Step
  | none => do return { action := .add, statements := ← creation urn desired }
  | some current => update urn desired current

/-- The change for a declared resource, given what the remote holds under its address. -/
def nodeChange (node : Node) (remote : Option Properties) (config : Config) :
    Except Error Change := do
  let desired := node.urn.type.canonical node.properties
  let current := currentState node.urn.type remote
  let step ← stepTo node.urn desired current
  return {
    urn := node.urn
    action := step.action
    level := node.level
    before := current
    after := some desired
    statements := step.statements
    session := sessionNeeds node.urn desired config
    dependsOn := node.dependencies.elements
    rejection := step.rejection }

end Diff
end Reconcile
