import Reconcile.Diff.Basic
import Reconcile.Remote.Fetch
import Reconcile.Run.Execute
/-!
From declarations to a plan, and from a plan to a report: the graph decides what is read from the
remote, what was read is compared with it, and the changes are carried out.
-/

namespace Reconcile

/-- Whether a configuration can be used with a set of managed types.  A type whose undeclared
resources are removed has to be managed, and its resources removable. -/
def Config.check (config : Config) (registry : Registry) : Except Error Unit := do
  config.validate
  config.allowlist.elements.forM fun type => do
    registry.require type
    if !type.supportsRemove then throw (.unsupportedSync type none)

/-- A usable configuration with the types that are managed. -/
structure Reconciler where
  config : Config
  registry : Registry
  usable : config.check registry = .ok ()

namespace Reconciler

def create (config : Config) (registry : Registry := .builtin) : Except Error Reconciler :=
  match h : config.check registry with
  | .ok () => .ok ⟨config, registry, h⟩
  | .error e => .error e

def options (r : Reconciler) : Run.Options where
  dryRun := r.config.dryRun
  jobs := r.config.threads
  useSecondaryRoles := r.config.useSecondaryRoles

/-- Every resource has to be in the managed part of the account. -/
def checkScope (r : Reconciler) (graph : ResourceGraph) : Except Error Unit :=
  let scope := r.config.managementScope
  let outside := (graph.nodes.map Node.urn).filter fun u => !scope.contains u
  if outside.isEmpty then .ok () else .error (.nonConforming scope.label outside)

/-- No resource may ask for more than the edition of the account has. -/
def checkEdition (r : Reconciler) (graph : ResourceGraph) : Except Error Unit :=
  if r.config.edition = .standard then
    graph.nodes.forM fun node => do
      r.registry.require node.urn.type
      match node.urn.type.enterpriseFeatures node.properties with
      | feature :: _ => throw (.wrongEdition node.urn feature)
      | [] => return ()
  else .ok ()

def buildGraph (r : Reconciler) (declarations : List Declaration) :
    Except Error ResourceGraph := do
  let graph ← ResourceGraph.build declarations r.config
  r.checkScope graph
  r.checkEdition graph
  return graph

def fetch (r : Reconciler) (graph : ResourceGraph) (source : Source) : Except Error Snapshot :=
  (Fetch.snapshot graph r.registry r.config source).1

def plan (r : Reconciler) (declarations : List Declaration) (source : Source) :
    Except Error Plan := do
  let graph ← r.buildGraph declarations
  let snapshot ← r.fetch graph source
  Diff.plan graph snapshot r.registry r.config

/-- Carry out a plan, unless it removes what is not synchronised. -/
def apply {σ : Type} (r : Reconciler) (plan : Plan) (transport : Transport σ)
    (confirm : String → Run.Answer) (remote : σ) : Except Error (Run.Finished σ) := do
  plan.validateRemovals r.config.allowlist
  return Run.execute plan transport r.options confirm remote

/-- The report of carrying out a plan, with nothing sent. -/
def dryRun (r : Reconciler) (plan : Plan) : Except Error Report := do
  plan.validateRemovals r.config.allowlist
  let options := { r.options with dryRun := true }
  return (Run.execute plan .disconnected options (fun _ => .accepted) ()).report

end Reconciler
end Reconcile
