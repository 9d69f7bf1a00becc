import Reconcile.Grant.Remote
import Reconcile.Graph
import Reconcile.Lifecycle.Rules
import Reconcile.Remote.Source
/-!
Fetching what a plan needs to see.  Types that are no grants are listed first; what they hold can
widen the set of grantees and containers whose grants are listed after them.
-/

namespace Reconcile
namespace Fetch

/-- A reading that keeps the calls that it made, and ends at the first error. -/
abbrev M := ExceptT Error (StateM (List Call))

def ask (source : Source) (call : Call) : M (Except FetchError (List Record)) := do
  modify (· ++ [call])
  return source call

def records (source : Source) (type : ResourceType) (place : Option Urn) (call : Call) :
    M (List Record) := do
  match ← ask source call with
  | .ok rs => return rs
  | .error e => throw (.remoteFetch type place e.message)

/-- The records of several calls, in the order of addresses; the last one of an address counts. -/
def merged (source : Source) (type : ResourceType) (call : Urn → Call) (places : List Urn) :
    M (List Record) := do
  let all ← places.foldlM (fun (m : Snapshot) place => do
    return (← records source type (some place) (call place)).foldl Snapshot.insert m) .empty
  return all.toList

def grantsByGrantee (source : Source) (scope : FetchScope) : M (List Record) := do
  return Grant.normalizeRemote (← merged source .grant .grantsTo scope.grantees)

/-- The object grants.  Where one view of the account cannot be read for lack of access, the
grantees are asked one at a time. -/
def objectGrants (source : Source) (scope : FetchScope) : M (List Record) := do
  match scope.listing with
  | .perObject => grantsByGrantee source scope
  | .bulk =>
    match ← ask source .grantsBulk with
    | .ok rs => return Grant.normalizeRemote rs
    | .error e =>
      if e.kind = .accessDenied then grantsByGrantee source scope
      else throw (.remoteFetch .grant none e.message)

def scopedGrants (source : Source) (type : ResourceType) (scope : FetchScope) :
    M (List Record) := do
  return Grant.normalizeRemote (← merged source type (.scopedGrants type) scope.containers)

def listing (source : Source) (scope : FetchScope) (type : ResourceType) : M (List Record) :=
  match type with
  | .grant => objectGrants source scope
  | .futureGrant | .grantOnAll => scopedGrants source type scope
  | _ => records source type none (.list type scope)

def addListings (registry : Registry) (source : Source) (scope : FetchScope)
    (types : List ResourceType) (snapshot : Snapshot) : M Snapshot :=
  types.foldlM (fun s type => do
    registry.require type
    return s.addListing type (← listing source scope type)) snapshot

def syncsScopedGrants (config : Config) : Bool :=
  config.allowlist.contains .futureGrant || config.allowlist.contains .grantOnAll

/-- The types that a plan needs to see: declared, referenced and synchronised ones, and those
whose resources hold or contain synchronised grants. -/
def types (graph : ResourceGraph) (config : Config) : SortedSet ResourceType :=
  let sync := config.allowlist
  let needed := (graph.types.insertMany (graph.externalReferences.elements.map Urn.type)).insertMany
    sync.elements
  let needed :=
    if sync.contains .grant || sync.contains .roleGrant then needed.insert .role else needed
  if syncsScopedGrants config then (needed.insert .database).insert .schema else needed

/-- The grantees of declared grants and, where grants are synchronised, all roles in the view. -/
def grantees (graph : ResourceGraph) (config : Config) (snapshot : Snapshot) : List Urn :=
  let declared := (graph.nodes.filter fun n => n.urn.type.isGrant).filterMap fun n => n.urn.grantee?
  let roles := snapshot.toList.map Record.urn |>.filter fun u =>
    u.type == .role || u.type == .databaseRole
  let set := SortedSet.ofList declared
  (if config.allowlist.contains .grant then set.insertMany roles else set).elements

/-- The containers of declared grants on many objects and, where those are synchronised, all
databases and schemas in the view. -/
def containers (graph : ResourceGraph) (config : Config) (snapshot : Snapshot) : List Urn :=
  let declared := graph.nodes.filterMap fun n => do
    (Urn.ofReference config.account (← n.urn.param? "in")).toOption
  let places := snapshot.toList.map Record.urn |>.filter fun u =>
    u.type == .database || u.type == .schema
  let set := SortedSet.ofList declared
  (if syncsScopedGrants config then set.insertMany places else set).elements

def read (graph : ResourceGraph) (registry : Registry) (config : Config) (source : Source) :
    M Snapshot := do
  let types := (types graph config).elements
  let scope : FetchScope := { management := config.managementScope, listing := config.grantFetch }
  let objects ← addListings registry source scope (types.filter fun t => !t.isGrant) .empty
  let scope : FetchScope :=
    { scope with
      grantees := grantees graph config objects
      containers := containers graph config objects }
  addListings registry source scope (types.filter ResourceType.isGrant) objects

/-- The view of the account, or the error that ended the reading, and the calls that were made. -/
def snapshot (graph : ResourceGraph) (registry : Registry) (config : Config) (source : Source) :
    Except Error Snapshot × List Call :=
  (read graph registry config source).run.run []

end Fetch
end Reconcile
