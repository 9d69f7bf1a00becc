import Reconcile.Declaration.Ingest
import Reconcile.Dependency.Cycle
import Reconcile.Dependency.Layering
/-!
The graph of desired resources.  Every resource stands on the level above the highest of the
declared resources that it depends on.
-/

namespace Reconcile

/-- A desired resource in its graph. -/
structure Node where
  urn : Urn
  properties : Properties
  dependencies : SortedSet Urn
  /-- The resources that it depends on and that are expected to exist. -/
  external : SortedSet Urn
  level : Nat

structure ResourceGraph where
  nodes : List Node

namespace ResourceGraph

/-- Add a specification; saying the same twice is allowed, contradicting is not. -/
def addSpec (specs : List Spec) (s : Spec) : Except Error (List Spec) :=
  match specs.find? fun t => t.urn == s.urn with
  | none => .ok (specs ++ [s])
  | some t => if t.same s then .ok specs else .error (.conflictingDeclaration s.urn)

/-- The specifications of declarations, one for each address. -/
def collectSpecs (declarations : List Declaration) (config : Config) : Except Error (List Spec) :=
  declarations.foldlM (fun specs d => do (← d.ingest config).foldlM addSpec specs) []

def isDeclared (specs : List Spec) (urn : Urn) : Bool := specs.any fun s => s.urn == urn

def needs (specs : List Spec) (urn : Urn) : List Urn :=
  match specs.find? fun s => s.urn == urn with
  | some s => (s.dependencies.filter (isDeclared specs)).elements
  | none => []

def ofSpecs (specs : List Spec) : Except Error ResourceGraph :=
  let urns := specs.map Spec.urn
  let levels := Dependency.layers (needs specs) urns
  let node? := fun (s : Spec) => (levels.lookup s.urn).map fun level =>
    { urn := s.urn
      properties := s.properties
      dependencies := s.dependencies.filter (isDeclared specs)
      external := s.dependencies.filter fun d => !isDeclared specs d
      level : Node }
  match specs.mapM node? with
  | some nodes => .ok ⟨nodes⟩
  | none => .error (.cycleDetected (Dependency.cycles (needs specs) levels urns))

def build (declarations : List Declaration) (config : Config) : Except Error ResourceGraph := do
  ofSpecs (← collectSpecs declarations config)

/-! ## Views -/

def find? (g : ResourceGraph) (urn : Urn) : Option Node := g.nodes.find? fun n => n.urn == urn

def contains (g : ResourceGraph) (urn : Urn) : Bool := g.nodes.any fun n => n.urn == urn

def maxLevel? (g : ResourceGraph) : Option Nat := (g.nodes.map Node.level).max?

def height (g : ResourceGraph) : Nat := (g.maxLevel?.map (· + 1)).getD 0

def levels (g : ResourceGraph) : List (List Node) :=
  (List.range g.height).map fun level => g.nodes.filter fun n => n.level == level

def types (g : ResourceGraph) : SortedSet ResourceType := .ofList (g.nodes.map fun n => n.urn.type)

def externalReferences (g : ResourceGraph) : SortedSet Urn :=
  .ofList (g.nodes.flatMap fun n => n.external.elements)

end ResourceGraph
end Reconcile
