import Reconcile.Config
import Reconcile.Properties
/-!
Declared resources as a manifest gives them, and the specifications that they are turned into.
-/

namespace Reconcile

/-- A mention of another resource in a declaration. -/
inductive Reference where
  | urn (urn : Urn)
  /-- A typed name, to be understood in the account of the run. -/
  | named (type : ResourceType) (name : String) (container : List String)

structure Declaration where
  type : ResourceType
  name : String
  container : List String
  properties : Properties
  references : SortedMap String Reference

/-- A resource as it has to be: its address, its properties and what it depends on. -/
structure Spec where
  urn : Urn
  properties : Properties
  dependencies : SortedSet Urn

def Spec.same (s t : Spec) : Bool :=
  s.urn == t.urn && s.properties.same t.properties && s.dependencies == t.dependencies

namespace Reference

def resolve (account : String) : Reference → Except Error Urn
  | urn u => .ok u
  | named type name container =>
    if type = .account then .ok (.ofAccount account)
    else if container.length ≠ type.pathLength then
      .error (.invalidDeclaration s!"{type.tag} {name}" (.referencePath type.pathLength))
    else .ok (.ofNames account type container name)

end Reference

namespace Declaration

def label (d : Declaration) : String :=
  if d.name.isEmpty then d.type.tag else s!"{d.type.tag} {d.name}"

def fail {α : Type} (d : Declaration) (fault : DeclarationFault) : Except Error α :=
  .error (.invalidDeclaration d.label fault)

/-- The address of the resource in a part that has to be filled. -/
def requiredReference (d : Declaration) (account key : String) : Except Error Urn :=
  match d.references.get? key with
  | some r => r.resolve account
  | none => d.fail (.missingReference key)

/-- The container names, completed from the configured defaults. -/
def resolvedContainer (d : Declaration) (config : Config) : Except Error (List String) :=
  let needed := d.type.pathLength
  let given := d.container.length
  if needed < given then d.fail (.deepContainer given needed)
  else
    match (config.defaultContainer.take (needed - given)).mapM id with
    | some filled => .ok (filled ++ d.container)
    | none => d.fail .openContainer

end Declaration
end Reconcile
