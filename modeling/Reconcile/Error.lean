import Reconcile.Action
import Reconcile.Json.Printer
import Reconcile.Text.Quoted
import Reconcile.Urn.Text
/-!
What can go wrong.  An `Error` is a cause; `message` words it, and `category` says which part of a
run it belongs to.  Refusals of a remote source or session have types of their own, since a run can
go on after them.
-/

namespace Reconcile

/-! ## Refusals by the remote -/

/-- Why a remote read failed. -/
inductive FetchErrorKind where
  /-- The session may not read this; another way of reading may be open. -/
  | accessDenied
  | transport
  | other
deriving DecidableEq, Repr

structure FetchError where
  kind : FetchErrorKind
  message : String
deriving DecidableEq, Repr

structure SessionError where
  code : Option Int
  message : String
deriving DecidableEq, Repr

def SessionError.text (e : SessionError) : String :=
  match e.code with
  | none => e.message
  | some c => s!"{e.message} (error {c})"

/-! ## Causes -/

inductive UrnFault where
  | malformed (text : String)
  | badReference (text : String)
  | unknownType (name : String)
  | wrongParts (type : ResourceType) (path : String)
  | badParameter (pair : String)
  | missingParameter (urn : Urn) (key : String)
  | noGrantee (urn : Urn)
deriving DecidableEq, Repr

/-- What is wrong with a declaration, or with the properties it gives. -/
inductive DeclarationFault where
  | emptyName
  | missingReference (key : String)
  | referencePath (needed : Nat)
  | deepContainer (given needed : Nat)
  | openContainer
  | missingPrivileges
  | noPrivileges
  | privilegesNotText (given : Json)
  | privilegeNotText (given : Json)
  | ownershipGrant
  | allMeaningless (type : ResourceType)
  | grantOptionNotBoolean (given : Json)
  | badGrantee (type : ResourceType)
  | badGrantContainer
  | missingTargetType
  | notBulkGrantable (type : ResourceType)
  | notARole
  | notAGrant (type : ResourceType)
  | unnamedColumn
  | untypedColumn (name : String)
  | badColumn (given : Json)
  | tableWithoutColumns
  | viewWithoutQuery
  | described (text : String)
deriving DecidableEq, Repr

inductive ConfigFault where
  | noAccount
  | noThreads
  | emptySync
  | containerInAccountScope (database schema : Option String)
  | schemaInDatabaseScope
  | described (text : String)
deriving DecidableEq, Repr

/-- Why a change cannot be carried out. -/
inductive ExecutionFault where
  | refused (sql : String) (cause : SessionError)
  | noProperties (action : Action)
  | accountAction (action : Action)
  | grantAction (action : Action)
  | roleGrantAction (action : Action)
  | described (text : String)
deriving DecidableEq, Repr

inductive Error where
  /-- The dependencies have no order: each group of resources that depend on one another. -/
  | cycleDetected (cycles : List (List Urn))
  | unresolvedReference (source reference : Urn)
  | conflictingDeclaration (urn : Urn)
  /-- Remote state could not be read, of all resources of a type or around one resource. -/
  | remoteFetch (type : ResourceType) (place : Option Urn) (message : String)
  | replaceNotSupported (urn : Urn) (field : String)
  | unsupportedSync (type : ResourceType) (urn : Option Urn)
  | execution (urn : Urn) (fault : ExecutionFault)
  | invalidDeclaration (name : String) (fault : DeclarationFault)
  | invalidUrn (fault : UrnFault)
  | nonConforming (scope : String) (urns : List Urn)
  | wrongEdition (urn : Urn) (feature : String)
  | invalidConfig (fault : ConfigFault)
  | missingLifecycle (type : ResourceType)
  | workerPool (text : String)
deriving DecidableEq, Repr

/-! ## Wording -/

def UrnFault.message : UrnFault → String
  | malformed text => text
  | badReference text => s!"bad reference '{text}'"
  | unknownType name => s!"unknown resource type: {name}"
  | wrongParts type path =>
    s!"{type.tag} name '{path}' needs {type.pathLength + 1} dotted part(s)"
  | badParameter pair => s!"bad parameter '{pair}'"
  | missingParameter urn key => s!"{urn} has no '{key}' parameter"
  | noGrantee urn => s!"{urn} names no grantee"

def DeclarationFault.message : DeclarationFault → String
  | emptyName => "name must not be empty"
  | missingReference key => s!"missing '{key}' reference"
  | referencePath needed => s!"reference needs a container path of length {needed}"
  | deepContainer given needed => s!"container path has {given} elements, expected {needed}"
  | openContainer => "container path is incomplete and no default database/schema is configured"
  | missingPrivileges => "missing 'priv'"
  | noPrivileges => "priv list must not be empty"
  | privilegesNotText given => s!"priv must be a string or list, got {given.render}"
  | privilegeNotText given => s!"privilege must be a string, got {given.render}"
  | ownershipGrant => "ownership is declared with the 'owner' property"
  | allMeaningless type => s!"ALL has no meaning on {type.tag}"
  | grantOptionNotBoolean given => s!"grant_option must be a boolean, got {given.render}"
  | badGrantee type => s!"cannot grant to a {type.tag}"
  | badGrantContainer => "'in' must be a database or a schema"
  | missingTargetType => "missing 'on_type'"
  | notBulkGrantable type => s!"{type.tag} cannot be granted in bulk"
  | notARole => "'role' must reference a role"
  | notAGrant type => s!"{type.tag} is not a grant type"
  | unnamedColumn => "column without a name"
  | untypedColumn name => s!"column {name} has no data_type"
  | badColumn given => s!"bad column definition {given.render}"
  | tableWithoutColumns => "a table needs columns or as_"
  | viewWithoutQuery => "a view needs as_"
  | described text => text

def ConfigFault.message : ConfigFault → String
  | noAccount => "account must be provided"
  | noThreads => "threads must be at least 1"
  | emptySync => "sync_resources must have at least one resource type"
  | containerInAccountScope database schema =>
    "cannot specify a database or schema when using account scope (database=" ++
      Text.quoted? database ++ ", schema=" ++ Text.quoted? schema ++ ")"
  | schemaInDatabaseScope => "cannot specify a schema when using database scope"
  | described text => text

def ExecutionFault.message : ExecutionFault → String
  | refused sql cause => s!"{sql}: {cause.text}"
  | noProperties action => s!"cannot render {action} without properties"
  | accountAction action => s!"the account cannot be targeted by {action}"
  | grantAction action => s!"grants do not support {action}"
  | roleGrantAction action => s!"role grants do not support {action}"
  | described text => text

namespace Error

def urnList (urns : List Urn) : String := ", ".intercalate (urns.map Urn.text)

def cycleList (cycles : List (List Urn)) : String :=
  "; ".intercalate (cycles.map fun c => "[" ++ urnList c ++ "]")

def message : Error → String
  | cycleDetected cycles => s!"dependency cycle detected: {cycleList cycles}"
  | unresolvedReference source reference =>
    s!"{source} references {reference}, which is not declared and does not exist"
  | conflictingDeclaration urn => s!"conflicting declarations for {urn}"
  | remoteFetch type none message => s!"failed to fetch remote {type.tag} state: {message}"
  | remoteFetch type (some place) message =>
    s!"failed to fetch remote {type.tag} state: {place}: {message}"
  | replaceNotSupported urn field =>
    s!"{urn} cannot be replaced to change immutable field '{field}'"
  | unsupportedSync type none => s!"removing {type.tag} resources is not allowed"
  | unsupportedSync type (some urn) => s!"removing {type.tag} resources is not allowed ({urn})"
  | execution urn fault => s!"statement failed for {urn}: {fault.message}"
  | invalidDeclaration name fault => s!"invalid declaration {name}: {fault.message}"
  | invalidUrn fault => s!"invalid URN: {fault.message}"
  | nonConforming scope urns => s!"resources outside the {scope} scope: {urnList urns}"
  | wrongEdition urn feature => s!"{urn}: {feature} requires Enterprise edition or higher"
  | invalidConfig fault => s!"invalid configuration: {fault.message}"
  | missingLifecycle type => s!"no lifecycle registered for {type.tag}"
  | workerPool text => s!"failed to create worker pool: {text}"

/-- The part of a run that an error belongs to. -/
inductive Category where
  | config
  | plan
  | fetch
  | change
  | execution
deriving DecidableEq, Repr

def Category.isFatal : Category → Bool
  | config | plan | fetch => true
  | change | execution => false

def Category.description : Category → String
  | config => "Invalid configuration"
  | plan => "Invalid manifest"
  | fetch => "Remote state unavailable"
  | change => "Change cannot be applied"
  | execution => "Statement rejected"

def category : Error → Category
  | cycleDetected _ | unresolvedReference .. | conflictingDeclaration _ | invalidDeclaration .. |
    invalidUrn _ | nonConforming .. | wrongEdition .. | unsupportedSync .. => .plan
  | remoteFetch .. => .fetch
  | replaceNotSupported .. => .change
  | execution .. => .execution
  | invalidConfig _ | missingLifecycle _ | workerPool _ => .config

end Error
end Reconcile
