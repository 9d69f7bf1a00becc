import Reconcile.Lifecycle.Rules
import Reconcile.Sql.Clause
import Reconcile.Urn.Implied
/-!
The statements of an action on a resource.  Creating takes the properties after the action,
dropping the address alone, and altering the properties before and after.
-/

namespace Reconcile
namespace Lifecycle

def keywordFor (p : Properties) (field : String) : String :=
  if p.isTrue field then Text.upperCase field ++ " " else ""

def drop (urn : Urn) : String := "DROP " ++ urn.object

def execution {α : Type} (urn : Urn) (fault : ExecutionFault) : Except Error α :=
  .error (.execution urn fault)

def invalid {α : Type} (urn : Urn) (fault : DeclarationFault) : Except Error α :=
  .error (.invalidDeclaration urn.text fault)

/-! ## The account and plain objects -/

def renderAccount (urn : Urn) (action : Action) (before after : Option Properties) :
    Except Error (List String) :=
  match action, after with
  | .change, some after => .ok (Sql.alter "ACCOUNT" (Sql.delta before after))
  | .add, _ => .ok []
  | _, _ => execution urn (.accountAction action)

def createObject (urn : Urn) (after : Properties) : String :=
  let keywords := urn.type.keywordFields
  "CREATE " ++ String.join (keywords.map (keywordFor after)) ++ urn.object ++
    Sql.propertyClause after keywords

def renderObject (urn : Urn) (action : Action) (before after : Option Properties) :
    Except Error (List String) :=
  match action, after with
  | .add, some after => .ok [createObject urn after]
  | .change, some after =>
    let fields := (Sql.delta before after).filter fun e => !urn.type.writeOnlyFields.contains e.1
    .ok (Sql.alter urn.object fields)
  | .remove, _ => .ok [drop urn]
  | _, _ => execution urn (.noProperties action)

/-! ## Tables and views -/

/-- One column: raw text, or a name with a data type. -/
def column (urn : Urn) (v : Json) : Except Error String :=
  match v with
  | .string raw => .ok raw
  | .object _ =>
    match (v.member? "name").bind Json.asString?, (v.member? "data_type").bind Json.asString? with
    | none, _ => invalid urn .unnamedColumn
    | some name, none => invalid urn (.untypedColumn name)
    | some name, some type =>
      let ending := if ((v.member? "not_null").map Json.isTrue).getD false then " NOT NULL" else ""
      .ok (Identifier.normalize name ++ " " ++ Text.upperCase type ++ ending)
  | other => invalid urn (.badColumn other)

def columns (urn : Urn) (after : Properties) : Except Error (List String) :=
  match (after.get? "columns").bind Json.asArray? with
  | some (c :: cs) => (c :: cs).mapM (column urn)
  | _ => invalid urn .tableWithoutColumns

def createTable (urn : Urn) (after : Properties) : Except Error String :=
  let start := "CREATE " ++ keywordFor after "transient" ++ urn.object
  let options := Sql.propertyClause after ResourceType.structuralFields
  match ResourceType.query? after with
  | some query => .ok (start ++ options ++ " AS " ++ query)
  | none => do
    return start ++ " (" ++ ", ".intercalate (← columns urn after) ++ ")" ++ options

def renderTable (urn : Urn) (action : Action) (before after : Option Properties) :
    Except Error (List String) :=
  match action, after with
  | .add, some after => do return [← createTable urn after]
  | .change, some after => .ok (Sql.alter urn.object (Sql.delta before after))
  | .remove, _ => .ok [drop urn]
  | _, _ => execution urn (.noProperties action)

def createView (urn : Urn) (after : Properties) : Except Error String :=
  match ResourceType.query? after with
  | some query =>
    .ok ("CREATE " ++ keywordFor after "secure" ++ urn.object ++
      Sql.propertyClause after ["as_", "secure"] ++ " AS " ++ query)
  | none => invalid urn .viewWithoutQuery

/-- Security of a view is a keyword of its own; the other fields are set and unset. -/
def alterView (urn : Urn) (fields : List (String × Json)) : List String :=
  let (secure, others) := fields.partition fun e => e.1 == "secure"
  secure.map (fun e =>
    "ALTER " ++ urn.object ++ (if e.2.isTrue then " SET" else " UNSET") ++ " SECURE") ++
  Sql.alter urn.object others

def renderView (urn : Urn) (action : Action) (before after : Option Properties) :
    Except Error (List String) :=
  match action, after with
  | .add, some after => do return [← createView urn after]
  | .change, some after => .ok (alterView urn (Sql.delta before after))
  | .remove, _ => .ok [drop urn]
  | _, _ => execution urn (.noProperties action)

/-! ## Grants -/

def param (urn : Urn) (key : String) : Except Error String :=
  match urn.param? key with
  | some value => .ok value
  | none => .error (.invalidUrn (.missingParameter urn key))

def referenced (urn : Urn) (key : String) : Except Error Urn := do
  Urn.ofReference urn.account (← param urn key)

def hasGrantOption (p : Option Properties) : Bool :=
  match p with
  | some p => p.isTrue "grant_option"
  | none => false

def renderPrivilege (urn : Urn) (action : Action) (target : String)
    (before after : Option Properties) : Except Error (List String) := do
  let privilege ← param urn "priv"
  let grantee := (← referenced urn "to").object
  let granting := "GRANT " ++ privilege ++ " ON " ++ target ++ " TO " ++ grantee
  match action with
  | .add => return [if hasGrantOption after then granting ++ " WITH GRANT OPTION" else granting]
  | .change =>
    if hasGrantOption after && !hasGrantOption before then
      return [granting ++ " WITH GRANT OPTION"]
    else
      return ["REVOKE GRANT OPTION FOR " ++ privilege ++ " ON " ++ target ++ " FROM " ++ grantee]
  | .remove => return ["REVOKE " ++ privilege ++ " ON " ++ target ++ " FROM " ++ grantee]
  | other => execution urn (.grantAction other)

def renderGrant (urn : Urn) (action : Action) (before after : Option Properties) :
    Except Error (List String) := do
  renderPrivilege urn action (← referenced urn "on").object before after

def renderScopedGrant (keyword : String) (urn : Urn) (action : Action)
    (before after : Option Properties) : Except Error (List String) := do
  let type ← Urn.readType (← param urn "on_type").toList
  let container := (← referenced urn "in").object
  let target := keyword ++ " " ++ type.keyword ++ "S IN " ++ container
  renderPrivilege urn action target before after

def renderRoleGrant (urn : Urn) (action : Action) : Except Error (List String) :=
  match urn.grantee? with
  | none => .error (.invalidUrn (.noGrantee urn))
  | some grantee =>
    match action with
    | .add => .ok ["GRANT ROLE " ++ urn.name.text ++ " TO " ++ grantee.object]
    | .remove => .ok ["REVOKE ROLE " ++ urn.name.text ++ " FROM " ++ grantee.object]
    | other => execution urn (.roleGrantAction other)

/-! ## Every type -/

/-- The statements of an action on a resource. -/
def render (urn : Urn) (action : Action) (before after : Option Properties) :
    Except Error (List String) :=
  match urn.type with
  | .account => renderAccount urn action before after
  | .table => renderTable urn action before after
  | .view => renderView urn action before after
  | .grant => renderGrant urn action before after
  | .futureGrant => renderScopedGrant "FUTURE" urn action before after
  | .grantOnAll => renderScopedGrant "ALL" urn action before after
  | .roleGrant => renderRoleGrant urn action
  | .database | .schema | .role | .databaseRole | .warehouse | .user =>
    renderObject urn action before after

def transferOwnership (urn : Urn) (owner : String) : String :=
  "GRANT OWNERSHIP ON " ++ urn.object ++ " TO ROLE " ++ owner ++ " COPY CURRENT GRANTS"

end Lifecycle
end Reconcile
