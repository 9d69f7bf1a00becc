import Reconcile.Error
/-!
The vocabulary of privileges.  A declared privilege is a name or a list of names in any case and
spacing, and `ALL` stands for the privileges of the target's type.
-/

namespace Reconcile
namespace Privilege

/-- The privilege that is declared as the owner of a resource and never granted. -/
def ownership : String := "OWNERSHIP"

/-- What `ALL` stands for on a type; nothing where `ALL` has no meaning. -/
def allOn : ResourceType → List String
  | .account =>
    ["CREATE DATABASE", "CREATE ROLE", "CREATE USER", "CREATE WAREHOUSE", "EXECUTE TASK",
      "MANAGE GRANTS", "MONITOR EXECUTION", "MONITOR USAGE"]
  | .database =>
    ["APPLYBUDGET", "CREATE DATABASE ROLE", "CREATE SCHEMA", "MODIFY", "MONITOR", "USAGE"]
  | .schema =>
    ["ADD SEARCH OPTIMIZATION", "APPLYBUDGET", "CREATE FUNCTION", "CREATE PROCEDURE",
      "CREATE SEQUENCE", "CREATE STAGE", "CREATE STREAM", "CREATE TABLE", "CREATE TASK",
      "CREATE VIEW", "MODIFY", "MONITOR", "USAGE"]
  | .warehouse => ["APPLYBUDGET", "MODIFY", "MONITOR", "OPERATE", "USAGE"]
  | .table =>
    ["DELETE", "EVOLVE SCHEMA", "INSERT", "REBUILD", "REFERENCES", "SELECT", "TRUNCATE", "UPDATE"]
  | .view => ["REFERENCES", "SELECT"]
  | .user => ["MONITOR"]
  | _ => []

def isAll (name : String) : Bool := name == "ALL" || name == "ALL PRIVILEGES"

/-- A name in upper case with single blanks. -/
def canonicalName (name : String) : String :=
  Text.upperCase (" ".intercalate ((Text.words name.toList).map String.ofList))

def texts : Option Json → Except DeclarationFault (List String)
  | some (.string p) => .ok [p]
  | some (.array items) => items.mapM fun v =>
    match v with
    | .string p => .ok p
    | other => .error (.privilegeNotText other)
  | some other => .error (.privilegesNotText other)
  | none => .error .missingPrivileges

def denoted (type : ResourceType) (text : String) : Except DeclarationFault (List String) :=
  let name := canonicalName text
  if name = ownership then .error .ownershipGrant
  else if isAll name then
    if (allOn type).isEmpty then .error (.allMeaningless type) else .ok (allOn type)
  else .ok [name]

/-- The privileges that a declared value denotes on a type, each once, in the order of their first
appearance. -/
def expand (label : String) (value : Option Json) (type : ResourceType) :
    Except Error (List String) :=
  let result : Except DeclarationFault (List String) := do
    let names ← texts value
    if names.isEmpty then throw .noPrivileges
    return (← names.mapM (denoted type)).flatten.eraseDups
  result.mapError (.invalidDeclaration label)

end Privilege
end Reconcile
