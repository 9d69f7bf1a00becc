import Reconcile.Config
import Reconcile.Json.Decode
/-!
The configuration as a JSON record.  Every field may be missing and then has its default.
-/

namespace Reconcile

def Scope.ofText? (s : String) : Option Scope :=
  [account, database, schema].find? fun x => x.text == s

def GrantListing.ofText? (s : String) : Option GrantListing :=
  [bulk, perObject].find? fun x => x.text == s

def Edition.ofText? (s : String) : Option Edition :=
  [standard, enterprise, businessCritical].find? fun x => x.text == s

def ResourceType.ofJson? : Json → Option ResourceType := Json.decodeTag? ofTag?

namespace Config

def fieldNames : List String :=
  ["name", "account", "scope", "database", "schema", "sync_resources", "dry_run", "threads",
    "grant_fetch", "use_secondary_roles", "warehouse", "edition"]

open Json in
def ofJson? (v : Json) : Option Config := do
  let fields ← v.fields? fieldNames
  let text? := decodeOption? decodeString?
  return {
    name := ← optional? fields "name" none text?
    account := ← optional? fields "account" "" decodeString?
    scope := ← optional? fields "scope" .account (decodeTag? Scope.ofText?)
    database := ← optional? fields "database" none text?
    schema := ← optional? fields "schema" none text?
    syncResources := ← optional? fields "sync_resources" none
      (decodeOption? (decodeList? ResourceType.ofJson?))
    dryRun := ← optional? fields "dry_run" false decodeBool?
    threads := ← optional? fields "threads" 8 decodeCount?
    grantFetch := ← optional? fields "grant_fetch" .perObject (decodeTag? GrantListing.ofText?)
    useSecondaryRoles := ← optional? fields "use_secondary_roles" true decodeBool?
    warehouse := ← optional? fields "warehouse" none text?
    edition := ← optional? fields "edition" .enterprise (decodeTag? Edition.ofText?) }

def typesJson (types : List ResourceType) : Json := .array (types.map fun t => .string t.tag)

def toJson (c : Config) : Json :=
  .object [
    ("name", .ofString? c.name),
    ("account", .string c.account),
    ("scope", .string c.scope.text),
    ("database", .ofString? c.database),
    ("schema", .ofString? c.schema),
    ("sync_resources", match c.syncResources with | some ts => typesJson ts | none => .null),
    ("dry_run", .bool c.dryRun),
    ("threads", .ofNat c.threads),
    ("grant_fetch", .string c.grantFetch.text),
    ("use_secondary_roles", .bool c.useSecondaryRoles),
    ("warehouse", .ofString? c.warehouse),
    ("edition", .string c.edition.text)]

end Config
end Reconcile
