import Reconcile.Declaration.Json
import Reconcile.Plan.Basic
/-!
Changes as JSON records, and the written form of a plan.
-/

namespace Reconcile

open Json

def Action.ofJson? : Json → Option Action := decodeTag? ofText?

namespace Statement

def toJson (s : Statement) : Json := .object [("role", .string s.role), ("sql", .string s.sql)]

def ofJson? (v : Json) : Option Statement := do
  let fields ← v.fields? ["role", "sql"]
  return ⟨← required? fields "role" decodeString?, ← required? fields "sql" decodeString?⟩

end Statement

namespace SessionNeeds

def toJson (s : SessionNeeds) : Json :=
  .object (optionalMember "warehouse" (s.warehouse.map .string) ++
    optionalMember "schema" (s.schema.map fun p => .array [.string p.1, .string p.2]))

def ofJson? (v : Json) : Option SessionNeeds := do
  let fields ← v.fields? ["warehouse", "schema"]
  return ⟨← optional? fields "warehouse" none (decodeOption? decodeString?),
    ← optional? fields "schema" none (decodeOption? decodePair?)⟩

end SessionNeeds

namespace Change

def fieldNames : List String :=
  ["urn", "action", "level", "before", "after", "statements", "session", "depends_on", "rejection"]

/-- The change as a JSON record; what is missing in it is left out, an empty list of dependencies
as well. -/
def toJson (c : Change) : Json :=
  let dependsOn := c.dependsOn.map fun u => Json.string u.text
  .object ([("urn", .string c.urn.text), ("action", .string c.action.text),
      ("level", .ofNat c.level)] ++
    optionalMember "before" (c.before.map Properties.toJson) ++
    optionalMember "after" (c.after.map Properties.toJson) ++
    [("statements", .array (c.statements.map Statement.toJson)), ("session", c.session.toJson)] ++
    optionalMember "depends_on" (if dependsOn.isEmpty then none else some (.array dependsOn)) ++
    optionalMember "rejection" (c.rejection.map .string))

def ofJson? (v : Json) : Option Change := do
  let fields ← v.fields? fieldNames
  return {
    urn := ← required? fields "urn" Urn.ofJson?
    action := ← required? fields "action" Action.ofJson?
    level := ← required? fields "level" decodeCount?
    before := ← optional? fields "before" none (decodeOption? Properties.ofJson?)
    after := ← optional? fields "after" none (decodeOption? Properties.ofJson?)
    statements := ← optional? fields "statements" [] (decodeList? Statement.ofJson?)
    session := ← optional? fields "session" {} SessionNeeds.ofJson?
    dependsOn := ← optional? fields "depends_on" [] (decodeList? Urn.ofJson?)
    rejection := ← optional? fields "rejection" none (decodeOption? decodeString?) }

end Change

namespace PlanSummary

def toJson (s : PlanSummary) : Json :=
  .object [("add", .ofNat s.add), ("change", .ofNat s.change), ("replace", .ofNat s.replace),
    ("transfer", .ofNat s.transfer), ("remove", .ofNat s.remove), ("noop", .ofNat s.noop),
    ("rejected", .ofNat s.rejected)]

end PlanSummary

namespace Plan

def toJson (p : Plan) : Json := .array (p.changes.map Change.toJson)

/-- The written form of a plan: the changes that touch the remote, as indented JSON text. -/
def exported (p : Plan) : String := renderIndented (.array (p.actionable.map Change.toJson))

def imported? (s : String) : Option (List Change) :=
  (Json.parse? s).bind (decodeList? Change.ofJson?)

end Plan
end Reconcile
