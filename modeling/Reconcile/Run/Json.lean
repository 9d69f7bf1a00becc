import Reconcile.Plan.Json
import Reconcile.Run.Report
/-!
Reports as JSON records.
-/

namespace Reconcile

open Json

namespace Status

def members (s : Status) : List (String × Json) :=
  ("status", .string s.label) ::
    match s with
    | applied => []
    | failed error => [("error", .string error)]
    | skipped reason => [("reason", .string reason)]

def toJson (s : Status) : Json := .object s.members

def tagged? : Json → Option (String × Json)
  | .array (.string label :: rest) => some (label, .array rest)
  | v => do return (← (v.member? "status").bind asString?, v)

def ofJson? (v : Json) : Option Status := do
  let (label, content) ← tagged? v
  match label with
  | "applied" => do
    let _ ← content.fields? []
    return applied
  | "failed" => do return failed (← required? (← content.fields? ["error"]) "error" decodeString?)
  | "skipped" => do
    return skipped (← required? (← content.fields? ["reason"]) "reason" decodeString?)
  | _ => none

end Status

def Executed.toJson (e : Executed) : Json :=
  .object [("urn", .string e.urn.text), ("role", .ofString? e.role), ("sql", .string e.sql)]

def Outcome.toJson (o : Outcome) : Json :=
  .object ([("urn", .string o.urn.text), ("action", .string o.action.text),
      ("level", .ofNat o.level)] ++ o.status.members ++
    [("statements", .array (o.statements.map Executed.toJson))])

def Report.toJson (r : Report) : Json :=
  .object [("dry_run", .bool r.dryRun), ("outcomes", .array (r.outcomes.map Outcome.toJson)),
    ("statements", .array (r.statements.map Executed.toJson))]

def RunSummary.toJson (s : RunSummary) : Json :=
  .object [("added", .ofNat s.added), ("changed", .ofNat s.changed),
    ("replaced", .ofNat s.replaced), ("transferred", .ofNat s.transferred),
    ("removed", .ofNat s.removed), ("unchanged", .ofNat s.unchanged),
    ("skipped", .ofNat s.skipped), ("failed", .ofNat s.failed)]

end Reconcile
