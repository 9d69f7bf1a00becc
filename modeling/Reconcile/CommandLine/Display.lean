import Reconcile.Graph
import Reconcile.Plan.Text
import Reconcile.Run.Execute
/-!
Plans, graphs and reports as lines for a terminal.
-/

namespace Reconcile
namespace CommandLine

/-! ## Marked lines -/

def info (s : String) : String := "ℹ " ++ s

def success (s : String) : String := "✓ " ++ s

def warning (s : String) : String := "⚠ " ++ s

def failure (s : String) : String := "✗ " ++ s

def header (title : String) : List String :=
  ["", title, String.ofList (List.replicate title.length '─')]

def part (title : String) : List String := ["", title]

/-! ## Plans -/

def fieldLines (c : Change) : List String :=
  let diffs := c.fieldDiffs
  diffs.map fun d => "    " ++ d.symbol ++ " " ++ d.line (FieldDiff.width diffs)

def changeLines (c : Change) : List String :=
  ("  " ++ c.action.symbol ++ " " ++ c.urn.text ++ " (" ++ c.action.text ++ ")") ::
    (c.rejection.toList.map fun reason => "    " ++ failure reason) ++ fieldLines c

def levelLines (level : Nat) (changes : List Change) : List String :=
  let changes := changes.filter Change.isActionable
  if changes.isEmpty then [] else part s!"Level {level}" ++ changes.flatMap changeLines

def planLines (p : Plan) : List String :=
  if p.isNoop then [success "No changes. Remote state matches the manifest."]
  else
    let rejected := p.summary.rejected
    p.levels.flatMap (fun l => levelLines l.1 l.2) ++ ["", p.summary.text] ++
      (if rejected = 0 then [] else
        [warning s!"{rejected} change(s) cannot be applied and will fail with their dependents"])

/-! ## Reports -/

def statementLines (r : Report) : List String :=
  if r.statements.isEmpty then [info "Nothing to execute"]
  else r.statements.map fun e => "[" ++ e.role.getD "-" ++ "] " ++ e.sql

def outcomeLine? (o : Outcome) : Option String :=
  match o.status with
  | .applied => none
  | .failed error => some s!"  ✗ {o.urn} ({error})"
  | .skipped reason => some s!"  ⊘ {o.urn} ({reason})"

def failureLines (r : Report) : List String :=
  r.failures.map fun o => s!"  {o.urn} {o.status.label}"

/-! ## Graphs -/

def nodeLines (n : Node) : List String :=
  ("  " ++ n.urn.text) ::
    (n.dependencies.elements.map fun d => s!"    needs {d}") ++
    (n.external.elements.map fun d => s!"    expects {d}")

def graphLines (g : ResourceGraph) : List String :=
  if g.nodes.isEmpty then [info "Manifest declares no resources"]
  else
    (g.levels.zipIdx.flatMap fun l => part s!"Level {l.2}" ++ l.1.flatMap nodeLines) ++
      ["", s!"  resources: {g.nodes.length}", s!"  levels: {g.height}"]

end CommandLine
end Reconcile
