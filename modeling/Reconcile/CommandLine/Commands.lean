import Reconcile.CommandLine.Display
import Reconcile.CommandLine.Inputs
import Reconcile.Plan.Json
/-!
The program as a function of its arguments, the environment and the files that it can read.
-/

namespace Reconcile
namespace CommandLine

structure Output where
  stdout : List String := []
  stderr : List String := []
  failure : Option Failure := none
deriving DecidableEq

/-- The output of a command that ended early, or with the given lines. -/
def Output.ofLines : Except Failure (List String) → Output
  | .ok stdout => { stdout }
  | .error e => { failure := some e }

def titled (quiet : Bool) (title : String) (lines : List String) : List String :=
  if quiet then lines else header title ++ lines

def showPlan (i : Invocation) (format : Format) (files : Files) : Except Failure (List String) := do
  let loaded ← i.inputs.load files
  let plan ← loaded.plan
  match format with
  | .json => return [plan.exported]
  | .text => return titled i.quiet s!"Plan for {loaded.reconciler.config.account}" (planLines plan)

def showGraph (i : Invocation) (files : Files) : Except Failure (List String) := do
  let loaded ← i.inputs.load files
  let graph ← reconciling (loaded.reconciler.buildGraph loaded.declarations)
  return titled i.quiet "Dependency graph" (graphLines graph)

def dryRun (i : Invocation) (files : Files) : Except Failure Report := do
  let loaded ← i.inputs.load files
  reconciling (loaded.reconciler.dryRun (← loaded.plan))

/-- The output about a dry run: its statements, and what did not apply. -/
def reportOutput (i : Invocation) (r : Report) : Output :=
  let s := r.summary
  if r.isSuccess then
    let counts := [success s!"{r.statements.length} statements for {s.totalChanges} changes"]
    { stdout := statementLines r ++ if i.verbose then counts else [] }
  else
    { stdout := statementLines r ++ failureLines r
      stderr := (if i.quiet then [] else r.outcomes.filterMap outcomeLine?) ++
        [failure s!"{s.failed} failed, {s.skipped} skipped"]
      failure := some .incomplete }

def showStatements (i : Invocation) (files : Files) : Output :=
  match dryRun i files with
  | .ok r => reportOutput i r
  | .error e => { failure := some e }

def Invocation.run (i : Invocation) (files : Files) : Output :=
  match i.task with
  | .plan format => .ofLines (showPlan i format files)
  | .sql => showStatements i files
  | .graph => .ofLines (showGraph i files)

/-! ## The program -/

def programName : String := "snowplan"

def version : String := "0.1.0"

def versionLine (command : Option String) : String :=
  "-".intercalate (programName :: command.toList) ++ " " ++ version

inductive Ending where
  | usage (e : UsageError)
  | output (o : Output)
deriving DecidableEq

namespace Ending

def exitCode : Ending → Nat
  | usage _ => 2
  | output o => if o.failure.isSome then 1 else 0

def stdout : Ending → List String
  | usage _ => []
  | output o => o.stdout

/-- The lines on the standard error; the last one tells why the program failed. -/
def stderr : Ending → List String
  | usage e => ["error: " ++ e.message]
  | output o => o.stderr ++ o.failure.toList.map fun f => "Error: " ++ f.message

end Ending

def program (args : List String) (account : Option String) (files : Files) : Ending :=
  match read args account with
  | .error e => .usage e
  | .ok (.version command) => .output { stdout := [versionLine command] }
  | .ok (.run i) => .output (i.run files)

def filesOf (args : List String) (account : Option String) : List String :=
  match read args account with
  | .ok (.run i) => i.inputs.manifest :: (i.inputs.state.toList ++ i.inputs.config.toList)
  | _ => []

end CommandLine
end Reconcile
