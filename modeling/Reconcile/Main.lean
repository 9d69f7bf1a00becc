import Reconcile.CommandLine.Commands
/-!
The entry point: reads the files that the arguments name, runs the program and prints what it leaves
behind.
-/

open Reconcile

def readFile? (name : String) : IO (Option String) := do
  try return some (← IO.FS.readFile name)
  catch _ => return none

def main (args : List String) : IO UInt32 := do
  let account ← IO.getEnv "SNOWPLAN_ACCOUNT"
  let names := CommandLine.filesOf args account
  let contents ← names.mapM fun name => do return (name, ← readFile? name)
  let ending := CommandLine.program args account fun name => (contents.lookup name).join
  ending.stderr.forM IO.eprintln
  ending.stdout.forM IO.println
  return ending.exitCode.toUInt32
