import Reconcile.Plan.Basic
/-!
Plans for a reader.  Each change is a block of its fields, with the equality signs under one
another.
-/

namespace Reconcile

def padded (width : Nat) (s : String) : String :=
  s ++ String.ofList (List.replicate (width - s.length) ' ')

namespace FieldDiff

/-- The width that the keys of fields are given: the greatest size of a key in bytes. -/
def width (diffs : List FieldDiff) : Nat :=
  (diffs.map fun d => d.key.utf8ByteSize).foldl max 0

def line (width : Nat) : FieldDiff → String
  | added key value | removed key value => s!"{padded width key} = {value.render}"
  | changed key before after => s!"{padded width key} = {before.render} -> {after.render}"

end FieldDiff

namespace PlanSummary

def text (s : PlanSummary) : String :=
  s!"Plan: {s.add} to add, {s.change} to change, {s.replace} to replace, " ++
    s!"{s.transfer} to transfer, {s.remove} to remove."

end PlanSummary

namespace Change

/-- The fields of a change as a block in braces, if there are any. -/
def blockText (diffs : List FieldDiff) : String :=
  if diffs.isEmpty then "\n"
  else
    let width := FieldDiff.width diffs
    " \x7b\n" ++ String.join (diffs.map fun d => "  " ++ d.symbol ++ " " ++ d.line width ++ "\n") ++
      "\x7d\n"

def text (c : Change) : String :=
  let reason :=
    match c.rejection with
    | some reason => "  # rejected: " ++ reason
    | none => ""
  c.action.symbol ++ " " ++ c.urn.text ++ reason ++ blockText c.fieldDiffs

end Change

/-- The plan as text: a summary, and the changes that touch the remote. -/
def Plan.text (p : Plan) : String :=
  p.summary.text ++ "\n" ++ String.join (p.actionable.map fun c => "\n" ++ c.text)

end Reconcile
