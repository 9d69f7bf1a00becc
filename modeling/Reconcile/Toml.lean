import Reconcile.Toml.Statement
/-!
TOML documents as data of the shape of JSON.
-/

namespace Reconcile
namespace Toml

/-- A document as far as it is read: its tables, and the path of the table that lines add to. -/
structure Draft where
  tree : Tree := .empty
  current : List String := []

namespace Draft

/-- The draft after one more statement; none where it would define something twice. -/
def add? (d : Draft) : Statement → Option Draft
  | .table path => do
    return ⟨← d.tree.update? (Tree.open? (← path.getLast?)) path.dropLast, path⟩
  | .append path => do
    return ⟨← d.tree.update? (Tree.append? (← path.getLast?)) path.dropLast, path⟩
  | .entry path v => do
    return { d with tree := ← d.tree.update? (Tree.assign? v true path) d.current }

end Draft

def parse? (s : String) : Option (List (String × Json)) := do
  let statements ← Statement.read? s.toList
  let draft ← statements.foldlM Draft.add? {}
  return draft.tree.members

end Toml
end Reconcile
