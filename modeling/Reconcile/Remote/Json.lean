import Reconcile.Declaration.Json
import Reconcile.Remote.Snapshot
/-!
Remote records as JSON records.
-/

namespace Reconcile
namespace Record

open Json

def fieldNames : List String := ["urn", "properties"]

def ofJson? (v : Json) : Option Record := do
  let fields ← v.fields? fieldNames
  return ⟨← required? fields "urn" Urn.ofJson?,
    ← optional? fields "properties" .empty Properties.ofJson?⟩

def toJson (r : Record) : Json :=
  .object [("urn", .string r.urn.text), ("properties", r.properties.toJson)]

end Record
end Reconcile
