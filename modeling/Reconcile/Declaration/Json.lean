import Reconcile.Config.Json
import Reconcile.Declaration.Basic
import Reconcile.Urn.Reader
/-!
Declarations as JSON records.
-/

namespace Reconcile

open Json

def Urn.ofJson? (v : Json) : Option Urn := (decodeString? v).bind parse?

def Reference.namedOfJson? : Json → Option Reference
  | .object ms => do
    let fields ← (Json.object ms).fields? ["type", "name", "container"]
    return .named (← required? fields "type" ResourceType.ofJson?)
      (← required? fields "name" decodeString?)
      (← optional? fields "container" [] (decodeList? decodeString?))
  | _ => none

/-- A reference is the text of an address, or an object with type, name and container. -/
def Reference.ofJson? (v : Json) : Option Reference :=
  match Urn.ofJson? v with
  | some u => some (.urn u)
  | none => namedOfJson? v

def Declaration.ofJson? (v : Json) : Option Declaration := do
  let fields ← v.fields? ["type", "name", "container", "properties", "references"]
  return {
    type := ← required? fields "type" ResourceType.ofJson?
    name := ← optional? fields "name" "" decodeString?
    container := ← optional? fields "container" [] (decodeList? decodeString?)
    properties := ← optional? fields "properties" .empty Properties.ofJson?
    references := ← optional? fields "references" .empty (decodeMap? Reference.ofJson?) }

end Reconcile
