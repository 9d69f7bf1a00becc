import Reconcile.Json.Reader
import Reconcile.Collection.SortedSet
/-!
Strict readings of JSON values as data of a given shape.  A record is an object with the record's
fields, among others, or the array of the first of its fields in order.
-/

namespace Reconcile
namespace Json

def decodeString? : Json → Option String
  | string s => some s
  | _ => none

def decodeBool? : Json → Option Bool
  | bool b => some b
  | _ => none

/-- A natural number of 64 bits, written as an integer. -/
def decodeCount? : Json → Option Nat
  | number (.integer n) => if 0 ≤ n && n.toNat < UInt64.size then some n.toNat else none
  | _ => none

def decodeInteger? : Json → Option Int
  | number (.integer n) =>
    if Int64.minValue.toInt ≤ n && n ≤ Int64.maxValue.toInt then some n else none
  | _ => none

def decodeList? {α : Type} (f : Json → Option α) : Json → Option (List α)
  | array xs => xs.mapM f
  | _ => none

def decodePair? : Json → Option (String × String)
  | array [string a, string b] => some (a, b)
  | _ => none

def decodeOption? {α : Type} (f : Json → Option α) : Json → Option (Option α)
  | null => some none
  | v => (f v).map some

def decodeMap? {α : Type} (f : Json → Option α) : Json → Option (SortedMap String α)
  | object ms => (ms.mapM fun m => (f m.2).map (m.1, ·)).map .ofList
  | _ => none

/-- A name out of a fixed set, alone or as the one key of an object that holds null. -/
def decodeTag? {α : Type} (f : String → Option α) : Json → Option α
  | string s => f s
  | object [(s, null)] => f s
  | _ => none

/-- The fields of a record that are given: members with one of the names, none of them twice, or
the items of an array in the order of the names. -/
def fields? (names : List String) : Json → Option (List (String × Json))
  | object ms =>
    let known := ms.filter fun m => names.contains m.1
    if (known.map (·.1)).Nodup then some known else none
  | array xs => if xs.length ≤ names.length then some (names.zip xs) else none
  | _ => none

def required? {α : Type} (fields : List (String × Json)) (name : String) (f : Json → Option α) :
    Option α := do
  f (← fields.lookup name)

def optional? {α : Type} (fields : List (String × Json)) (name : String) (default : α)
    (f : Json → Option α) : Option α :=
  match fields.lookup name with
  | some v => f v
  | none => some default

end Json
end Reconcile
