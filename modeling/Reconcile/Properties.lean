import Reconcile.Json.Printer
/-!
The property bag of a resource: JSON values by name, in name order.
-/

namespace Reconcile

abbrev Properties := SortedMap String Json

namespace Properties

/-- Same keys with equal values, numbers taken as numbers. -/
def same (p q : Properties) : Bool := p.agrees Json.same q

def text? (p : Properties) (key : String) : Option String := (p.get? key).bind Json.asString?

def isTrue (p : Properties) (key : String) : Bool :=
  match p.get? key with
  | some v => v.isTrue
  | none => false

def natural? (p : Properties) (key : String) : Option Nat :=
  match p.get? key with
  | some (.number (.integer n)) => if 0 ≤ n then some n.toNat else none
  | _ => none

def mapText (p : Properties) (key : String) (f : String → String) : Properties :=
  p.modify key fun v =>
    match v with
    | .string s => .string (f s)
    | v => v

def upperCase (p : Properties) (keys : List String) : Properties :=
  keys.foldl (fun p key => p.mapText key Text.upperCase) p

def toJson (p : Properties) : Json := .object p.entries

def ofJson? : Json → Option Properties
  | .object ms => some (Json.canonicalMembers ms)
  | _ => none

end Properties
end Reconcile
