import Reconcile.Json.Basic
/-!
The tables of a TOML document while it is read.  How a table came into being decides what may still
be added to it.
-/

namespace Reconcile
namespace Toml

/-- How a table came into being. -/
inductive Origin where
  | implied
  | dotted
  | opened
deriving DecidableEq, Repr

inductive Tree where
  | leaf (value : Json)
  | table (origin : Origin) (members : List (String × Tree))
  | list (tables : List Tree)

namespace Tree

def empty : Tree := table .opened []

def replace (key : String) (t : Tree) (members : List (String × Tree)) : List (String × Tree) :=
  members.map fun m => if m.1 == key then (key, t) else m

/-- Change the table at a path.  Tables that are missing on the way are made, and of a list of
tables the last one is meant. -/
def update? (f : Tree → Option Tree) : List String → Tree → Option Tree
  | [], t => f t
  | k :: path, table o ms =>
    match ms.lookup k with
    | none => (update? f path (table .implied [])).map fun t => table o (ms ++ [(k, t)])
    | some (list (t :: ts)) =>
      (update? f path t).map fun t => table o (replace k (list (t :: ts)) ms)
    | some t => (update? f path t).map fun t => table o (replace k t ms)
  | _ :: _, _ => none

def open? (key : String) : Tree → Option Tree
  | table o ms =>
    match ms.lookup key with
    | none => some (table o (ms ++ [(key, empty)]))
    | some (table .implied sub) => some (table o (replace key (table .opened sub) ms))
    | _ => none
  | _ => none

def append? (key : String) : Tree → Option Tree
  | table o ms =>
    match ms.lookup key with
    | none => some (table o (ms ++ [(key, list [empty])]))
    | some (list ts) => some (table o (replace key (list (empty :: ts)) ms))
    | _ => none
  | _ => none

/-- Set a key with dots.  A table on the way must not have a header of its own, and the last one
cannot be given a header any more; `top` tells the table that the key starts from. -/
def assign? (value : Json) (top : Bool) : List String → Tree → Option Tree
  | [k], table o ms =>
    if (ms.lookup k).isSome || (!top && o = .opened) then none
    else some (table (if top then o else .dotted) (ms ++ [(k, leaf value)]))
  | k :: path, table o ms =>
    match ms.lookup k with
    | none =>
      (assign? value false path (table .dotted [])).map fun t => table o (ms ++ [(k, t)])
    | some (table .opened _) => none
    | some (list (t :: ts)) =>
      (assign? value false path t).map fun t => table o (replace k (list (t :: ts)) ms)
    | some t => (assign? value false path t).map fun t => table o (replace k t ms)
  | _, _ => none

/-- A bare word is written as a table with that word as its key and nothing under it; JSON has null
in this place. -/
def orNull : Json → Json
  | .object [] => .null
  | .array [] => .null
  | v => v

mutual

def toJson : Tree → Json
  | leaf v => v
  | table _ ms => .object (innerMembers ms)
  | list ts => .array (items ts).reverse

def innerMembers : List (String × Tree) → List (String × Json)
  | [] => []
  | (k, t) :: ms => (k, orNull t.toJson) :: innerMembers ms

def items : List Tree → List Json
  | [] => []
  | t :: ts => t.toJson :: items ts

end

def members : Tree → List (String × Json)
  | table _ ms => ms.map fun m => (m.1, m.2.toJson)
  | _ => []

/-- The table that keys with dots and their values make up. -/
def ofLines? (lines : List (List String × Json)) : Option Tree :=
  lines.foldlM (fun t l => t.assign? l.2 true l.1) empty

end Tree
end Toml
end Reconcile
