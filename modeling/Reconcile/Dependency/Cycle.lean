/-!
Circles of needs among the items that get no layer, by Tarjan's search for strongly connected
components.  The search keeps its own stack of work in place of a recursion.
-/

namespace Reconcile
namespace Dependency

variable {α : Type} [DecidableEq α]

/-- An item whose needs are being looked at, and those of them that are left. -/
structure Frame (α : Type) where
  item : α
  rest : List α

/-- How far the search has come. -/
structure Search (α : Type) where
  /-- The numbers of the items that were entered, in the order of entering. -/
  order : α → Option Nat
  /-- The lowest number on the stack that an item is known to lead to. -/
  low : α → Nat
  onStack : α → Bool
  /-- The items that were entered and whose components are not complete, the newest first. -/
  stack : List α
  next : Nat
  work : List (Frame α)
  cycles : List (List α)

namespace Search

def start : Search α where
  order := fun _ => none
  low := fun _ => 0
  onStack := fun _ => false
  stack := []
  next := 0
  work := []
  cycles := []

/-- Give `x` the next number, put it on the stack, and begin with what it needs. -/
def enter (edges : α → List α) (s : Search α) (x : α) : Search α :=
  { s with
    order := fun y => if y = x then some s.next else s.order y
    low := fun y => if y = x then s.next else s.low y
    onStack := fun y => if y = x then true else s.onStack y
    stack := x :: s.stack
    next := s.next + 1
    work := ⟨x, edges x⟩ :: s.work }

def lower (s : Search α) (x : α) (n : Nat) : Search α :=
  { s with low := fun y => if y = x then min (s.low x) n else s.low y }

/-- Look at `y`, which `x` needs.  What is off the stack lies in a component that is complete. -/
def look (edges : α → List α) (s : Search α) (x y : α) : Search α :=
  match s.order y with
  | none => s.enter edges y
  | some n => if s.onStack y then s.lower x n else s

def popTo (x : α) : List α → List α × List α
  | [] => ([], [])
  | y :: stack =>
    if y = x then ([y], stack)
    else
      let (component, below) := popTo x stack
      (y :: component, below)

/-- Take the component of `x` off the stack; list it, in the order of `items`, if it has more than
one member or `x` needs itself. -/
def close (edges : α → List α) (items : List α) (s : Search α) (x : α) : Search α :=
  let (component, below) := popTo x s.stack
  let cycles :=
    if 1 < component.length || (edges x).contains x then
      s.cycles ++ [items.filter component.contains]
    else s.cycles
  { s with
    onStack := fun y => s.onStack y && !component.contains y
    stack := below
    cycles }

/-- Go back from `x` to the item that it was entered from, with `work` left to do: what `x` leads
to, that item leads to as well. -/
def back (s : Search α) (x : α) (work : List (Frame α)) : Search α :=
  match work with
  | [] => { s with work }
  | parent :: _ => { s with work }.lower parent.item (s.low x)

/-- Leave `x`.  If it leads to nothing below itself on the stack, its component is complete. -/
def leave (edges : α → List α) (items : List α) (s : Search α) (x : α) (work : List (Frame α)) :
    Search α :=
  let s := s.back x work
  if s.order x = some (s.low x) then s.close edges items x else s

def step? (edges : α → List α) (items : List α) (s : Search α) : Option (Search α) :=
  match s.work with
  | [] => none
  | ⟨x, y :: rest⟩ :: work => some (look edges { s with work := ⟨x, rest⟩ :: work } x y)
  | ⟨x, []⟩ :: work => some (s.leave edges items x work)

def run (edges : α → List α) (items : List α) : Nat → Search α → Search α
  | 0, s => s
  | steps + 1, s =>
    match s.step? edges items with
    | none => s
    | some t => run edges items steps t

/-- How many steps a search takes: it looks at every need of an item and leaves the item. -/
def bound (edges : α → List α) (items : List α) : Nat := (items.flatMap edges).length + items.length

def visit (edges : α → List α) (items : List α) (s : Search α) (x : α) : Search α :=
  match s.order x with
  | some _ => s
  | none => (s.enter edges x).run edges items (bound edges items)

end Search

/-- The components of `items` that loop, each of which needs items of the list only. -/
def circles (edges : α → List α) (items : List α) : List (List α) :=
  (items.foldl (Search.visit edges items) .start).cycles

/-- The circles among the items that are not in `layers`. -/
def cycles (needs : α → List α) (layers : List (α × Nat)) (items : List α) : List (List α) :=
  let stuck := fun x => (layers.lookup x).isNone
  circles (fun x => (needs x).filter stuck) (items.filter stuck)

end Dependency
end Reconcile
