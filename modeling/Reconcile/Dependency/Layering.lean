/-!
Placing items in layers: an item goes into the first layer after everything that it needs, which
makes its layer the length of the longest chain of needs below it.  A queue holds the items that
wait for nothing any more; placing its first one strikes it off wherever it was waited for.  Items
that need one another in a circle, and whatever needs those, never get into the queue.
-/

namespace Reconcile
namespace Dependency

variable {α : Type} [DecidableEq α]

/-- An item that waits for some of its needs. -/
structure Waiting (α : Type) where
  item : α
  needs : List α
  /-- How many of the needs have no layer yet, each counted as often as it is named. -/
  missing : Nat
  /-- The first layer after the needs that have one. -/
  layer : Nat

def Waiting.strike (p : α × Nat) (w : Waiting α) : Waiting α :=
  let times := w.needs.count p.1
  if times = 0 then w
  else { w with missing := w.missing - times, layer := max w.layer (p.2 + 1) }

/-- How far the placing has come: the items with their layers, those that are next, with the layers
that they will get, and those that wait. -/
structure Placement (α : Type) where
  placed : List (α × Nat)
  queue : List (α × Nat)
  waiting : List (Waiting α)

namespace Placement

def release (s : Placement α) : Placement α :=
  let (free, held) := s.waiting.partition fun w => w.missing == 0
  { s with queue := s.queue ++ free.map fun w => (w.item, w.layer), waiting := held }

def start (needs : α → List α) (items : List α) : Placement α :=
  release ⟨[], [], items.map fun x => ⟨x, needs x, (needs x).length, 0⟩⟩

def next? (s : Placement α) : Option (Placement α) :=
  match s.queue with
  | [] => none
  | p :: queue => some (release ⟨s.placed ++ [p], queue, s.waiting.map (Waiting.strike p)⟩)

def run : Nat → Placement α → Placement α
  | 0, s => s
  | steps + 1, s =>
    match s.next? with
    | none => s
    | some t => run steps t

end Placement

/-- The layers of `items`, each of which needs items of the list only.  Every step places an item,
so there are no more steps than items. -/
def layers (needs : α → List α) (items : List α) : List (α × Nat) :=
  ((Placement.start needs items).run items.length).placed

end Dependency
end Reconcile
