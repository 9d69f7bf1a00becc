import Reconcile.Collection.SortedMap
/-!
Finite sets held as a strictly increasing list of elements.  Main statement: `mem_insert`.
-/

namespace Reconcile

structure SortedSet (α : Type) [Ord α] where
  elements : List α
  increasing : elements.Pairwise (fun a b => compare a b = .lt)

namespace SortedSet

variable {α : Type} [Ord α]

instance [DecidableEq α] : DecidableEq (SortedSet α) := fun s t =>
  decidable_of_iff (s.elements = t.elements) <| by
    cases s; cases t; simp

instance : Inhabited (SortedSet α) := ⟨⟨[], .nil⟩⟩

instance : Membership α (SortedSet α) := ⟨fun s a => a ∈ s.elements⟩

instance [DecidableEq α] (a : α) (s : SortedSet α) : Decidable (a ∈ s) :=
  inferInstanceAs (Decidable (a ∈ s.elements))

def empty : SortedSet α := ⟨[], .nil⟩

def isEmpty (s : SortedSet α) : Bool := s.elements.isEmpty

def contains (s : SortedSet α) (a : α) : Bool := s.elements.any fun b => compare b a == .eq

/-- Put an element at its place in an increasing list, unless it is there. -/
def place (a : α) : List α → List α
  | [] => [a]
  | b :: rest =>
    match compare a b with
    | .lt => a :: b :: rest
    | .eq => b :: rest
    | .gt => b :: place a rest

theorem mem_of_mem_place {a b : α} {l : List α} (h : b ∈ place a l) : b = a ∨ b ∈ l := by
  induction l with
  | nil => simpa [place] using h
  | cons d rest ih =>
    rw [place] at h
    split at h
    · simpa using h
    · exact .inr h
    · rcases List.mem_cons.mp h with h | h
      · exact .inr (h ▸ List.mem_cons_self)
      · exact (ih h).imp_right (List.mem_cons_of_mem _)

theorem place_increasing [Std.TransOrd α] (a : α) {l : List α}
    (h : l.Pairwise (fun a b => compare a b = .lt)) :
    (place a l).Pairwise (fun a b => compare a b = .lt) := by
  induction l with
  | nil => simp [place]
  | cons d rest ih =>
    obtain ⟨hd, hrest⟩ := List.pairwise_cons.mp h
    rw [place]
    split
    next hlt =>
      refine List.pairwise_cons.mpr ⟨fun e he => ?_, h⟩
      rcases List.mem_cons.mp he with rfl | he
      · exact hlt
      · exact Std.TransCmp.lt_trans hlt (hd e he)
    · exact h
    next hgt =>
      refine List.pairwise_cons.mpr ⟨fun e he => ?_, ih hrest⟩
      rcases mem_of_mem_place he with rfl | he
      · exact Std.OrientedCmp.gt_iff_lt.mp hgt
      · exact hd e he

def insert [Std.TransOrd α] (s : SortedSet α) (a : α) : SortedSet α :=
  ⟨place a s.elements, place_increasing a s.increasing⟩

def filter (s : SortedSet α) (p : α → Bool) : SortedSet α :=
  ⟨s.elements.filter p, s.increasing.filter _⟩

def erase (s : SortedSet α) (a : α) : SortedSet α := s.filter fun b => compare b a != .eq

def ofList [Std.TransOrd α] (l : List α) : SortedSet α := l.foldl insert empty

def insertMany [Std.TransOrd α] (s : SortedSet α) (l : List α) : SortedSet α := l.foldl insert s

/-! ## Membership -/

theorem mem_place [Std.LawfulEqOrd α] {a b : α} {l : List α} :
    b ∈ place a l ↔ b = a ∨ b ∈ l := by
  refine ⟨mem_of_mem_place, fun h => ?_⟩
  induction l with
  | nil => simpa [place] using h
  | cons d rest ih =>
    rw [place]
    split
    · simpa using h
    next heq =>
      rcases h with rfl | h
      · exact Std.LawfulEqCmp.eq_of_compare heq ▸ List.mem_cons_self
      · exact h
    · rcases h with h | h
      · exact List.mem_cons_of_mem _ (ih (.inl h))
      · rcases List.mem_cons.mp h with h | h
        · exact h ▸ List.mem_cons_self
        · exact List.mem_cons_of_mem _ (ih (.inr h))

theorem mem_insert [Std.TransOrd α] [Std.LawfulEqOrd α] {s : SortedSet α} {a b : α} :
    b ∈ s.insert a ↔ b = a ∨ b ∈ s := mem_place

end SortedSet

end Reconcile
