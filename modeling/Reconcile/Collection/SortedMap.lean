/-!
Finite maps held as a list of entries in strictly increasing key order.  Order is part of the
value, so two maps with the same content are equal, and walking a map visits its keys in order.
Main statements: `get?_insert_self` and `get?_insert_of_ne`.
-/

namespace Reconcile

/-- A finite map in key order. -/
structure SortedMap (κ : Type) [Ord κ] (α : Type) where
  entries : List (κ × α)
  increasing : entries.Pairwise (fun a b => compare a.1 b.1 = .lt)

namespace SortedMap

variable {κ α β : Type} [Ord κ]

instance [DecidableEq κ] [DecidableEq α] : DecidableEq (SortedMap κ α) := fun m n =>
  decidable_of_iff (m.entries = n.entries) <| by
    cases m; cases n; simp

instance : Inhabited (SortedMap κ α) := ⟨⟨[], .nil⟩⟩

def empty : SortedMap κ α := ⟨[], .nil⟩

def get? (m : SortedMap κ α) (k : κ) : Option α :=
  (m.entries.find? fun e => compare e.1 k == .eq).map (·.2)

def contains (m : SortedMap κ α) (k : κ) : Bool := (m.get? k).isSome

def keys (m : SortedMap κ α) : List κ := m.entries.map (·.1)

def values (m : SortedMap κ α) : List α := m.entries.map (·.2)

def size (m : SortedMap κ α) : Nat := m.entries.length

def isEmpty (m : SortedMap κ α) : Bool := m.entries.isEmpty

/-- Put an entry at its place in a list of entries, replacing the entry of an equal key. -/
def place (k : κ) (v : α) : List (κ × α) → List (κ × α)
  | [] => [(k, v)]
  | e :: rest =>
    match compare k e.1 with
    | .lt => (k, v) :: e :: rest
    | .eq => (k, v) :: rest
    | .gt => e :: place k v rest

theorem mem_place {k : κ} {v : α} {l : List (κ × α)} {e : κ × α} (h : e ∈ place k v l) :
    e = (k, v) ∨ e ∈ l := by
  induction l with
  | nil => simpa [place] using h
  | cons d rest ih =>
    rw [place] at h
    split at h
    · simpa using h
    · rcases List.mem_cons.mp h with h | h
      · exact .inl h
      · exact .inr (List.mem_cons_of_mem _ h)
    · rcases List.mem_cons.mp h with h | h
      · exact .inr (h ▸ List.mem_cons_self)
      · exact (ih h).imp_right (List.mem_cons_of_mem _)

theorem place_increasing [Std.TransOrd κ] (k : κ) (v : α) {l : List (κ × α)}
    (h : l.Pairwise (fun a b => compare a.1 b.1 = .lt)) :
    (place k v l).Pairwise (fun a b => compare a.1 b.1 = .lt) := by
  induction l with
  | nil => simp [place]
  | cons d rest ih =>
    obtain ⟨hd, hrest⟩ := List.pairwise_cons.mp h
    rw [place]
    split
    next hlt =>
      refine List.pairwise_cons.mpr ⟨fun e he => ?_, h⟩
      rcases List.mem_cons.mp he with rfl | he
      · exact hlt
      · exact Std.TransCmp.lt_trans hlt (hd e he)
    next heq =>
      refine List.pairwise_cons.mpr ⟨fun e he => ?_, hrest⟩
      exact (Std.TransCmp.congr_left heq).trans (hd e he)
    next hgt =>
      refine List.pairwise_cons.mpr ⟨fun e he => ?_, ih hrest⟩
      rcases mem_place he with rfl | he
      · exact Std.OrientedCmp.gt_iff_lt.mp hgt
      · exact hd e he

def insert [Std.TransOrd κ] (m : SortedMap κ α) (k : κ) (v : α) : SortedMap κ α :=
  ⟨place k v m.entries, place_increasing k v m.increasing⟩

def erase (m : SortedMap κ α) (k : κ) : SortedMap κ α :=
  ⟨m.entries.filter fun e => compare e.1 k != .eq, m.increasing.filter _⟩

def filter (m : SortedMap κ α) (p : κ → α → Bool) : SortedMap κ α :=
  ⟨m.entries.filter fun e => p e.1 e.2, m.increasing.filter _⟩

def mapValues (m : SortedMap κ α) (f : κ → α → β) : SortedMap κ β :=
  ⟨m.entries.map fun e => (e.1, f e.1 e.2), by
    simpa [List.pairwise_map] using m.increasing⟩

def modify (m : SortedMap κ α) (k : κ) (f : α → α) : SortedMap κ α :=
  m.mapValues fun k' v => if compare k' k == .eq then f v else v

def ofList [Std.TransOrd κ] (l : List (κ × α)) : SortedMap κ α :=
  l.foldl (fun m e => m.insert e.1 e.2) empty

def agrees (r : α → α → Bool) (m n : SortedMap κ α) : Bool :=
  m.entries.length == n.entries.length &&
    (m.entries.zip n.entries).all fun p => compare p.1.1 p.2.1 == .eq && r p.1.2 p.2.2

/-! ## Order -/

def entryOrder [Ord α] : κ × α → κ × α → Ordering :=
  compareLex (compareOn Prod.fst) (compareOn Prod.snd)

theorem entryOrder_trans [Ord α] [Std.TransOrd κ] [Std.TransOrd α] :
    Std.TransCmp (entryOrder (κ := κ) (α := α)) :=
  inferInstanceAs (Std.TransCmp (compareLex (compareOn Prod.fst) (compareOn Prod.snd)))

theorem entryOrder_lawful [Ord α] [Std.LawfulEqOrd κ] [Std.LawfulEqOrd α] :
    Std.LawfulEqCmp (entryOrder (κ := κ) (α := α)) where
  compare_self {e} := compareLex_eq_eq.mpr
    ⟨Std.compare_self (α := κ), Std.compare_self (α := α)⟩
  eq_of_compare {d e} h := by
    obtain ⟨hk, hv⟩ := compareLex_eq_eq.mp h
    exact Prod.ext (Std.compare_eq_iff_eq.mp hk) (Std.compare_eq_iff_eq.mp hv)

instance [Ord α] : Ord (SortedMap κ α) :=
  ⟨fun m n => List.compareLex entryOrder m.entries n.entries⟩

instance [Ord α] [Std.TransOrd κ] [Std.TransOrd α] : Std.TransOrd (SortedMap κ α) :=
  have := entryOrder_trans (κ := κ) (α := α)
  { eq_swap := fun {m n} =>
      @Std.OrientedCmp.eq_swap _ (List.compareLex entryOrder) _ m.entries n.entries
    isLE_trans := fun {l m n} =>
      @Std.TransCmp.isLE_trans _ (List.compareLex entryOrder) _ l.entries m.entries n.entries }

theorem ext {m n : SortedMap κ α} (h : m.entries = n.entries) : m = n := by
  cases m; cases n; cases h; rfl

instance [Ord α] [Std.LawfulEqOrd κ] [Std.LawfulEqOrd α] : Std.LawfulEqOrd (SortedMap κ α) :=
  have := entryOrder_lawful (κ := κ) (α := α)
  { compare_self := fun {m} =>
      @Std.ReflCmp.compare_self _ (List.compareLex entryOrder) _ m.entries
    eq_of_compare := fun {m n} h =>
      ext (@Std.LawfulEqCmp.eq_of_compare _ (List.compareLex entryOrder) _ m.entries n.entries h) }

/-! ## Lookup -/

@[simp] theorem get?_empty (k : κ) : (empty : SortedMap κ α).get? k = none := rfl

theorem find?_place_self [Std.TransOrd κ] (k : κ) (v : α) (l : List (κ × α)) :
    (place k v l).find? (fun e => compare e.1 k == .eq) = some (k, v) := by
  induction l with
  | nil => simp [place]
  | cons d rest ih =>
    rw [place]
    split
    · simp
    · simp
    next hgt =>
      have hne : (compare d.1 k == .eq) = false := by
        have := Std.OrientedCmp.gt_iff_lt.mp hgt
        simp [this]
      simp [hne, ih]

theorem find?_place_of_ne [Std.LawfulEqOrd κ] {k k' : κ} (h : k ≠ k') (v : α) (l : List (κ × α)) :
    (place k v l).find? (fun e => compare e.1 k' == .eq)
      = l.find? (fun e => compare e.1 k' == .eq) := by
  have hk : (compare k k' == .eq) = false := by simpa using h
  induction l with
  | nil => simp [place, hk]
  | cons d rest ih =>
    rw [place]
    split
    · simp [List.find?_cons, hk]
    next heq =>
      have : d.1 = k := (Std.LawfulEqCmp.eq_of_compare heq).symm
      simp [hk, this]
    next hgt => simp [List.find?_cons, ih]

variable [Std.TransOrd κ]

@[simp] theorem get?_insert_self (m : SortedMap κ α) (k : κ) (v : α) :
    (m.insert k v).get? k = some v := by
  simp [get?, insert, find?_place_self]

variable [Std.LawfulEqOrd κ]

theorem get?_insert_of_ne (m : SortedMap κ α) {k k' : κ} (h : k ≠ k') (v : α) :
    (m.insert k v).get? k' = m.get? k' := by
  simp [get?, insert, find?_place_of_ne h]

theorem get?_insert [DecidableEq κ] (m : SortedMap κ α) (k k' : κ) (v : α) :
    (m.insert k v).get? k' = if k = k' then some v else m.get? k' := by
  by_cases h : k = k'
  · subst h; simp
  · simp [get?_insert_of_ne m h, h]

end SortedMap

end Reconcile
