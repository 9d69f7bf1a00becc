import Reconcile.Proofs.Dependency.Completion
/-!
The listed circles are the strongly connected components that loop.  Main statements:
`Searching.run`, a search comes to its end, and `mem_cycles_iff`.
-/

namespace Reconcile
namespace Dependency

open Relation

variable {α : Type} {edges needs : α → List α} {items : List α} {s t : Search α} {x y : α}

/-! ## How long a search takes -/

namespace Search

theorem bound_cons (edges : α → List α) (x : α) (l : List α) :
    bound edges (x :: l) = (edges x).length + 1 + bound edges l := by
  simp only [bound, List.flatMap_cons, List.length_append, List.length_cons]
  omega

theorem bound_append (edges : α → List α) (l l' : List α) :
    bound edges (l ++ l') = bound edges l + bound edges l' := by
  simp only [bound, List.flatMap_append, List.length_append]
  omega

theorem bound_le_of_sublist (edges : α → List α) {l l' : List α} (h : l.Sublist l') :
    bound edges l ≤ bound edges l' :=
  Nat.add_le_add (h.flatMap edges).length_le h.length_le

theorem bound_filter_lt (edges : α → List α) {p q : α → Bool} {l : List α} (hy : y ∈ l) (hp : p y)
    (hq : ¬ q y) (hsub : ∀ z, q z → p z) :
    bound edges (l.filter q) + ((edges y).length + 1) ≤ bound edges (l.filter p) := by
  obtain ⟨front, rear, hsplit⟩ := List.append_of_mem (List.mem_filter.mpr ⟨hy, hp⟩)
  have hfilter : l.filter q = front.filter q ++ rear.filter q := by
    have htwice : (l.filter p).filter q = l.filter q := by
      rw [List.filter_filter]
      refine List.filter_congr fun z _ => ?_
      by_cases hz : q z
      · simp [hz, hsub z hz]
      · simp [hz]
    rw [← htwice, hsplit, List.filter_append, List.filter_cons_of_neg hq]
  have hfront : bound edges (front.filter q) ≤ bound edges front :=
    bound_le_of_sublist edges List.filter_sublist
  have hrear : bound edges (rear.filter q) ≤ bound edges rear :=
    bound_le_of_sublist edges List.filter_sublist
  rw [hfilter, hsplit, bound_append, bound_append, bound_cons]
  omega

/-- How much is left to do: every item has to be entered, looked at and left. -/
def toDo (edges : α → List α) (items : List α) (s : Search α) : Nat :=
  bound edges (items.filter fun x => (s.order x).isNone) +
    ((s.work.flatMap Frame.rest).length + s.work.length)

variable [DecidableEq α]

theorem toDo_enter_le (hx : x ∈ items) (hnew : ¬ s.Entered x) :
    toDo edges items (s.enter edges x) ≤ toDo edges items s := by
  have hnone : (s.order x).isNone := by simpa [Entered] using hnew
  have hbound := bound_filter_lt edges (p := fun y => (s.order y).isNone)
    (q := fun y => ((s.enter edges x).order y).isNone) hx hnone (by simp [enter])
    (fun z hz => by
      by_cases hzx : z = x
      · exact hzx ▸ hnone
      · simpa [enter, hzx] using hz)
  have hwork : (s.enter edges x).work = ⟨x, edges x⟩ :: s.work := rfl
  simp only [toDo, hwork, List.flatMap_cons, List.length_append, List.length_cons]
  omega

theorem order_leave (s : Search α) (x : α) (work : List (Frame α)) :
    (s.leave edges items x work).order = s.order := by
  obtain ⟨low, heq, -⟩ := s.exists_back_eq x work
  simp only [leave, heq]
  split <;> rfl

/-- A step leaves less to do, and nothing that was entered is forgotten. -/
theorem step_spec (hclosed : Closed edges items) (h : Searching edges items s.Awaits s)
    (ht : s.step? edges items = some t) :
    toDo edges items t < toDo edges items s ∧ ∀ x, s.Entered x → t.Entered x := by
  rw [step?] at ht
  split at ht
  · cases ht
  next x y rest work hwork =>
    obtain rfl := Option.some.inj ht
    have hawaits : s.Awaits x y := ⟨⟨x, y :: rest⟩, by simp [hwork], rfl, List.mem_cons_self⟩
    obtain ⟨hx, hxy⟩ := h.stacked.awaits x y hawaits
    have hy := hclosed x (h.stacked.inside x (h.stacked.entered_of_mem_path hx)) y hxy
    have hcut : toDo edges items { s with work := ⟨x, rest⟩ :: work } < toDo edges items s := by
      simp only [toDo, hwork, List.flatMap_cons, List.length_append, List.length_cons]
      omega
    rw [look]
    split
    next hnone =>
      refine ⟨Nat.lt_of_le_of_lt (toDo_enter_le hy (by simpa [Entered] using hnone)) hcut, ?_⟩
      exact fun z hz => entered_enter_iff.mpr (.inr hz)
    · split <;> exact ⟨hcut, fun _ hz => hz⟩
  next x work hwork =>
    obtain rfl := Option.some.inj ht
    simp only [toDo, Entered, order_leave, work_leave, hwork, List.flatMap_cons, List.nil_append,
      List.length_cons]
    exact ⟨by omega, fun _ hz => hz⟩

end Search

/-! ## The whole search -/

/-- What holds of a search that has nothing left to do. -/
structure Finished (edges : α → List α) (items : List α) (s : Search α) : Prop where
  searching : Searching edges items s.Awaits s
  work : s.work = []

variable [DecidableEq α]

theorem Searching.run (hclosed : Closed edges items) (hnodup : items.Nodup) (steps : Nat)
    {s : Search α} (h : Searching edges items s.Awaits s) (hs : s.toDo edges items ≤ steps) :
    Finished edges items (s.run edges items steps) ∧
      ∀ x, s.Entered x → (s.run edges items steps).Entered x := by
  induction steps generalizing s with
  | zero =>
    refine ⟨⟨h, ?_⟩, fun _ hx => hx⟩
    show s.work = []
    rw [Search.toDo] at hs
    exact List.eq_nil_of_length_eq_zero (by omega)
  | succ steps ih =>
    rw [Search.run]
    split
    next hnone =>
      refine ⟨⟨h, ?_⟩, fun _ hx => hx⟩
      rw [Search.step?] at hnone
      split at hnone
      · assumption
      · cases hnone
      · cases hnone
    next t ht =>
      obtain ⟨hless, hkept⟩ := Search.step_spec hclosed h ht
      obtain ⟨hfinished, hlater⟩ := ih (h.step hclosed hnodup ht) (by omega)
      exact ⟨hfinished, fun x hx => hlater x (hkept x hx)⟩

omit [DecidableEq α] in
theorem Finished.stack_eq_nil (h : Finished edges items s) : s.stack = [] := by
  refine List.eq_nil_iff_forall_not_mem.mpr fun x hx => ?_
  obtain ⟨v, hv, -⟩ := h.searching.linked.downward x hx
  rw [Search.path, h.work] at hv
  cases hv

theorem Finished.visit (hclosed : Closed edges items) (hnodup : items.Nodup)
    (h : Finished edges items s) (hx : x ∈ items) :
    Finished edges items (s.visit edges items x) ∧ (s.visit edges items x).Entered x ∧
      ∀ y, s.Entered y → (s.visit edges items x).Entered y := by
  rw [Search.visit]
  split
  next n hn => exact ⟨h, Option.isSome_iff_exists.mpr ⟨n, hn⟩, fun _ hy => hy⟩
  next hnone =>
    have hnew : ¬ s.Entered x := by simp [Search.Entered, hnone]
    have hown (a b : α) : (s.enter edges x).Awaits a b ↔ x = a ∧ b ∈ edges x ∨ s.Awaits a b := by
      simp only [Search.Awaits, Search.enter, List.mem_cons, exists_eq_or_imp]
    have henter : Searching edges items (s.enter edges x).Awaits (s.enter edges x) := by
      refine h.searching.enter ⟨hx, hnew, fun y hy => ?_,
        fun y hy => (hown x y).mpr (.inl ⟨rfl, hy⟩), fun a b hab => ?_,
        fun a b hab => .inl ((hown a b).mpr (.inr hab))⟩
      · rw [h.stack_eq_nil] at hy
        cases hy
      · exact ((hown a b).mp hab).imp_left fun hab => ⟨hab.1.symm, hab.2⟩
    have hbound : (s.enter edges x).toDo edges items ≤ Search.bound edges items := by
      refine Nat.le_trans (Search.toDo_enter_le hx hnew) ?_
      rw [Search.toDo, h.work]
      exact Search.bound_le_of_sublist edges List.filter_sublist
    obtain ⟨hfinished, hlater⟩ := henter.run hclosed hnodup _ hbound
    refine ⟨hfinished, hlater x (Search.entered_enter_iff.mpr (.inl rfl)), fun y hy => ?_⟩
    exact hlater y (Search.entered_enter_iff.mpr (.inr hy))

theorem Finished.foldl_visit (hclosed : Closed edges items) (hnodup : items.Nodup) {l : List α}
    (hl : l ⊆ items) (h : Finished edges items s) :
    Finished edges items (l.foldl (Search.visit edges items) s) ∧
      ∀ x, x ∈ l ∨ s.Entered x → (l.foldl (Search.visit edges items) s).Entered x := by
  induction l generalizing s with
  | nil => exact ⟨h, fun x hx => hx.resolve_left List.not_mem_nil⟩
  | cons y l ih =>
    obtain ⟨hy, hl⟩ := List.cons_subset.mp hl
    obtain ⟨hvisit, hentered, hkept⟩ := h.visit hclosed hnodup hy
    obtain ⟨hfinished, hlater⟩ := ih hl hvisit
    refine ⟨hfinished, fun x hx => hlater x ?_⟩
    rcases hx with hx | hx
    · rcases List.mem_cons.mp hx with rfl | hx
      · exact .inr hentered
      · exact .inl hx
    · exact .inr (hkept x hx)

theorem exists_circles_eq (hclosed : Closed edges items) (hnodup : items.Nodup) :
    ∃ s : Search α, circles edges items = s.cycles ∧ Finished edges items s ∧
      ∀ x ∈ items, s.Entered x := by
  obtain ⟨hfinished, hentered⟩ := Finished.foldl_visit hclosed hnodup (List.Subset.refl items)
    ⟨Searching.start, rfl⟩
  exact ⟨_, rfl, hfinished, fun x hx => hentered x (.inl hx)⟩

theorem mem_circles_iff (hclosed : Closed edges items) (hnodup : items.Nodup) {group : List α} :
    group ∈ circles edges items ↔ IsCircle (Needs edges) items group := by
  obtain ⟨s, heq, hfinished, hentered⟩ := exists_circles_eq hclosed hnodup
  have hlisted := hfinished.searching.listed
  rw [heq]
  refine ⟨hlisted.circle group, fun hcircle => ?_⟩
  obtain ⟨x, hx⟩ := hcircle.exists_mem
  have hoff : x ∉ s.stack := by simp [hfinished.stack_eq_nil]
  obtain ⟨group', hgroup', hx'⟩ := hlisted.complete x (hentered x (hcircle.sublist.subset hx)) hoff
    (hcircle.circular hnodup hx)
  rwa [hcircle.eq_of_mem hnodup (hlisted.circle group' hgroup') hx hx']

theorem disjoint_circles (hclosed : Closed edges items) (hnodup : items.Nodup) :
    (circles edges items).Pairwise List.Disjoint := by
  obtain ⟨s, heq, hfinished, -⟩ := exists_circles_eq hclosed hnodup
  exact heq ▸ hfinished.searching.listed.disjoint

/-! ## Among the items without a layer -/

omit [DecidableEq α] in
theorem closed_filter (hclosed : Closed needs items) (p : α → Bool) :
    Closed (fun x => (needs x).filter p) (items.filter p) := by
  intro x hx y hy
  obtain ⟨hy, hpy⟩ := List.mem_filter.mp hy
  exact List.mem_filter.mpr ⟨hclosed x (List.mem_of_mem_filter hx) y hy, hpy⟩

theorem isNone_lookup_layers_iff (hnodup : items.Nodup) :
    ((layers needs items).lookup x).isNone ↔ ∀ n, (x, n) ∉ layers needs items := by
  rw [Option.isNone_iff_eq_none, Option.eq_none_iff_forall_ne_some]
  exact forall_congr' fun n => not_congr (lookup_layers_iff hnodup)

/-- The listed circles are the strongly connected components that loop. -/
theorem mem_cycles_iff (hclosed : Closed needs items) (hnodup : items.Nodup) {group : List α} :
    group ∈ cycles needs (layers needs items) items ↔ IsCircle (Needs needs) items group := by
  rw [cycles, mem_circles_iff (closed_filter hclosed _) (hnodup.filter _)]
  refine isCircle_filter_iff (fun x y hy hstuck => ?_) hnodup (fun x hx => ?_)
  · rw [isNone_lookup_layers_iff hnodup] at hstuck ⊢
    intro n hn
    obtain ⟨m, -, hm⟩ := exists_lower_layer hnodup hn hy
    exact hstuck m hm
  · rw [isNone_lookup_layers_iff hnodup]
    exact fun n hn => not_circular_of_mem_layers hnodup hn hx

theorem disjoint_cycles (hclosed : Closed needs items) (hnodup : items.Nodup) :
    (cycles needs (layers needs items) items).Pairwise List.Disjoint :=
  disjoint_circles (closed_filter hclosed _) (hnodup.filter _)

/-- The members of circles are the items that need themselves. -/
theorem exists_mem_cycles_iff (hclosed : Closed needs items) (hnodup : items.Nodup) :
    (∃ group ∈ cycles needs (layers needs items) items, x ∈ group) ↔
      x ∈ items ∧ TransGen (Needs needs) x x := by
  constructor
  · intro hlisted
    obtain ⟨group, hgroup, hx⟩ := hlisted
    have hcircle := (mem_cycles_iff hclosed hnodup).mp hgroup
    exact ⟨hcircle.sublist.subset hx, hcircle.circular hnodup hx⟩
  · intro hitem
    obtain ⟨hxi, hx⟩ := hitem
    obtain ⟨group, hcircle, hmem⟩ := exists_isCircle hclosed hxi hx
    exact ⟨group, (mem_cycles_iff hclosed hnodup).mpr hcircle, hmem⟩

end Dependency
end Reconcile
