import Mathlib.Data.Set.Finite.List
import Mathlib.Logic.Relation
import Mathlib.Order.WellFounded
import Reconcile.Dependency.Layering
/-!
Which items get a layer, and which one.  Main statements: `Steps.placing`, what holds however far
the placing has come, `count_le_missing`, no count of missing needs falls below zero,
`exists_lower_layer`, an item stands above everything that it needs, and `exists_layer`, every item
gets a layer if nothing needs itself.
-/

namespace Reconcile
namespace Dependency

open Relation

variable {α : Type} {needs : α → List α} {items : List α}

def Needs (needs : α → List α) (x y : α) : Prop := y ∈ needs x

def Acyclic (r : α → α → Prop) : Prop := ∀ x, ¬ TransGen r x x

def Closed (needs : α → List α) (items : List α) : Prop := ∀ x ∈ items, ∀ y ∈ needs x, y ∈ items

theorem exists_circle {l : List α} (hne : l ≠ []) (h : ∀ x ∈ l, ∃ y ∈ needs x, y ∈ l) :
    ¬ Acyclic (Needs needs) := by
  intro hacyclic
  let after : {x // x ∈ l} → {x // x ∈ l} → Prop := fun y x => TransGen (Needs needs) x.1 y.1
  have : IsTrans _ after := ⟨fun _ _ _ hab hbc => hbc.trans hab⟩
  have : Std.Irrefl after := ⟨fun x => hacyclic x.1⟩
  have : Finite {x // x ∈ l} := (List.finite_toSet l).to_subtype
  have hwf : WellFounded after := Finite.wellFounded_of_trans_of_irrefl after
  obtain ⟨x, hx⟩ := List.exists_mem_of_ne_nil l hne
  obtain ⟨⟨m, hm⟩, -, hmin⟩ := hwf.has_min Set.univ ⟨⟨x, hx⟩, trivial⟩
  obtain ⟨y, hy, hyl⟩ := h m hm
  exact hmin ⟨y, hyl⟩ trivial (.single hy)

/-! ## The first layer after some needs -/

/-- `n` is the first layer after those of `ys` that are placed. -/
structure IsNext (placed : List (α × Nat)) (ys : List α) (n : Nat) : Prop where
  above : ∀ y ∈ ys, ∀ m, (y, m) ∈ placed → m < n
  least : ∀ k, n = k + 1 → ∃ y ∈ ys, (y, k) ∈ placed

namespace IsNext

variable {placed : List (α × Nat)} {ys : List α} {n : Nat} {p : α × Nat}

theorem nil (ys : List α) : IsNext [] ys 0 := ⟨fun _ _ _ h => (nomatch h), fun _ h => (nomatch h)⟩

theorem append_of_not_mem (h : IsNext placed ys n) (hp : p.1 ∉ ys) :
    IsNext (placed ++ [p]) ys n := by
  refine ⟨fun y hy m hm => ?_, fun k hk => ?_⟩
  · rcases List.mem_append.mp hm with hm | hm
    · exact h.above y hy m hm
    · obtain rfl := List.mem_singleton.mp hm
      exact absurd hy hp
  · obtain ⟨y, hy, hmem⟩ := h.least k hk
    exact ⟨y, hy, List.mem_append_left _ hmem⟩

theorem append_of_mem (h : IsNext placed ys n) (hp : p.1 ∈ ys) :
    IsNext (placed ++ [p]) ys (max n (p.2 + 1)) := by
  refine ⟨fun y hy m hm => ?_, fun k hk => ?_⟩
  · rcases List.mem_append.mp hm with hm | hm
    · have := h.above y hy m hm
      omega
    · obtain rfl := List.mem_singleton.mp hm
      show m < max n (m + 1)
      omega
  · rcases Nat.le_total (p.2 + 1) n with hle | hle
    · obtain ⟨y, hy, hmem⟩ := h.least k (by omega)
      exact ⟨y, hy, List.mem_append_left _ hmem⟩
    · obtain rfl : p.2 = k := by omega
      exact ⟨p.1, hp, List.mem_append_right _ (List.mem_singleton_self p)⟩

end IsNext

/-! ## What is free to go -/

namespace Placement

def IsReleased (s : Placement α) : Prop := ∀ w ∈ s.waiting, w.missing ≠ 0

theorem release_eq (s : Placement α) :
    s.release =
      { s with
        queue := s.queue ++
          (s.waiting.filter fun w => w.missing == 0).map fun w => (w.item, w.layer)
        waiting := s.waiting.filter fun w => !w.missing == 0 } := by
  rw [release, List.partition_eq_filter_filter]
  rfl

theorem isReleased_release (s : Placement α) : s.release.IsReleased := by
  intro w hw
  rw [release_eq] at hw
  simpa using (List.mem_filter.mp hw).2

end Placement

variable [DecidableEq α]

/-! ## What waits -/

/-- How many of `ys` are not placed, each counted as often as it is named. -/
def countMissing (placed : List (α × Nat)) (ys : List α) : Nat :=
  ys.countP fun y => decide (y ∉ placed.map Prod.fst)

theorem countMissing_append {placed : List (α × Nat)} {p : α × Nat}
    (hp : p.1 ∉ placed.map Prod.fst) (ys : List α) :
    countMissing placed ys = countMissing (placed ++ [p]) ys + ys.count p.1 := by
  induction ys with
  | nil => rfl
  | cons y ys ih =>
    have hmem : y ∈ (placed ++ [p]).map Prod.fst ↔ y ∈ placed.map Prod.fst ∨ y = p.1 := by simp
    simp only [countMissing, List.countP_cons, List.count_cons, decide_eq_true_eq, hmem] at ih ⊢
    rw [ih]
    by_cases hy : y = p.1
    · subst hy
      simp only [hp, or_true, not_true, not_false_eq_true, if_true, if_false, beq_self_eq_true]
      omega
    · simp only [hy, or_false, beq_iff_eq, if_false]
      omega

/-- What a waiting item knows of its needs. -/
structure IsWaiting (needs : α → List α) (placed : List (α × Nat)) (w : Waiting α) : Prop where
  needs : w.needs = needs w.item
  missing : w.missing = countMissing placed w.needs
  layer : IsNext placed w.needs w.layer

namespace IsWaiting

variable {placed : List (α × Nat)} {w : Waiting α} {p : α × Nat}

theorem item_strike (p : α × Nat) (w : Waiting α) : (w.strike p).item = w.item := by
  rw [Waiting.strike]
  split <;> rfl

theorem strike (h : IsWaiting needs placed w) (hp : p.1 ∉ placed.map Prod.fst) :
    IsWaiting needs (placed ++ [p]) (w.strike p) := by
  have hcount := countMissing_append hp w.needs
  have hmissing := h.missing
  simp only [Waiting.strike]
  split
  next hnone =>
    exact ⟨h.needs, by omega, h.layer.append_of_not_mem (List.count_eq_zero.mp hnone)⟩
  next hsome =>
    refine ⟨h.needs, ?_, h.layer.append_of_mem ?_⟩
    · show w.missing - w.needs.count p.1 = countMissing (placed ++ [p]) w.needs
      omega
    · by_contra hnot
      exact hsome (List.count_eq_zero.mpr hnot)

theorem count_le_missing (h : IsWaiting needs placed w) (hp : p.1 ∉ placed.map Prod.fst) :
    w.needs.count p.1 ≤ w.missing := by
  have hcount := countMissing_append hp w.needs
  have hmissing := h.missing
  omega

theorem exists_of_missing_ne_zero (h : IsWaiting needs placed w) (hw : w.missing ≠ 0) :
    ∃ y ∈ needs w.item, y ∉ placed.map Prod.fst := by
  rw [h.missing, countMissing, ← Nat.pos_iff_ne_zero, List.countP_pos_iff] at hw
  obtain ⟨y, hy, hnot⟩ := hw
  exact ⟨y, h.needs ▸ hy, of_decide_eq_true hnot⟩

theorem mem_of_missing_eq_zero (h : IsWaiting needs placed w) (hw : w.missing = 0) :
    ∀ y ∈ needs w.item, y ∈ placed.map Prod.fst := by
  rw [h.missing, countMissing, List.countP_eq_zero, h.needs] at hw
  intro y hy
  by_contra hnot
  exact hw y hy (decide_eq_true hnot)

end IsWaiting

/-! ## While items are placed -/

/-- What holds of a placement of `items`, however far it has come. -/
structure Placing (needs : α → List α) (items : List α) (s : Placement α) : Prop where
  perm : ((s.placed ++ s.queue).map Prod.fst ++ s.waiting.map Waiting.item).Perm items
  /-- What has its layer, or will get it, waits for nothing. -/
  ready : ∀ p ∈ s.placed ++ s.queue, ∀ y ∈ needs p.1, y ∈ s.placed.map Prod.fst
  layer : ∀ p ∈ s.placed ++ s.queue, IsNext s.placed (needs p.1) p.2
  waiting : ∀ w ∈ s.waiting, IsWaiting needs s.placed w

open Placement in
abbrev Steps (s t : Placement α) : Prop := ReflTransGen (fun s t => next? s = some t) s t

namespace Placing

variable {s t : Placement α}

theorem release (h : Placing needs items s) : Placing needs items s.release := by
  rw [Placement.release_eq]
  have hqueue : ∀ p ∈ s.placed ++ (s.queue ++
      (s.waiting.filter fun w => w.missing == 0).map fun w => (w.item, w.layer)),
      p ∈ s.placed ++ s.queue ∨ ∃ w ∈ s.waiting, w.missing = 0 ∧ (w.item, w.layer) = p := by
    intro p hp
    rw [← List.append_assoc] at hp
    refine (List.mem_append.mp hp).imp_right fun hp => ?_
    obtain ⟨w, hw, rfl⟩ := List.mem_map.mp hp
    obtain ⟨hw, hzero⟩ := List.mem_filter.mp hw
    exact ⟨w, hw, by simpa using hzero, rfl⟩
  refine ⟨?_, fun p hp => ?_, fun p hp => ?_, fun w hw => h.waiting w (List.mem_of_mem_filter hw)⟩
  · have hsplit : ((s.waiting.filter fun w => w.missing == 0) ++
        s.waiting.filter fun w => !w.missing == 0).Perm s.waiting :=
      List.filter_append_perm _ _
    refine List.Perm.trans ?_ h.perm
    rw [← List.append_assoc, List.map_append, List.append_assoc, List.map_map]
    exact (List.map_append ▸ hsplit.map Waiting.item).append_left _
  · rcases hqueue p hp with hp | ⟨w, hw, hzero, rfl⟩
    · exact h.ready p hp
    · exact (h.waiting w hw).mem_of_missing_eq_zero hzero
  · rcases hqueue p hp with hp | ⟨w, hw, -, rfl⟩
    · exact h.layer p hp
    · show IsNext s.placed (needs w.item) w.layer
      rw [← (h.waiting w hw).needs]
      exact (h.waiting w hw).layer

theorem start (needs : α → List α) (items : List α) :
    Placing needs items (Placement.start needs items) := by
  refine release ⟨?_, fun _ hp => (nomatch hp), fun _ hp => (nomatch hp), fun w hw => ?_⟩
  · show (items.map fun x => ⟨x, needs x, (needs x).length, 0⟩ : List (Waiting α)).map _ |>.Perm _
    rw [List.map_map]
    exact .of_eq (List.map_id items)
  · obtain ⟨x, -, rfl⟩ := List.mem_map.mp hw
    exact ⟨rfl, by simp [countMissing], .nil _⟩

theorem not_mem_placed (hnodup : items.Nodup) (h : Placing needs items s) {p : α × Nat}
    (hp : p ∈ s.queue) : p.1 ∉ s.placed.map Prod.fst := by
  have hall := (List.nodup_append.mp (h.perm.nodup_iff.mpr hnodup)).1
  rw [List.map_append] at hall
  intro hmem
  exact (List.nodup_append'.mp hall).2.2 hmem (List.mem_map_of_mem hp)

theorem strike (hnodup : items.Nodup) (h : Placing needs items s) {p : α × Nat}
    {queue : List (α × Nat)} (hqueue : s.queue = p :: queue) :
    Placing needs items ⟨s.placed ++ [p], queue, s.waiting.map (Waiting.strike p)⟩ := by
  have hnew := h.not_mem_placed hnodup (hqueue ▸ List.mem_cons_self)
  have hsame : (s.placed ++ [p]) ++ queue = s.placed ++ s.queue := by
    rw [hqueue, List.append_assoc]
    rfl
  refine ⟨?_, ?_, ?_, fun w hw => ?_⟩
  · have hitem : (s.waiting.map (Waiting.strike p)).map Waiting.item =
        s.waiting.map Waiting.item := by
      rw [List.map_map]
      exact List.map_congr_left fun w _ => IsWaiting.item_strike p w
    show (((s.placed ++ [p]) ++ queue).map Prod.fst ++ _).Perm items
    rw [hsame, hitem]
    exact h.perm
  · show ∀ q ∈ (s.placed ++ [p]) ++ queue, _
    rw [hsame]
    intro q hq y hy
    rw [List.map_append]
    exact List.mem_append_left _ (h.ready q hq y hy)
  · show ∀ q ∈ (s.placed ++ [p]) ++ queue, _
    rw [hsame]
    exact fun q hq => (h.layer q hq).append_of_not_mem fun hy => hnew (h.ready q hq _ hy)
  · obtain ⟨v, hv, rfl⟩ := List.mem_map.mp hw
    exact (h.waiting v hv).strike hnew

theorem next (hnodup : items.Nodup) (h : Placing needs items s) (ht : s.next? = some t) :
    Placing needs items t := by
  rw [Placement.next?] at ht
  split at ht
  · cases ht
  next p queue hqueue =>
    obtain rfl := Option.some.inj ht
    exact (h.strike hnodup hqueue).release

end Placing

theorem Steps.placing (hnodup : items.Nodup) {s : Placement α}
    (h : Steps (.start needs items) s) : Placing needs items s := by
  induction h with
  | refl => exact Placing.start needs items
  | tail _ ht ih => exact ih.next hnodup ht

theorem Steps.isReleased {s : Placement α} (h : Steps (.start needs items) s) :
    s.IsReleased := by
  cases h with
  | refl => exact Placement.isReleased_release _
  | @tail r _ _ ht =>
    rw [Placement.next?] at ht
    split at ht
    · cases ht
    next p queue hqueue =>
      obtain rfl := Option.some.inj ht
      exact Placement.isReleased_release _

/-! ## No count falls below zero -/

def Placement.missing (s : Placement α) (x : α) : Nat :=
  ((s.waiting.find? fun w => w.item == x).map Waiting.missing).getD 0

theorem count_le_missing (hnodup : items.Nodup) {s : Placement α}
    (h : Steps (.start needs items) s) {p : α × Nat} (hp : s.queue.head? = some p) {x : α}
    (hx : x ∈ items) : (needs x).count p.1 ≤ s.missing x := by
  have hplacing := h.placing hnodup
  have hnew := hplacing.not_mem_placed hnodup (List.mem_of_head? hp)
  rw [Placement.missing]
  cases hfind : s.waiting.find? fun w => w.item == x with
  | some w =>
    obtain rfl : w.item = x := by simpa using List.find?_some hfind
    have hw := hplacing.waiting w (List.mem_of_find?_eq_some hfind)
    rw [← hw.needs]
    exact hw.count_le_missing hnew
  | none =>
    -- It waits no more, so all of its needs have their layers, and the item has none yet.
    have hqueued : x ∈ (s.placed ++ s.queue).map Prod.fst := by
      refine (List.mem_append.mp (hplacing.perm.mem_iff.mpr hx)).resolve_right fun hmem => ?_
      obtain ⟨w, hw, rfl⟩ := List.mem_map.mp hmem
      simpa using List.find?_eq_none.mp hfind w hw
    obtain ⟨q, hq, rfl⟩ := List.mem_map.mp hqueued
    rw [List.count_eq_zero.mpr fun hmem => hnew (hplacing.ready q hq _ hmem)]
    exact Nat.zero_le _

/-! ## In the end -/

theorem run_steps (steps : Nat) (s : Placement α) : Steps s (s.run steps) := by
  induction steps generalizing s with
  | zero => exact .refl
  | succ steps ih =>
    rw [Placement.run]
    split
    · exact .refl
    next t ht => exact .head ht (ih t)

/-- With as many steps as there are items without a layer the queue runs empty. -/
theorem queue_run (hnodup : items.Nodup) (steps : Nat) {s : Placement α}
    (h : Placing needs items s) (hs : items.length ≤ s.placed.length + steps) :
    (s.run steps).queue = [] := by
  induction steps generalizing s with
  | zero =>
    have hlength := h.perm.length_eq
    simp only [List.length_append, List.length_map] at hlength
    exact List.eq_nil_of_length_eq_zero (by rw [Placement.run]; omega)
  | succ steps ih =>
    rw [Placement.run]
    split
    next hnone =>
      rw [Placement.next?] at hnone
      split at hnone
      · assumption
      · cases hnone
    next t ht =>
      refine ih (h.next hnodup ht) ?_
      rw [Placement.next?] at ht
      split at ht
      · cases ht
      next p queue hqueue =>
        obtain rfl := Option.some.inj ht
        rw [Placement.release_eq, List.length_append, List.length_singleton]
        omega

/-- How things stand in the end: what has no layer needs something without a layer. -/
theorem layers_placing (hnodup : items.Nodup) (needs : α → List α) :
    ∃ rest, ((layers needs items).map Prod.fst ++ rest).Perm items ∧
      (∀ x ∈ rest, ∃ y ∈ needs x, y ∉ (layers needs items).map Prod.fst) ∧
      ∀ p ∈ layers needs items, (∀ y ∈ needs p.1, y ∈ (layers needs items).map Prod.fst) ∧
        IsNext (layers needs items) (needs p.1) p.2 := by
  have hsteps := run_steps items.length (.start needs items)
  have hplacing := hsteps.placing hnodup
  have hempty := queue_run hnodup items.length (Placing.start needs items) (Nat.le_add_left _ _)
  have hall : (layers needs items) =
      (layers needs items) ++ ((Placement.start needs items).run items.length).queue := by
    rw [hempty, List.append_nil]
  refine ⟨((Placement.start needs items).run items.length).waiting.map Waiting.item, ?_, ?_, ?_⟩
  · rw [hall]
    exact hplacing.perm
  · intro x hx
    obtain ⟨w, hw, rfl⟩ := List.mem_map.mp hx
    exact (hplacing.waiting w hw).exists_of_missing_ne_zero (hsteps.isReleased w hw)
  · intro p hp
    have hp := List.mem_append_left ((Placement.start needs items).run items.length).queue hp
    exact ⟨hplacing.ready p hp, hplacing.layer p hp⟩

theorem nodup_layers (h : items.Nodup) : ((layers needs items).map Prod.fst).Nodup := by
  obtain ⟨rest, hperm, -⟩ := layers_placing h needs
  exact (List.nodup_append.mp (hperm.nodup_iff.mpr h)).1

theorem layers_unique (h : items.Nodup) {x : α} {m n : Nat} (hm : (x, m) ∈ layers needs items)
    (hn : (x, n) ∈ layers needs items) : m = n :=
  congrArg Prod.snd (List.inj_on_of_nodup_map (nodup_layers h) hm hn rfl)

theorem lookup_layers_iff (h : items.Nodup) {x : α} {n : Nat} :
    (layers needs items).lookup x = some n ↔ (x, n) ∈ layers needs items := by
  constructor
  · intro hl
    obtain ⟨l₁, l₂, heq, -⟩ := List.lookup_eq_some_iff.mp hl
    rw [heq]
    simp
  · intro hmem
    cases hl : (layers needs items).lookup x with
    | none =>
      have := List.lookup_eq_none_iff.mp hl (x, n) hmem
      simp at this
    | some m =>
      obtain ⟨l₁, l₂, heq, -⟩ := List.lookup_eq_some_iff.mp hl
      have hm : (x, m) ∈ layers needs items := by
        rw [heq]
        simp
      rw [layers_unique h hm hmem]

theorem exists_lower_layer (h : items.Nodup) {x y : α} {n : Nat} (hx : (x, n) ∈ layers needs items)
    (hy : y ∈ needs x) : ∃ m < n, (y, m) ∈ layers needs items := by
  obtain ⟨-, -, -, hplaced⟩ := layers_placing h needs
  obtain ⟨hready, hnext⟩ := hplaced (x, n) hx
  obtain ⟨⟨_, m⟩, hm, rfl⟩ := List.mem_map.mp (hready y hy)
  exact ⟨m, hnext.above _ hy m hm, hm⟩

theorem exists_next_layer (h : items.Nodup) {x : α} {n : Nat}
    (hx : (x, n + 1) ∈ layers needs items) : ∃ y ∈ needs x, (y, n) ∈ layers needs items := by
  obtain ⟨-, -, -, hplaced⟩ := layers_placing h needs
  exact (hplaced (x, n + 1) hx).2.least n rfl

theorem lookup_layers_of_needs_nil (h : items.Nodup) (hnone : ∀ x ∈ items, needs x = []) {x : α}
    (hx : x ∈ items) : (layers needs items).lookup x = some 0 := by
  obtain ⟨rest, hperm, hrest, -⟩ := layers_placing h needs
  have hplaced : x ∈ (layers needs items).map Prod.fst := by
    refine (List.mem_append.mp (hperm.mem_iff.mpr hx)).resolve_right fun hmem => ?_
    obtain ⟨y, hy, -⟩ := hrest x hmem
    rw [hnone x hx] at hy
    cases hy
  obtain ⟨⟨_, n⟩, hn, rfl⟩ := List.mem_map.mp hplaced
  rw [lookup_layers_iff h]
  cases n with
  | zero => exact hn
  | succ n =>
    obtain ⟨y, hy, -⟩ := exists_next_layer h hn
    rw [hnone _ hx] at hy
    cases hy

theorem not_circular_of_mem_layers (h : items.Nodup) {x : α} {n : Nat}
    (hx : (x, n) ∈ layers needs items) : ¬ TransGen (Needs needs) x x := by
  have hdown : ∀ y, TransGen (Needs needs) x y → ∃ m < n, (y, m) ∈ layers needs items := by
    intro y hxy
    induction hxy with
    | single hy => exact exists_lower_layer h hx hy
    | tail _ hz ih =>
      obtain ⟨m, hm, hmem⟩ := ih
      obtain ⟨k, hk, hmem'⟩ := exists_lower_layer h hmem hz
      exact ⟨k, Nat.lt_trans hk hm, hmem'⟩
  intro hcircle
  obtain ⟨m, hm, hmem⟩ := hdown x hcircle
  exact Nat.ne_of_lt hm (layers_unique h hmem hx)

theorem exists_layer (h : items.Nodup) (hclosed : Closed needs items)
    (hacyclic : Acyclic (Needs needs)) {x : α} (hx : x ∈ items) :
    ∃ n, (x, n) ∈ layers needs items := by
  obtain ⟨rest, hperm, hstuck, -⟩ := layers_placing h needs
  by_cases hrest : rest = []
  · subst hrest
    have hmem := hperm.mem_iff.mpr hx
    rw [List.append_nil] at hmem
    obtain ⟨p, hp, rfl⟩ := List.mem_map.mp hmem
    exact ⟨p.2, hp⟩
  · refine absurd hacyclic (exists_circle hrest fun z hz => ?_)
    obtain ⟨y, hy, hnot⟩ := hstuck z hz
    have hyi : y ∈ items := hclosed z (hperm.mem_iff.mp (List.mem_append_right _ hz)) y hy
    exact ⟨y, hy, (List.mem_append.mp (hperm.mem_iff.mpr hyi)).resolve_left hnot⟩

end Dependency
end Reconcile
