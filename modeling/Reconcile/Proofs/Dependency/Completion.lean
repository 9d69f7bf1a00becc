import Reconcile.Proofs.Dependency.Search
/-!
Completing a component.  Main statements: `Searching.component_iff`, from an item that leads to
nothing below itself the stack is the component of that item, and `Searching.step`, every step
preserves what holds of a search.
-/

namespace Reconcile
namespace Dependency

open Relation

variable {α : Type} {edges : α → List α} {items : List α} {awaits : α → α → Prop} {s t : Search α}
  {x y : α} {work : List (Frame α)}

section

variable (h : Searching edges items awaits s) (hpath : s.path = x :: work.map Frame.item)
  (hdone : ∀ y, ¬ awaits x y) (hlow : s.low x = s.num x)

include h

theorem Searching.off_of_reach {a b : α} (hab : ReflTransGen (Needs edges) a b)
    (ha : s.Entered a) (hoff : a ∉ s.stack) : s.Entered b ∧ b ∉ s.stack := by
  induction hab with
  | refl => exact ⟨ha, hoff⟩
  | tail _ hbc ih => exact h.linked.closed _ ih.1 ih.2 _ hbc

include hpath hdone hlow

/-- What lies on the stack from `x` on leads nowhere else but to what is off the stack. -/
theorem Searching.stays_of_edge {a b : α} (ha : a ∈ s.stack) (hxa : s.num x ≤ s.num a)
    (hab : b ∈ edges a) :
    b ∈ s.stack ∧ s.num x ≤ s.num b ∨ s.Entered b ∧ b ∉ s.stack := by
  have hlooked : ¬ awaits a b := by
    intro hawaits
    have ha := h.mem_tail_of_awaits hpath hdone hawaits
    exact Nat.not_lt_of_le hxa (h.num_lt_of_mem_tail hpath ha)
  by_cases hb : b ∈ s.stack
  · have hle := h.bounded.covers x a b (h.carries_top hpath hxa) ha hb hab hlooked
    exact .inl ⟨hb, hlow ▸ hle⟩
  · exact .inr ⟨h.linked.explored a b (h.stacked.entered a ha) hab hlooked, hb⟩

theorem Searching.stays {a b : α} (hab : ReflTransGen (Needs edges) a b) (ha : a ∈ s.stack)
    (hxa : s.num x ≤ s.num a) :
    b ∈ s.stack ∧ s.num x ≤ s.num b ∨ s.Entered b ∧ b ∉ s.stack := by
  induction hab with
  | refl => exact .inl ⟨ha, hxa⟩
  | tail _ hbc ih =>
    rcases ih with ⟨hb, hxb⟩ | ⟨hb, hoff⟩
    · exact h.stays_of_edge hpath hdone hlow hb hxb hbc
    · exact .inr (h.linked.closed _ hb hoff _ hbc)

/-- What lies on the stack from `x` on is the component of `x`. -/
theorem Searching.component_iff :
    y ∈ s.stack ∧ s.num x ≤ s.num y ↔ y ∈ items ∧ Connected (Needs edges) x y := by
  have hx : x ∈ s.stack := h.mem_stack hpath
  constructor
  · intro hy
    obtain ⟨hy, hxy⟩ := hy
    refine ⟨h.stacked.inside y (h.stacked.entered y hy), h.linked.upward x hx y hy hxy, ?_⟩
    obtain ⟨v, hv, -, hyv⟩ := h.linked.downward y hy
    have hvx := h.num_le_of_mem_path hpath hv
    exact hyv.trans (h.linked.upward v (h.stacked.path.subset hv) x hx hvx)
  · intro hy
    obtain ⟨-, hxy, hyx⟩ := hy
    refine (h.stays hpath hdone hlow hxy hx (Nat.le_refl _)).resolve_right fun hy => ?_
    obtain ⟨hentered, hoff⟩ := hy
    exact (h.off_of_reach hyx hentered hoff).2 hx

end

variable [DecidableEq α]

/-! ## Taking a component off the stack -/

theorem Search.exists_popTo_eq {stack : List α} (hx : x ∈ stack) : ∃ above below,
    stack = above ++ x :: below ∧ x ∉ above ∧
      Search.popTo x stack = (above ++ [x], below) := by
  induction stack with
  | nil => cases hx
  | cons y stack ih =>
    by_cases hyx : y = x
    · subst hyx
      exact ⟨[], stack, rfl, List.not_mem_nil, by simp [Search.popTo]⟩
    · have hx := (List.mem_cons.mp hx).resolve_left (Ne.symm hyx)
      obtain ⟨above, below, rfl, hnot, hpop⟩ := ih hx
      refine ⟨y :: above, below, rfl, ?_, ?_⟩
      · exact List.not_mem_cons_of_ne_of_not_mem (Ne.symm hyx) hnot
      · rw [Search.popTo, if_neg hyx, hpop]
        rfl

/-- The component of `x` and what stays on the stack, told apart by their numbers. -/
structure IsCut (s : Search α) (x : α) (work : List (Frame α)) (component below : List α) :
    Prop where
  popTo : Search.popTo x s.stack = (component, below)
  mem_component : ∀ y, y ∈ component ↔ y ∈ s.stack ∧ s.num x ≤ s.num y
  mem_below : ∀ y, y ∈ below ↔ y ∈ s.stack ∧ s.num y < s.num x
  nodup : component.Nodup
  sublist : below.Sublist s.stack
  path : (work.map Frame.item).Sublist below

theorem Searching.exists_isCut (h : Searching edges items awaits s)
    (hpath : s.path = x :: work.map Frame.item) :
    ∃ component below, IsCut s x work component below := by
  have hx : x ∈ s.stack := h.mem_stack hpath
  obtain ⟨above, below, hstack, hnot, hpop⟩ := Search.exists_popTo_eq hx
  have hdescending := h.stacked.descending
  rw [hstack, List.pairwise_append, List.pairwise_cons] at hdescending
  obtain ⟨habove, ⟨hbelow, -⟩, hacross⟩ := hdescending
  have hhigher : ∀ y ∈ above, s.num x < s.num y := fun y hy => hacross y hy x List.mem_cons_self
  have hmem (y : α) : y ∈ s.stack ↔ y ∈ above ∨ y = x ∨ y ∈ below := by
    rw [hstack, List.mem_append, List.mem_cons]
  refine ⟨above ++ [x], below, hpop, fun y => ?_, fun y => ?_, ?_, ?_, ?_⟩
  · rw [hmem, List.mem_append, List.mem_singleton]
    constructor
    · rintro (hy | rfl)
      · exact ⟨.inl hy, Nat.le_of_lt (hhigher y hy)⟩
      · exact ⟨.inr (.inl rfl), Nat.le_refl _⟩
    · rintro ⟨hy | hy | hy, hle⟩
      · exact .inl hy
      · exact .inr hy
      · exact absurd (hbelow y hy) (Nat.not_lt_of_le hle)
  · rw [hmem]
    constructor
    · intro hy
      exact ⟨.inr (.inr hy), hbelow y hy⟩
    · rintro ⟨hy | rfl | hy, hlt⟩
      · exact absurd hlt (Nat.not_lt_of_lt (hhigher y hy))
      · exact absurd hlt (Nat.lt_irrefl _)
      · exact hy
  · refine List.nodup_append'.mpr ⟨habove.imp fun hlt heq => ?_, List.nodup_singleton x, ?_⟩
    · exact Nat.ne_of_gt hlt (congrArg s.num heq)
    · exact fun y hy hyx => hnot (List.mem_singleton.mp hyx ▸ hy)
  · rw [hstack]
    exact (List.sublist_cons_self x below).trans (List.sublist_append_right above _)
  · -- Nothing above `x` is `x`, so the items that the search was at begin with `x` itself.
    have hsub := h.stacked.path
    rw [hpath, hstack, List.sublist_append_iff] at hsub
    obtain ⟨front, rear, hsplit, hfront, hrear⟩ := hsub
    cases front with
    | nil =>
      rw [List.nil_append] at hsplit
      exact List.cons_sublist_cons.mp (hsplit ▸ hrear)
    | cons z front =>
      obtain ⟨rfl, -⟩ := List.cons.inj hsplit
      exact absurd (hfront.subset List.mem_cons_self) hnot

section

variable {component below : List α} (hcut : IsCut s x work component below)

include hcut

theorem IsCut.close_eq (edges : α → List α) (items : List α) :
    Search.close edges items { s with work } x = { s with
      work
      onStack := fun y => s.onStack y && !component.contains y
      stack := below
      cycles :=
        if 1 < component.length || (edges x).contains x then
          s.cycles ++ [items.filter component.contains]
        else s.cycles } := by
  simp only [Search.close, hcut.popTo]

theorem IsCut.mem_below_iff : y ∈ below ↔ y ∈ s.stack ∧ y ∉ component := by
  rw [hcut.mem_below, hcut.mem_component]
  constructor
  · intro hy
    exact ⟨hy.1, fun hmem => Nat.not_le_of_lt hy.2 hmem.2⟩
  · intro hy
    exact ⟨hy.1, Nat.lt_of_not_le fun hle => hy.2 ⟨hy.1, hle⟩⟩

theorem IsCut.num_lt (hy : y ∈ work.map Frame.item) : s.num y < s.num x :=
  ((hcut.mem_below y).mp (hcut.path.subset hy)).2

variable (h : Searching edges items awaits s) (hpath : s.path = x :: work.map Frame.item)
  (hdone : ∀ y, ¬ awaits x y) (hlow : s.low x = s.num x)

include h hpath hdone hlow

theorem IsCut.mem_component_iff :
    y ∈ component ↔ y ∈ items ∧ Connected (Needs edges) x y := by
  rw [hcut.mem_component]
  exact h.component_iff hpath hdone hlow

theorem IsCut.mem_group_iff : y ∈ items.filter component.contains ↔ y ∈ component := by
  rw [List.mem_filter, List.contains_iff_mem]
  exact and_iff_right_of_imp fun hy => ((hcut.mem_component_iff h hpath hdone hlow).mp hy).1

theorem IsCut.isCircle (hnodup : items.Nodup)
    (hloops : 1 < component.length || (edges x).contains x) :
    IsCircle (Needs edges) items (items.filter component.contains) := by
  have hmem {y : α} := hcut.mem_group_iff h hpath hdone hlow (y := y)
  have hx : x ∈ s.stack := h.mem_stack hpath
  refine ⟨List.filter_sublist, ⟨x, h.stacked.inside x (h.stacked.entered x hx), fun y => ?_⟩, ?_⟩
  · rw [hmem]
    exact hcut.mem_component_iff h hpath hdone hlow
  · have hperm : component.Perm (items.filter component.contains) :=
      (List.perm_ext_iff_of_nodup hcut.nodup (hnodup.filter _)).mpr fun y => hmem.symm
    rw [Bool.or_eq_true, decide_eq_true_iff, List.contains_iff_mem] at hloops
    rw [← hperm.length_eq]
    refine hloops.imp_right fun hxx => ⟨x, hmem.mpr ?_, hxx⟩
    exact (hcut.mem_component x).mpr ⟨hx, Nat.le_refl _⟩

theorem IsCut.loops (hclosed : Closed edges items) (hy : y ∈ component)
    (hcircular : TransGen (Needs edges) y y) :
    1 < component.length || (edges x).contains x := by
  obtain ⟨-, hxy, hyx⟩ := (hcut.mem_component_iff h hpath hdone hlow).mp hy
  have hx : x ∈ s.stack := h.mem_stack hpath
  have hxx := (TransGen.trans_right hxy hcircular).trans_left hyx
  have hloops := loops_of_circular hclosed (h.stacked.inside x (h.stacked.entered x hx)) hxx
    fun y => hcut.mem_component_iff h hpath hdone hlow
  simp only [Bool.or_eq_true, decide_eq_true_eq, List.contains_iff_mem]
  exact hloops

theorem IsCut.listed (hclosed : Closed edges items) (hnodup : items.Nodup) :
    Listed edges items (Search.close edges items { s with work } x) := by
  have hbelow {y : α} := hcut.mem_below_iff (y := y)
  have hgroup {y : α} := hcut.mem_group_iff h hpath hdone hlow (y := y)
  have hentered {y : α} (hy : y ∈ component) : s.Entered y :=
    h.stacked.entered y ((hcut.mem_component y).mp hy).1
  have hearlier {group : List α} (hg : group ∈ s.cycles) {y : α} (hy : y ∈ group) :
      s.Entered y ∧ y ∉ below := by
    obtain ⟨hy, hoff⟩ := h.listed.off group hg y hy
    exact ⟨hy, fun hmem => hoff (hbelow.mp hmem).1⟩
  have htaken {y : α} (hy : y ∈ s.stack) (hoff : y ∉ below) : y ∈ component :=
    by_contra fun hnot => hoff (hbelow.mpr ⟨hy, hnot⟩)
  rw [hcut.close_eq]
  split
  next hloops =>
    refine ⟨fun group hg => ?_, fun group hg y hy => ?_, fun y hy hoff hcircular => ?_, ?_⟩
    · rcases List.mem_append.mp hg with hg | hg
      · exact h.listed.circle group hg
      · obtain rfl := List.mem_singleton.mp hg
        exact hcut.isCircle h hpath hdone hlow hnodup hloops
    · rcases List.mem_append.mp hg with hg | hg
      · exact hearlier hg hy
      · obtain rfl := List.mem_singleton.mp hg
        have hy := hgroup.mp hy
        exact ⟨hentered hy, fun hmem => (hbelow.mp hmem).2 hy⟩
    · by_cases hstack : y ∈ s.stack
      · exact ⟨_, List.mem_append_right _ (List.mem_singleton_self _),
          hgroup.mpr (htaken hstack hoff)⟩
      · obtain ⟨group, hg, hy⟩ := h.listed.complete y hy hstack hcircular
        exact ⟨group, List.mem_append_left _ hg, hy⟩
    · refine List.pairwise_append.mpr ⟨h.listed.disjoint, List.pairwise_singleton _ _, ?_⟩
      intro group hg group' hg' y hy hy'
      obtain rfl := List.mem_singleton.mp hg'
      exact (h.listed.off group hg y hy).2 ((hcut.mem_component y).mp (hgroup.mp hy')).1
  next hloops =>
    refine ⟨h.listed.circle, fun group hg y hy => hearlier hg hy, fun y hy hoff hcircular => ?_,
      h.listed.disjoint⟩
    refine h.listed.complete y hy (fun hstack => ?_) hcircular
    exact hloops (hcut.loops h hpath hdone hlow hclosed (htaken hstack hoff) hcircular)

end

theorem Searching.close (hclosed : Closed edges items) (hnodup : items.Nodup)
    (h : Searching edges items awaits s) (hpath : s.path = x :: work.map Frame.item)
    (hdone : ∀ y, ¬ awaits x y) (hlow : s.low x = s.num x) :
    Searching edges items awaits (Search.close edges items { s with work } x) := by
  obtain ⟨component, below, hcut⟩ := h.exists_isCut hpath
  have hbelow {y : α} := hcut.mem_below y
  have htail {v : α} (hv : v ∈ work.map Frame.item) : v ∈ s.path :=
    Search.mem_path_of_mem_tail hpath hv
  have hlisted := hcut.listed h hpath hdone hlow hclosed hnodup
  rw [hcut.close_eq] at hlisted ⊢
  refine ⟨⟨h.stacked.inside, h.stacked.lt_next, fun y hy => ?_, fun y => ?_,
      h.stacked.descending.sublist hcut.sublist, hcut.path, fun a b hab => ?_⟩,
    ⟨h.linked.explored, fun a ha hoff b hab => ?_, fun a ha b hb => ?_, fun a ha => ?_⟩,
    ⟨fun v hv => h.bounded.le v (htail hv), fun v hv => ?_, fun v a b hv ha hb => ?_⟩, hlisted⟩
  · exact h.stacked.entered y (hbelow.mp hy).1
  · show (s.onStack y && !component.contains y) = true ↔ y ∈ below
    simp [hcut.mem_below_iff, ← h.stacked.onStack]
  · exact ⟨h.mem_tail_of_awaits hpath hdone hab, (h.stacked.awaits a b hab).2⟩
  · -- What is taken off leads to itself and to what was off before.
    by_cases hstack : a ∈ s.stack
    · have hxa : s.num x ≤ s.num a := Nat.le_of_not_lt fun hlt => hoff (hbelow.mpr ⟨hstack, hlt⟩)
      rcases h.stays_of_edge hpath hdone hlow hstack hxa hab with ⟨hb, hxb⟩ | ⟨hb, hout⟩
      · exact ⟨h.stacked.entered b hb, fun hmem => Nat.not_lt_of_le hxb (hbelow.mp hmem).2⟩
      · exact ⟨hb, fun hmem => hout (hbelow.mp hmem).1⟩
    · obtain ⟨hb, hout⟩ := h.linked.closed a ha hstack b hab
      exact ⟨hb, fun hmem => hout (hbelow.mp hmem).1⟩
  · exact h.linked.upward a (hbelow.mp ha).1 b (hbelow.mp hb).1
  · obtain ⟨hstack, hlt⟩ := hbelow.mp ha
    obtain ⟨v, hv, hle, hav⟩ := h.linked.downward a hstack
    exact ⟨v, Search.mem_tail hpath hv (Nat.lt_of_le_of_lt hle hlt), hle, hav⟩
  · obtain ⟨z, hz, hnum, hvz⟩ := h.bounded.sound v (htail hv)
    refine ⟨z, hbelow.mpr ⟨hz, ?_⟩, hnum, hvz⟩
    rw [hnum]
    exact Nat.lt_of_le_of_lt (h.bounded.le v (htail hv)) (hcut.num_lt hv)
  · obtain ⟨ha, hlt⟩ := hbelow.mp ha
    have hcarries : s.Carries v a := Search.carries_of_tail hpath hv.mem hv.le hv.last hlt
    exact h.bounded.covers v a b hcarries ha (hbelow.mp hb).1

/-! ## One step -/

theorem Searching.leave (hclosed : Closed edges items) (hnodup : items.Nodup)
    (h : Searching edges items awaits s) (hpath : s.path = x :: work.map Frame.item)
    (hdone : ∀ y, ¬ awaits x y) :
    Searching edges items awaits (s.leave edges items x work) := by
  have hx : x ∈ s.path := hpath ▸ List.mem_cons_self
  obtain ⟨low, heq, hback⟩ := s.exists_back_eq x work
  have hsame : low x = s.low x := (hback.eq x).elim id And.right
  rw [Search.leave, heq]
  simp only [hsame, (h.stacked.entered_of_mem_path hx).order_eq, Option.some.injEq]
  split
  next hlow =>
    -- Nothing is lowered: the items that the search is at have lower numbers than `x`.
    obtain rfl : low = s.low := by
      funext v
      refine (hback.eq v).resolve_right fun hv => ?_
      obtain ⟨hv, hlowv⟩ := hv
      have := h.num_lt_of_mem_tail hpath hv
      have := h.bounded.le v (Search.mem_path_of_mem_tail hpath hv)
      have := hback.le v
      omega
    exact h.close hclosed hnodup hpath hdone hlow.symm
  next hlow =>
    have hle := h.bounded.le x hx
    exact h.back hpath hdone hback (by omega)

theorem Search.work_leave (s : Search α) (x : α) (work : List (Frame α)) :
    (s.leave edges items x work).work = work := by
  obtain ⟨low, heq, -⟩ := s.exists_back_eq x work
  simp only [leave, heq]
  split <;> rfl

theorem Searching.look (hclosed : Closed edges items) (h : Searching edges items awaits s)
    (hpath : s.path = x :: work.map Frame.item) (hxy : y ∈ edges x)
    (hawaits : ∀ a b, awaits a b ↔ s.Awaits a b ∨ a = x ∧ b = y) :
    Searching edges items (s.look edges x y).Awaits (s.look edges x y) := by
  have hx : x ∈ s.path := hpath ▸ List.mem_cons_self
  have hleft (a b : α) (hab : s.Awaits a b) : awaits a b := (hawaits a b).mpr (.inl hab)
  have hseen (a b : α) (hab : awaits a b) : s.Awaits a b ∨ a = x ∧ b = y := (hawaits a b).mp hab
  rw [Search.look]
  split
  next hnone =>
    have hown (a b : α) : (s.enter edges y).Awaits a b ↔ y = a ∧ b ∈ edges y ∨ s.Awaits a b := by
      simp only [Search.Awaits, Search.enter, List.mem_cons, exists_eq_or_imp]
    refine h.enter ⟨?_, ?_, fun z hz => ?_, fun z hz => ?_, fun a b hab => ?_, fun a b hab => ?_⟩
    · exact hclosed x (h.stacked.inside x (h.stacked.entered_of_mem_path hx)) y hxy
    · simp [Search.Entered, hnone]
    · obtain ⟨v, hv, -, hzv⟩ := h.linked.downward z hz
      have hvx := h.linked.upward v (h.stacked.path.subset hv) x (h.stacked.path.subset hx)
        (h.num_le_of_mem_path hpath hv)
      exact (hzv.trans hvx).tail hxy
    · exact (hown y z).mpr (.inl ⟨rfl, hz⟩)
    · exact ((hown a b).mp hab).imp (fun hab => ⟨hab.1.symm, hab.2⟩) (hleft a b)
    · exact (hseen a b hab).imp (fun hab => (hown a b).mpr (.inr hab)) And.right
  next n hn =>
    have hentered : s.Entered y := Option.isSome_iff_exists.mpr ⟨n, hn⟩
    obtain rfl : s.num y = n := Option.some.inj (hentered.order_eq.symm.trans hn)
    split
    next hon =>
      have hlower := h.lower ((h.stacked.onStack y).mp hon) hxy
      refine hlower.seen hentered (fun _ v hv => ?_) hleft hseen
      obtain rfl := h.stacked.eq_of_carries ⟨hv.mem, hv.le, hv.last⟩ hx
      exact s.low_lower_self_le v _
    next hoff =>
      refine h.seen hentered (fun hy => ?_) hleft hseen
      exact absurd ((h.stacked.onStack y).mpr hy) hoff

theorem Searching.step (hclosed : Closed edges items) (hnodup : items.Nodup)
    (h : Searching edges items s.Awaits s) (ht : s.step? edges items = some t) :
    Searching edges items t.Awaits t := by
  rw [Search.step?] at ht
  split at ht
  · cases ht
  next x y rest work hwork =>
    obtain rfl := Option.some.inj ht
    have hpath : s.path = x :: work.map Frame.item := by rw [Search.path, hwork, List.map_cons]
    have hxy : s.Awaits x y := ⟨⟨x, y :: rest⟩, by simp [hwork], rfl, List.mem_cons_self⟩
    have hcut : Searching edges items s.Awaits { s with work := ⟨x, rest⟩ :: work } :=
      h.rework hpath.symm
    refine hcut.look hclosed rfl (h.stacked.awaits x y hxy).2 fun a b => ?_
    simp only [Search.Awaits, hwork, List.mem_cons, exists_eq_or_imp]
    grind
  next x work hwork =>
    obtain rfl := Option.some.inj ht
    have hpath : s.path = x :: work.map Frame.item := by rw [Search.path, hwork, List.map_cons]
    have hawaits (a b : α) : s.Awaits a b ↔ ∃ f ∈ work, f.item = a ∧ b ∈ f.rest := by
      simp [Search.Awaits, hwork]
    have hleave := h.leave hclosed hnodup hpath fun y hy => ?_
    · have heq : (s.leave edges items x work).Awaits = s.Awaits := by
        funext a b
        rw [Search.Awaits, Search.work_leave, hawaits]
      exact heq ▸ hleave
    · obtain ⟨f, hf, rfl, -⟩ := (hawaits x y).mp hy
      exact Nat.lt_irrefl _ (h.num_lt_of_mem_tail hpath (List.mem_map_of_mem hf))

end Dependency
end Reconcile
