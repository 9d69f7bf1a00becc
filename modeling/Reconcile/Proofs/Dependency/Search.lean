import Reconcile.Dependency.Cycle
import Reconcile.Proofs.Dependency.Component
/-!
What the search for circles preserves while no component is complete.  Main statements:
`Searching.enter`, `Searching.lower` and `Searching.back`, for entering an item, for finding one on
the stack, and for going back from one.
-/

namespace Reconcile
namespace Dependency

open Relation

variable {α : Type} {edges : α → List α} {items : List α}

namespace Search

def path (s : Search α) : List α := s.work.map Frame.item

def Entered (s : Search α) (x : α) : Prop := (s.order x).isSome

def num (s : Search α) (x : α) : Nat := (s.order x).getD 0

theorem Entered.order_eq {s : Search α} {x : α} (h : s.Entered x) : s.order x = some (s.num x) := by
  obtain ⟨n, hn⟩ := Option.isSome_iff_exists.mp h
  rw [num, hn]
  rfl

/-- The search is at `x` and will look at `y`. -/
def Awaits (s : Search α) (x y : α) : Prop := ∃ f ∈ s.work, f.item = x ∧ y ∈ f.rest

/-- Of the items that the search is at, `v` is the last one that was not entered after `x`. -/
structure Carries (s : Search α) (v x : α) : Prop where
  mem : v ∈ s.path
  le : s.num v ≤ s.num x
  last : ∀ w ∈ s.path, s.num w ≤ s.num x → s.num w ≤ s.num v

end Search

/-! ## The invariant -/

section

variable (edges : α → List α) (items : List α) (awaits : α → α → Prop) (s : Search α)

/-- What was entered, and what of it is on the stack. -/
structure Stacked : Prop where
  inside : ∀ x, s.Entered x → x ∈ items
  lt_next : ∀ x, s.Entered x → s.num x < s.next
  entered : ∀ x ∈ s.stack, s.Entered x
  onStack : ∀ x, s.onStack x ↔ x ∈ s.stack
  descending : s.stack.Pairwise fun x y => s.num y < s.num x
  path : s.path.Sublist s.stack
  awaits : ∀ x y, awaits x y → x ∈ s.path ∧ y ∈ edges x

/-- How the items on the stack hang together, and that nothing leads back to them from outside. -/
structure Linked : Prop where
  explored : ∀ x y, s.Entered x → y ∈ edges x → ¬ awaits x y → s.Entered y
  closed : ∀ x, s.Entered x → x ∉ s.stack → ∀ y ∈ edges x, s.Entered y ∧ y ∉ s.stack
  upward : ∀ x ∈ s.stack, ∀ y ∈ s.stack, s.num x ≤ s.num y → ReflTransGen (Needs edges) x y
  downward : ∀ x ∈ s.stack, ∃ v ∈ s.path, s.num v ≤ s.num x ∧ ReflTransGen (Needs edges) x v

/-- The low number of an item that the search is at belongs to an item that it leads to, and is no
higher than what it was seen to lead to. -/
structure Bounded : Prop where
  le : ∀ v ∈ s.path, s.low v ≤ s.num v
  sound : ∀ v ∈ s.path, ∃ z ∈ s.stack, s.num z = s.low v ∧ ReflTransGen (Needs edges) v z
  covers : ∀ v x y, s.Carries v x → x ∈ s.stack → y ∈ s.stack → y ∈ edges x → ¬ awaits x y →
    s.low v ≤ s.num y

/-- The circles of what was entered and is off the stack are listed. -/
structure Listed : Prop where
  circle : ∀ group ∈ s.cycles, IsCircle (Needs edges) items group
  off : ∀ group ∈ s.cycles, ∀ x ∈ group, s.Entered x ∧ x ∉ s.stack
  complete : ∀ x, s.Entered x → x ∉ s.stack → TransGen (Needs edges) x x →
    ∃ group ∈ s.cycles, x ∈ group
  disjoint : s.cycles.Pairwise List.Disjoint

/-- What holds of a search that still has to look at what `awaits` names. -/
structure Searching : Prop where
  stacked : Stacked edges items awaits s
  linked : Linked edges awaits s
  bounded : Bounded edges awaits s
  listed : Listed edges items s

end

variable {awaits awaits' : α → α → Prop} {s : Search α} {x y : α}

namespace Stacked

variable (h : Stacked edges items awaits s)

include h

theorem entered_of_mem_path (hx : x ∈ s.path) : s.Entered x := h.entered x (h.path.subset hx)

theorem eq_of_num_eq (hx : x ∈ s.stack) (hy : y ∈ s.stack) (hnum : s.num x = s.num y) : x = y := by
  have hnodup : (s.stack.map s.num).Nodup :=
    List.pairwise_map.mpr (h.descending.imp fun hlt => Nat.ne_of_gt hlt)
  exact List.inj_on_of_nodup_map hnodup hx hy hnum

theorem descending_path : s.path.Pairwise fun x y => s.num y < s.num x :=
  h.descending.sublist h.path

theorem eq_of_carries {v : α} (hv : s.Carries v x) (hx : x ∈ s.path) : v = x :=
  h.eq_of_num_eq (h.path.subset hv.mem) (h.path.subset hx)
    (Nat.le_antisymm hv.le (hv.last x hx (Nat.le_refl _)))

end Stacked

theorem Searching.start : Searching edges items (Search.start : Search α).Awaits .start where
  stacked := {
    inside := fun _ hx => nomatch hx
    lt_next := fun _ hx => nomatch hx
    entered := fun _ hx => nomatch hx
    onStack := fun _ => by simp [Search.start]
    descending := .nil
    path := .slnil
    awaits := fun _ _ hx => by simp [Search.start, Search.Awaits] at hx }
  linked := {
    explored := fun _ _ hx => nomatch hx
    closed := fun _ hx => nomatch hx
    upward := fun _ hx => nomatch hx
    downward := fun _ hx => nomatch hx }
  bounded := {
    le := fun _ hv => nomatch hv
    sound := fun _ hv => nomatch hv
    covers := fun _ _ _ _ hx => nomatch hx }
  listed := {
    circle := fun _ hg => nomatch hg
    off := fun _ hg => nomatch hg
    complete := fun _ hx => nomatch hx
    disjoint := .nil }

/-- Only the items that the search is at matter, not what they are still to look at. -/
theorem Searching.rework (h : Searching edges items awaits s) {work : List (Frame α)}
    (hwork : work.map Frame.item = s.path) : Searching edges items awaits { s with work } := by
  have hpath : Search.path { s with work } = s.path := hwork
  have hcarries {v x : α} (hv : Search.Carries { s with work } v x) : s.Carries v x :=
    ⟨hpath ▸ hv.mem, hv.le, hpath ▸ hv.last⟩
  obtain ⟨hstacked, hlinked, hbounded, hlisted⟩ := h
  refine ⟨⟨hstacked.inside, hstacked.lt_next, hstacked.entered, hstacked.onStack,
      hstacked.descending, ?_, ?_⟩,
    ⟨hlinked.explored, hlinked.closed, hlinked.upward, ?_⟩,
    ⟨?_, ?_, fun v x y hv => hbounded.covers v x y (hcarries hv)⟩,
    ⟨hlisted.circle, hlisted.off, hlisted.complete, hlisted.disjoint⟩⟩
  all_goals rw [hpath]
  · exact hstacked.path
  · exact hstacked.awaits
  · exact hlinked.downward
  · exact hbounded.le
  · exact hbounded.sound

/-! ## Looking at an item -/

theorem Searching.seen (h : Searching edges items awaits s) (hy : s.Entered y)
    (hcovers : y ∈ s.stack → ∀ v, s.Carries v x → s.low v ≤ s.num y)
    (hleft : ∀ a b, awaits' a b → awaits a b)
    (hseen : ∀ a b, awaits a b → awaits' a b ∨ a = x ∧ b = y) :
    Searching edges items awaits' s where
  stacked := { h.stacked with awaits := fun a b hab => h.stacked.awaits a b (hleft a b hab) }
  linked := { h.linked with
    explored := fun a b ha hb hnot => by
      by_cases hab : awaits a b
      · obtain ⟨-, rfl⟩ := (hseen a b hab).resolve_left hnot
        exact hy
      · exact h.linked.explored a b ha hb hab }
  bounded := { h.bounded with
    covers := fun v a b hv ha hb hedge hnot => by
      by_cases hab : awaits a b
      · obtain ⟨rfl, rfl⟩ := (hseen a b hab).resolve_left hnot
        exact hcovers hb v hv
      · exact h.bounded.covers v a b hv ha hb hedge hab }
  listed := h.listed

section

variable [DecidableEq α]

theorem Search.low_lower_le (s : Search α) (x v : α) (n : Nat) :
    (s.lower x n).low v ≤ s.low v := by
  simp only [Search.lower]
  split
  next hv => exact hv ▸ Nat.min_le_left _ _
  · exact Nat.le_refl _

theorem Search.low_lower_self_le (s : Search α) (x : α) (n : Nat) : (s.lower x n).low x ≤ n := by
  simp only [Search.lower, if_true]
  exact Nat.min_le_right _ _

theorem Search.low_lower_eq (s : Search α) (x v : α) (n : Nat) :
    (s.lower x n).low v = s.low v ∨ v = x ∧ (s.lower x n).low v = n := by
  simp only [Search.lower]
  split
  next hv =>
    subst hv
    rcases Nat.le_total (s.low v) n with hle | hle
    · exact .inl (Nat.min_eq_left hle)
    · exact .inr ⟨rfl, Nat.min_eq_right hle⟩
  · exact .inl rfl

theorem Searching.lower (h : Searching edges items awaits s) (hy : y ∈ s.stack)
    (hxy : y ∈ edges x) : Searching edges items awaits (s.lower x (s.num y)) where
  stacked := ⟨h.stacked.inside, h.stacked.lt_next, h.stacked.entered, h.stacked.onStack,
    h.stacked.descending, h.stacked.path, h.stacked.awaits⟩
  linked := ⟨h.linked.explored, h.linked.closed, h.linked.upward, h.linked.downward⟩
  bounded := {
    le := fun v hv => Nat.le_trans (s.low_lower_le x v _) (h.bounded.le v hv)
    sound := fun v hv => by
      rcases s.low_lower_eq x v (s.num y) with hlow | ⟨rfl, hlow⟩
      · rw [hlow]
        exact h.bounded.sound v hv
      · exact ⟨y, hy, hlow.symm, .single hxy⟩
    covers := fun v a b hv ha hb hedge hnot => Nat.le_trans (s.low_lower_le x v _)
      (h.bounded.covers v a b ⟨hv.mem, hv.le, hv.last⟩ ha hb hedge hnot) }
  listed := ⟨h.listed.circle, h.listed.off, h.listed.complete, h.listed.disjoint⟩

/-! ## Entering an item -/

namespace Search

theorem entered_enter_iff : (s.enter edges x).Entered y ↔ y = x ∨ s.Entered y := by
  simp only [Entered, enter]
  split
  next hy => simp [hy]
  next hy => simp [hy]

theorem num_enter_self (s : Search α) (x : α) : (s.enter edges x).num x = s.next := by
  simp [num, enter]

theorem num_enter_of_ne (hne : y ≠ x) : (s.enter edges x).num y = s.num y := by
  simp [num, enter, hne]

theorem low_enter_self (s : Search α) (x : α) : (s.enter edges x).low x = s.next := by
  simp [enter]

theorem low_enter_of_ne (hne : y ≠ x) : (s.enter edges x).low y = s.low y := by
  simp [enter, hne]

end Search

/-- `x` is new and can be reached from all of the stack; what it needs has to be looked at, and
nobody need look at `x` any more. -/
structure IsEntry (edges : α → List α) (items : List α) (awaits awaits' : α → α → Prop)
    (s : Search α) (x : α) : Prop where
  item : x ∈ items
  new : ¬ s.Entered x
  reached : ∀ y ∈ s.stack, ReflTransGen (Needs edges) y x
  own : ∀ y ∈ edges x, awaits' x y
  left : ∀ y z, awaits' y z → y = x ∧ z ∈ edges x ∨ awaits y z
  seen : ∀ y z, awaits y z → awaits' y z ∨ z = x

namespace IsEntry

variable (hx : IsEntry edges items awaits awaits' s x)

include hx

omit [DecidableEq α] in
theorem ne_of_entered (hy : s.Entered y) : y ≠ x := fun heq => hx.new (heq ▸ hy)

theorem num_eq (hy : s.Entered y) : (s.enter edges x).num y = s.num y :=
  Search.num_enter_of_ne (hx.ne_of_entered hy)

theorem num_lt (h : Stacked edges items awaits s) (hy : s.Entered y) :
    (s.enter edges x).num y < (s.enter edges x).num x := by
  rw [hx.num_eq hy, Search.num_enter_self]
  exact h.lt_next y hy

theorem stacked (h : Stacked edges items awaits s) :
    Stacked edges items awaits' (s.enter edges x) where
  inside y hy := by
    rcases Search.entered_enter_iff.mp hy with rfl | hy
    · exact hx.item
    · exact h.inside y hy
  lt_next y hy := by
    show (s.enter edges x).num y < s.next + 1
    rcases Search.entered_enter_iff.mp hy with rfl | hy
    · rw [Search.num_enter_self]
      exact Nat.lt_succ_self _
    · rw [hx.num_eq hy]
      exact Nat.lt_succ_of_lt (h.lt_next y hy)
  entered y hy := by
    rcases List.mem_cons.mp hy with rfl | hy
    · exact Search.entered_enter_iff.mpr (.inl rfl)
    · exact Search.entered_enter_iff.mpr (.inr (h.entered y hy))
  onStack y := by
    show (if y = x then true else s.onStack y) = true ↔ y ∈ x :: s.stack
    rw [List.mem_cons, ← h.onStack]
    split
    next hy => simp [hy]
    next hy => simp [hy]
  descending := by
    refine List.pairwise_cons.mpr ⟨fun y hy => hx.num_lt h (h.entered y hy), ?_⟩
    refine h.descending.imp_of_mem fun {a b} ha hb hlt => ?_
    rw [hx.num_eq (h.entered a ha), hx.num_eq (h.entered b hb)]
    exact hlt
  path := h.path.cons_cons x
  awaits y z hyz := by
    rcases hx.left y z hyz with ⟨rfl, hz⟩ | hyz
    · exact ⟨List.mem_cons_self, hz⟩
    · obtain ⟨hy, hz⟩ := h.awaits y z hyz
      exact ⟨List.mem_cons_of_mem _ hy, hz⟩

theorem linked (hs : Stacked edges items awaits s) (h : Linked edges awaits s) :
    Linked edges awaits' (s.enter edges x) where
  explored y z hy hz hnot := by
    by_cases hzx : z = x
    · exact Search.entered_enter_iff.mpr (.inl hzx)
    rcases Search.entered_enter_iff.mp hy with rfl | hy
    · exact absurd (hx.own z hz) hnot
    · have hyz : ¬ awaits y z := fun hyz => (hx.seen y z hyz).elim hnot hzx
      exact Search.entered_enter_iff.mpr (.inr (h.explored y z hy hz hyz))
  closed y hy hoff z hz := by
    obtain ⟨hyx, hoff⟩ := List.ne_and_not_mem_of_not_mem_cons hoff
    have hy := (Search.entered_enter_iff.mp hy).resolve_left hyx
    obtain ⟨hentered, hoff⟩ := h.closed y hy hoff z hz
    exact ⟨Search.entered_enter_iff.mpr (.inr hentered),
      List.not_mem_cons_of_ne_of_not_mem (hx.ne_of_entered hentered) hoff⟩
  upward y hyt z hzt hle := by
    rcases List.mem_cons.mp hyt with rfl | hy <;> rcases List.mem_cons.mp hzt with rfl | hz
    · exact .refl
    · have := hx.num_lt hs (hs.entered z hz)
      omega
    · exact hx.reached y hy
    · rw [hx.num_eq (hs.entered y hy), hx.num_eq (hs.entered z hz)] at hle
      exact h.upward y hy z hz hle
  downward y hy := by
    rcases List.mem_cons.mp hy with rfl | hy
    · exact ⟨y, List.mem_cons_self, Nat.le_refl _, .refl⟩
    · obtain ⟨v, hv, hle, hyv⟩ := h.downward y hy
      refine ⟨v, List.mem_cons_of_mem _ hv, ?_, hyv⟩
      rw [hx.num_eq (hs.entered_of_mem_path hv), hx.num_eq (hs.entered y hy)]
      exact hle

theorem carries (h : Stacked edges items awaits s) {v : α} (hy : s.Entered y)
    (hv : (s.enter edges x).Carries v y) : s.Carries v y := by
  have hvx : v ≠ x := fun hvx => Nat.not_lt_of_le (hvx ▸ hv.le) (hx.num_lt h hy)
  have hmem : v ∈ s.path := (List.mem_cons.mp hv.mem).resolve_left hvx
  have hle := hv.le
  rw [hx.num_eq hy, hx.num_eq (h.entered_of_mem_path hmem)] at hle
  refine ⟨hmem, hle, fun w hw hwy => ?_⟩
  have hlast := hv.last w (List.mem_cons_of_mem _ hw)
  rw [hx.num_eq hy, hx.num_eq (h.entered_of_mem_path hmem),
    hx.num_eq (h.entered_of_mem_path hw)] at hlast
  exact hlast hwy

theorem bounded (hs : Stacked edges items awaits s) (h : Bounded edges awaits s) :
    Bounded edges awaits' (s.enter edges x) where
  le v hv := by
    rcases List.mem_cons.mp hv with rfl | hv
    · rw [Search.low_enter_self, Search.num_enter_self]
    · have hentered := hs.entered_of_mem_path hv
      rw [Search.low_enter_of_ne (hx.ne_of_entered hentered), hx.num_eq hentered]
      exact h.le v hv
  sound v hv := by
    rcases List.mem_cons.mp hv with rfl | hv
    · refine ⟨v, List.mem_cons_self, ?_, .refl⟩
      rw [Search.low_enter_self, Search.num_enter_self]
    · obtain ⟨z, hz, hnum, hvz⟩ := h.sound v hv
      refine ⟨z, List.mem_cons_of_mem _ hz, ?_, hvz⟩
      rw [Search.low_enter_of_ne (hx.ne_of_entered (hs.entered_of_mem_path hv)),
        hx.num_eq (hs.entered z hz)]
      exact hnum
  covers v y z hvt hyt hzt hyz hnot := by
    rcases List.mem_cons.mp hyt with rfl | hy
    · exact absurd (hx.own z hyz) hnot
    have hv := hx.carries hs (hs.entered y hy) hvt
    have hentered := hs.entered_of_mem_path hv.mem
    rw [Search.low_enter_of_ne (hx.ne_of_entered hentered)]
    rcases List.mem_cons.mp hzt with rfl | hz
    · have := h.le v hv.mem
      have := hs.lt_next v hentered
      rw [Search.num_enter_self]
      omega
    · have hzx := hx.ne_of_entered (hs.entered z hz)
      rw [hx.num_eq (hs.entered z hz)]
      exact h.covers v y z hv hy hz hyz fun hyz => (hx.seen y z hyz).elim hnot hzx

theorem listed (h : Listed edges items s) : Listed edges items (s.enter edges x) where
  circle := h.circle
  off group hg y hy := by
    obtain ⟨hentered, hoff⟩ := h.off group hg y hy
    exact ⟨Search.entered_enter_iff.mpr (.inr hentered),
      List.not_mem_cons_of_ne_of_not_mem (hx.ne_of_entered hentered) hoff⟩
  complete y hy hoff hcircular := by
    obtain ⟨hyx, hoff⟩ := List.ne_and_not_mem_of_not_mem_cons hoff
    exact h.complete y ((Search.entered_enter_iff.mp hy).resolve_left hyx) hoff hcircular
  disjoint := h.disjoint

end IsEntry

theorem Searching.enter (h : Searching edges items awaits s)
    (hx : IsEntry edges items awaits awaits' s x) :
    Searching edges items awaits' (s.enter edges x) :=
  ⟨hx.stacked h.stacked, hx.linked h.stacked h.linked, hx.bounded h.stacked h.bounded,
    hx.listed h.listed⟩

/-! ## Going back -/

/-- The low numbers after going back from `x`: only that of the item that `x` was entered from is
lowered, to that of `x`. -/
structure IsBack (s : Search α) (x : α) (work : List (Frame α)) (low : α → Nat) : Prop where
  le : ∀ v, low v ≤ s.low v
  eq : ∀ v, low v = s.low v ∨ v ∈ work.map Frame.item ∧ low v = s.low x
  parent : ∀ f ∈ work.head?, low f.item ≤ s.low x

theorem Search.exists_back_eq (s : Search α) (x : α) (work : List (Frame α)) :
    ∃ low, s.back x work = { s with work, low } ∧ IsBack s x work low := by
  cases work with
  | nil =>
    exact ⟨s.low, rfl, fun _ => Nat.le_refl _, fun _ => .inl rfl, fun _ hf => nomatch hf⟩
  | cons parent work =>
    refine ⟨(s.lower parent.item (s.low x)).low, rfl, fun v => s.low_lower_le _ v _,
      fun v => ?_, ?_⟩
    · refine (s.low_lower_eq _ v _).imp_right fun hv => ⟨?_, hv.2⟩
      exact hv.1 ▸ List.mem_cons_self
    · intro f hf
      obtain rfl := Option.some.inj hf
      exact s.low_lower_self_le _ _

end

section

variable {work : List (Frame α)} (h : Searching edges items awaits s)
  (hpath : s.path = x :: work.map Frame.item) (hdone : ∀ y, ¬ awaits x y)

include hpath

theorem Search.mem_path_of_mem_tail {v : α} (hv : v ∈ work.map Frame.item) : v ∈ s.path :=
  hpath ▸ List.mem_cons_of_mem x hv

theorem Search.mem_tail {v : α} (hv : v ∈ s.path) (hlt : s.num v < s.num x) :
    v ∈ work.map Frame.item := by
  rw [hpath] at hv
  refine (List.mem_cons.mp hv).resolve_left fun heq => ?_
  exact Nat.lt_irrefl _ (heq ▸ hlt)

theorem Search.carries_of_tail {v : α} (hv : v ∈ work.map Frame.item) (hle : s.num v ≤ s.num y)
    (hlast : ∀ w ∈ work.map Frame.item, s.num w ≤ s.num y → s.num w ≤ s.num v)
    (hyx : s.num y < s.num x) : s.Carries v y := by
  refine ⟨Search.mem_path_of_mem_tail hpath hv, hle, fun w hw hwy => ?_⟩
  exact hlast w (Search.mem_tail hpath hw (Nat.lt_of_le_of_lt hwy hyx)) hwy

include h

theorem Searching.mem_stack : x ∈ s.stack :=
  h.stacked.path.subset (hpath ▸ List.mem_cons_self)

theorem Searching.num_lt_of_mem_tail {v : α} (hv : v ∈ work.map Frame.item) :
    s.num v < s.num x := by
  have hdescending := h.stacked.descending_path
  rw [hpath] at hdescending
  exact (List.pairwise_cons.mp hdescending).1 v hv

theorem Searching.num_le_of_mem_path {v : α} (hv : v ∈ s.path) : s.num v ≤ s.num x := by
  rcases List.mem_cons.mp (hpath ▸ hv) with rfl | hv
  · exact Nat.le_refl _
  · exact Nat.le_of_lt (h.num_lt_of_mem_tail hpath hv)

theorem Searching.carries_top (hy : s.num x ≤ s.num y) : s.Carries x y :=
  ⟨hpath ▸ List.mem_cons_self, hy, fun _ hw _ => h.num_le_of_mem_path hpath hw⟩

theorem Searching.low_le_of_carries {low : α → Nat} (hback : IsBack s x work low) {v : α}
    (hv : Search.Carries { s with work, low } v x) : low v ≤ s.low x := by
  cases work with
  | nil => cases hv.mem
  | cons parent work =>
    have hparent := h.num_lt_of_mem_tail hpath (List.mem_cons_self : parent.item ∈ _)
    have hle := hv.last parent.item List.mem_cons_self (Nat.le_of_lt hparent)
    have hdescending := h.stacked.descending_path
    rw [hpath, List.map_cons, List.pairwise_cons, List.pairwise_cons] at hdescending
    rcases List.mem_cons.mp hv.mem with rfl | hmem
    · exact hback.parent parent rfl
    · exact absurd (hdescending.2.1 v hmem) (Nat.not_lt_of_le hle)

include hdone

theorem Searching.mem_tail_of_awaits {a b : α} (hab : awaits a b) : a ∈ work.map Frame.item := by
  have ha := (h.stacked.awaits a b hab).1
  rw [hpath] at ha
  rcases List.mem_cons.mp ha with rfl | ha
  · exact absurd hab (hdone b)
  · exact ha

theorem Searching.back {low : α → Nat} (hback : IsBack s x work low)
    (hlow : s.low x < s.num x) : Searching edges items awaits { s with work, low } := by
  have hx : x ∈ s.path := hpath ▸ List.mem_cons_self
  have htail {v : α} (hv : v ∈ work.map Frame.item) : v ∈ s.path :=
    Search.mem_path_of_mem_tail hpath hv
  refine ⟨⟨h.stacked.inside, h.stacked.lt_next, h.stacked.entered, h.stacked.onStack,
      h.stacked.descending, ?_, fun a b hab => ?_⟩,
    ⟨h.linked.explored, h.linked.closed, h.linked.upward, fun a ha => ?_⟩,
    ⟨fun v hv => ?_, fun v hv => ?_, fun v a b hv ha hb hab hnot => ?_⟩,
    ⟨h.listed.circle, h.listed.off, h.listed.complete, h.listed.disjoint⟩⟩
  · exact ((hpath ▸ List.sublist_cons_self x _ : List.Sublist _ s.path)).trans h.stacked.path
  · exact ⟨h.mem_tail_of_awaits hpath hdone hab, (h.stacked.awaits a b hab).2⟩
  · -- What led to `x` leads on to the item with the low number of `x`.
    obtain ⟨v, hv, hle, hav⟩ := h.linked.downward a ha
    rcases List.mem_cons.mp (hpath ▸ hv) with rfl | hv
    · obtain ⟨z, hz, hnum, hvz⟩ := h.bounded.sound v hx
      obtain ⟨w, hw, hwz, hzw⟩ := h.linked.downward z hz
      refine ⟨w, Search.mem_tail hpath hw (by omega), ?_, (hav.trans hvz).trans hzw⟩
      show s.num w ≤ s.num a
      omega
    · exact ⟨v, hv, hle, hav⟩
  · exact Nat.le_trans (hback.le v) (h.bounded.le v (htail hv))
  · rcases hback.eq v with hv' | ⟨-, hv'⟩
    · obtain ⟨z, hz, hnum, hvz⟩ := h.bounded.sound v (htail hv)
      exact ⟨z, hz, hnum.trans hv'.symm, hvz⟩
    · obtain ⟨z, hz, hnum, hxz⟩ := h.bounded.sound x hx
      refine ⟨z, hz, hnum.trans hv'.symm, .trans ?_ hxz⟩
      exact h.linked.upward v (h.stacked.path.subset (htail hv)) x (h.mem_stack hpath)
        (Nat.le_of_lt (h.num_lt_of_mem_tail hpath hv))
  · by_cases hax : s.num x ≤ s.num a
    · have hle := h.bounded.covers x a b (h.carries_top hpath hax) ha hb hab hnot
      refine Nat.le_trans (h.low_le_of_carries hpath hback ⟨hv.mem, ?_, fun w hw _ => ?_⟩) hle
      · exact Nat.le_of_lt (h.num_lt_of_mem_tail hpath hv.mem)
      · exact hv.last w hw (Nat.le_trans (Nat.le_of_lt (h.num_lt_of_mem_tail hpath hw)) hax)
    · have hcarries : s.Carries v a :=
        Search.carries_of_tail hpath hv.mem hv.le hv.last (Nat.lt_of_not_le hax)
      exact Nat.le_trans (hback.le v) (h.bounded.covers v a b hcarries ha hb hab hnot)

end

end Dependency
end Reconcile
