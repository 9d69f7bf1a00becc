import Mathlib.Data.List.Forall2
/-!
Facts about lists that have no home of their own.
-/

namespace Reconcile
namespace Lists

/-! ## Lists without repetitions -/

section

variable {α : Type} [BEq α] [LawfulBEq α]

theorem idxOf_lt_of_filter {p : α → Bool} {l : List α} {a b : α} (ha : p a) (hb : p b)
    (h : (l.filter p).idxOf a < (l.filter p).idxOf b) : l.idxOf a < l.idxOf b := by
  induction l with
  | nil => exact h
  | cons c l ih =>
    by_cases hc : p c
    · rw [List.filter_cons_of_pos hc] at h
      simp only [List.idxOf_cons] at h ⊢
      grind
    · rw [List.filter_cons_of_neg hc] at h
      have hca : (c == a) = false := by grind
      have hcb : (c == b) = false := by grind
      have := ih h
      simp only [List.idxOf_cons, hca, hcb, cond_false]
      omega

/-- Of a list without repetitions the members stand in the order of their first appearance. -/
theorem pairwise_idxOf_eraseDups (l : List α) :
    l.eraseDups.Pairwise fun a b => l.idxOf a < l.idxOf b := by
  induction hn : l.length using Nat.strongRecOn generalizing l with
  | ind n ih =>
    cases l with
    | nil => simp
    | cons c l =>
      have hlength := List.length_filter_le (fun b => !b == c) l
      have hrest := ih _ (by rw [← hn, List.length_cons]; omega) (l.filter fun b => !b == c) rfl
      have hne {b : α} (hb : b ∈ (l.filter fun b => !b == c).eraseDups) : (!b == c) = true :=
        (List.mem_filter.mp (List.mem_eraseDups.mp hb)).2
      rw [List.eraseDups_cons, List.pairwise_cons]
      refine ⟨fun b hb => ?_, hrest.imp_of_mem fun {a b} ha hb hlt => ?_⟩
      · have := hne hb
        simp only [List.idxOf_cons]
        grind
      · have hlt := idxOf_lt_of_filter (p := fun b => !b == c) (hne ha) (hne hb) hlt
        have := hne ha
        have := hne hb
        simp only [List.idxOf_cons]
        grind

theorem nodup_eraseDups (l : List α) : l.eraseDups.Nodup := by
  refine List.Pairwise.imp (fun {a b} hlt heq => ?_) (pairwise_idxOf_eraseDups l)
  rw [heq] at hlt
  exact Nat.lt_irrefl _ hlt

theorem eraseDups_of_nodup {l : List α} (h : l.Nodup) : l.eraseDups = l := by
  induction l with
  | nil => rfl
  | cons a l ih =>
    obtain ⟨ha, hl⟩ := List.nodup_cons.mp h
    have hall : (l.filter fun b => !b == a) = l := by
      refine List.filter_eq_self.mpr fun b hb => ?_
      grind
    rw [List.eraseDups_cons, hall, ih hl]

theorem eraseDups_append_append {front again rear : List α} (h : ∀ a ∈ again, a ∈ front) :
    (front ++ again ++ rear).eraseDups = (front ++ rear).eraseDups := by
  have hnone : again.removeAll front = [] := by
    simpa [List.removeAll] using h
  have hrear : rear.removeAll (front ++ again) = rear.removeAll front := by
    refine List.filter_congr fun b _ => ?_
    have hmem : b ∈ front ++ again ↔ b ∈ front := by
      rw [List.mem_append]
      exact or_iff_left_of_imp (h b)
    simp only [List.elem_eq_contains, List.contains_eq_mem, hmem]
  rw [List.eraseDups_append, List.eraseDups_append, hnone, hrear, List.eraseDups_append]
  simp

theorem eraseDups_concat_of_mem {l : List α} {a : α}
    (h : a ∈ l) : (l ++ [a]).eraseDups = l.eraseDups := by
  have hnone : [a].removeAll l = [] := by simpa [List.removeAll] using h
  rw [List.eraseDups_append, hnone]
  exact List.append_nil _

theorem eraseDups_concat_of_not_mem {l : List α} {a : α}
    (h : a ∉ l) : (l ++ [a]).eraseDups = l.eraseDups ++ [a] := by
  have hone : [a].removeAll l = [a] := by simpa [List.removeAll] using h
  rw [List.eraseDups_append, hone]
  rfl

end

theorem eq_filter_of_sublist {α : Type} {p : α → Bool} {g l : List α} (hnodup : l.Nodup)
    (hsub : g.Sublist l) (h : ∀ y ∈ l, y ∈ g ↔ p y) : g = l.filter p := by
  induction hsub with
  | slnil => rfl
  | @cons g l a hsub ih =>
    obtain ⟨hal, hnodup⟩ := List.nodup_cons.mp hnodup
    have hpa : ¬ p a := fun hp => hal (hsub.subset ((h a List.mem_cons_self).mpr hp))
    rw [List.filter_cons_of_neg hpa]
    exact ih hnodup fun y hy => h y (List.mem_cons_of_mem _ hy)
  | @cons_cons g l a hsub ih =>
    obtain ⟨hal, hnodup⟩ := List.nodup_cons.mp hnodup
    have hpa : p a := (h a List.mem_cons_self).mp List.mem_cons_self
    rw [List.filter_cons_of_pos hpa, ← ih hnodup]
    intro y hy
    have hya : y ≠ a := fun heq => hal (heq ▸ hy)
    rw [← h y (List.mem_cons_of_mem _ hy), List.mem_cons]
    exact ⟨.inr, fun h => h.resolve_left hya⟩

/-- A list that never goes down starts with the members of its least value. -/
theorem filter_append_filter {α : Type} (f : α → Nat) {k : Nat} (l : List α)
    (h : l.Pairwise fun a b => f a ≤ f b) (hk : ∀ a ∈ l, k ≤ f a) :
    (l.filter fun a => f a == k) ++ (l.filter fun a => !f a == k) = l := by
  induction l with
  | nil => rfl
  | cons a rest ih =>
    obtain ⟨ha, hrest⟩ := List.pairwise_cons.mp h
    have hkrest : ∀ b ∈ rest, k ≤ f b := fun b hb => hk b (List.mem_cons_of_mem _ hb)
    by_cases hak : f a = k
    · have hleft : (a :: rest).filter (fun b => f b == k) = a :: rest.filter fun b => f b == k :=
        List.filter_cons_of_pos (by simpa using hak)
      have hright : (a :: rest).filter (fun b => !f b == k) = rest.filter fun b => !f b == k :=
        List.filter_cons_of_neg (by simpa using hak)
      rw [hleft, hright, List.cons_append, ih hrest hkrest]
    · -- From here on all values are above `k`.
      have hne : ∀ b ∈ a :: rest, f b ≠ k := by
        intro b hb
        have hka := hk a List.mem_cons_self
        rcases List.mem_cons.mp hb with rfl | hb
        · exact hak
        · have hab := ha b hb
          omega
      have hnone : (a :: rest).filter (fun b => f b == k) = [] :=
        List.filter_eq_nil_iff.mpr fun b hb => by simpa using hne b hb
      have hall : (a :: rest).filter (fun b => !f b == k) = a :: rest :=
        List.filter_eq_self.mpr fun b hb => by simpa using hne b hb
      rw [hnone, hall, List.nil_append]

/-- Grouping a list that never goes down by its values, lowest first, keeps its order. -/
theorem flatMap_filter_eraseDups {α : Type} (f : α → Nat) (l : List α)
    (h : l.Pairwise fun a b => f a ≤ f b) :
    ((l.map f).eraseDups.flatMap fun k => l.filter fun a => f a == k) = l := by
  induction hn : l.length using Nat.strongRecOn generalizing l with
  | ind n ih =>
    cases l with
    | nil => rfl
    | cons a rest =>
      obtain ⟨ha, hrest⟩ := List.pairwise_cons.mp h
      have hmap : (rest.map f).filter (fun k => !k == f a) =
          (rest.filter fun b => !f b == f a).map f := List.filter_map
      have hlater := ih _ (Nat.lt_of_le_of_lt (List.length_filter_le _ rest) (by simp [← hn]))
        (rest.filter fun b => !f b == f a) (hrest.filter _) rfl
      have hgroups : ((rest.filter fun b => !f b == f a).map f).eraseDups.flatMap
            (fun k => (a :: rest).filter fun b => f b == k) =
          rest.filter fun b => !f b == f a := by
        refine Eq.trans (List.flatMap_congr fun k hk => ?_) hlater
        obtain ⟨b, hb, rfl⟩ := List.mem_map.mp (List.mem_eraseDups.mp hk)
        have hba : f b ≠ f a := by simpa using (List.mem_filter.mp hb).2
        rw [List.filter_cons_of_neg (by simpa using Ne.symm hba), List.filter_filter]
        refine List.filter_congr fun c _ => ?_
        by_cases hcb : f c = f b
        · simp [hcb, hba]
        · simp [hcb]
      rw [List.map_cons, List.eraseDups_cons, List.flatMap_cons, hmap, hgroups,
        List.filter_cons_of_pos (by simp), List.cons_append, filter_append_filter f rest hrest ha]

/-! ## Lists that go together -/

section

variable {α β γ : Type} {r : α → β → Prop} {as : List α} {bs : List β}

theorem exists_left_of_forall₂ (h : List.Forall₂ r as bs) {b : β} (hb : b ∈ bs) :
    ∃ a ∈ as, r a b := by
  induction h with
  | nil => cases hb
  | cons hab _ ih =>
    rcases List.mem_cons.mp hb with rfl | hb
    · exact ⟨_, List.mem_cons_self, hab⟩
    · obtain ⟨a, ha, hr⟩ := ih hb
      exact ⟨a, List.mem_cons_of_mem _ ha, hr⟩

theorem exists_right_of_forall₂ (h : List.Forall₂ r as bs) {a : α} (ha : a ∈ as) :
    ∃ b ∈ bs, r a b := by
  induction h with
  | nil => cases ha
  | cons hab _ ih =>
    rcases List.mem_cons.mp ha with rfl | ha
    · exact ⟨_, List.mem_cons_self, hab⟩
    · obtain ⟨b, hb, hr⟩ := ih ha
      exact ⟨b, List.mem_cons_of_mem _ hb, hr⟩

theorem filter_map_of {f : α → β} {p : β → Bool} {q : α → Bool} (h : ∀ a, p (f a) = q a)
    (l : List α) : (l.map f).filter p = (l.filter q).map f := by
  rw [List.filter_map]
  exact congrArg (List.map f) (List.filter_congr fun a _ => h a)

theorem forall₂_imp_of_mem {s : α → β → Prop} (h : List.Forall₂ r as bs)
    (hrs : ∀ a ∈ as, ∀ b ∈ bs, r a b → s a b) : List.Forall₂ s as bs := by
  obtain ⟨hlength, hzip⟩ := List.forall₂_iff_zip.mp h
  refine List.forall₂_iff_zip.mpr ⟨hlength, fun {a b} hab => ?_⟩
  obtain ⟨ha, hb⟩ := List.of_mem_zip hab
  exact hrs a ha b hb (hzip hab)

/-- Each member of either list goes with one of the other, in whatever order and however often. -/
structure Matched (r : α → β → Prop) (as : List α) (bs : List β) : Prop where
  left : ∀ a ∈ as, ∃ b ∈ bs, r a b
  right : ∀ b ∈ bs, ∃ a ∈ as, r a b

theorem Matched.exists_iff (h : Matched r as bs) {P : α → Prop} {Q : β → Prop}
    (hPQ : ∀ a b, r a b → (P a ↔ Q b)) : (∃ a ∈ as, P a) ↔ ∃ b ∈ bs, Q b := by
  constructor
  · intro hsome
    obtain ⟨a, ha, hP⟩ := hsome
    obtain ⟨b, hb, hab⟩ := h.left a ha
    exact ⟨b, hb, (hPQ a b hab).mp hP⟩
  · intro hsome
    obtain ⟨b, hb, hQ⟩ := hsome
    obtain ⟨a, ha, hab⟩ := h.right b hb
    exact ⟨a, ha, (hPQ a b hab).mpr hQ⟩

theorem Matched.mem_map_iff (h : Matched r as bs) {f : α → γ} {g : β → γ}
    (hfg : ∀ a b, r a b → f a = g b) {c : γ} : c ∈ as.map f ↔ c ∈ bs.map g := by
  rw [List.mem_map, List.mem_map]
  exact h.exists_iff fun a b hab => by rw [hfg a b hab]

theorem map_eq_of_forall₂ {f : α → γ} {g : β → γ} (h : List.Forall₂ r as bs)
    (hfg : ∀ a b, r a b → g b = f a) : bs.map g = as.map f := by
  induction h with
  | nil => rfl
  | cons hab _ ih => rw [List.map_cons, List.map_cons, ih, hfg _ _ hab]

theorem forall₂_map_map {f : γ → α} {g : γ → β} {l : List γ} :
    List.Forall₂ r (l.map f) (l.map g) ↔ ∀ c ∈ l, r (f c) (g c) := by
  rw [List.forall₂_map_left_iff, List.forall₂_map_right_iff, List.forall₂_same]

theorem mapM_eq_some_iff {f : α → Option β} :
    as.mapM f = some bs ↔ List.Forall₂ (fun a b => f a = some b) as bs := by
  induction as generalizing bs with
  | nil =>
    rw [List.mapM_nil, List.forall₂_nil_left_iff]
    exact ⟨fun h => (Option.some.inj h).symm, fun h => congrArg some h.symm⟩
  | cons a as ih =>
    rw [List.mapM_cons, List.forall₂_cons_left_iff]
    show ((f a).bind fun b => (as.mapM f).bind fun bs => some (b :: bs)) = some bs ↔ _
    simp only [Option.bind_eq_some_iff, Option.some.injEq]
    constructor
    · intro hall
      obtain ⟨b, hb, cs, hcs, rfl⟩ := hall
      exact ⟨b, cs, hb, ih.mp hcs, rfl⟩
    · intro hall
      obtain ⟨b, cs, hb, hcs, rfl⟩ := hall
      exact ⟨b, hb, cs, ih.mpr hcs, rfl⟩

theorem exists_mapM_eq_some {f : α → Option β} (h : ∀ a ∈ as, ∃ b, f a = some b) :
    ∃ bs, as.mapM f = some bs := by
  induction as with
  | nil => exact ⟨[], rfl⟩
  | cons a as ih =>
    obtain ⟨b, hb⟩ := h a List.mem_cons_self
    obtain ⟨bs, hbs⟩ := ih fun a ha => h a (List.mem_cons_of_mem _ ha)
    exact ⟨b :: bs, mapM_eq_some_iff.mpr (.cons hb (mapM_eq_some_iff.mp hbs))⟩

end

end Lists
end Reconcile
