import Reconcile.Fallible
import Reconcile.Proofs.Lists
/-!
What the success of a whole list of steps says of each of them, and what their failure can be.
-/

namespace Reconcile
namespace Fallible

variable {ε α β : Type}

theorem exists_unit_iff {x : Except ε Unit} {P : Prop} :
    (∃ u, x = .ok u ∧ P) ↔ x = .ok () ∧ P :=
  ⟨fun ⟨_, h⟩ => h, fun h => ⟨(), h⟩⟩

theorem exists_eq_ok_iff {x : Except ε α} {a : α} {p : α → Prop} (h : x = .ok a) :
    (∃ b, x = .ok b ∧ p b) ↔ p a := by
  simp only [h, Except.ok.injEq, exists_eq_left']

theorem bind_eq_error_iff {x : Except ε α} {f : α → Except ε β} {e : ε} :
    x >>= f = .error e ↔ x = .error e ∨ ∃ a, x = .ok a ∧ f a = .error e := by
  cases x with
  | error e' =>
    show Except.error e' = Except.error e ↔ _
    simp
  | ok a =>
    show f a = .error e ↔ _
    simp

theorem mapError_eq_ok_iff {ε' : Type} {g : ε → ε'} {x : Except ε α} {a : α} :
    x.mapError g = .ok a ↔ x = .ok a := by
  cases x with
  | error e => exact iff_of_false (fun h => nomatch h) (fun h => nomatch h)
  | ok b =>
    show Except.ok b = Except.ok a ↔ _
    rw [Except.ok.injEq, Except.ok.injEq]

theorem toOption_bind (x : Except ε α) (f : α → Except ε β) :
    (x >>= f).toOption = x.toOption.bind fun a => (f a).toOption := by
  cases x with
  | error e => rfl
  | ok a => rfl

theorem toOption_eq_some_iff {x : Except ε α} {a : α} : x.toOption = some a ↔ x = .ok a := by
  cases x with
  | error e => exact iff_of_false (fun h => nomatch h) (fun h => nomatch h)
  | ok b => rw [Except.ok.injEq]; exact Option.some_inj

theorem toOption_mapM_congr {f g : α → Except ε β} {l : List α}
    (h : ∀ a, (f a).toOption = (g a).toOption) : (l.mapM f).toOption = (l.mapM g).toOption := by
  induction l with
  | nil => rfl
  | cons a l ih => simp only [List.mapM_cons, toOption_bind, h, ih]

theorem mapM_eq_ok_iff {f : α → Except ε β} {l : List α} {bs : List β} :
    l.mapM f = .ok bs ↔ List.Forall₂ (fun a b => f a = .ok b) l bs := by
  induction l generalizing bs with
  | nil =>
    rw [List.mapM_nil, pure_eq_ok]
    constructor
    · rintro rfl
      exact .nil
    · intro h
      exact (List.forall₂_nil_left_iff.mp h).symm
  | cons a l ih =>
    rw [mapM_cons_eq_ok, List.forall₂_cons_left_iff]
    constructor
    · intro hsteps
      obtain ⟨b, hb, cs, hcs, rfl⟩ := hsteps
      exact ⟨b, cs, hb, ih.mp hcs, rfl⟩
    · intro hsteps
      obtain ⟨b, cs, hb, hcs, rfl⟩ := hsteps
      exact ⟨b, hb, cs, ih.mpr hcs, rfl⟩

theorem exists_mapM_eq_ok {f : α → Except ε β} {l : List α} (h : ∀ a ∈ l, ∃ b, f a = .ok b) :
    ∃ bs, l.mapM f = .ok bs := by
  induction l with
  | nil => exact ⟨[], rfl⟩
  | cons a l ih =>
    obtain ⟨b, hb⟩ := h a List.mem_cons_self
    obtain ⟨bs, hbs⟩ := ih fun a ha => h a (List.mem_cons_of_mem _ ha)
    exact ⟨b :: bs, mapM_cons_eq_ok.mpr ⟨b, hb, bs, hbs, rfl⟩⟩

theorem forM_eq_ok_iff {f : α → Except ε Unit} {l : List α} :
    l.forM f = .ok () ↔ ∀ a ∈ l, f a = .ok () := by
  induction l with
  | nil => exact iff_of_true rfl fun _ h => nomatch h
  | cons a l ih =>
    show (f a >>= fun _ => l.forM f) = .ok () ↔ _
    rw [bind_eq_ok, List.forall_mem_cons, ← ih]
    constructor
    · intro hchecks
      obtain ⟨⟨⟩, ha, hl⟩ := hchecks
      exact ⟨ha, hl⟩
    · intro hchecks
      obtain ⟨ha, hl⟩ := hchecks
      exact ⟨(), ha, hl⟩

/-- What every step keeps, a successful run of steps keeps. -/
theorem foldlM_invariant {f : β → α → Except ε β} {l : List α} (P : β → Prop)
    (hstep : ∀ b, ∀ a ∈ l, ∀ b', f b a = .ok b' → P b → P b') {b b' : β}
    (h : l.foldlM f b = .ok b') (hb : P b) : P b' := by
  induction l generalizing b with
  | nil =>
    rw [List.foldlM_nil, pure_eq_ok] at h
    exact h ▸ hb
  | cons a l ih =>
    rw [List.foldlM_cons, bind_eq_ok] at h
    obtain ⟨c, hc, h⟩ := h
    exact ih (fun b a ha => hstep b a (List.mem_cons_of_mem _ ha)) h
      (hstep b a List.mem_cons_self c hc hb)

theorem exists_foldlM_eq_ok {f : β → α → Except ε β} (h : ∀ b a, ∃ b', f b a = .ok b')
    (l : List α) (b : β) : ∃ b', l.foldlM f b = .ok b' := by
  induction l generalizing b with
  | nil => exact ⟨b, rfl⟩
  | cons a l ih =>
    obtain ⟨c, hc⟩ := h b a
    obtain ⟨b', hb'⟩ := ih c
    exact ⟨b', by rw [List.foldlM_cons, bind_eq_ok]; exact ⟨c, hc, hb'⟩⟩

/-! ## Failures -/

section

variable {P : ε → Prop} {x : Except ε α} {f : α → Except ε β} {l : List α}

/-- Whatever the step fails with satisfies `P`. -/
def FailsIn (P : ε → Prop) (x : Except ε α) : Prop := ∀ e, x = .error e → P e

theorem failsIn_ok (a : α) : FailsIn P (.ok a : Except ε α) := fun _ h => nomatch h

theorem failsIn_error {e : ε} (h : P e) : FailsIn P (.error e : Except ε α) := by
  intro e' he
  obtain rfl := Except.error.inj he
  exact h

theorem failsIn_mapError {ε' : Type} {P : ε' → Prop} {g : ε → ε'} (hg : ∀ e, P (g e)) :
    FailsIn P (x.mapError g) := by
  cases x with
  | error e => exact failsIn_error (hg e)
  | ok a => exact failsIn_ok a

theorem FailsIn.bind (hx : FailsIn P x) (hf : ∀ a, FailsIn P (f a)) : FailsIn P (x >>= f) := by
  intro e he
  cases x with
  | error e' => exact hx e (congrArg Except.error (Except.error.inj he))
  | ok a => exact hf a e he

theorem failsIn_mapM (hf : ∀ a ∈ l, FailsIn P (f a)) : FailsIn P (l.mapM f) := by
  induction l with
  | nil => exact failsIn_ok []
  | cons a l ih =>
    rw [List.mapM_cons]
    refine (hf a List.mem_cons_self).bind fun b => ?_
    exact (ih fun a ha => hf a (List.mem_cons_of_mem _ ha)).bind fun bs => failsIn_ok _

theorem failsIn_forM {check : α → Except ε Unit} (hcheck : ∀ a ∈ l, FailsIn P (check a)) :
    FailsIn P (l.forM check) := by
  induction l with
  | nil => exact failsIn_ok ()
  | cons a l ih =>
    exact (hcheck a List.mem_cons_self).bind fun _ =>
      ih fun a ha => hcheck a (List.mem_cons_of_mem _ ha)

theorem failsIn_foldlM {step : β → α → Except ε β} (hstep : ∀ b, ∀ a ∈ l, FailsIn P (step b a))
    (b : β) : FailsIn P (l.foldlM step b) := by
  induction l generalizing b with
  | nil => exact failsIn_ok b
  | cons a l ih =>
    rw [List.foldlM_cons]
    exact (hstep b a List.mem_cons_self).bind fun b =>
      ih (fun b a ha => hstep b a (List.mem_cons_of_mem _ ha)) b

end

end Fallible
end Reconcile
