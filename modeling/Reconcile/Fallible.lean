/-!
Steps that can fail.  Main statements: `bind_eq_ok` and `mapM_cons_eq_ok`, what a success of several
steps says of each of them.
-/

namespace Reconcile
namespace Fallible

variable {ε α β : Type}

theorem bind_eq_ok {x : Except ε α} {f : α → Except ε β} {b : β} :
    x >>= f = .ok b ↔ ∃ a, x = .ok a ∧ f a = .ok b := by
  constructor
  · intro h
    cases x with
    | error e => cases h
    | ok a => exact ⟨a, rfl, h⟩
  · rintro ⟨a, rfl, h⟩
    exact h

theorem pure_eq_ok {a b : α} : (pure a : Except ε α) = .ok b ↔ a = b :=
  Except.ok.injEq a b ▸ Iff.rfl

theorem mapM_cons_eq_ok {f : α → Except ε β} {a : α} {l : List α} {bs : List β} :
    (a :: l).mapM f = .ok bs ↔ ∃ b, f a = .ok b ∧ ∃ cs, l.mapM f = .ok cs ∧ b :: cs = bs := by
  simp only [List.mapM_cons, bind_eq_ok, pure_eq_ok]

end Fallible
end Reconcile
