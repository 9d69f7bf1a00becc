import Reconcile.Proofs.Fallible
import Reconcile.Remote.Fetch
/-!
Readings as computations that can fail.  What a reading comes to does not depend on the calls made
before it, so a reading in steps comes to what its steps come to (`outcome_bind`) and makes the
calls of its steps (`calls_bind_of_ok`).
-/

namespace Reconcile
namespace Fetch

open Fallible

variable {α β : Type}

def outcome (x : M α) : Except Error α := (x.run.run []).1

def calls (x : M α) : List Call := (x.run.run []).2

/-- The reading goes the same way whatever was called before it. -/
def Steady (x : M α) : Prop := ∀ log, x.run.run log = (outcome x, log ++ calls x)

theorem steady_of_run {x : M α} (result : Except Error α) (made : List Call)
    (h : ∀ log, x.run.run log = (result, log ++ made)) : Steady x := by
  have hnil : x.run.run [] = (result, made) := h []
  intro log
  rw [h log, outcome, calls, hnil]

theorem run_bind (x : M α) (f : α → M β) (log : List Call) :
    (x >>= f).run.run log =
      match x.run.run log with
      | (.ok a, later) => (f a).run.run later
      | (.error e, later) => (.error e, later) := by
  rw [ExceptT.run_bind, StateT.run_bind]
  show (match x.run.run log with | (result, later) => _) = _
  rcases x.run.run log with ⟨result, later⟩
  cases result with
  | ok a => rfl
  | error e => rfl

theorem steady_pure (a : α) : Steady (pure a : M α) :=
  steady_of_run (.ok a) [] fun log => by rw [List.append_nil]; rfl

theorem steady_throw (e : Error) : Steady (throw e : M α) :=
  steady_of_run (.error e) [] fun log => by rw [List.append_nil]; rfl

theorem steady_ask (source : Source) (call : Call) : Steady (ask source call) := fun _ => rfl

theorem Steady.bind {x : M α} {f : α → M β} (hx : Steady x) (hf : ∀ a, Steady (f a)) :
    Steady (x >>= f) := by
  cases h : outcome x with
  | error e =>
    refine steady_of_run (.error e) (calls x) fun log => ?_
    rw [run_bind, hx, h]
  | ok a =>
    refine steady_of_run (outcome (f a)) (calls x ++ calls (f a)) fun log => ?_
    rw [run_bind, hx, h, ← List.append_assoc]
    exact hf a _

theorem Steady.foldlM {f : β → α → M β} (hf : ∀ b a, Steady (f b a)) (l : List α) (b : β) :
    Steady (l.foldlM f b) := by
  induction l generalizing b with
  | nil => exact steady_pure b
  | cons a l ih =>
    rw [List.foldlM_cons]
    exact (hf b a).bind ih

/-! ## Outcomes -/

theorem outcome_bind (x : M α) {f : α → M β} (hf : ∀ a, Steady (f a)) :
    outcome (x >>= f) = outcome x >>= fun a => outcome (f a) := by
  have hnil := run_bind x f []
  have hx : x.run.run [] = (outcome x, calls x) := rfl
  rw [outcome, hnil, hx]
  cases outcome x with
  | error e => rfl
  | ok a =>
    show ((f a).run.run (calls x)).1 = outcome (f a)
    rw [hf]

theorem outcome_ask_bind {source : Source} {call : Call}
    {f : Except FetchError (List Record) → M α} (hf : Steady (f (source call))) :
    outcome (ask source call >>= f) = outcome (f (source call)) := by
  show ((f (source call)).run.run [call]).1 = _
  rw [hf]

theorem outcome_foldlM {f : β → α → M β} (hf : ∀ b a, Steady (f b a)) (l : List α) (b : β) :
    outcome (l.foldlM f b) = l.foldlM (fun b a => outcome (f b a)) b := by
  induction l generalizing b with
  | nil => rfl
  | cons a l ih =>
    rw [List.foldlM_cons, List.foldlM_cons, outcome_bind _ fun b => .foldlM hf l b]
    congr 1
    funext b
    exact ih b

/-! ## Calls -/

theorem calls_bind_of_ok {x : M α} {f : α → M β} {a : α} (hx : outcome x = .ok a)
    (hf : Steady (f a)) : calls (x >>= f) = calls x ++ calls (f a) := by
  have hrun : x.run.run [] = (.ok a, calls x) := Prod.ext hx rfl
  rw [calls, run_bind, hrun]
  show ((f a).run.run (calls x)).2 = _
  rw [hf]

theorem calls_bind_of_error {x : M α} {f : α → M β} {e : Error} (hx : outcome x = .error e) :
    calls (x >>= f) = calls x := by
  have hrun : x.run.run [] = (.error e, calls x) := Prod.ext hx rfl
  rw [calls, run_bind, hrun]

end Fetch
end Reconcile
