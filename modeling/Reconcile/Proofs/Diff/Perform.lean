import Reconcile.Proofs.Diff.Changes
/-!
What the remote holds after changes were carried out.  Main statements: `get?_perform_of_mem`, a
changed resource is as its change leaves it, and `get?_perform_of_forall_ne`, every other one is as
it was.
-/

namespace Reconcile
namespace Snapshot

def performOne (s : Snapshot) (c : Change) : Snapshot :=
  let others := s.records.erase c.urn
  { s with
    records :=
      match c.after with
      | some p => others.insert c.urn p
      | none => others }

def perform (s : Snapshot) (changes : List Change) : Snapshot := changes.foldl performOne s

theorem get?_performOne_self (s : Snapshot) (c : Change) :
    (s.performOne c).get? c.urn = c.after := by
  rw [get?, performOne]
  cases c.after with
  | none => exact SortedMap.get?_erase_self _ _
  | some p => exact SortedMap.get?_insert_self _ _ _

theorem get?_performOne_of_ne (s : Snapshot) {c : Change} {urn : Urn} (h : c.urn ≠ urn) :
    (s.performOne c).get? urn = s.get? urn := by
  rw [get?, performOne]
  cases c.after with
  | none => exact SortedMap.get?_erase_of_ne _ h
  | some p =>
    show ((s.records.erase c.urn).insert c.urn p).get? urn = s.records.get? urn
    rw [SortedMap.get?_insert_of_ne _ h, SortedMap.get?_erase_of_ne _ h]

theorem get?_perform_of_forall_ne (s : Snapshot) {changes : List Change} {urn : Urn}
    (h : ∀ c ∈ changes, c.urn ≠ urn) : (s.perform changes).get? urn = s.get? urn := by
  induction changes generalizing s with
  | nil => rfl
  | cons c rest ih =>
    show ((s.performOne c).perform rest).get? urn = s.get? urn
    rw [ih (s.performOne c) fun d hd => h d (List.mem_cons_of_mem _ hd)]
    exact get?_performOne_of_ne s (h c List.mem_cons_self)

theorem get?_perform_of_mem (s : Snapshot) {changes : List Change} {c : Change}
    (hc : c ∈ changes) (hunique : ∀ d ∈ changes, d.urn = c.urn → d = c) :
    (s.perform changes).get? c.urn = c.after := by
  induction changes generalizing s with
  | nil => cases hc
  | cons d rest ih =>
    show ((s.performOne d).perform rest).get? c.urn = c.after
    by_cases hlater : c ∈ rest
    · exact ih (s.performOne d) hlater fun e he => hunique e (List.mem_cons_of_mem _ he)
    · -- The change is the first one, and no later one is about its resource.
      obtain rfl : c = d := (List.mem_cons.mp hc).resolve_right hlater
      have hrest : ∀ e ∈ rest, e.urn ≠ c.urn := by
        intro e he hurn
        have heq := hunique e (List.mem_cons_of_mem _ he) hurn
        exact hlater (heq ▸ he)
      rw [get?_perform_of_forall_ne _ hrest]
      exact get?_performOne_self s c

end Snapshot
end Reconcile
