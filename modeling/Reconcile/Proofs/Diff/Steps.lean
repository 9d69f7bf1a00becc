import Reconcile.Proofs.Diff.Changes
/-!
What a plan does to one resource.  Main statement: `update_cases`, the steps for a resource that
exists, each with the fields that lead to it.
-/

namespace Reconcile
namespace Diff

open Fallible

variable {urn : Urn} {desired current : Properties} {step : Step} {statements : List Statement}

theorem creation_eq_ok_iff : creation urn desired = .ok statements ↔
    ∃ sql, Lifecycle.render urn .add none (some desired) = .ok sql ∧
      statements = runAs (urn.type.creator desired) sql ++
        handOver (urn.type.creator desired) urn (ResourceType.heir? desired) := by
  simp only [creation, bind_eq_ok, pure_eq_ok, eq_comm (b := statements)]

theorem removal_eq_ok_iff : removal urn current = .ok statements ↔
    ∃ sql, Lifecycle.render urn .remove (some current) none = .ok sql ∧
      statements = runAs (urn.type.controller current) sql := by
  simp only [removal, bind_eq_ok, pure_eq_ok, eq_comm (b := statements)]

def handing (urn : Urn) (desired current : Properties) : List Statement :=
  handOver (urn.type.controller current) urn (newOwner? desired current)

/-- A resource that exists is not touched if a replacement is needed and refused, replaced if one is
needed, handed over if its fields are as desired, and altered otherwise. -/
theorem update_cases (h : update urn desired current = .ok step) :
    (∃ field ∈ changedFields urn.type desired current,
      urn.type.mutability field = .forbidsReplace ∧
      step = { action := .replace,
               rejection := some (Error.replaceNotSupported urn field).message }) ∨
    ((∃ field ∈ changedFields urn.type desired current, urn.type.mutability field = .immutable) ∧
      ∃ dropping creating, removal urn current = .ok dropping ∧
        creation urn desired = .ok creating ∧
        step = { action := .replace, statements := dropping ++ creating }) ∨
    (changedFields urn.type desired current = [] ∧
      (step = { action := .noop } ∨
        step = { action := .transfer, statements := handing urn desired current })) ∨
    (changedFields urn.type desired current ≠ [] ∧
      (∀ field ∈ changedFields urn.type desired current,
        urn.type.mutability field = .mutable) ∧
      ∃ sql, Lifecycle.render urn .change (some current) (some desired) = .ok sql ∧
        step = { action := .change,
                 statements := runAs (urn.type.controller current) sql ++
                   handing urn desired current }) := by
  simp only [update] at h
  split at h
  next field hfind =>
    have hforbids := List.find?_some hfind
    exact .inl ⟨field, List.mem_of_find?_eq_some hfind, beq_iff_eq.mp hforbids,
      (pure_eq_ok.mp h).symm⟩
  next hnone =>
    split at h
    next himmutable =>
      simp only [bind_eq_ok, pure_eq_ok] at h
      obtain ⟨dropping, hdropping, creating, hcreating, rfl⟩ := h
      obtain ⟨field, hfield, hmutability⟩ := List.any_eq_true.mp himmutable
      exact .inr (.inl ⟨⟨field, hfield, beq_iff_eq.mp hmutability⟩, dropping, creating, hdropping,
        hcreating, rfl⟩)
    next hmutable =>
      split at h
      next hempty =>
        refine .inr (.inr (.inl ⟨List.isEmpty_iff.mp hempty, ?_⟩))
        split at h
        · exact .inl (pure_eq_ok.mp h).symm
        · exact .inr (pure_eq_ok.mp h).symm
      next hfields =>
        simp only [bind_eq_ok, pure_eq_ok] at h
        obtain ⟨sql, hsql, rfl⟩ := h
        refine .inr (.inr (.inr ⟨fun hnil => hfields (List.isEmpty_iff.mpr hnil),
          fun field hfield => ?_, sql, hsql, rfl⟩))
        have hnot : urn.type.mutability field ≠ .forbidsReplace := by
          simpa using List.find?_eq_none.mp hnone field hfield
        have hnot' : urn.type.mutability field ≠ .immutable := fun himmutable =>
          hmutable (List.any_eq_true.mpr ⟨field, hfield, beq_iff_eq.mpr himmutable⟩)
        cases hmutability : urn.type.mutability field with
        | mutable => rfl
        | immutable => exact absurd hmutability hnot'
        | forbidsReplace => exact absurd hmutability hnot

end Diff
end Reconcile
