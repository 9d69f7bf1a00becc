import Reconcile.Proofs.Diff.Canonical
import Reconcile.Proofs.Diff.Changes
/-!
Resources that are as they should be.  Main statement: `nodeChange_settled`, a resource that is
reported with its desired properties needs nothing.
-/

namespace Reconcile
namespace Diff

theorem delta_self (p : Properties) : Sql.delta (some p) p = [] := by
  rw [Sql.delta, List.filter_eq_nil_iff]
  rintro ⟨k, v⟩ he
  have hget : p.get? k = some v := SortedMap.get?_eq_some_iff.mpr he
  show ¬ (k != "owner" && !Sql.satisfies (p.get? k) v)
  rw [hget, Sql.satisfies, Json.same_refl]
  simp

theorem newOwner?_self (p : Properties) : newOwner? p p = none := by
  rw [newOwner?, Option.filter_eq_none_iff]
  intro owner howner
  rw [howner]
  simp

theorem update_self (urn : Urn) (p : Properties) :
    update urn p p = .ok { action := .noop } := by
  have hfields : changedFields urn.type p p = [] := by
    rw [changedFields, delta_self]
    rfl
  unfold update
  rw [hfields, newOwner?_self]
  rfl

theorem nodeChange_settled {node : Node} {properties : Properties} (config : Config)
    (h : node.urn.type.canonical properties = node.urn.type.canonical node.properties) :
    nodeChange node (some properties) config =
      .ok (changeOf node (some (node.urn.type.canonical node.properties)) config
        { action := .noop }) := by
  have hcurrent : currentState node.urn.type (some properties) =
      some (node.urn.type.canonical node.properties) := by
    rw [← h]
    rfl
  rw [nodeChange_eq_ok_iff, hcurrent]
  exact ⟨{ action := .noop }, update_self node.urn _, rfl⟩

end Diff
end Reconcile
