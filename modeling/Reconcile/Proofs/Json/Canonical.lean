import Reconcile.Properties
import Reconcile.Proofs.Collection
/-!
Canonical values.  Main statement: `Properties.ofJson?_toJson`, a bag of canonical values is read as
it was written.
-/

namespace Reconcile
namespace Json

theorem collect_eq_foldl (bag : SortedMap String Json) (ms : List (String × Json)) :
    collect bag ms =
      (ms.map fun m => (m.1, m.2.canonical)).foldl (fun bag m => bag.insert m.1 m.2) bag := by
  induction ms generalizing bag with
  | nil => rw [collect]; rfl
  | cons m ms ih => rw [collect, ih]; rfl

theorem canonicalMembers_eq (ms : List (String × Json)) :
    canonicalMembers ms = .ofList (ms.map fun m => (m.1, m.2.canonical)) := by
  rw [canonicalMembers, collect_eq_foldl]
  rfl

theorem canonicalMembers_entries {bag : SortedMap String Json}
    (h : ∀ m ∈ bag.entries, m.2.canonical = m.2) : canonicalMembers bag.entries = bag := by
  have hsame : (bag.entries.map fun m => (m.1, m.2.canonical)) = bag.entries.map id :=
    List.map_congr_left fun m hm => Prod.ext rfl (h m hm)
  rw [canonicalMembers_eq, hsame, List.map_id, SortedMap.ofList_entries]

end Json

namespace Properties

theorem ofJson?_toJson {p : Properties} (h : ∀ v ∈ p.values, v.canonical = v) :
    ofJson? p.toJson = some p :=
  congrArg some (Json.canonicalMembers_entries (List.forall_mem_map.mp h))

end Properties
end Reconcile
