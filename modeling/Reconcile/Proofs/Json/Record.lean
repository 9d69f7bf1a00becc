import Reconcile.Json.Decode
import Reconcile.Proofs.Lists
/-!
Records that are read as they were written: members in the order of the record's names, some of
them left out where there is no value.
-/

namespace Reconcile
namespace Json

variable {α β : Type} {f : Json → Option α} {g : α → Json} {fields : List (String × Json)}
  {name key : String} {o : Option Json}

theorem lookup_optionalMember (name key : String) (o : Option Json) :
    (optionalMember key o).lookup name = if name == key then o else none := by
  cases o with
  | none => rw [ite_self]; rfl
  | some v => cases h : name == key <;> simp [optionalMember, List.lookup_cons, h]

theorem forall_mem_optionalMember {P : String × Json → Prop} :
    (∀ m ∈ optionalMember key o, P m) ↔ ∀ v ∈ o, P (key, v) := by
  cases o <;> simp [optionalMember]

theorem names_optionalMember (key : String) (o : Option Json) :
    ((optionalMember key o).map (·.1)).Sublist [key] := by
  cases o with
  | none => exact List.nil_sublist _
  | some v => exact List.Sublist.refl _

/-- The fields of a record are its members, if they stand in the order of their names. -/
theorem fields?_object {names : List String} {ms : List (String × Json)}
    (h : (ms.map (·.1)).Sublist names) (hnodup : names.Nodup) :
    (object ms).fields? names = some ms := by
  have hknown : (ms.filter fun m => names.contains m.1) = ms :=
    List.filter_eq_self.mpr fun m hm =>
      List.contains_iff_mem.mpr (h.subset (List.mem_map_of_mem hm))
  rw [fields?, hknown]
  exact if_pos (h.nodup hnodup)

theorem decodeOption?_of_ne_null {v : Json} (h : v ≠ null) :
    decodeOption? f v = (f v).map some := by
  cases v with
  | null => exact absurd rfl h
  | _ => rfl

theorem optional?_of_lookup {a? : Option α} (hlookup : fields.lookup name = a?.map g)
    (hread : ∀ a ∈ a?, f (g a) = some a) (hnull : ∀ a, g a ≠ null) :
    optional? fields name none (decodeOption? f) = some a? := by
  rw [optional?, hlookup]
  cases a? with
  | none => rfl
  | some a =>
    show decodeOption? f (g a) = _
    rw [decodeOption?_of_ne_null (hnull a), hread a rfl]
    rfl

theorem decodeList?_map {l : List α} (h : ∀ a ∈ l, f (g a) = some a) :
    decodeList? f (.array (l.map g)) = some l := by
  rw [decodeList?, Lists.mapM_eq_some_iff, List.forall₂_map_left_iff, List.forall₂_same]
  exact h

theorem decodeCount?_ofNat {n : Nat} (h : n < UInt64.size) : decodeCount? (.ofNat n) = some n := by
  simp [decodeCount?, ofNat, h]

end Json
end Reconcile
