import Reconcile.Diff.Canonical
import Reconcile.Proofs.Properties
/-!
Canonical properties field by field.  Main statement: `canonical_canonical`, properties in the form
in which they are compared stay as they are.
-/

namespace Reconcile

theorem Text.upperCase_upperCase (s : String) : upperCase (upperCase s) = upperCase s := by
  rw [upperCase, toList_upperCase, List.map_map, upperCase]
  congr 2
  funext c
  exact upper_upper c

namespace Properties

def mapString (f : String → String) : Json → Json
  | .string s => .string (f s)
  | v => v

theorem mapString_id (v : Json) : mapString id v = v := by
  cases v with
  | _ => rfl

theorem mapString_mapString (f g : String → String) (v : Json) :
    mapString f (mapString g v) = mapString (f ∘ g) v := by
  cases v with
  | _ => rfl

theorem get?_mapText (p : Properties) (key : String) (f : String → String) (k : String) :
    (p.mapText key f).get? k = (p.get? k).map (mapString (if k = key then f else id)) := by
  have hmodify : (p.mapText key f).get? k =
      (p.get? k).map fun v => if k = key then mapString f v else v :=
    SortedMap.get?_modify p key k (mapString f)
  rw [hmodify]
  refine Option.map_congr fun v _ => ?_
  split
  · rfl
  · exact (mapString_id v).symm

theorem get?_upperCase (p : Properties) (keys : List String) (k : String) :
    (p.upperCase keys).get? k =
      (p.get? k).map (mapString (if k ∈ keys then Text.upperCase else id)) := by
  have hupper : Text.upperCase ∘ Text.upperCase = Text.upperCase :=
    funext Text.upperCase_upperCase
  induction keys generalizing p with
  | nil =>
    show p.get? k = (p.get? k).map (mapString (if k ∈ [] then Text.upperCase else id))
    rw [if_neg List.not_mem_nil, show mapString id = id from funext mapString_id, Option.map_id]
    rfl
  | cons key keys ih =>
    show ((p.mapText key Text.upperCase).upperCase keys).get? k = _
    rw [ih, get?_mapText, Option.map_map]
    refine Option.map_congr fun v _ => ?_
    rw [Function.comp_apply, mapString_mapString]
    refine congrArg (mapString · v) ?_
    by_cases hkey : k = key
    · rw [if_pos hkey, if_pos (List.mem_cons.mpr (.inl hkey))]
      split
      · exact hupper
      · rfl
    · rw [if_neg hkey, Function.comp_id]
      simp only [List.mem_cons, hkey, false_or]

theorem owner?_congr {p q : Properties} (h : p.get? "owner" = q.get? "owner") :
    p.owner? = q.owner? := by
  rw [owner?, owner?, text?, text?, h]

end Properties

namespace ResourceType

open Properties

def textForm (t : ResourceType) (key : String) : String → String :=
  match t with
  | warehouse =>
    if key = "warehouse_size" then canonicalSize
    else if key ∈ ["warehouse_type", "scaling_policy"] then Text.upperCase else id
  | user =>
    if key ∈ ["default_role", "default_warehouse", "default_secondary_roles", "login_name"] then
      Text.upperCase
    else id
  | _ => id

/-- The normal form of a value under a key. -/
def normalValue (t : ResourceType) (key : String) (v : Json) : Json := mapString (t.textForm key) v

def missingValue? (t : ResourceType) (key : String) : Option Json :=
  match t with
  | grant | futureGrant | grantOnAll => if key = "grant_option" then some (.bool false) else none
  | _ => none

theorem get?_insertMissing (p : Properties) (key k : String) (v : Json) :
    (if p.contains key then p else p.insert key v).get? k =
      (p.get? k).or (if k = key then some v else none) := by
  by_cases hk : k = key
  · subst hk
    rw [if_pos rfl, SortedMap.contains]
    cases hget : p.get? k with
    | some w => simp [hget]
    | none => simp
  · rw [if_neg hk, Option.or_none]
    split
    · rfl
    · exact SortedMap.get?_insert_of_ne p (Ne.symm hk) v

/-- Normalization acts on each field alone. -/
theorem get?_normalize (t : ResourceType) (p : Properties) (k : String) :
    (t.normalize p).get? k = ((p.get? k).map (t.normalValue k)).or (t.missingValue? k) := by
  have hid (v? : Option Json) : v?.map (mapString id) = v? := by
    rw [show mapString id = id from funext mapString_id, Option.map_id]
    rfl
  cases t with
  | warehouse =>
    show ((p.upperCase _).mapText _ _).get? k = ((p.get? k).map _).or none
    rw [get?_mapText, get?_upperCase, Option.map_map, Option.or_none]
    refine Option.map_congr fun v _ => ?_
    rw [Function.comp_apply, mapString_mapString]
    show _ = mapString (textForm warehouse k) v
    by_cases hk : k = "warehouse_size"
    · subst hk
      rfl
    · rw [textForm, if_neg hk, if_neg hk, Function.id_comp]
  | user =>
    show (p.upperCase _).get? k = ((p.get? k).map _).or none
    rw [get?_upperCase, Option.or_none]
    rfl
  | grant | futureGrant | grantOnAll =>
    show (if p.contains _ then p else _).get? k = ((p.get? k).map (mapString id)).or _
    rw [get?_insertMissing, hid]
    rfl
  | _ =>
    show p.get? k = ((p.get? k).map (mapString id)).or none
    rw [Option.or_none, hid]

theorem canonicalSize_canonicalSize (s : String) :
    canonicalSize (canonicalSize s) = canonicalSize s := by
  unfold canonicalSize
  rw [String.toList_ofList]
  congr 1
  have hupper : ∀ c ∈ (s.toList.map Text.upper).filter fun c => c != '-' && c != '_',
      Text.upper c = id c := by
    intro c hc
    obtain ⟨d, -, rfl⟩ := List.mem_map.mp (List.mem_filter.mp hc).1
    exact Text.upper_upper d
  rw [List.map_congr_left hupper, List.map_id, List.filter_filter]
  simp only [Bool.and_self]

theorem textForm_textForm (t : ResourceType) (key : String) :
    t.textForm key ∘ t.textForm key = t.textForm key := by
  cases t with
  | warehouse =>
    by_cases hsize : key = "warehouse_size"
    · rw [textForm, if_pos hsize]
      exact funext canonicalSize_canonicalSize
    · rw [textForm, if_neg hsize]
      split
      · exact funext Text.upperCase_upperCase
      · rfl
  | user =>
    rw [textForm]
    split
    · exact funext Text.upperCase_upperCase
    · rfl
  | _ => rfl

theorem normalValue_normalValue (t : ResourceType) (key : String) (v : Json) :
    t.normalValue key (t.normalValue key v) = t.normalValue key v := by
  rw [normalValue, normalValue, mapString_mapString, textForm_textForm]

theorem map_missingValue? (t : ResourceType) (key : String) :
    (t.missingValue? key).map (t.normalValue key) = t.missingValue? key := by
  cases t with
  | grant | futureGrant | grantOnAll =>
    show Option.map _ (if key = "grant_option" then _ else _) =
      if key = "grant_option" then _ else _
    split
    · rfl
    · rfl
  | _ => rfl

theorem normalValue_owner (t : ResourceType) (v : Json) : t.normalValue "owner" v = v := by
  have hform : t.textForm "owner" = id := by cases t <;> rfl
  rw [normalValue, hform, mapString_id]

theorem missingValue?_owner (t : ResourceType) : t.missingValue? "owner" = none := by
  cases t <;> rfl

theorem normalize_defaultRole (t : ResourceType) :
    Identifier.normalize t.defaultRole = t.defaultRole := by
  cases t <;> rfl

theorem get?_normalize_owner (t : ResourceType) (p : Properties) :
    (t.normalize p).get? "owner" = p.get? "owner" := by
  rw [get?_normalize, missingValue?_owner, Option.or_none]
  cases p.get? "owner" with
  | none => rfl
  | some v => rw [Option.map_some, normalValue_owner]

theorem get?_canonical_owner (t : ResourceType) (p : Properties) :
    (t.canonical p).get? "owner" =
      if t.hasOwner then some (.string (p.owner?.getD t.defaultRole)) else none := by
  rw [canonical]
  split
  · rw [SortedMap.get?_insert_self, owner?_congr (get?_normalize_owner t p)]
  · exact SortedMap.get?_erase_self _ _

theorem get?_canonical_of_ne (t : ResourceType) (p : Properties) {k : String} (hk : "owner" ≠ k) :
    (t.canonical p).get? k = ((p.get? k).map (t.normalValue k)).or (t.missingValue? k) := by
  rw [← get?_normalize, canonical]
  split
  · exact SortedMap.get?_insert_of_ne _ hk _
  · exact SortedMap.get?_erase_of_ne _ hk

theorem controller_canonical (t : ResourceType) (p : Properties) :
    t.controller (t.canonical p) =
      if t.hasOwner then p.owner?.getD t.defaultRole else t.defaultRole := by
  rw [controller, Properties.text?, get?_canonical_owner]
  split
  · rfl
  · rfl

theorem canonical_canonical (t : ResourceType) (p : Properties) :
    t.canonical (t.canonical p) = t.canonical p := by
  refine SortedMap.ext_get? fun k => ?_
  by_cases hk : "owner" = k
  · subst hk
    rw [get?_canonical_owner, get?_canonical_owner]
    split
    next howner =>
      -- The owner of canonical properties is a canonical name, given or not.
      have hname : (t.canonical p).owner? = some (p.owner?.getD t.defaultRole) := by
        rw [Properties.owner?, Properties.text?, get?_canonical_owner, if_pos howner]
        show some (Identifier.normalize (p.owner?.getD t.defaultRole)) = _
        refine congrArg some ?_
        cases hown : p.text? "owner" with
        | none =>
          rw [Properties.owner?, hown]
          exact normalize_defaultRole t
        | some o =>
          rw [Properties.owner?, hown]
          exact Identifier.normalize_normalize o
      rw [hname]
      rfl
    · rfl
  · rw [get?_canonical_of_ne t _ hk, get?_canonical_of_ne t _ hk]
    cases hget : p.get? k with
    | none =>
      show (Option.map _ (t.missingValue? k)).or _ = t.missingValue? k
      rw [map_missingValue?, Option.or_self]
    | some v =>
      show some (t.normalValue k (t.normalValue k v)) = some (t.normalValue k v)
      rw [normalValue_normalValue]

theorem mapString_unsigned (f : String → String) (v : Json) :
    mapString f v.unsigned = (mapString f v).unsigned := by
  cases v <;> simp [mapString, Json.unsigned]

theorem missingValue?_unsigned (t : ResourceType) (key : String) :
    (t.missingValue? key).map Json.unsigned = t.missingValue? key := by
  cases t with
  | grant | futureGrant | grantOnAll =>
    show Option.map _ (if key = "grant_option" then _ else _) =
      if key = "grant_option" then _ else _
    split
    · simp [Json.unsigned]
    · rfl
  | _ => rfl

theorem canonical_unsigned (t : ResourceType) (p : Properties) :
    t.canonical p.unsigned = (t.canonical p).unsigned := by
  have howner : p.unsigned.owner? = p.owner? := by
    rw [Properties.owner?, Properties.owner?, text?_unsigned]
  refine SortedMap.ext_get? fun k => ?_
  rw [get?_unsigned]
  by_cases hk : "owner" = k
  · subst hk
    rw [get?_canonical_owner, get?_canonical_owner, howner]
    split
    · simp [Json.unsigned]
    · rfl
  · rw [get?_canonical_of_ne t _ hk, get?_canonical_of_ne t _ hk, get?_unsigned]
    cases p.get? k with
    | none => exact (missingValue?_unsigned t k).symm
    | some v => exact congrArg some (mapString_unsigned _ v)

end ResourceType
end Reconcile
