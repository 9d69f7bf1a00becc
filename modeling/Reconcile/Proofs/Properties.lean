import Reconcile.Lifecycle.Rules
import Reconcile.Proofs.Collection
/-!
What equality of values does not see.  Main statement: `Properties.same_iff`, bags of properties are
the same exactly if they differ in the signs of zeros at most.
-/

namespace Reconcile

/-! ## Numbers -/

namespace Decimal.Binary64

def unsigned (x : Binary64) : Binary64 := if x.isZero then zero false else x

theorem same_iff {x y : Binary64} : x.same y ↔ x.unsigned = y.unsigned := by
  have hzero : (zero false).isZero := rfl
  unfold same unsigned
  by_cases hx : x.isZero <;> by_cases hy : y.isZero <;> grind

theorem unsigned_unsigned (x : Binary64) : x.unsigned.unsigned = x.unsigned := by
  by_cases hx : x.isZero
  · rw [show x.unsigned = zero false from if_pos hx]
    rfl
  · rw [show x.unsigned = x from if_neg hx, show x.unsigned = x from if_neg hx]

end Decimal.Binary64

namespace Json

namespace Number

def unsigned : Number → Number
  | integer n => integer n
  | real x => real x.unsigned

theorem same_iff {m n : Number} : m.same n ↔ m.unsigned = n.unsigned := by
  cases m with
  | integer m => cases n <;> simp [same, unsigned]
  | real x =>
    cases n with
    | integer n => simp [same, unsigned]
    | real y => simpa [same, unsigned] using Decimal.Binary64.same_iff

theorem unsigned_unsigned (n : Number) : n.unsigned.unsigned = n.unsigned := by
  cases n with
  | integer n => rfl
  | real x => exact congrArg real x.unsigned_unsigned

end Number

/-! ## Values -/

mutual

def unsigned : Json → Json
  | number n => number n.unsigned
  | array xs => array (unsignedItems xs)
  | object ms => object (unsignedMembers ms)
  | v => v

def unsignedItems : List Json → List Json
  | [] => []
  | x :: xs => unsigned x :: unsignedItems xs

def unsignedMembers : List (String × Json) → List (String × Json)
  | [] => []
  | (k, x) :: ms => (k, unsigned x) :: unsignedMembers ms

end

mutual

theorem same_iff : (v w : Json) → (same v w ↔ v.unsigned = w.unsigned)
  | null, w => by cases w <;> simp [same, unsigned]
  | bool _, w => by cases w <;> simp [same, unsigned]
  | number m, w => by cases w <;> simp [same, unsigned, Number.same_iff]
  | string _, w => by cases w <;> simp [same, unsigned]
  | array xs, w => by
    cases w with
    | array ys => simpa [same, unsigned] using sameItems_iff xs ys
    | _ => simp [same, unsigned]
  | object ms, w => by
    cases w with
    | object ns => simpa [same, unsigned] using sameMembers_iff ms ns
    | _ => simp [same, unsigned]

theorem sameItems_iff :
    (xs ys : List Json) → (sameItems xs ys ↔ unsignedItems xs = unsignedItems ys)
  | [], ys => by cases ys <;> simp [sameItems, unsignedItems]
  | x :: xs, ys => by
    cases ys with
    | nil => simp [sameItems, unsignedItems]
    | cons y ys => simp [sameItems, unsignedItems, same_iff x y, sameItems_iff xs ys]

theorem sameMembers_iff : (ms ns : List (String × Json)) →
    (sameMembers ms ns ↔ unsignedMembers ms = unsignedMembers ns)
  | [], ns => by cases ns <;> simp [sameMembers, unsignedMembers]
  | (j, x) :: ms, ns => by
    cases ns with
    | nil => simp [sameMembers, unsignedMembers]
    | cons n ns =>
      obtain ⟨k, y⟩ := n
      simp [sameMembers, unsignedMembers, same_iff x y, sameMembers_iff ms ns]

end

mutual

theorem unsigned_unsigned : (v : Json) → v.unsigned.unsigned = v.unsigned
  | null | bool _ | string _ => by simp [unsigned]
  | number n => by simp [unsigned, n.unsigned_unsigned]
  | array xs => by simp [unsigned, unsignedItems_unsignedItems xs]
  | object ms => by simp [unsigned, unsignedMembers_unsignedMembers ms]

theorem unsignedItems_unsignedItems :
    (xs : List Json) → unsignedItems (unsignedItems xs) = unsignedItems xs
  | [] => rfl
  | x :: xs => by simp [unsignedItems, unsigned_unsigned x, unsignedItems_unsignedItems xs]

theorem unsignedMembers_unsignedMembers :
    (ms : List (String × Json)) → unsignedMembers (unsignedMembers ms) = unsignedMembers ms
  | [] => rfl
  | (_, x) :: ms => by
    simp [unsignedMembers, unsigned_unsigned x, unsignedMembers_unsignedMembers ms]

end

theorem same_unsigned_left (v w : Json) : v.unsigned.same w = v.same w := by
  rw [Bool.eq_iff_iff, same_iff, same_iff, unsigned_unsigned]

theorem unsignedItems_eq_map (xs : List Json) : unsignedItems xs = xs.map unsigned := by
  induction xs with
  | nil => rfl
  | cons x xs ih => rw [unsignedItems, ih, List.map_cons]

theorem unsignedMembers_eq_map (ms : List (String × Json)) :
    unsignedMembers ms = ms.map fun m => (m.1, m.2.unsigned) := by
  induction ms with
  | nil => rfl
  | cons m ms ih => rw [unsignedMembers, ih, List.map_cons]

/-! ### Views -/

@[simp] theorem isNull_unsigned (v : Json) : v.unsigned.isNull = v.isNull := by
  cases v <;> simp [unsigned, isNull]

@[simp] theorem isTrue_unsigned (v : Json) : v.unsigned.isTrue = v.isTrue := by
  cases v <;> simp [unsigned, isTrue]

@[simp] theorem asString?_unsigned (v : Json) : v.unsigned.asString? = v.asString? := by
  cases v <;> simp [unsigned, asString?]

theorem asArray?_unsigned (v : Json) :
    v.unsigned.asArray? = v.asArray?.map (List.map unsigned) := by
  cases v <;> simp [unsigned, asArray?, unsignedItems_eq_map]

theorem member?_unsigned (v : Json) (key : String) :
    v.unsigned.member? key = (v.member? key).map unsigned := by
  cases v with
  | object ms =>
    rw [unsigned, unsignedMembers_eq_map, member?, member?, ← List.map_reverse, List.find?_map,
      Option.map_map, Option.map_map]
    rfl
  | _ => simp [unsigned, member?]

end Json

/-! ## Bags of properties -/

namespace Properties

def unsigned (p : Properties) : Properties := p.mapValues fun _ => Json.unsigned

theorem same_iff {p q : Properties} : p.same q ↔ p.unsigned = q.unsigned :=
  SortedMap.agrees_iff Json.same_iff

theorem get?_unsigned (p : Properties) (key : String) :
    p.unsigned.get? key = (p.get? key).map Json.unsigned :=
  SortedMap.get?_mapValues p _ key

@[simp] theorem text?_unsigned (p : Properties) (key : String) :
    p.unsigned.text? key = p.text? key := by
  rw [text?, text?, get?_unsigned]
  cases p.get? key <;> simp

@[simp] theorem isTrue_unsigned (p : Properties) (key : String) :
    p.unsigned.isTrue key = p.isTrue key := by
  rw [isTrue, isTrue, get?_unsigned]
  cases p.get? key <;> simp

@[simp] theorem natural?_unsigned (p : Properties) (key : String) :
    p.unsigned.natural? key = p.natural? key := by
  rw [natural?, natural?, get?_unsigned]
  cases p.get? key with
  | none => rfl
  | some v =>
    cases v with
    | number n => cases n <;> rfl
    | _ => rfl

end Properties

theorem ResourceType.enterpriseFeatures_unsigned (t : ResourceType) (p : Properties) :
    t.enterpriseFeatures p.unsigned = t.enterpriseFeatures p := by
  have habove : aboveOne p.unsigned = aboveOne p := by
    funext field
    rw [aboveOne, aboveOne, Properties.natural?_unsigned]
  have htrue : p.unsigned.isTrue = p.isTrue := funext p.isTrue_unsigned
  unfold enterpriseFeatures
  rw [habove, htrue]

end Reconcile
