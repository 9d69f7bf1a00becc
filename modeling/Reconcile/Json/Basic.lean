import Reconcile.Json.Number
import Reconcile.Collection.SortedMap
/-!
JSON values.  A value as read keeps the members of an object as they stand in the text; its
canonical form has them in key order, the last of equal keys.  Main statement: `same_refl`.
-/

namespace Reconcile

inductive Json where
  | null
  | bool (value : Bool)
  | number (value : Json.Number)
  | string (value : String)
  | array (items : List Json)
  | object (members : List (String × Json))
deriving Repr, Inhabited

namespace Json

/-! ## Equality -/

mutual

/-- Equality of values: numbers by value, objects by their members in order. -/
def same : Json → Json → Bool
  | null, null => true
  | bool a, bool b => a == b
  | number m, number n => m.same n
  | string s, string t => s == t
  | array xs, array ys => sameItems xs ys
  | object ms, object ns => sameMembers ms ns
  | _, _ => false

def sameItems : List Json → List Json → Bool
  | [], [] => true
  | x :: xs, y :: ys => same x y && sameItems xs ys
  | _, _ => false

def sameMembers : List (String × Json) → List (String × Json) → Bool
  | [], [] => true
  | (j, x) :: ms, (k, y) :: ns => j == k && same x y && sameMembers ms ns
  | _, _ => false

end

theorem Number.same_refl (n : Number) : n.same n := by
  cases n <;> simp [Number.same, Decimal.Binary64.same]

mutual

theorem same_refl : (v : Json) → v.same v
  | null => by rw [same]
  | bool _ => by simp [same]
  | number n => by rw [same]; exact n.same_refl
  | string _ => by simp [same]
  | array xs => by rw [same]; exact sameItems_refl xs
  | object ms => by rw [same]; exact sameMembers_refl ms

theorem sameItems_refl : (xs : List Json) → sameItems xs xs
  | [] => rfl
  | x :: xs => by simp [sameItems, same_refl x, sameItems_refl xs]

theorem sameMembers_refl : (ms : List (String × Json)) → sameMembers ms ms
  | [] => rfl
  | (_, x) :: ms => by simp [sameMembers, same_refl x, sameMembers_refl ms]

end

/-! ## Identity -/

mutual

/-- Whether two values are written alike, which also tells the two zeros apart. -/
def identical : Json → Json → Bool
  | null, null => true
  | bool a, bool b => a == b
  | number m, number n => m == n
  | string s, string t => s == t
  | array xs, array ys => identicalItems xs ys
  | object ms, object ns => identicalMembers ms ns
  | _, _ => false

def identicalItems : List Json → List Json → Bool
  | [], [] => true
  | x :: xs, y :: ys => identical x y && identicalItems xs ys
  | _, _ => false

def identicalMembers : List (String × Json) → List (String × Json) → Bool
  | [], [] => true
  | (j, x) :: ms, (k, y) :: ns => j == k && identical x y && identicalMembers ms ns
  | _, _ => false

end

mutual

theorem identical_iff : (v w : Json) → (identical v w ↔ v = w)
  | null, w => by cases w <;> simp [identical]
  | bool _, w => by cases w <;> simp [identical]
  | number _, w => by cases w <;> simp [identical]
  | string _, w => by cases w <;> simp [identical]
  | array xs, w => by
    cases w with
    | array ys => simpa [identical] using identicalItems_iff xs ys
    | _ => simp [identical]
  | object ms, w => by
    cases w with
    | object ns => simpa [identical] using identicalMembers_iff ms ns
    | _ => simp [identical]

theorem identicalItems_iff : (xs ys : List Json) → (identicalItems xs ys ↔ xs = ys)
  | [], ys => by cases ys <;> simp [identicalItems]
  | x :: xs, ys => by
    cases ys with
    | nil => simp [identicalItems]
    | cons y ys => simp [identicalItems, identical_iff x y, identicalItems_iff xs ys]

theorem identicalMembers_iff :
    (ms ns : List (String × Json)) → (identicalMembers ms ns ↔ ms = ns)
  | [], ns => by cases ns <;> simp [identicalMembers]
  | (j, x) :: ms, ns => by
    cases ns with
    | nil => simp [identicalMembers]
    | cons n ns =>
      obtain ⟨k, y⟩ := n
      simp [identicalMembers, identical_iff x y, identicalMembers_iff ms ns]

end

instance : DecidableEq Json := fun v w => decidable_of_iff _ (identical_iff v w)

/-! ## Canonical form -/

mutual

/-- The value with the members of every object in key order, the last of equal keys. -/
def canonical : Json → Json
  | array xs => array (canonicalItems xs)
  | object ms => object (canonicalMembers ms).entries
  | v => v

def canonicalItems : List Json → List Json
  | [] => []
  | x :: xs => canonical x :: canonicalItems xs

def canonicalMembers (ms : List (String × Json)) : SortedMap String Json :=
  collect .empty ms

def collect (m : SortedMap String Json) : List (String × Json) → SortedMap String Json
  | [] => m
  | (k, v) :: rest => collect (m.insert k (canonical v)) rest

end

/-! ## Views -/

def isNull : Json → Bool
  | null => true
  | _ => false

def asString? : Json → Option String
  | string s => some s
  | _ => none

def asArray? : Json → Option (List Json)
  | array xs => some xs
  | _ => none

/-- The member of an object under `key`, the last of several. -/
def member? (v : Json) (key : String) : Option Json :=
  match v with
  | object ms => (ms.reverse.find? fun m => m.1 == key).map (·.2)
  | _ => none

def isTrue : Json → Bool
  | bool b => b
  | _ => false

def ofNat (n : Nat) : Json := number (.integer n)

def ofString? : Option String → Json
  | some s => string s
  | none => null

/-- A member of an object that is left out where there is no value. -/
def optionalMember (key : String) : Option Json → List (String × Json)
  | some v => [(key, v)]
  | none => []

end Json
end Reconcile
