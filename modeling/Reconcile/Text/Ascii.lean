/-!
Classes and case of ASCII letters.  Every other character is left as it is.
-/

namespace Reconcile
namespace Text

def isUpper (c : Char) : Bool := 'A' ≤ c && c ≤ 'Z'

def isLower (c : Char) : Bool := 'a' ≤ c && c ≤ 'z'

def isLetter (c : Char) : Bool := isUpper c || isLower c

def isDigit (c : Char) : Bool := '0' ≤ c && c ≤ '9'

def hexValue? (c : Char) : Option Nat :=
  if isDigit c then some (c.toNat - 0x30)
  else if 'A' ≤ c && c ≤ 'F' then some (c.toNat - 0x41 + 10)
  else if 'a' ≤ c && c ≤ 'f' then some (c.toNat - 0x61 + 10)
  else none

/-- The upper-case form of an ASCII letter. -/
def upper (c : Char) : Char := if isLower c then Char.ofNat (c.toNat - 32) else c

def lower (c : Char) : Char := if isUpper c then Char.ofNat (c.toNat + 32) else c

theorem isLower_iff {c : Char} : isLower c ↔ 97 ≤ c.toNat ∧ c.toNat ≤ 122 := by
  simp [isLower, Char.le_def, UInt32.le_iff_toNat_le]

theorem isUpper_iff {c : Char} : isUpper c ↔ 65 ≤ c.toNat ∧ c.toNat ≤ 90 := by
  simp [isUpper, Char.le_def, UInt32.le_iff_toNat_le]

theorem toNat_ofNat {n : Nat} (h : n.isValidChar) : (Char.ofNat n).toNat = n := by
  rw [Char.ofNat, dif_pos h]
  rfl

theorem toNat_upper {c : Char} (h : isLower c) : (upper c).toNat = c.toNat - 32 := by
  have := isLower_iff.mp h
  rw [upper, if_pos h, toNat_ofNat (.inl (by omega))]

theorem isUpper_upper {c : Char} (h : isLower c) : isUpper (upper c) := by
  have := isLower_iff.mp h
  rw [isUpper_iff, toNat_upper h]
  omega

theorem not_isLower_of_isUpper {c : Char} (h : isUpper c) : isLower c = false := by
  have := isUpper_iff.mp h
  refine Bool.eq_false_iff.mpr fun hl => ?_
  have := isLower_iff.mp hl
  omega

@[simp] theorem upper_upper (c : Char) : upper (upper c) = upper c := by
  by_cases h : isLower c
  · rw [upper, not_isLower_of_isUpper (isUpper_upper h)]
    simp
  · simp [upper, h]

theorem toNat_lower {c : Char} (h : isUpper c) : (lower c).toNat = c.toNat + 32 := by
  have := isUpper_iff.mp h
  rw [lower, if_pos h, toNat_ofNat (.inl (by omega))]

@[simp] theorem upper_lower (c : Char) : upper (lower c) = upper c := by
  by_cases h : isUpper c
  · have hrange := isUpper_iff.mp h
    have hlower : isLower (lower c) := by
      rw [isLower_iff, toNat_lower h]
      omega
    refine Char.toNat_inj.mp ?_
    rw [toNat_upper hlower, toNat_lower h, Nat.add_sub_cancel, upper, not_isLower_of_isUpper h]
    rfl
  · rw [lower, if_neg h]

def upperCase (s : String) : String := String.ofList (s.toList.map upper)

@[simp] theorem toList_upperCase (s : String) : (upperCase s).toList = s.toList.map upper :=
  String.toList_ofList

end Text
end Reconcile
