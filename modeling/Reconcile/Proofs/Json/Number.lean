import Mathlib.Data.List.TakeWhile
import Reconcile.Json.Token
/-!
The text of a number is one word, and an integer that fits 64 bits is read back from its text.
Main statements: `isWordChar_of_mem_text` and `ofText?_text`.
-/

namespace Reconcile
namespace Json
namespace Number

open Token (isWordChar)

variable {n : Nat} {c : Char} {ds : List Char}

/-! ## Digits -/

theorem digitsOf_eq (n : Nat) : digitsOf n = Nat.toDigits 10 n := Nat.toList_repr

theorem digitsOf_ne_nil (n : Nat) : digitsOf n ≠ [] := by
  rw [digitsOf_eq]
  exact Nat.toDigits_ne_nil

theorem isDigit_of_mem_digitsOf (h : c ∈ digitsOf n) : Text.isDigit c := by
  rw [digitsOf_eq] at h
  have hc := Nat.isDigit_of_mem_toDigits (by decide) (by decide) h
  simpa [Char.isDigit, Text.isDigit, Char.le_def] using hc

theorem head_digitsOf (h : 0 < n) : (digitsOf n).head? ≠ some '0' := by
  rw [digitsOf_eq]
  induction n using Nat.strongRecOn with
  | ind n ih =>
    by_cases hn : n < 10
    · rw [Nat.toDigits_of_lt_base hn]
      simpa using Nat.pos_iff_ne_zero.mp h
    · rw [Nat.toDigits_of_base_le (by decide) (by omega), List.head?_append,
        List.head?_eq_some_head Nat.toDigits_ne_nil, Option.some_or,
        ← List.head?_eq_some_head Nat.toDigits_ne_nil]
      exact ih (n / 10) (by omega) (by omega)

theorem takeDigits_eq {start : Nat} (h : Nat.ofDigitChars 10 ds start < significandLimit) :
    takeDigits start ds = (Nat.ofDigitChars 10 ds start, []) := by
  induction ds generalizing start with
  | nil => rfl
  | cons c ds ih =>
    have hstep : 10 * start + (c.toNat - '0'.toNat) = start * 10 + digitValue c := by
      rw [digitValue]
      omega
    rw [Nat.ofDigitChars_cons, hstep] at h ⊢
    -- Further digits only make a significand greater.
    have hle : start * 10 + digitValue c ≤ Nat.ofDigitChars 10 ds (start * 10 + digitValue c) := by
      rw [Nat.ofDigitChars_eq_ofDigitChars_zero]
      exact Nat.le_add_right_of_le (Nat.le_mul_of_pos_left _ (Nat.pow_pos (by decide)))
    simp only [takeDigits]
    rw [if_pos (by omega), ih h]

theorem takeDigits_digitsOf (h : n < significandLimit) : takeDigits 0 (digitsOf n) = (n, []) := by
  have hvalue : Nat.ofDigitChars 10 (digitsOf n) 0 = n := by
    rw [digitsOf_eq, Nat.ofDigitChars_ten_toDigits]
  rw [takeDigits_eq (by rwa [hvalue]), hvalue]

/-! ## One word -/

theorem isWordChar_of_isDigit (h : Text.isDigit c) : isWordChar c := by simp [isWordChar, h]

theorem isWordChar_of_mem_digitsOf (h : c ∈ digitsOf n) : isWordChar c :=
  isWordChar_of_isDigit (isDigit_of_mem_digitsOf h)

section Digits

variable (hds : ∀ c ∈ ds, isWordChar c)
include hds

theorem isWordChar_of_mem_positional {count : Int} (h : c ∈ positional ds count) :
    isWordChar c := by
  rw [positional] at h
  split at h
  · simp only [List.cons_append, List.mem_cons, List.mem_append, List.mem_replicate] at h
    obtain rfl | rfl | ⟨-, rfl⟩ | h := h
    · rfl
    · rfl
    · rfl
    · exact hds c h
  · split at h
    · simp only [List.mem_append, List.mem_cons] at h
      obtain h | rfl | h := h
      · exact hds c (List.mem_of_mem_take h)
      · rfl
      · exact hds c (List.mem_of_mem_drop h)
    · simp only [List.mem_append, List.mem_cons, List.mem_replicate, List.not_mem_nil,
        or_false] at h
      obtain (h | ⟨-, rfl⟩) | rfl | rfl := h
      · exact hds c h
      · rfl
      · rfl
      · rfl

theorem isWordChar_of_mem_scientific {exponent : Int} (h : c ∈ scientific ds exponent) :
    isWordChar c := by
  have hfraction (h : c ∈ if (ds.drop 1).isEmpty then [] else '.' :: ds.drop 1) :
      isWordChar c := by
    split at h
    · cases h
    · obtain rfl | h := List.mem_cons.mp h
      · rfl
      · exact hds c (List.mem_of_mem_drop h)
  simp only [scientific, List.mem_append, List.mem_cons] at h
  obtain (h | h) | rfl | rfl | h := h
  · exact hds c (List.mem_of_mem_take h)
  · exact hfraction h
  · rfl
  · split <;> rfl
  · exact isWordChar_of_mem_digitsOf h

end Digits

theorem isWordChar_of_mem_realText {x : Decimal.Binary64} (h : c ∈ realText x) :
    isWordChar c := by
  have hbody (h : c ∈ if x.isZero then ['0', '.', '0']
      else
        let d := Decimal.shortest x.significand x.exponent
        let digits := digitsOf d.digits
        let exponent := d.exponent + digits.length - 1
        if isPositional exponent then positional digits (exponent + 1)
        else scientific digits exponent) : isWordChar c := by
    split at h
    · simp only [List.mem_cons, List.not_mem_nil, or_false] at h
      obtain rfl | rfl | rfl := h <;> rfl
    · dsimp only at h
      split at h
      · exact isWordChar_of_mem_positional (fun _ => isWordChar_of_mem_digitsOf) h
      · exact isWordChar_of_mem_scientific (fun _ => isWordChar_of_mem_digitsOf) h
  rw [realText] at h
  dsimp only at h
  split at h
  · obtain rfl | h := List.mem_cons.mp h
    · rfl
    · exact hbody h
  · exact hbody h

theorem isWordChar_of_mem_text {x : Number} (h : c ∈ x.text) : isWordChar c := by
  cases x with
  | integer n =>
    rw [text, integerText] at h
    split at h
    · obtain rfl | h := List.mem_cons.mp h
      · rfl
      · exact isWordChar_of_mem_digitsOf h
    · exact isWordChar_of_mem_digitsOf h
  | real x => exact isWordChar_of_mem_realText h

theorem positional_ne_nil (ds : List Char) (count : Int) : positional ds count ≠ [] := by
  rw [positional]
  split
  · simp
  · split <;> simp

theorem text_ne_nil (x : Number) : x.text ≠ [] := by
  cases x with
  | integer n =>
    rw [text, integerText]
    split
    · simp
    · exact digitsOf_ne_nil _
  | real x =>
    simp only [text, realText]
    split
    · simp
    · split
      · simp
      · split
        · exact positional_ne_nil _ _
        · simp [scientific]

/-! ## Reading integers -/

def isInteger : Number → Bool
  | integer n => Int64.minValue.toInt ≤ n && n < UInt64.size
  | real _ => false

theorem literal?_digitsOf (n : Nat) :
    literal? (digitsOf n) = some ⟨false, digitsOf n, [], none⟩ ∧
      literal? ('-' :: digitsOf n) = some ⟨true, digitsOf n, [], none⟩ := by
  have hall : ∀ c ∈ digitsOf n, Text.isDigit c := fun _ => isDigit_of_mem_digitsOf
  have htake : (digitsOf n).takeWhile Text.isDigit = digitsOf n :=
    List.takeWhile_eq_self_iff.mpr hall
  have hdrop : (digitsOf n).dropWhile Text.isDigit = [] := List.dropWhile_eq_nil_iff.mpr hall
  have hform : ((digitsOf n).isEmpty ||
      (1 < (digitsOf n).length && (digitsOf n).head? == some '0')) = false := by
    have hempty : (digitsOf n).isEmpty = false := List.isEmpty_eq_false_iff.mpr (digitsOf_ne_nil n)
    obtain rfl | hn := Nat.eq_zero_or_pos n
    · decide
    · have hhead : ((digitsOf n).head? == some '0') = false := by simpa using head_digitsOf hn
      rw [hempty, hhead, Bool.and_false, Bool.or_false]
  constructor
  · unfold literal?
    split
    next heq =>
      split at heq
      next rest hminus =>
        -- A minus is no digit.
        have hdigit := hall '-' (by rw [hminus]; exact List.mem_cons_self)
        exact absurd hdigit (by decide)
      · obtain ⟨rfl, rfl⟩ := Prod.mk.inj heq
        simp only [htake, hdrop, hform]
        rfl
  · unfold literal?
    simp only [htake, hdrop, hform]
    rfl

theorem ofText?_text {x : Number} (h : x.isInteger) : ofText? x.text = some x := by
  cases x with
  | real x => cases h
  | integer n =>
    obtain ⟨hlow, hhigh⟩ : Int64.minValue.toInt ≤ n ∧ n < UInt64.size := by
      simpa [isInteger] using h
    have hleast : Int64.minValue.toInt = -9223372036854775808 := by decide
    have hsize : significandLimit = UInt64.size := rfl
    have hword : UInt64.size = 18446744073709551616 := rfl
    have hdigits : takeDigits 0 (digitsOf n.natAbs) = (n.natAbs, []) :=
      takeDigits_digitsOf (by omega)
    rw [text, integerText, ofText?]
    split
    next hneg =>
      have hkept : (n.natAbs == 0 || decide (UInt64.size < 2 * n.natAbs)) = false := by
        rw [Bool.or_eq_false_iff, beq_eq_false_iff_ne, decide_eq_false_iff_not]
        omega
      have hvalue : -(n.natAbs : Int) = n := by omega
      rw [(literal?_digitsOf _).2]
      show whole? true _ = _
      rw [whole?, hdigits, hkept]
      show some (integer (-(n.natAbs : Int))) = _
      rw [hvalue]
    next hneg =>
      have hvalue : (n.natAbs : Int) = n := by omega
      rw [(literal?_digitsOf _).1]
      show whole? false _ = _
      rw [whole?, hdigits]
      show some (integer (n.natAbs : Int)) = _
      rw [hvalue]

end Number
end Json
end Reconcile
