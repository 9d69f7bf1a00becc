/-!
Finite binary64 numbers as exact values, with the rounding that reads them from decimal text.  All
arithmetic is on natural numbers.
-/

namespace Reconcile
namespace Decimal

/-- A finite binary64 number, `significand · 2 ^ exponent`, negated when `negative`.  Rounding
keeps the significand below `2 ^ 53` and makes it at least `2 ^ 52` unless the exponent is the
least one, `-1074`. -/
structure Binary64 where
  negative : Bool
  significand : Nat
  exponent : Int
deriving DecidableEq, Repr

/-- The integer nearest to `num / den`; a half goes to the even neighbour. -/
def roundQuotient (num den : Nat) : Nat :=
  let q := num / den
  let r := num % den
  if 2 * r < den then q else if den < 2 * r then q + 1 else q + q % 2

namespace Binary64

def leastExponent : Int := -1074

def greatestExponent : Int := 971

def leastFull : Nat := 1 <<< 52

def zero (negative : Bool) : Binary64 := ⟨negative, 0, leastExponent⟩

def isZero (x : Binary64) : Bool := x.significand == 0

def magnitude (x : Binary64) : Nat × Nat :=
  (x.significand <<< x.exponent.toNat, 1 <<< (-x.exponent).toNat)

/-- The exponent at which `num / den` has 53 binary digits before the point, or the least one. -/
def exponentFor (num den : Nat) : Int :=
  let d : Int := (Nat.log2 num : Int) - (Nat.log2 den : Int)
  let below := num <<< (-d).toNat < den <<< d.toNat
  max leastExponent (if below then d - 53 else d - 52)

/-- The number nearest to `num / den`, ties to even; none beyond the greatest finite one. -/
def nearest? (negative : Bool) (num den : Nat) : Option Binary64 :=
  if num = 0 then some (zero negative)
  else
    let e := exponentFor num den
    let m := roundQuotient (num <<< (-e).toNat) (den <<< e.toNat)
    let (m, e) := if m = 2 * leastFull then (leastFull, e + 1) else (m, e)
    if greatestExponent < e then none else some ⟨negative, m, e⟩

def powerOfTen? (k : Nat) : Option Binary64 := nearest? false (Nat.pow 10 k) 1

def multiply? (x y : Binary64) : Option Binary64 :=
  nearest? x.negative (x.magnitude.1 * y.magnitude.1) (x.magnitude.2 * y.magnitude.2)

def divide? (x y : Binary64) : Option Binary64 :=
  nearest? x.negative (x.magnitude.1 * y.magnitude.2) (x.magnitude.2 * y.magnitude.1)

def greatestPowerOfTen : Nat := 308

def scaleDown? (last : Nat) : Nat → Binary64 → Option Binary64
  | 0, x => if x.isZero then some x else do divide? x (← powerOfTen? last)
  | count + 1, x =>
    if x.isZero then some x
    else do scaleDown? last count (← divide? x (← powerOfTen? greatestPowerOfTen))

/-- The number read from `significand · 10 ^ exponent`: the significand is rounded first and then
scaled by rounded powers of ten.  None if the value is out of range. -/
def ofDecimal? (negative : Bool) (significand : Nat) (exponent : Int) : Option Binary64 := do
  let x ← nearest? negative significand 1
  if x.isZero then some x
  else if exponent < 0 then
    let count := ((-exponent).toNat - 1) / greatestPowerOfTen
    scaleDown? ((-exponent).toNat - count * greatestPowerOfTen) count x
  else if exponent.toNat ≤ greatestPowerOfTen then multiply? x (← powerOfTen? exponent.toNat)
  else none

def same (x y : Binary64) : Bool := (x.isZero && y.isZero) || x == y

end Binary64
end Decimal
end Reconcile
