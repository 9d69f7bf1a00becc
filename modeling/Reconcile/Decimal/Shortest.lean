import Reconcile.Decimal.Binary64
/-!
The shortest decimal that reads back as a given binary64 number, found on ever finer decimal grids.
-/

namespace Reconcile
namespace Decimal

structure Scaled where
  digits : Nat
  exponent : Int
deriving DecidableEq, Repr

/-- The decimal of the grid `10 ^ exponent` that rounds to `m · 2 ^ q`, if one does.  The numbers
that round to it reach half a unit up and half a unit down (a quarter below a power of two), ends
included when `m` is even.  Of two candidates the nearer one is taken, and the even one of two that
are equally near. -/
def onGrid? (m : Nat) (q : Int) (exponent : Int) : Option Scaled :=
  let unit := Nat.pow 10 (-exponent).toNat <<< (q - 2).toNat
  let step := Nat.pow 10 exponent.toNat <<< (2 - q).toNat
  let reach := if m = Binary64.leastFull && Binary64.leastExponent < q then 1 else 2
  let lower := (4 * m - reach) * unit
  let upper := (4 * m + 2) * unit
  let value := 4 * m * unit
  let fits := fun (c : Nat) =>
    if m % 2 = 0 then lower ≤ c * step && c * step ≤ upper
    else lower < c * step && c * step < upper
  let low := value / step
  let high := low + 1
  match fits low, fits high with
  | true, true =>
    let down := value - low * step
    let up := high * step - value
    some ⟨if down < up || (down == up && low % 2 == 0) then low else high, exponent⟩
  | true, false => some ⟨low, exponent⟩
  | false, true => some ⟨high, exponent⟩
  | false, false => none

/-- The first hit on the grids `10 ^ exponent`, `10 ^ (exponent - 1)`, …, at most `count` of them;
none of them being hit, the finest neighbour below. -/
def firstOnGrid (m : Nat) (q : Int) : Nat → Int → Scaled
  | 0, exponent =>
    let num := (m * Nat.pow 10 (-exponent).toNat) <<< q.toNat
    let den := Nat.pow 10 exponent.toNat <<< (-q).toNat
    ⟨num / den, exponent⟩
  | count + 1, exponent =>
    (onGrid? m q exponent).getD (firstOnGrid m q count (exponent - 1))

def shortest (m : Nat) (q : Int) : Scaled :=
  firstOnGrid m q 19 (((Nat.log2 m : Int) + q) * 1233 / 4096 + 1)

end Decimal
end Reconcile
