import Reconcile.Decimal.Shortest
import Reconcile.Text.Ascii
/-!
Numbers of JSON text, read and written as the program's reader and writer document it.  A literal
without point and exponent that fits 64 bits, signed or unsigned, is an integer, any other number is
a binary64 number, and the two kinds are never equal.  A binary64 number is written with the fewest
digits that round to it: positional and with a point from `1e-5` on and below `1e16`, and otherwise
with a signed exponent.
-/

namespace Reconcile
namespace Json

open Decimal

inductive Number where
  | integer (value : Int)
  | real (value : Binary64)
deriving DecidableEq, Repr

namespace Number

def same : Number → Number → Bool
  | integer m, integer n => m == n
  | real x, real y => x.same y
  | _, _ => false

/-! ## Writing -/

/-- The decimal exponents whose numbers are written without an exponent. -/
def isPositional (exponent : Int) : Bool := -5 ≤ exponent && exponent < 16

def digitsOf (n : Nat) : List Char := n.repr.toList

def positional (digits : List Char) (count : Int) : List Char :=
  if count ≤ 0 then '0' :: '.' :: List.replicate (-count).toNat '0' ++ digits
  else if count.toNat < digits.length then
    digits.take count.toNat ++ '.' :: digits.drop count.toNat
  else digits ++ List.replicate (count.toNat - digits.length) '0' ++ ['.', '0']

def scientific (digits : List Char) (exponent : Int) : List Char :=
  let fraction := digits.drop 1
  digits.take 1 ++ (if fraction.isEmpty then [] else '.' :: fraction) ++
    'e' :: (if exponent < 0 then '-' else '+') :: digitsOf exponent.natAbs

def realText (x : Binary64) : List Char :=
  let body :=
    if x.isZero then ['0', '.', '0']
    else
      let d := shortest x.significand x.exponent
      let digits := digitsOf d.digits
      let exponent := d.exponent + digits.length - 1
      if isPositional exponent then positional digits (exponent + 1)
      else scientific digits exponent
  if x.negative then '-' :: body else body

def integerText (n : Int) : List Char :=
  if n < 0 then '-' :: digitsOf n.natAbs else digitsOf n.natAbs

def text : Number → List Char
  | integer n => integerText n
  | real x => realText x

/-! ## Reading -/

/-- Above this no further digit is taken into a significand. -/
def significandLimit : Nat := UInt64.size

def digitValue (c : Char) : Nat := c.toNat - '0'.toNat

/-- Take digits into a significand until one would not fit; gives the significand and the digits
that are left. -/
def takeDigits (significand : Nat) : List Char → Nat × List Char
  | [] => (significand, [])
  | c :: rest =>
    let next := significand * 10 + digitValue c
    if next < significandLimit then takeDigits next rest else (significand, c :: rest)

def exponent? : List Char → Option Int
  | '+' :: ds => natural? ds
  | '-' :: ds => (natural? ds).map fun n => -n
  | ds => natural? ds
where
  natural? (ds : List Char) : Option Int :=
    if ds.isEmpty || !ds.all Text.isDigit then none
    else some (ds.foldl (fun n c => n * 10 + digitValue c) 0)

/-- The real number of a literal's parts.  Integer digits that do not fit the significand count for
the exponent, fraction digits that do not fit are dropped. -/
def real? (negative : Bool) (whole fraction : List Char) (exponent : Int) : Option Number := do
  let (significand, surplus) := takeDigits 0 whole
  let (significand, dropped) := takeDigits significand fraction
  let scale : Int := exponent + surplus.length - (fraction.length - dropped.length : Nat)
  return real (← Binary64.ofDecimal? negative significand scale)

/-- The number of a literal without point and exponent.  Minus zero and integers beyond 64 bits are
real numbers. -/
def whole? (negative : Bool) (digits : List Char) : Option Number :=
  let n := (takeDigits 0 digits).1
  if (takeDigits 0 digits).2.isEmpty && !(negative && (n == 0 || UInt64.size < 2 * n)) then
    some (integer (if negative then -n else n))
  else real? negative digits [] 0

structure Literal where
  negative : Bool
  whole : List Char
  fraction : List Char
  exponent? : Option Int
deriving DecidableEq, Repr

/-- The literal that a text spells: an optional minus, digits without a needless leading zero, then
optionally a point with digits and an exponent. -/
def literal? (s : List Char) : Option Literal :=
  let (negative, s) :=
    match s with
    | '-' :: rest => (true, rest)
    | _ => (false, s)
  let digits := s.takeWhile Text.isDigit
  let s := s.dropWhile Text.isDigit
  if digits.isEmpty || (1 < digits.length && digits.head? == some '0') then none
  else
    match s with
    | [] => some ⟨negative, digits, [], none⟩
    | '.' :: s =>
      let fraction := s.takeWhile Text.isDigit
      if fraction.isEmpty then none
      else
        match s.dropWhile Text.isDigit with
        | [] => some ⟨negative, digits, fraction, none⟩
        | c :: ds =>
          if c = 'e' || c = 'E' then
            (exponent? ds).map fun e => ⟨negative, digits, fraction, some e⟩
          else none
    | c :: ds =>
      if c = 'e' || c = 'E' then (exponent? ds).map fun e => ⟨negative, digits, [], some e⟩
      else none

def Literal.value? (l : Literal) : Option Number :=
  match l.fraction, l.exponent? with
  | [], none => whole? l.negative l.whole
  | fraction, exponent => real? l.negative l.whole fraction (exponent.getD 0)

def ofText? (s : List Char) : Option Number := (literal? s).bind Literal.value?

end Number
end Json
end Reconcile
