import Reconcile.Json.Basic
import Reconcile.Text.Ascii
/-!
Values that a TOML document spells without quotes: booleans, integers, real numbers, dates and
times.
-/

namespace Reconcile
namespace Toml

/-! ## Digits -/

def digit? (base : Nat) (c : Char) : Option Nat :=
  (Text.hexValue? c).filter fun d => d < base

def digitsFrom? (base value : Nat) : List Char → Option Nat
  | [] => some value
  | '_' :: c :: rest => do digitsFrom? base (value * base + (← digit? base c)) rest
  | c :: rest => do digitsFrom? base (value * base + (← digit? base c)) rest

def digits? (base : Nat) : List Char → Option Nat
  | [] => none
  | c :: rest => do digitsFrom? base (← digit? base c) rest

def decimal? : List Char → Option Nat
  | ['0'] => some 0
  | '0' :: _ => none
  | s => digits? 10 s

/-! ## Integers -/

def integer? (s : List Char) : Option Int := do
  let n : Int ← match s with
    | '0' :: 'x' :: s => (digits? 16 s).map Int.ofNat
    | '0' :: 'o' :: s => (digits? 8 s).map Int.ofNat
    | '0' :: 'b' :: s => (digits? 2 s).map Int.ofNat
    | '-' :: s => (decimal? s).map fun n => -Int.ofNat n
    | '+' :: s => (decimal? s).map Int.ofNat
    | s => (decimal? s).map Int.ofNat
  if -Int.ofNat (1 <<< 127) ≤ n ∧ n < Int.ofNat (1 <<< 128) then some n else none

/-! ## Real numbers -/

def isDigitOrMark (c : Char) : Bool := Text.isDigit c || c == '_'

/-- The value of an exponent part; a missing one is zero. -/
def exponent? : List Char → Option Int
  | [] => some 0
  | e :: s =>
    if e ≠ 'e' ∧ e ≠ 'E' then none
    else
      match s with
      | '+' :: s => (digits? 10 s).map Int.ofNat
      | '-' :: s => (digits? 10 s).map fun n => -Int.ofNat n
      | s => (digits? 10 s).map Int.ofNat

def nearest? (negative : Bool) (significand : Nat) (exponent : Int) : Option Decimal.Binary64 :=
  let places := (Nat.toDigits 10 significand).length + exponent
  if significand = 0 ∨ places < -400 then some (.zero negative)
  else if 400 < places then none
  else
    Decimal.Binary64.nearest? negative (significand * Nat.pow 10 exponent.toNat)
      (Nat.pow 10 (-exponent).toNat)

def unsignedReal? (negative : Bool) (s : List Char) : Option Json := do
  let whole ← decimal? (s.takeWhile isDigitOrMark)
  let rest := s.dropWhile isDigitOrMark
  let (significand, places, rest) ← match rest with
    | '.' :: s => do
      let fraction := s.takeWhile isDigitOrMark
      let places := (fraction.filter Text.isDigit).length
      pure (whole * Nat.pow 10 places + (← digits? 10 fraction), places, s.dropWhile isDigitOrMark)
    | [] => none
    | rest => pure (whole, 0, rest)
  let exponent ← exponent? rest
  let value ← nearest? negative significand (exponent - places)
  return .number (.real value)

/-- A real number.  What has no digits, infinity and the like, becomes an object with its text. -/
def real? (s : List Char) : Option Json :=
  let unsigned := match s with
    | '+' :: rest | '-' :: rest => rest
    | s => s
  if unsigned = "inf".toList ∨ unsigned = "nan".toList then
    some (.object [("real", .string (String.ofList s))])
  else unsignedReal? (s.head? == some '-') unsigned

/-! ## Dates and times -/

def isPair (most : Nat) (a b : Char) : Bool :=
  Text.isDigit a && Text.isDigit b &&
    (a.toNat - '0'.toNat) * 10 + (b.toNat - '0'.toNat) ≤ most

def daysOfMonth (year month : Nat) : Nat :=
  if month = 2 then
    if year % 4 = 0 ∧ (year % 100 ≠ 0 ∨ year % 400 = 0) then 29 else 28
  else if month = 4 ∨ month = 6 ∨ month = 9 ∨ month = 11 then 30
  else 31

def isDate : List Char → Bool
  | [y₁, y₂, y₃, y₄, '-', m₁, m₂, '-', d₁, d₂] =>
    match decimalOf [y₁, y₂, y₃, y₄], decimalOf [m₁, m₂], decimalOf [d₁, d₂] with
    | some y, some m, some d => 1 ≤ m && m ≤ 12 && 1 ≤ d && d ≤ daysOfMonth y m
    | _, _, _ => false
  | _ => false
where
  decimalOf (s : List Char) : Option Nat :=
    if s.all Text.isDigit then
      some (s.foldl (fun n c => n * 10 + (c.toNat - '0'.toNat)) 0)
    else none

def isTime : List Char → Bool
  | h₁ :: h₂ :: ':' :: m₁ :: m₂ :: rest =>
    isPair 23 h₁ h₂ && isPair 59 m₁ m₂ &&
      match rest with
      | [] => true
      | [':', s₁, s₂] => isPair 60 s₁ s₂
      | ':' :: s₁ :: s₂ :: '.' :: fraction =>
        isPair 60 s₁ s₂ && !fraction.isEmpty && fraction.all Text.isDigit
      | _ => false
  | _ => false

def isOffset : List Char → Bool
  | [sign, h₁, h₂, ':', m₁, m₂] =>
    (sign == '+' || sign == '-') && isPair 23 h₁ h₂ && isPair 59 m₁ m₂
  | _ => false

def isZonedTime (s : List Char) : Bool :=
  isTime s ||
    ((s.getLast? == some 'Z' || s.getLast? == some 'z') && isTime s.dropLast) ||
    (isOffset (s.drop (s.length - 6)) && isTime (s.take (s.length - 6)))

/-- A date, a time, or both with `T` or a space between them. -/
def isMoment (s : List Char) : Bool :=
  isDate s || isTime s ||
    (isDate (s.take 10) &&
      match s.drop 10 with
      | c :: time => (c == 'T' || c == 't' || c == ' ') && isZonedTime time
      | [] => false)

example : isMoment "2024-02-29".toList ∧ ¬ isMoment "2023-02-29".toList := by decide +kernel

example : isMoment "07:30".toList ∧ ¬ isMoment "07:60".toList ∧ ¬ isMoment "07:30Z".toList := by
  decide +kernel

example : isMoment "1979-05-27 07:32:00.5+01:00".toList := by decide +kernel

/-! ## Scalars -/

/-- The value that a text without quotes denotes.  A date or time becomes an object with its
text. -/
def scalar? (s : List Char) : Option Json :=
  if s = "true".toList then some (.bool true)
  else if s = "false".toList then some (.bool false)
  else if isMoment s then some (.object [("moment", .string (String.ofList s))])
  else
    match integer? s with
    | some n => some (.number (.integer n))
    | none => real? s

end Toml
end Reconcile
