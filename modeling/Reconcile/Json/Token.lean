import Reconcile.Json.Basic
/-!
The tokens of JSON text, read one character at a time: every character moves the reading on and
may complete a token.
-/

namespace Reconcile
namespace Json

inductive Token where
  | openArray
  | closeArray
  | openObject
  | closeObject
  | comma
  | colon
  | atom (value : Json)
  /-- A text, or else a number, of the right form that denotes no value: a text with half of a
  surrogate pair, a number out of range. -/
  | unreadable (isText : Bool)
deriving DecidableEq, Repr

/-- Where a reading stands.  Characters of an unfinished token are held last one first. -/
inductive Reading where
  | between
  | word (done : List Char)
  | text (done : List Char)
  | escape (done : List Char)
  /-- Inside `\u`, after the high half of a surrogate pair if there is one. -/
  | unicode (done : List Char) (high : Option Nat) (digits : List Nat)
  /-- After a high half, where the escape of the low half has to start. -/
  | pairStart (done : List Char) (high : Nat)
  | pairEscape (done : List Char) (high : Nat)
  /-- Inside a text that is already known to denote no value. -/
  | broken
  | brokenEscape
  | brokenUnicode (left : Nat)
deriving DecidableEq, Repr

namespace Token

def isSpace (c : Char) : Bool := c == ' ' || c == '\n' || c == '\t' || c == '\r'

def isWordChar (c : Char) : Bool :=
  Text.isLetter c || Text.isDigit c || c == '-' || c == '+' || c == '.'

def punctuation? (c : Char) : Option Token :=
  match c with
  | '[' => some openArray
  | ']' => some closeArray
  | '{' => some openObject
  | '}' => some closeObject
  | ',' => some comma
  | ':' => some colon
  | _ => none

def ofWord? (word : List Char) : Option Token :=
  if word = "null".toList then some (atom .null)
  else if word = "true".toList then some (atom (.bool true))
  else if word = "false".toList then some (atom (.bool false))
  else
    (Number.literal? word).map fun l =>
      match l.value? with
      | some n => atom (.number n)
      | none => unreadable false

def escaped? (c : Char) : Option Char :=
  match c with
  | '"' => some '"'
  | '\\' => some '\\'
  | '/' => some '/'
  | 'b' => some '\x08'
  | 'f' => some '\x0c'
  | 'n' => some '\n'
  | 'r' => some '\r'
  | 't' => some '\t'
  | _ => none

def isHigh (n : Nat) : Bool := 0xd800 ≤ n && n ≤ 0xdbff

def isLow (n : Nat) : Bool := 0xdc00 ≤ n && n ≤ 0xdfff

def finishUnicode (done : List Char) (high : Option Nat) (n : Nat) : Reading :=
  match high with
  | none =>
    if isHigh n then .pairStart done n
    else if isLow n then .broken
    else .text (Char.ofNat n :: done)
  | some h =>
    if isLow n then
      .text (Char.ofNat (0x10000 + (h - 0xd800) * 0x400 + (n - 0xdc00)) :: done)
    else .broken

def start? (c : Char) : Option (List Token × Reading) :=
  if isSpace c then some ([], .between)
  else if c = '"' then some ([], .text [])
  else if isWordChar c then some ([], .word [c])
  else (punctuation? c).map fun t => ([t], .between)

def nextBroken? (c : Char) : Option (List Token × Reading) :=
  if c = '"' then some ([unreadable true], .between)
  else if c = '\\' then some ([], .brokenEscape)
  else if c.val < 0x20 then none
  else some ([], .broken)

/-- Read one character: the tokens it completes, and where the reading stands after it. -/
def next? (r : Reading) (c : Char) : Option (List Token × Reading) :=
  match r with
  | .between => start? c
  | .word done =>
    if isWordChar c then some ([], .word (c :: done))
    else do
      let t ← ofWord? done.reverse
      let (ts, r) ← start? c
      return (t :: ts, r)
  | .text done =>
    if c = '"' then some ([atom (.string (String.ofList done.reverse))], .between)
    else if c = '\\' then some ([], .escape done)
    else if c.val < 0x20 then none
    else some ([], .text (c :: done))
  | .escape done =>
    if c = 'u' then some ([], .unicode done none [])
    else (escaped? c).map fun e => ([], .text (e :: done))
  | .unicode done high digits => do
    let d ← Text.hexValue? c
    let digits := d :: digits
    if digits.length < 4 then some ([], .unicode done high digits)
    else some ([], finishUnicode done high (digits.foldr (fun d n => n * 16 + d) 0))
  | .pairStart done high =>
    if c = '\\' then some ([], .pairEscape done high) else nextBroken? c
  | .pairEscape done high =>
    if c = 'u' then some ([], .unicode done (some high) [])
    else (escaped? c).map fun _ => ([], .broken)
  | .broken => nextBroken? c
  | .brokenEscape =>
    if c = 'u' then some ([], .brokenUnicode 4) else (escaped? c).map fun _ => ([], .broken)
  | .brokenUnicode left =>
    (Text.hexValue? c).map fun _ =>
      ([], if left ≤ 1 then .broken else .brokenUnicode (left - 1))

def readFrom? (r : Reading) : List Char → Option (List Token)
  | [] =>
    match r with
    | .between => some []
    | .word done => (ofWord? done.reverse).map fun t => [t]
    | _ => none
  | c :: rest =>
    match next? r c with
    | none => none
    | some (ts, r) => (readFrom? r rest).map (ts ++ ·)

/-- The tokens of a text, if it consists of tokens and spaces. -/
def read? (s : List Char) : Option (List Token) := readFrom? .between s

end Token
end Json
end Reconcile
