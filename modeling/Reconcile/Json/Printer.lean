import Reconcile.Json.Basic
/-!
The written forms of a JSON value: compact, and indented over several lines.
-/

namespace Reconcile
namespace Json

def lowerHexDigit (n : Nat) : Char := Char.ofNat (if n < 10 then 0x30 + n else 0x61 + (n - 10))

def charText (c : Char) : List Char :=
  if c == '"' then ['\\', '"']
  else if c == '\\' then ['\\', '\\']
  else if c == '\x08' then ['\\', 'b']
  else if c == '\t' then ['\\', 't']
  else if c == '\n' then ['\\', 'n']
  else if c == '\x0c' then ['\\', 'f']
  else if c == '\r' then ['\\', 'r']
  else if c.val < 0x20 then
    ['\\', 'u', '0', '0', lowerHexDigit (c.toNat / 16), lowerHexDigit (c.toNat % 16)]
  else [c]

def stringText (s : String) : List Char := '"' :: (s.toList.flatMap charText ++ ['"'])

def boolText (b : Bool) : List Char := if b then "true".toList else "false".toList

/-! ## Compact form -/

mutual

def text : Json → List Char
  | null => "null".toList
  | bool b => boolText b
  | number n => n.text
  | string s => stringText s
  | array xs => '[' :: (itemsText xs ++ [']'])
  | object ms => '{' :: (membersText ms ++ ['}'])

def itemsText : List Json → List Char
  | [] => []
  | x :: xs => text x ++ laterItems xs

def laterItems : List Json → List Char
  | [] => []
  | x :: xs => ',' :: (text x ++ laterItems xs)

def membersText : List (String × Json) → List Char
  | [] => []
  | (k, x) :: ms => stringText k ++ ':' :: (text x ++ laterMembers ms)

def laterMembers : List (String × Json) → List Char
  | [] => []
  | (k, x) :: ms => ',' :: (stringText k ++ ':' :: (text x ++ laterMembers ms))

end

def render (v : Json) : String := String.ofList v.text

/-! ## Indented form -/

def newLine (depth : Nat) : List Char := '\n' :: List.replicate (2 * depth) ' '

mutual

/-- The value with every item and member on a line of its own; empty ones stay on one line. -/
def indentedText (depth : Nat) : Json → List Char
  | array (x :: xs) =>
    '[' :: (newLine (depth + 1) ++ indentedText (depth + 1) x ++ indentedItems depth xs ++
      newLine depth ++ [']'])
  | object ((k, x) :: ms) =>
    '{' :: (newLine (depth + 1) ++ stringText k ++ ':' :: ' ' :: indentedText (depth + 1) x ++
      indentedMembers depth ms ++ newLine depth ++ ['}'])
  | array [] => ['[', ']']
  | object [] => ['{', '}']
  | null => "null".toList
  | bool b => boolText b
  | number n => n.text
  | string s => stringText s

def indentedItems (depth : Nat) : List Json → List Char
  | [] => []
  | x :: xs =>
    ',' :: (newLine (depth + 1) ++ indentedText (depth + 1) x ++ indentedItems depth xs)

def indentedMembers (depth : Nat) : List (String × Json) → List Char
  | [] => []
  | (k, x) :: ms =>
    ',' :: (newLine (depth + 1) ++ stringText k ++ ':' :: ' ' :: indentedText (depth + 1) x ++
      indentedMembers depth ms)

end

def renderIndented (v : Json) : String := String.ofList (v.indentedText 0)

end Json
end Reconcile
