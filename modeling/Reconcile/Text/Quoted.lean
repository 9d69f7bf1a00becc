import Reconcile.Text.Invisible
/-!
Text in quotation marks for a reader: what cannot be seen is written by name or by number.
-/

namespace Reconcile
namespace Text

def hexText (n : Nat) : List Char := Nat.toDigits 16 n

def quotedChar (c : Char) : List Char :=
  if c = '\x00' then ['\\', '0']
  else if c = '\t' then ['\\', 't']
  else if c = '\r' then ['\\', 'r']
  else if c = '\n' then ['\\', 'n']
  else if c = '\\' then ['\\', '\\']
  else if c = '"' then ['\\', '"']
  else if isInvisible c then '\\' :: 'u' :: '{' :: (hexText c.toNat ++ ['}'])
  else [c]

def quoted (s : String) : String := String.ofList ('"' :: (s.toList.flatMap quotedChar ++ ['"']))

def quoted? : Option String → String
  | none => "None"
  | some s => "Some(" ++ quoted s ++ ")"

end Text
end Reconcile
