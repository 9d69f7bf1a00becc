import Reconcile.Properties
import Reconcile.Text.Split
/-!
Property values as SQL literals.  Text is written bare if it looks like a keyword, between double
dollar signs if it is a comment, and otherwise in single quotes with inner quotes doubled.
-/

namespace Reconcile
namespace Sql

def doubleQuotes (s : List Char) : List Char :=
  s.flatMap fun c => if c = '\'' then [c, c] else [c]

def quote (s : List Char) : List Char := '\'' :: (doubleQuotes s ++ ['\''])

def isBareChar (c : Char) : Bool := Text.isUpper c || Text.isDigit c || c == '_' || c == '-'

/-- A keyword-like value: capitals, digits, underscores and hyphens after a capital. -/
def isBare (s : List Char) : Bool :=
  match s with
  | [] => false
  | c :: _ => Text.isUpper c && s.all isBareChar

/-- Whether double dollar signs can enclose the text. -/
def isDollarSafe (s : List Char) : Bool :=
  !Text.occursIn ['$', '$'] s && s.getLast? != some '$'

def textLiteral (key : String) (s : List Char) : List Char :=
  if key = "comment" then if isDollarSafe s then '$' :: '$' :: (s ++ ['$', '$']) else quote s
  else if isBare s then s
  else quote s

mutual

def literal (key : String) : Json → List Char
  | .null => "NULL".toList
  | .bool true => "TRUE".toList
  | .bool false => "FALSE".toList
  | .number n => n.text
  | .string s => textLiteral key s.toList
  | .array items => '(' :: (literals key items ++ [')'])
  | .object members => quote (Json.object members).text

def literals (key : String) : List Json → List Char
  | [] => []
  | v :: vs => literal key v ++ laterLiterals key vs

def laterLiterals (key : String) : List Json → List Char
  | [] => []
  | v :: vs => ',' :: ' ' :: (literal key v ++ laterLiterals key vs)

end

def value (key : String) (v : Json) : String := String.ofList (literal key v)

end Sql
end Reconcile
