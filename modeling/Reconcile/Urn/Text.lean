import Reconcile.Text.Percent
import Reconcile.Text.Split
import Reconcile.Urn.Basic
/-!
The written forms of an address: its full text, the dotted name, the short form in which one
address names another, and the object as statements name it.
-/

namespace Reconcile
namespace Urn

def qualifiedName (u : Urn) : String :=
  ".".intercalate ((u.container.names ++ [u.name]).map Identifier.text)

/-- Characters that would end a parameter's value early. -/
def isReserved (c : Char) : Bool := c == '%' || c == '&' || c == '=' || c == '?'

/-- The value of a parameter as it is written: encoded where it holds a reserved character. -/
def paramText (value : String) : String :=
  if value.toList.any isReserved then String.ofList (Text.Percent.encode value.toList) else value

def queryText (params : SortedMap String String) : String :=
  if params.isEmpty then ""
  else "?" ++ "&".intercalate (params.entries.map fun e => e.1 ++ "=" ++ paramText e.2)

def text (u : Urn) : String :=
  "urn::" ++ u.account ++ ":" ++ u.type.tag ++ "/" ++ u.qualifiedName ++ queryText u.params

instance : ToString Urn := ⟨text⟩

instance : Repr Urn := ⟨fun u _ => u.text⟩

/-- The form in which the parameters of a grant name a resource of the same account. -/
def reference (u : Urn) : String := u.type.tag ++ "/" ++ u.qualifiedName

def object (u : Urn) : String :=
  if u.type = .account then "ACCOUNT" else u.type.keyword ++ " " ++ u.qualifiedName

end Urn
end Reconcile
