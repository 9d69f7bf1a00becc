import Reconcile.Error
/-!
Reading addresses: the full text `urn:<organization>:<account>:<type>/<name>?<parameters>`, whose
organization is not kept, and the short form `<type>/<name>`.
-/

namespace Reconcile
namespace Urn

open Text

def readType (s : List Char) : Except Error ResourceType :=
  match ResourceType.ofName? s with
  | some t => .ok t
  | none => .error (.invalidUrn (.unknownType (String.ofList s)))

def readParam (pair : List Char) : Except Error (String × String) :=
  match cutAt? '=' pair with
  | none => .error (.invalidUrn (.badParameter (String.ofList pair)))
  | some (key, value) =>
    match Percent.decode? value with
    | none => .error (.invalidUrn (.badParameter (String.ofList pair)))
    | some value => .ok (String.ofList key, String.ofList value)

/-- The parameters of a query; empty pieces are skipped and the last of equal keys counts. -/
def readParams (query : List Char) : Except Error (SortedMap String String) := do
  let pairs ← ((splitAll '&' query).filter fun p => !p.isEmpty).mapM readParam
  return .ofList pairs

def readPath (account : String) (type : ResourceType) (path : List Char) : Except Error Urn :=
  let parts := splitUnquoted '.' false path
  if parts.length ≠ type.pathLength + 1 || parts.any List.isEmpty then
    .error (.invalidUrn (.wrongParts type (String.ofList path)))
  else
    let names := parts.map String.ofList
    .ok (ofNames account type names.dropLast (names.getLast?.getD ""))

/-- The text before and after the first question mark that is not quoted. -/
def cutQuery (s : List Char) : List Char × List Char := (cutUnquoted? '?' false s).getD (s, [])

def readName (account : String) (type : ResourceType) (s : List Char) : Except Error Urn := do
  let urn ← readPath account type (cutQuery s).1
  return { urn with params := ← readParams (cutQuery s).2 }

/-- The resource that a short form names in an account. -/
def ofReference (account : String) (reference : String) : Except Error Urn :=
  match cutAt? '/' reference.toList with
  | none => .error (.invalidUrn (.badReference reference))
  | some (kind, name) => do readName account (← readType kind) name

def cutAccount? (s : List Char) : Option (List Char × List Char) := do
  let (scheme, s) ← cutAt? ':' s
  if scheme = "urn".toList then
    let (_, s) ← cutAt? ':' s
    cutAt? ':' s
  else none

def parse (s : String) : Except Error Urn :=
  match cutAccount? s.toList with
  | none => .error (.invalidUrn (.malformed s))
  | some (account, rest) =>
    match cutAt? '/' rest with
    | none => .error (.invalidUrn (.malformed s))
    | some (kind, name) => do readName (String.ofList account) (← readType kind) name

def parse? (s : String) : Option Urn := (parse s).toOption

end Urn
end Reconcile
