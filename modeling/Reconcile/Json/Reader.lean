import Reconcile.Json.Token
/-!
Reading JSON text.  The grammar is that of the standard, without comments and trailing commas, and
nothing but blanks may follow the value.  What the standard leaves to a reader is settled as the
reader of manifests, states and plans documents it: values may be nested 127 deep, a text with half
of a surrogate pair and a number beyond the range of its kind are refused, and all members of an
object are kept in order, so that of a repeated key the last one counts later.  The value is built
by a machine that takes one token at a time and holds the arrays and objects that are still open.
-/

namespace Reconcile
namespace Json

/-- An array or object that waits for a value: its items or members so far, last one first. -/
inductive Frame where
  | items (done : List Json)
  | members (done : List (String × Json)) (key : String)
deriving DecidableEq, Repr

/-- What the text may go on with, inside the open frames. -/
inductive Expecting where
  /-- A value; right after an opening bracket also the closing one. -/
  | value (open? : Bool) (frames : List Frame)
  | key (open? : Bool) (done : List (String × Json)) (frames : List Frame)
  | colon (done : List (String × Json)) (key : String) (frames : List Frame)
  | after (value : Json) (frames : List Frame)
deriving DecidableEq, Repr

/-- The greatest number of arrays and objects that may be open at once; one more would reach the
documented recursion limit of 128. -/
def nestingLimit : Nat := 127

def Expecting.next? : Expecting → Token → Option Expecting
  | .value _ fs, .atom v => some (.after v fs)
  | .value _ fs, .openArray =>
    if fs.length < nestingLimit then some (.value true (.items [] :: fs)) else none
  | .value _ fs, .openObject =>
    if fs.length < nestingLimit then some (.key true [] fs) else none
  | .value true (.items _ :: fs), .closeArray => some (.after (.array []) fs)
  | .key _ done fs, .atom (.string k) => some (.colon done k fs)
  | .key true _ fs, .closeObject => some (.after (.object []) fs)
  | .colon done k fs, .colon => some (.value false (.members done k :: fs))
  | .after v (.items done :: fs), .comma => some (.value false (.items (v :: done) :: fs))
  | .after v (.items done :: fs), .closeArray => some (.after (.array (v :: done).reverse) fs)
  | .after v (.members done k :: fs), .comma => some (.key false ((k, v) :: done) fs)
  | .after v (.members done k :: fs), .closeObject =>
    some (.after (.object ((k, v) :: done).reverse) fs)
  | _, _ => none

def Expecting.run? (e : Expecting) : List Token → Option Expecting
  | [] => some e
  | t :: ts =>
    match e.next? t with
    | some e => e.run? ts
    | none => none

def ofTokens? (ts : List Token) : Option Json :=
  match (Expecting.value false []).run? ts with
  | some (.after v []) => some v
  | _ => none

/-- The value that a text denotes, with the members of objects as they stand in the text. -/
def parse? (s : String) : Option Json := (Token.read? s.toList).bind ofTokens?

end Json
end Reconcile
