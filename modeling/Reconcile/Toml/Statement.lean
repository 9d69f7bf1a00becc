import Reconcile.Toml.Scalar
import Reconcile.Toml.Token
import Reconcile.Toml.Tree
/-!
The statements of a TOML document, built by a machine that takes one token at a time and holds the
lists and inline tables that are still open.
-/

namespace Reconcile
namespace Toml

inductive Statement where
  | table (path : List String)
  /-- The header of one more table in a list of tables. -/
  | append (path : List String)
  | entry (path : List String) (value : Json)
deriving DecidableEq

/-- What a value belongs to.  Items and members so far are held last one first. -/
inductive Context where
  | entry (path : List String)
  | item (done : List Json) (outer : Context)
  | member (done : List (List String × Json)) (path : List String) (outer : Context)

def Context.depth : Context → Nat
  | entry _ => 0
  | item _ outer | member _ _ outer => outer.depth + 1

/-- The greatest number of lists and inline tables that may be open at once. -/
def nestingLimit : Nat := 80

/-- The greatest number of keys with dots between them. -/
def keyLimit : Nat := 80

inductive Place where
  | line
  | header (isList : Bool)
  | member (done : List (List String × Json)) (outer : Context)

/-- What a document may go on with.  The keys of an unfinished path are held last one first. -/
inductive Expecting where
  | line
  | bracket
  | key (place : Place) (path : List String)
  | keyEnd (place : Place) (path : List String)
  /-- Before the sign of a member whose key ended its line. -/
  | sign (done : List (List String × Json)) (path : List String) (outer : Context)
  | lastBracket (path : List String)
  | value (context : Context)
  /-- Inside a value without quotes, its characters last one first. -/
  | bare (letters : List Char) (context : Context)
  /-- After a date and a space, where a time may follow. -/
  | pause (letters : List Char) (context : Context)
  | itemEnd (done : List Json) (outer : Context)
  | memberStart (done : List (List String × Json)) (outer : Context)
  | memberEnd (done : List (List String × Json)) (outer : Context)
  | lineEnd

namespace Expecting

/-- A key: a text of one line, or a word of letters, digits, underscores and hyphens. -/
def key? : Token → Option String
  | .text s false => some s
  | .word w => if w.contains '+' || w.contains ':' then none else some (String.ofList w)
  | _ => none

/-- What follows a value: the statement it completes, and what the document goes on with. -/
def complete (v : Json) : Context → List Statement × Expecting
  | .entry path => ([.entry path v], lineEnd)
  | .item done outer => ([], itemEnd (v :: done) outer)
  | .member done path outer => ([], memberEnd ((path, v) :: done) outer)

def completeTable? (done : List (List String × Json)) (outer : Context) :
    Option (List Statement × Expecting) :=
  (Tree.ofLines? done.reverse).map fun t => complete t.toJson outer

def nest? (context : Context) (e : Expecting) : Option (List Statement × Expecting) :=
  if context.depth < nestingLimit then some ([], e) else none

def step? : Expecting → Token → Option (List Statement × Expecting)
  | line, .newLine | line, .blank _ => some ([], line)
  | line, .openList => some ([], bracket)
  | line, t => (key? t).map fun k => ([], keyEnd .line [k])
  | bracket, .openList => some ([], key (.header true) [])
  | bracket, .blank _ => some ([], key (.header false) [])
  | bracket, t => (key? t).map fun k => ([], keyEnd (.header false) [k])
  | key p path, .blank _ => some ([], key p path)
  | key p path, t => (key? t).map fun k => ([], keyEnd p (k :: path))
  | keyEnd p path, .blank _ => some ([], keyEnd p path)
  | keyEnd p path, .dot => if path.length < keyLimit then some ([], key p path) else none
  | keyEnd .line path, .equals => some ([], value (.entry path.reverse))
  | keyEnd (.member done outer) path, .equals | sign done path outer, .equals =>
    some ([], value (.member done path.reverse outer))
  | keyEnd (.member done outer) path, .newLine | sign done path outer, .newLine
  | sign done path outer, .blank _ => some ([], sign done path outer)
  | keyEnd (.header false) path, .closeList => some ([.table path.reverse], lineEnd)
  | keyEnd (.header true) path, .closeList => some ([], lastBracket path.reverse)
  | lastBracket path, .closeList => some ([.append path], lineEnd)
  | value c, .blank _ => some ([], value c)
  | value (.item done outer), .newLine => some ([], value (.item done outer))
  | value (.member done path outer), .newLine => some ([], value (.member done path outer))
  | value (.item done outer), .closeList => some (complete (.array done.reverse) outer)
  | value c, .text s _ => some (complete (.string s) c)
  | value c, .word w => some ([], bare w.reverse c)
  | value c, .openList => nest? c (value (.item [] c))
  | value c, .openTable => nest? c (memberStart [] c)
  | itemEnd done outer, .blank _ | itemEnd done outer, .newLine => some ([], itemEnd done outer)
  | itemEnd done outer, .comma => some ([], value (.item done outer))
  | itemEnd done outer, .closeList => some (complete (.array done.reverse) outer)
  | memberStart done outer, .blank _ | memberStart done outer, .newLine =>
    some ([], memberStart done outer)
  | memberStart done outer, .closeTable => completeTable? done outer
  | memberStart done outer, t => (key? t).map fun k => ([], keyEnd (.member done outer) [k])
  | memberEnd done outer, .blank _ | memberEnd done outer, .newLine =>
    some ([], memberEnd done outer)
  | memberEnd done outer, .comma => some ([], memberStart done outer)
  | memberEnd done outer, .closeTable => completeTable? done outer
  | lineEnd, .blank _ => some ([], lineEnd)
  | lineEnd, .newLine => some ([], line)
  | _, _ => none

def finish? (letters : List Char) (context : Context) : Option (List Statement × Expecting) :=
  (scalar? letters.reverse).map fun v => complete v context

def finishThen? (letters : List Char) (context : Context) (t : Token) :
    Option (List Statement × Expecting) := do
  let (done, e) ← finish? letters context
  let (more, e) ← e.step? t
  return (done ++ more, e)

/-- Take one token: the statements it completes, and what the document goes on with. -/
def next? : Expecting → Token → Option (List Statement × Expecting)
  | bare letters c, .word w => some ([], bare (w.reverse ++ letters) c)
  | bare letters c, .dot => some ([], bare ('.' :: letters) c)
  | bare letters c, .blank true =>
    if isDate letters.reverse then some ([], pause letters c)
    else finishThen? letters c (.blank true)
  | bare letters c, t => finishThen? letters c t
  | pause letters c, .word w => some ([], bare (w.reverse ++ ' ' :: letters) c)
  | pause letters c, t => finishThen? letters c t
  | e, t => e.step? t

def statements? (e : Expecting) : List Token → Option (List Statement)
  | [] =>
    match e with
    | line | lineEnd => some []
    | bare letters (.entry path) | pause letters (.entry path) =>
      (finish? letters (.entry path)).map (·.1)
    | _ => none
  | t :: ts =>
    match e.next? t with
    | none => none
    | some (done, e) => (e.statements? ts).map (done ++ ·)

end Expecting

def Statement.read? (s : List Char) : Option (List Statement) :=
  (Token.read? s).bind (Expecting.statements? .line)

end Toml
end Reconcile
