import Reconcile.Json.Reader
/-!
Reading a list of records of which only some fields count.  The value of any other field has to be
well formed, but need not denote anything and may be nested without limit.
-/

namespace Reconcile
namespace Json

/-- How a value that does not count may go on.  Each open bracket is held as whether it is that of
an object. -/
inductive Skipping where
  | value (open? : Bool) (brackets : List Bool)
  | key (open? : Bool) (brackets : List Bool)
  | colon (brackets : List Bool)
  | after (brackets : List Bool)
deriving DecidableEq, Repr

def Skipping.next? : Skipping → Token → Option Skipping
  | .value _ bs, .atom _ | .value _ bs, .unreadable _ => some (.after bs)
  | .value _ bs, .openArray => some (.value true (false :: bs))
  | .value _ bs, .openObject => some (.key true bs)
  | .value true (false :: bs), .closeArray => some (.after bs)
  | .key _ bs, .atom (.string _) | .key _ bs, .unreadable true => some (.colon bs)
  | .key true bs, .closeObject => some (.after bs)
  | .colon bs, .colon => some (.value false (true :: bs))
  | .after (false :: bs), .comma => some (.value false (false :: bs))
  | .after (false :: bs), .closeArray => some (.after bs)
  | .after (true :: bs), .comma => some (.key false bs)
  | .after (true :: bs), .closeObject => some (.after bs)
  | _, _ => none

inductive Selecting where
  | reading (e : Expecting)
  | skipping (value : Skipping) (frames : List Frame)
deriving DecidableEq, Repr

namespace Selecting

/-- Take one token.  In the records of the list, a member without one of the names is kept with
null for its value. -/
def next? (names : List String) : Selecting → Token → Option Selecting
  | .skipping value fs, t =>
    (value.next? t).map fun value =>
      match value with
      | .after [] => .reading (.after .null fs)
      | value => .skipping value fs
  | .reading (.colon done key [.items items]), .colon =>
    let fs := [.members done key, .items items]
    if names.contains key then some (.reading (.value false fs))
    else some (.skipping (.value false []) fs)
  | .reading e, t => (e.next? t).map .reading

def run? (names : List String) (r : Selecting) : List Token → Option Json
  | [] =>
    match r with
    | .reading (.after v []) => some v
    | _ => none
  | t :: ts =>
    match r.next? names t with
    | some r => r.run? names ts
    | none => none

end Selecting

/-- The list of records that a text spells, as far as the fields with the given names go. -/
def parseRecords? (names : List String) (s : String) : Option Json :=
  (Token.read? s.toList).bind ((Selecting.reading (.value false [])).run? names)

end Json
end Reconcile
