import Reconcile.Text.Ascii
/-!
The tokens of a TOML document, read one character at a time: every character moves the reading on
and may complete a token.
-/

namespace Reconcile
namespace Toml

/-- A piece of a document; comments are left out. -/
inductive Token where
  | word (letters : List Char)
  | text (content : String) (isLines : Bool)
  | blank (isSpace : Bool)
  | dot
  | equals
  | comma
  | openList
  | closeList
  | openTable
  | closeTable
  | newLine
deriving DecidableEq, Repr

/-- How a text is quoted: in double quotes, with escapes, or in single quotes, without. -/
inductive Quoting where
  | basic
  | literal
deriving DecidableEq, Repr

def Quoting.mark : Quoting → Char
  | basic => '"'
  | literal => '\''

/-- Where a reading stands.  Characters of an unfinished token are held last one first. -/
inductive Reading where
  | between
  | word (done : List Char)
  | opening (q : Quoting) (twice : Bool)
  | line (q : Quoting) (done : List Char)
  /-- At the start of a text of several lines, maybe after a carriage return. -/
  | linesStart (q : Quoting) (returned : Bool)
  | lines (q : Quoting) (done : List Char) (quotes : Nat)
  | linesReturn (q : Quoting) (done : List Char)
  | escape (isLines : Bool) (done : List Char)
  /-- Inside the escape of a character by its number, with so many digits to come. -/
  | code (isLines : Bool) (done : List Char) (value left : Nat)
  /-- After a backslash that joins a line to the next text; whether the line has ended, and whether
  the last character was a carriage return. -/
  | joining (done : List Char) (ended returned : Bool)
  | comment
  | return
deriving DecidableEq, Repr

namespace Reading

def isWordChar (c : Char) : Bool :=
  Text.isLetter c || Text.isDigit c || c == '_' || c == '-' || c == '+' || c == ':'

/-- Control characters other than the tabulator, which may stand neither in a text nor in a
comment. -/
def isControl (c : Char) : Bool := (c.val < 0x20 && c != '\t') || c.val == 0x7f

def punctuation? (c : Char) : Option Token :=
  match c with
  | ' ' => some (.blank true)
  | '\t' => some (.blank false)
  | '.' => some .dot
  | '=' => some .equals
  | ',' => some .comma
  | '[' => some .openList
  | ']' => some .closeList
  | '{' => some .openTable
  | '}' => some .closeTable
  | '\n' => some .newLine
  | _ => none

def escaped? (c : Char) : Option Char :=
  match c with
  | '"' => some '"'
  | '\\' => some '\\'
  | 'b' => some '\x08'
  | 'e' => some '\x1b'
  | 'f' => some '\x0c'
  | 'n' => some '\n'
  | 'r' => some '\r'
  | 't' => some '\t'
  | _ => none

def codeLength? (c : Char) : Option Nat :=
  match c with
  | 'x' => some 2
  | 'u' => some 4
  | 'U' => some 8
  | _ => none

/-- The character with a number; none for half a surrogate pair and beyond the last character. -/
def charOfNat? (n : Nat) : Option Char := if n.isValidChar then some (Char.ofNat n) else none

def inside (isLines : Bool) (done : List Char) : Reading :=
  if isLines then lines .basic done 0 else line .basic done

/-- Start a token, or complete one that is a single character. -/
def start? (c : Char) : Option (List Token × Reading) :=
  if c = '"' then some ([], opening .basic false)
  else if c = '\'' then some ([], opening .literal false)
  else if c = '#' then some ([], comment)
  else if c = '\r' then some ([], .return)
  else if isWordChar c then some ([], word [c])
  else (punctuation? c).map fun t => ([t], between)

def nextInLine? (q : Quoting) (done : List Char) (c : Char) : Option (List Token × Reading) :=
  if c = q.mark then some ([.text (String.ofList done.reverse) false], between)
  else if c = '\\' ∧ q = .basic then some ([], escape false done)
  else if isControl c then none
  else some ([], line q (c :: done))

def nextInLines? (q : Quoting) (done : List Char) (c : Char) : Option (List Token × Reading) :=
  if c = '\\' ∧ q = .basic then some ([], escape true done)
  else if c = '\r' then some ([], linesReturn q done)
  else if c ≠ '\n' ∧ isControl c then none
  else some ([], lines q (c :: done) 0)

/-- The text of several lines that three or more quotes end; the first ones belong to it. -/
def linesText (q : Quoting) (done : List Char) (quotes : Nat) : Token :=
  .text (String.ofList (done.reverse ++ List.replicate (quotes - 3) q.mark)) true

def nextEscaped? (isLines : Bool) (done : List Char) (c : Char) : Option (List Token × Reading) :=
  match codeLength? c, escaped? c with
  | some n, _ => some ([], code isLines done 0 n)
  | none, some e => some ([], inside isLines (e :: done))
  | none, none =>
    if !isLines then none
    else if c = '\n' then some ([], joining done true false)
    else if c = '\r' then some ([], joining done false true)
    else if c = ' ' ∨ c = '\t' then some ([], joining done false false)
    else none

/-- Read one character: the tokens it completes, and where the reading stands after it. -/
def next? (r : Reading) (c : Char) : Option (List Token × Reading) :=
  match r with
  | between => start? c
  | word done =>
    if isWordChar c then some ([], word (c :: done))
    else (start? c).map fun p => (.word done.reverse :: p.1, p.2)
  | opening q false =>
    if c = q.mark then some ([], opening q true) else nextInLine? q [] c
  | opening q true =>
    if c = q.mark then some ([], linesStart q false)
    else (start? c).map fun p => (.text "" false :: p.1, p.2)
  | line q done => nextInLine? q done c
  | linesStart q false =>
    if c = '\n' then some ([], lines q [] 0)
    else if c = '\r' then some ([], linesStart q true)
    else if c = q.mark then some ([], lines q [] 1)
    else nextInLines? q [] c
  | linesStart q true => if c = '\n' then some ([], lines q [] 0) else none
  | lines q done quotes =>
    if c = q.mark then
      if quotes < 4 then some ([], lines q done (quotes + 1))
      else some ([linesText q done (quotes + 1)], between)
    else if quotes < 3 then nextInLines? q (List.replicate quotes q.mark ++ done) c
    else (start? c).map fun p => (linesText q done quotes :: p.1, p.2)
  | linesReturn q done => if c = '\n' then some ([], lines q ('\n' :: '\r' :: done) 0) else none
  | escape isLines done => nextEscaped? isLines done c
  | code isLines done value left => do
    let value := value * 16 + (← Text.hexValue? c)
    if left ≤ 1 then return ([], inside isLines ((← charOfNat? value) :: done))
    else return ([], code isLines done value (left - 1))
  | joining done ended returned =>
    if c = '\n' then some ([], joining done true false)
    else if returned then none
    else if c = '\r' then some ([], joining done ended true)
    else if c = ' ' ∨ c = '\t' then some ([], joining done ended false)
    else if !ended then none
    else if c = '"' then some ([], lines .basic done 1)
    else nextInLines? .basic done c
  | comment =>
    if c = '\n' then some ([.newLine], between)
    else if c = '\r' then some ([], .return)
    else if isControl c then none
    else some ([], comment)
  | .return => if c = '\n' then some ([.newLine], between) else none

def tokens? (r : Reading) : List Char → Option (List Token)
  | [] =>
    match r with
    | between | comment => some []
    | word done => some [.word done.reverse]
    | opening _ true => some [.text "" false]
    | lines q done quotes => if 3 ≤ quotes then some [linesText q done quotes] else none
    | _ => none
  | c :: rest =>
    match r.next? c with
    | none => none
    | some (ts, r) => (r.tokens? rest).map (ts ++ ·)

end Reading

/-- The tokens of a document; a byte order mark in front of it is skipped. -/
def Token.read? (s : List Char) : Option (List Token) :=
  match s with
  | '\ufeff' :: rest => Reading.between.tokens? rest
  | s => Reading.between.tokens? s

end Toml
end Reconcile
