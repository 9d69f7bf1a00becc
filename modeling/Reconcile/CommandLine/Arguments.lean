import Reconcile.ResourceType
import Reconcile.Text.Split
/-!
The arguments of the program.  Options are read one after another, each with its long name, or with
its short name alone or in a cluster; the first fault ends the reading.
-/

namespace Reconcile
namespace CommandLine

/-! ## What can be asked for -/

structure Inputs where
  manifest : String
  state : Option String
  config : Option String
  account : Option String
  threads : Option Nat
  sync : List ResourceType
deriving DecidableEq, Repr

inductive Format where
  | text
  | json
deriving DecidableEq, Repr

inductive Task where
  | plan (format : Format)
  | sql
  | graph
deriving DecidableEq, Repr

structure Invocation where
  task : Task
  inputs : Inputs
  verbose : Bool
  quiet : Bool
deriving DecidableEq, Repr

inductive Request where
  | run (invocation : Invocation)
  | version (command : Option String)
deriving DecidableEq, Repr

/-- Why arguments ask for nothing. -/
inductive UsageError where
  | noCommand
  | unknownCommand (name : String)
  | unexpected (argument : String)
  | missingValue (option : String)
  | unneededValue (option : String)
  | repeated (option : String)
  | badValue (option value : String)
  | missingOption (option : String)
deriving DecidableEq, Repr

def UsageError.message : UsageError → String
  | noCommand => "a command is needed: plan, sql or graph"
  | unknownCommand name => s!"unrecognized command '{name}'"
  | unexpected argument => s!"unexpected argument '{argument}'"
  | missingValue option => s!"a value is required for '--{option}'"
  | unneededValue option => s!"'--{option}' takes no value"
  | repeated option => s!"'--{option}' cannot be used multiple times"
  | badValue option value => s!"invalid value '{value}' for '--{option}'"
  | missingOption option => s!"'--{option}' has to be given"

/-! ## Options -/

inductive Flag where
  | verbose
  | quiet
  | version
  | manifest
  | state
  | config
  | account
  | threads
  | sync
  | format
deriving DecidableEq, Repr

namespace Flag

def long : Flag → String
  | verbose => "verbose"
  | quiet => "quiet"
  | version => "version"
  | manifest => "manifest"
  | state => "state"
  | config => "config"
  | account => "account"
  | threads => "threads"
  | sync => "sync"
  | format => "format"

def short? : Flag → Option Char
  | verbose => some 'v'
  | quiet => some 'q'
  | version => some 'V'
  | manifest => some 'm'
  | state => some 's'
  | config => some 'c'
  | threads => some 'j'
  | format => some 'f'
  | account | sync => none

def takesValue : Flag → Bool
  | verbose | quiet | version => false
  | _ => true

def isRepeatable : Flag → Bool
  | verbose | sync => true
  | _ => false

def general : List Flag := [verbose, quiet, version]

def shared : List Flag := general ++ [manifest, state, config, account, threads, sync]

end Flag

inductive Command where
  | plan
  | sql
  | graph
deriving DecidableEq, Repr

namespace Command

def ofText? : String → Option Command
  | "plan" => some plan
  | "sql" => some sql
  | "graph" => some graph
  | _ => none

def flags : Command → List Flag
  | plan => Flag.shared ++ [.format]
  | sql | graph => Flag.shared

end Command

/-! ## Values -/

structure Settings where
  given : List Flag := []
  verbose : Bool := false
  quiet : Bool := false
  manifest : Option String := none
  state : Option String := none
  config : Option String := none
  account : Option String := none
  threads : Option Nat := none
  sync : List ResourceType := []
  format : Format := .text

/-- A number of 64 bits; a plus sign may stand before it. -/
def count? (s : String) : Option Nat :=
  let digits :=
    match s.toList with
    | '+' :: rest => rest
    | s => s
  if digits.isEmpty || !digits.all Text.isDigit then none
  else
    let n := digits.foldl (fun n c => n * 10 + (c.toNat - '0'.toNat)) 0
    if n < UInt64.size then some n else none

def Format.ofText? : String → Option Format
  | "text" => some .text
  | "json" => some .json
  | _ => none

def types? (s : String) : Option (List ResourceType) :=
  (Text.splitAll ',' s.toList).mapM ResourceType.ofName?

/-- Take the value of an option; a file name may not be empty. -/
def Settings.takeValue? (s : Settings) (flag : Flag) (value : String) : Option Settings :=
  match flag with
  | .manifest => if value.isEmpty then none else some { s with manifest := some value }
  | .state => if value.isEmpty then none else some { s with state := some value }
  | .config => if value.isEmpty then none else some { s with config := some value }
  | .account => some { s with account := some value }
  | .threads => (count? value).map fun n => { s with threads := some n }
  | .sync => (types? value).map fun ts => { s with sync := s.sync ++ ts }
  | .format => (Format.ofText? value).map fun f => { s with format := f }
  | .verbose => some { s with verbose := true }
  | .quiet => some { s with quiet := true }
  | .version => some s

def Settings.take (s : Settings) (flag : Flag) (value : String) : Except UsageError Settings :=
  if s.given.contains flag && !flag.isRepeatable then .error (.repeated flag.long)
  else
    match s.takeValue? flag value with
    | some s => .ok { s with given := flag :: s.given }
    | none => .error (.badValue flag.long value)

/-! ## Reading -/

inductive Argument where
  | long (name : String) (value : Option String)
  | cluster (letters : List Char)
  | end
  | plain (text : String)

/-- Two hyphens start a long option, and alone they end the options; one hyphen starts short ones,
and alone it is an ordinary argument. -/
def Argument.ofText (s : String) : Argument :=
  match s.toList with
  | ['-', '-'] => .end
  | '-' :: '-' :: name =>
    match Text.cutAt? '=' name with
    | some (name, value) => .long (String.ofList name) (some (String.ofList value))
    | none => .long (String.ofList name) none
  | '-' :: c :: letters => .cluster (c :: letters)
  | _ => .plain s

/-- The letters of a cluster in turn.  The rest of a cluster after an option with a value is the
value; an equality sign before it is dropped.  Gives the option that still waits for a value. -/
def readCluster (known : List Flag) (s : Settings) :
    List Char → Except UsageError (Settings × Option Flag)
  | [] => .ok (s, none)
  | c :: rest =>
    match known.find? fun f => f.short? == some c with
    | none => .error (.unexpected (String.ofList ['-', c]))
    | some flag =>
      if flag.takesValue then
        match rest with
        | [] => .ok (s, some flag)
        | '=' :: value => do return (← s.take flag (String.ofList value), none)
        | value => do return (← s.take flag (String.ofList value), none)
      else
        match s.take flag "" with
        | .error e => .error e
        | .ok s => if flag = .version then .ok (s, none) else readCluster known s rest

/-- What reading options came to: everything was read, the version was asked for, or an argument
that is no option stands before others. -/
inductive Stop where
  | end
  | version
  | plain (text : String) (rest : List String)

/-- Read options until something else comes; `pending` is an option that waits for its value. -/
def readOptions (known : List Flag) (s : Settings) (pending : Option Flag) :
    List String → Except UsageError (Settings × Stop)
  | [] =>
    match pending with
    | some flag => .error (.missingValue flag.long)
    | none => .ok (s, .end)
  | arg :: rest =>
    match pending, Argument.ofText arg with
    | some flag, .plain value => do readOptions known (← s.take flag value) none rest
    | some flag, _ => .error (.missingValue flag.long)
    | none, .plain text => .ok (s, .plain text rest)
    | none, .end =>
      match rest with
      | [] => .ok (s, .end)
      | text :: _ => .error (.unexpected text)
    | none, .long name value =>
      match known.find? fun f => f.long == name, value with
      | none, _ => .error (.unexpected arg)
      | some flag, some value =>
        if flag.takesValue then do readOptions known (← s.take flag value) none rest
        else .error (.unneededValue flag.long)
      | some flag, none =>
        if flag.takesValue then readOptions known s (some flag) rest
        else
          match s.take flag "" with
          | .error e => .error e
          | .ok s => if flag = .version then .ok (s, .version) else readOptions known s none rest
    | none, .cluster letters =>
      match readCluster known s letters with
      | .error e => .error e
      | .ok (t, pending) =>
        if t.given.head? = some .version then .ok (t, .version)
        else readOptions known t pending rest

def Command.task (c : Command) (s : Settings) : Task :=
  match c with
  | plan => .plan s.format
  | sql => .sql
  | graph => .graph

/-- The invocation that settings before and after the name of a command describe; the environment
can name the account. -/
def Command.invocation (c : Command) (general s : Settings) (account : Option String) :
    Except UsageError Invocation :=
  match s.manifest with
  | none => .error (.missingOption "manifest")
  | some manifest =>
    .ok {
      task := c.task s
      inputs := {
        manifest
        state := s.state
        config := s.config
        account := s.account.orElse fun _ => account
        threads := s.threads
        sync := s.sync }
      verbose := general.verbose || s.verbose
      quiet := general.quiet || s.quiet }

/-- What the arguments ask for; `account` is the account that the environment names. -/
def read (args : List String) (account : Option String) : Except UsageError Request := do
  let (general, stop) ← readOptions Flag.general {} none args
  match stop with
  | .version => return .version none
  | .end => throw .noCommand
  | .plain name rest =>
    match Command.ofText? name with
    | none => throw (.unknownCommand name)
    | some command =>
      let (s, stop) ← readOptions command.flags {} none rest
      match stop with
      | .version => return .version (some name)
      | .plain text _ => throw (.unexpected text)
      | .end => return .run (← command.invocation general s account)

end CommandLine
end Reconcile
