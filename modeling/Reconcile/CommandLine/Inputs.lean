import Reconcile.CommandLine.Arguments
import Reconcile.Config.Json
import Reconcile.Json.Selective
import Reconcile.Reconciler
import Reconcile.Remote.Json
import Reconcile.Toml
/-!
The inputs of a command: the configuration, the manifest and the exported state of the account.
-/

namespace Reconcile
namespace CommandLine

abbrev Files := String → Option String

inductive Failure where
  | unreadable (file : String)
  | badConfig (file : String)
  | badManifest (file : String)
  | badState (file : String)
  | noAccount
  /-- Some changes of the plan did not apply. -/
  | incomplete
  | reconciling (e : Error)
deriving DecidableEq

def Failure.message : Failure → String
  | unreadable file => s!"Could not read {file}"
  | badConfig file => s!"Invalid config in {file}"
  | badManifest file => s!"Invalid manifest in {file}"
  | badState file => s!"Invalid state in {file}"
  | noAccount =>
    "No account configured; pass --account or set `account` in the config file"
  | incomplete => "plan cannot be applied cleanly"
  | reconciling e => e.message

def reconciling {α : Type} (r : Except Error α) : Except Failure α := r.mapError .reconciling

def load {α : Type} (files : Files) (fault : String → Failure) (read? : String → Option α)
    (file : String) : Except Failure α :=
  match files file with
  | none => .error (.unreadable file)
  | some content =>
    match read? content with
    | some a => .ok a
    | none => .error (fault file)

def configOfText? (s : String) : Option Config :=
  (Toml.parse? s).bind fun entries => Config.ofJson? (.object entries)

/-- The declarations of a manifest: a list, or an object that holds one under `resources`. -/
def declarationsOfJson? : Json → Option (List Declaration)
  | .object ms => do
    let fields ← (Json.object ms).fields? ["resources"]
    Json.required? fields "resources" (Json.decodeList? Declaration.ofJson?)
  | v => Json.decodeList? Declaration.ofJson? v

def manifestOfText? (s : String) : Option (List Declaration) :=
  (Json.parse? s).bind declarationsOfJson?

def stateOfText? (s : String) : Option (List Record) :=
  (Json.parseRecords? Record.fieldNames s).bind (Json.decodeList? Record.ofJson?)

/-- The configuration with what the arguments override. -/
def Inputs.override (i : Inputs) (c : Config) : Config :=
  { c with
    account := i.account.getD c.account
    threads := i.threads.getD c.threads
    syncResources := if i.sync.isEmpty then c.syncResources else some i.sync }

/-- The configuration of a command, which has to name an account. -/
def Inputs.loadConfig (i : Inputs) (files : Files) : Except Failure Config := do
  let file ← match i.config with
    | none => pure {}
    | some name => load files .badConfig configOfText? name
  let config := i.override file
  if (Text.trim config.account.toList).isEmpty then throw .noAccount
  return config

structure Loaded where
  reconciler : Reconciler
  declarations : List Declaration
  source : Source

/-- Read the inputs of a command: the configuration, the manifest, and the state, which is that of
an empty account if no file is named. -/
def Inputs.load (i : Inputs) (files : Files) : Except Failure Loaded := do
  let config ← i.loadConfig files
  let reconciler ← reconciling (Reconciler.create config)
  let declarations ← CommandLine.load files .badManifest manifestOfText? i.manifest
  let records ← match i.state with
    | none => pure []
    | some name => CommandLine.load files .badState stateOfText? name
  return ⟨reconciler, declarations, .ofRecords records⟩

def Loaded.plan (l : Loaded) : Except Failure Plan :=
  reconciling (l.reconciler.plan l.declarations l.source)

end CommandLine
end Reconcile
