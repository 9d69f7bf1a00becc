import Reconcile.Action
import Reconcile.Collection.SortedMap
import Reconcile.Collection.SortedSet
import Reconcile.CommandLine.Arguments
import Reconcile.CommandLine.Commands
import Reconcile.CommandLine.Display
import Reconcile.CommandLine.Inputs
import Reconcile.Config
import Reconcile.Config.Json
import Reconcile.Decimal.Binary64
import Reconcile.Decimal.Shortest
import Reconcile.Declaration.Basic
import Reconcile.Declaration.Ingest
import Reconcile.Declaration.Json
import Reconcile.Dependency.Cycle
import Reconcile.Dependency.Layering
import Reconcile.Diff.Basic
import Reconcile.Diff.Canonical
import Reconcile.Diff.Existence
import Reconcile.Diff.Removal
import Reconcile.Diff.Update
import Reconcile.Error
import Reconcile.Fallible
import Reconcile.Grant.Basic
import Reconcile.Grant.Remote
import Reconcile.Graph
import Reconcile.Identifier
import Reconcile.Json.Basic
import Reconcile.Json.Decode
import Reconcile.Json.Number
import Reconcile.Json.Printer
import Reconcile.Json.Reader
import Reconcile.Json.Selective
import Reconcile.Json.Token
import Reconcile.Lifecycle.Render
import Reconcile.Lifecycle.Rules
import Reconcile.Main
import Reconcile.Plan.Basic
import Reconcile.Plan.Change
import Reconcile.Plan.Json
import Reconcile.Plan.Text
import Reconcile.Privilege
import Reconcile.Properties
import Reconcile.Reconciler
import Reconcile.Remote.Fetch
import Reconcile.Remote.Json
import Reconcile.Remote.Snapshot
import Reconcile.Remote.Source
import Reconcile.ResourceType
import Reconcile.Run.Execute
import Reconcile.Run.Json
import Reconcile.Run.Report
import Reconcile.Run.Session
import Reconcile.Run.Transport
import Reconcile.Sql.Clause
import Reconcile.Sql.Literal
import Reconcile.Text.Ascii
import Reconcile.Text.Blank
import Reconcile.Text.Invisible
import Reconcile.Text.Percent
import Reconcile.Text.Quoted
import Reconcile.Text.Split
import Reconcile.Toml
import Reconcile.Toml.Scalar
import Reconcile.Toml.Statement
import Reconcile.Toml.Token
import Reconcile.Toml.Tree
import Reconcile.Urn.Basic
import Reconcile.Urn.Implied
import Reconcile.Urn.Nesting
import Reconcile.Urn.Reader
import Reconcile.Urn.Text
import Reconcile.Proofs.Collection
import Reconcile.Proofs.Properties
import Reconcile.Proofs.Dependency.Layering
import Reconcile.Proofs.Dependency.Component
import Reconcile.Proofs.Dependency.Search
import Reconcile.Proofs.Dependency.Completion
import Reconcile.Proofs.Fallible
import Reconcile.Proofs.Dependency.Cycle
import Reconcile.Proofs.Graph.Build
import Reconcile.Proofs.Graph.Circles
import Reconcile.Proofs.Dependency.Height
import Reconcile.Proofs.Graph.Levels
import Reconcile.Proofs.Diff.Changes
import Reconcile.Proofs.Diff.Containers
import Reconcile.Proofs.Diff.Canonical
import Reconcile.Proofs.Diff.Settled
import Reconcile.Proofs.Diff.Perform
import Reconcile.Proofs.Diff.Convergence
import Reconcile.Proofs.Diff.Layered
import Reconcile.Proofs.Diff.Removals
import Reconcile.Proofs.Diff.RoleUse
import Reconcile.Proofs.Run.Exchange
import Reconcile.Proofs.Run.Turn
import Reconcile.Proofs.Run.Switches
import Reconcile.Proofs.Run.Session
import Reconcile.Proofs.Run.Isolation
import Reconcile.Proofs.Remote.Reading
import Reconcile.Proofs.Grant.Address
import Reconcile.Proofs.Remote.Listing
import Reconcile.Proofs.Failures
import Reconcile.Proofs.Graph.Origin
import Reconcile.Proofs.Lifecycle.Verbs
import Reconcile.Proofs.Diff.Steps
import Reconcile.Proofs.Diff.References
import Reconcile.Proofs.Diff.Refusals
import Reconcile.Proofs.Diff.SessionUse
import Reconcile.Proofs.Diff.Confinement
import Reconcile.Proofs.Diff.Preservation
import Reconcile.Proofs.Diff.Completeness
import Reconcile.Proofs.Text.Blank
import Reconcile.Proofs.Identifier
import Reconcile.Proofs.Identifier.Denotation
import Reconcile.Proofs.Text.Percent
import Reconcile.Proofs.Urn.RoundTrip
import Reconcile.Proofs.Declaration.Address
import Reconcile.Proofs.Grant.Dependencies
import Reconcile.Proofs.Remote.GrantListing
import Reconcile.Proofs.Remote.Faithful
import Reconcile.Proofs.Run.Lockstep
import Reconcile.Proofs.Run.Observed
import Reconcile.Proofs.Run.Record
import Reconcile.Proofs.Run.Rehearsal
import Reconcile.Proofs.Run.Pool
import Reconcile.Proofs.Run.Schedule
import Reconcile.Proofs.Grant.Expansion
import Reconcile.Proofs.Diff.Drift
import Reconcile.Proofs.Diff.Alike
import Reconcile.Proofs.Diff.Rearranged
import Reconcile.Proofs.Grant.Reported
import Reconcile.Proofs.Lifecycle.Alterations
import Reconcile.Proofs.Diff.InPlace
import Reconcile.Proofs.Diff.Custody
import Reconcile.Proofs.Diff.Display
import Reconcile.Proofs.Remote.Calls
import Reconcile.Proofs.Text.Words
import Reconcile.Proofs.Grant.Privileges
import Reconcile.Proofs.Json.Number
import Reconcile.Proofs.Json.Token
import Reconcile.Proofs.Json.RoundTrip
import Reconcile.Proofs.Json.Record
import Reconcile.Proofs.Json.Canonical
import Reconcile.Proofs.Sql.Literal
import Reconcile.Proofs.Plan.Export
