import RecordFlow.Json.Reader
import RecordFlow.Text.Quoted
import RecordFlow.Name
import RecordFlow.Expr
import RecordFlow.DependencyGraph.Order
import RecordFlow.Dataflow
import RecordFlow.Schema
import RecordFlow.Resolver.Spec
import RecordFlow.Table.Registration
import RecordFlow.Snapshot
import RecordFlow.Session
import RecordFlow.Value.Json
import RecordFlow.Document.Fields
import RecordFlow.Expr.Reader
import RecordFlow.Condition.Reader
import RecordFlow.Namespace.Reader
import RecordFlow.Description
import RecordFlow.Yaml.Source
import RecordFlow.Yaml.Scalar
import RecordFlow.Yaml.Block
import RecordFlow.Yaml.Token
import RecordFlow.Yaml.Indentation
import RecordFlow.Yaml.Reader
import RecordFlow.Model
import RecordFlow.Model.Reader
import RecordFlow.Model.Check
import RecordFlow.Model.Definition
import RecordFlow.Model.Build
import RecordFlow.Description.Error
import RecordFlow.Model.Description
import RecordFlow.Report
import RecordFlow.CommandLine
import RecordFlow.Main
import RecordFlow.Proofs.DependencyGraph.Cycle
import RecordFlow.Proofs.DependencyGraph.Order
import RecordFlow.Proofs.Interning.Definitions
import RecordFlow.Proofs.Interning.Passes
import RecordFlow.Proofs.Interning.Reordering
import RecordFlow.Proofs.Naming.Aliases
import RecordFlow.Proofs.Registration.Schemas
import RecordFlow.Proofs.Pattern.Compiled
import RecordFlow.Proofs.Pattern.Order
import RecordFlow.Proofs.Bindings.Calls
import RecordFlow.Proofs.Bindings.Runs
import RecordFlow.Proofs.Validation.Repeated
import RecordFlow.Proofs.Registry.References
import RecordFlow.Proofs.Dataflow.Scope
import RecordFlow.Proofs.Dataflow.Lifecycle
import RecordFlow.Proofs.Dataflow.Matching
import RecordFlow.Proofs.Model.Compiled
import RecordFlow.Proofs.Naming.Canonical
import RecordFlow.Proofs.Shorthand.Names
import RecordFlow.Proofs.Shorthand.Tables
import RecordFlow.Proofs.Shorthand.Compilations
import RecordFlow.Proofs.Model.Stages
import RecordFlow.Proofs.Shorthand.Models
import RecordFlow.Proofs.Shorthand.Builds
import RecordFlow.Proofs.Bindings.Targets
import RecordFlow.Proofs.Store.Ledger
import RecordFlow.Proofs.Registry.Operations
import RecordFlow.Proofs.Condition.Evaluable
import RecordFlow.Proofs.Dataflow.Guards
import RecordFlow.Proofs.DependencyGraph.SimpleCycle
import RecordFlow.Proofs.DependencyGraph.Search
import RecordFlow.Proofs.DependencyGraph.Emission
import RecordFlow.Proofs.DependencyGraph.Greedy
import RecordFlow.Proofs.Pattern.Refused
import RecordFlow.Proofs.Pattern.Ties
import RecordFlow.Proofs.Pattern.Spellings
import RecordFlow.Proofs.Registry.Confined
import RecordFlow.Proofs.Registry.History
import RecordFlow.Proofs.Registry.Coined
import RecordFlow.Proofs.Registry.Retagged
import RecordFlow.Proofs.Validation.Apart
import RecordFlow.Proofs.Dataflow.Types
import RecordFlow.Proofs.Validation.Defaults
import RecordFlow.Proofs.Validation.Promotion
import RecordFlow.Proofs.Value.Documents
import RecordFlow.Proofs.Condition.Mirrored
import RecordFlow.Proofs.Condition.References
import RecordFlow.Proofs.Value.Matching
import RecordFlow.Proofs.Bindings.Dispatch
import RecordFlow.Proofs.Model.Accepted
import RecordFlow.Proofs.Interning.Again
import RecordFlow.Proofs.Registry.Listing
import RecordFlow.Proofs.Model.Keys
import RecordFlow.Proofs.DependencyGraph.Checks
import RecordFlow.Proofs.Value.Repetitions
import RecordFlow.Proofs.Dataflow.Messages
import RecordFlow.Proofs.Registry.Invariants
import RecordFlow.Proofs.Registry.Positions
import RecordFlow.Proofs.Model.PatternNames
import RecordFlow.Proofs.DependencyGraph.Consistency
