import ConnectorControl.Api.Reply
import ConnectorControl.Api.Request
import ConnectorControl.Api.Route
import ConnectorControl.Api.Server
import ConnectorControl.Config.Address
import ConnectorControl.Config.Files
import ConnectorControl.Config.ScalerConfig
import ConnectorControl.Config.Settings
import ConnectorControl.Connector.Basic
import ConnectorControl.Connector.Legacy
import ConnectorControl.Connector.Scaling
import ConnectorControl.Connector.Status
import ConnectorControl.Connector.Validation
import ConnectorControl.Controller.Backoff
import ConnectorControl.Controller.FailureCounts
import ConnectorControl.Controller.Loop
import ConnectorControl.Controller.Operator
import ConnectorControl.Controller.Queue
import ConnectorControl.Controller.Watch
import ConnectorControl.Crd.Definition
import ConnectorControl.Crd.Schema
import ConnectorControl.Decimal.Notation
import ConnectorControl.Decimal.Quick
import ConnectorControl.Decimal.Shortest
import ConnectorControl.Derived.Autoscaling
import ConnectorControl.Derived.Deployment
import ConnectorControl.Derived.Naming
import ConnectorControl.Derived.Service
import ConnectorControl.Failure
import ConnectorControl.Http.Form
import ConnectorControl.Http.Method
import ConnectorControl.Http.Target
import ConnectorControl.Json.Basic
import ConnectorControl.Json.Decode
import ConnectorControl.Json.Merge
import ConnectorControl.Json.Nulls
import ConnectorControl.Json.Number
import ConnectorControl.Json.Pointer
import ConnectorControl.Json.Outline
import ConnectorControl.Json.Reader
import ConnectorControl.Json.Writer
import ConnectorControl.KeySets
import ConnectorControl.Main
import ConnectorControl.Objects.Container
import ConnectorControl.Objects.IntOrString
import ConnectorControl.Objects.Kind
import ConnectorControl.Objects.Metadata
import ConnectorControl.Objects.Object
import ConnectorControl.Objects.Secret
import ConnectorControl.Objects.Shape
import ConnectorControl.Pass.Converge
import ConnectorControl.Pass.Prune
import ConnectorControl.Pass.Record
import ConnectorControl.Pass.Triggers
import ConnectorControl.Pass.Upsert
import ConnectorControl.Pass.Workload
import ConnectorControl.Store.Call
import ConnectorControl.Store.Cluster
import ConnectorControl.Store.Fault
import ConnectorControl.Store.Program
import ConnectorControl.Store.Turns
import ConnectorControl.Table
import ConnectorControl.Telemetry.Exposition
import ConnectorControl.Telemetry.Health
import ConnectorControl.Telemetry.Metrics
import ConnectorControl.Text.Base64
import ConnectorControl.Text.Blank
import ConnectorControl.Text.Integer
import ConnectorControl.Text.Printable
import ConnectorControl.Text.Quoted
import ConnectorControl.Text.Split
import ConnectorControl.Text.Utf8
import ConnectorControl.Time.Duration
import ConnectorControl.Time.Instant
import ConnectorControl.Yaml
import ConnectorControl.Proofs.Json.Lookup
import ConnectorControl.Proofs.Store.Disturbance
import ConnectorControl.Proofs.Store.Ensures
import ConnectorControl.Proofs.Json.Stripped
import ConnectorControl.Proofs.Json.Decoding
import ConnectorControl.Proofs.Objects.Reading
import ConnectorControl.Proofs.Objects.Shape
import ConnectorControl.Proofs.Json.Covering
import ConnectorControl.Proofs.Derived.Stored
import ConnectorControl.Proofs.Derived.Selection
import ConnectorControl.Proofs.Derived.Specs
import ConnectorControl.Proofs.Store.Replies
import ConnectorControl.Proofs.Pass.Upsert
import ConnectorControl.Proofs.Store.Fetches
import ConnectorControl.Proofs.Pass.Plan
import ConnectorControl.Proofs.Derived.Names
import ConnectorControl.Proofs.Pass.Planned
import ConnectorControl.Proofs.Store.Listing
import ConnectorControl.Proofs.Pass.Prune
import ConnectorControl.Proofs.Pass.Visit
import ConnectorControl.Proofs.Pass.References
import ConnectorControl.Proofs.History.Ownership
import ConnectorControl.Proofs.History.Links
import ConnectorControl.Proofs.Connector.Reading
import ConnectorControl.Proofs.History.Pruning
import ConnectorControl.Proofs.History.Passes
import ConnectorControl.Proofs.History.Runs
import ConnectorControl.Proofs.History.Convergence
import ConnectorControl.Proofs.Store.Settling
import ConnectorControl.Proofs.Pass.Settling
import ConnectorControl.Proofs.Connector.Status
import ConnectorControl.Proofs.Pass.Repetition
import ConnectorControl.Proofs.Json.Paths
import ConnectorControl.Proofs.Pass.Filing
import ConnectorControl.Proofs.Pass.Framing
import ConnectorControl.Proofs.Store.Asks
import ConnectorControl.Proofs.Pass.Calls
import ConnectorControl.Proofs.Pass.Runs
import ConnectorControl.Proofs.Pass.Deletions
import ConnectorControl.Proofs.Pass.Containment
import ConnectorControl.Proofs.Json.Erased
import ConnectorControl.Proofs.Pass.Likeness
import ConnectorControl.Proofs.Store.Abreast
import ConnectorControl.Proofs.Pass.Tending
import ConnectorControl.Proofs.Pass.Twins
import ConnectorControl.Proofs.Pass.Commuting
import ConnectorControl.Proofs.Connector.Meaning
import ConnectorControl.Proofs.Store.Alike
import ConnectorControl.Proofs.Pass.Meaning
import ConnectorControl.Proofs.Store.Cuts
import ConnectorControl.Proofs.Pass.Cuts
import ConnectorControl.Proofs.History.Readable
import ConnectorControl.Proofs.History.Readiness
import ConnectorControl.Proofs.Pass.Replicas
import ConnectorControl.Proofs.Pass.Recording
import ConnectorControl.Proofs.History.Survival
import ConnectorControl.Proofs.Connector.History
import ConnectorControl.Proofs.History.Conditions
import ConnectorControl.Proofs.Controller.Secrecy
import ConnectorControl.Proofs.Connector.RoundTrip
import ConnectorControl.Proofs.Connector.Validity
import ConnectorControl.Proofs.Derived.Soundness
import ConnectorControl.Proofs.Store.Assures
import ConnectorControl.Proofs.Pass.StatusFaults
import ConnectorControl.Proofs.Controller.StatusFaults
import ConnectorControl.Proofs.Pass.Soundness
import ConnectorControl.Proofs.History.Agreement
import ConnectorControl.Proofs.History.Coherence
import ConnectorControl.Proofs.Controller.Failures
import ConnectorControl.Proofs.Store.Rejections
import ConnectorControl.Proofs.Controller.Accounts
import ConnectorControl.Proofs.Derived.Bounds
import ConnectorControl.Proofs.History.Rivals
import ConnectorControl.Proofs.KeySets
import ConnectorControl.Proofs.Derived.Mounts
import ConnectorControl.Proofs.Pass.Observing
import ConnectorControl.Proofs.Text.Integer
import ConnectorControl.Proofs.Connector.Spelling
import ConnectorControl.Proofs.Json.Places
import ConnectorControl.Proofs.Derived.Bodies
import ConnectorControl.Proofs.Api.Absence
