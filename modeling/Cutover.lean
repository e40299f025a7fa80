import Cutover.Calendar
import Cutover.CommandLine
import Cutover.Configuration
import Cutover.Control.Controller
import Cutover.Control.Daemon
import Cutover.Control.Queue
import Cutover.Control.Triggers
import Cutover.Deployment.Error
import Cutover.Deployment.Pass
import Cutover.Descriptor
import Cutover.Dict
import Cutover.Digest
import Cutover.Duration
import Cutover.Json.Basic
import Cutover.Json.Parser
import Cutover.Json.Printer
import Cutover.Json.Record
import Cutover.Labels
import Cutover.Main
import Cutover.Proofs.Configuration.Encoding
import Cutover.Proofs.Configuration.Naming
import Cutover.Proofs.Configuration.Precedence
import Cutover.Proofs.Configuration.Validity
import Cutover.Proofs.Control.Backoff
import Cutover.Proofs.Control.Exclusivity
import Cutover.Proofs.Control.Interleaving
import Cutover.Proofs.Control.Life
import Cutover.Proofs.Control.Reconfiguration
import Cutover.Proofs.Control.Shutdown
import Cutover.Proofs.Control.Wakeup
import Cutover.Proofs.Deployment.Agreement
import Cutover.Proofs.Deployment.Amid
import Cutover.Proofs.Deployment.Commuting
import Cutover.Proofs.Deployment.Course
import Cutover.Proofs.Deployment.Cutting
import Cutover.Proofs.Deployment.Domain
import Cutover.Proofs.Deployment.Interruption
import Cutover.Proofs.Deployment.Lead
import Cutover.Proofs.Deployment.Lineup
import Cutover.Proofs.Deployment.Origin
import Cutover.Proofs.Deployment.Outcome
import Cutover.Proofs.Deployment.Persist
import Cutover.Proofs.Deployment.Retention
import Cutover.Proofs.Deployment.Retry
import Cutover.Proofs.Deployment.Selection
import Cutover.Proofs.Deployment.Steps
import Cutover.Proofs.Deployment.Teardown
import Cutover.Proofs.Deployment.Turn
import Cutover.Proofs.Deployment.Unbuilt
import Cutover.Proofs.Digest
import Cutover.Proofs.Feedback.Copies
import Cutover.Proofs.Feedback.DeploymentTurn
import Cutover.Proofs.Feedback.ReleaseTurn
import Cutover.Proofs.Feedback.Schedule
import Cutover.Proofs.Feedback.Settled
import Cutover.Proofs.Json.Record
import Cutover.Proofs.Json.Text
import Cutover.Proofs.Ramp.Arrangement
import Cutover.Proofs.Ramp.Balance
import Cutover.Proofs.Ramp.Capacity
import Cutover.Proofs.Ramp.Ceiling
import Cutover.Proofs.Ramp.Completion
import Cutover.Proofs.Ramp.Drain
import Cutover.Proofs.Ramp.Gate
import Cutover.Proofs.Ramp.GivenUp
import Cutover.Proofs.Ramp.Pace
import Cutover.Proofs.Ramp.Promotion
import Cutover.Proofs.Ramp.Reporting
import Cutover.Proofs.Ramp.Requeue
import Cutover.Proofs.Ramp.Rest
import Cutover.Proofs.Ramp.Rollout
import Cutover.Proofs.Ramp.Step
import Cutover.Proofs.Ramp.Succession
import Cutover.Proofs.Release.Chronicle
import Cutover.Proofs.Release.Diagnosis
import Cutover.Proofs.Release.Environment
import Cutover.Proofs.Release.Fingerprint
import Cutover.Proofs.Release.Naming
import Cutover.Proofs.Release.Recency
import Cutover.Proofs.Release.Repetition
import Cutover.Proofs.Release.Retention
import Cutover.Proofs.Release.Tenure
import Cutover.Proofs.Scaling.Attachment
import Cutover.Proofs.Scaling.Ownership
import Cutover.Proofs.Scaling.Spacing
import Cutover.Proofs.Scaling.Steered
import Cutover.Proofs.Scaling.Turns
import Cutover.Proofs.Schema.Container
import Cutover.Proofs.Schema.Object
import Cutover.Proofs.Schema.Rollout
import Cutover.Proofs.Schema.Workload
import Cutover.Proofs.Store.Birth
import Cutover.Proofs.Store.Contention
import Cutover.Proofs.Store.Edits
import Cutover.Proofs.Store.Feed
import Cutover.Proofs.Store.Footprint
import Cutover.Proofs.Store.Halves
import Cutover.Proofs.Store.Index
import Cutover.Proofs.Store.Law
import Cutover.Proofs.Store.Legibility
import Cutover.Proofs.Store.Mirror
import Cutover.Proofs.Store.Query
import Cutover.Proofs.Store.Removal
import Cutover.Proofs.Store.Request
import Cutover.Proofs.Store.Rows
import Cutover.Proofs.Store.Scan
import Cutover.Proofs.Store.Versions
import Cutover.Proofs.Store.Write
import Cutover.Rehearsal.Script
import Cutover.Rehearsal.Workloads
import Cutover.Release.Health
import Cutover.Release.Name
import Cutover.Release.Order
import Cutover.Release.Pass
import Cutover.Release.Ramp
import Cutover.Release.Retention
import Cutover.Release.Workload
import Cutover.Routing
import Cutover.Scaling.Binding
import Cutover.Scaling.Decision
import Cutover.Scaling.Evaluation
import Cutover.Schema.Build
import Cutover.Schema.Configuration
import Cutover.Schema.Container
import Cutover.Schema.Descriptor
import Cutover.Schema.Object
import Cutover.Schema.Release
import Cutover.Schema.Routing
import Cutover.Schema.Workload
import Cutover.Settings
import Cutover.Store.Basic
import Cutover.Store.Edit
import Cutover.Store.Error
import Cutover.Text.Hexadecimal
import Cutover.Text.Uppercase
import Cutover.Toml.Basic
import Cutover.Toml.Document
import Cutover.Toml.Number
import Cutover.Toml.Parser
import Cutover.Toml.Printer
import Cutover.Toml.Quoted
import Cutover.Toml.Scan
import Cutover.Width
