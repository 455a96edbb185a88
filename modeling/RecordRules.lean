import RecordRules.Main
import RecordRules.Proofs.Evaluation.Accounting
import RecordRules.Proofs.Evaluation.Propagation
import RecordRules.Proofs.Service.Rejection
import RecordRules.Proofs.Store.Table
import RecordRules.Proofs.Json.Number
import RecordRules.Proofs.Json.Words
import RecordRules.Proofs.Json.Normal
import RecordRules.Proofs.Json.RoundTrip
import RecordRules.Proofs.Store.Interchange
import RecordRules.Proofs.Store.Written
import RecordRules.Proofs.Service.Readable
import RecordRules.Proofs.Evaluation.Twin
import RecordRules.Proofs.Evaluation.Isolation
import RecordRules.Proofs.Evaluation.Kinds
import RecordRules.Proofs.Evaluation.Blame
import RecordRules.Proofs.Registry.Snapshot
import RecordRules.Proofs.Service.Deletion
import RecordRules.Proofs.Evaluation.Sums
import RecordRules.Proofs.Validation.Inspection
import RecordRules.Proofs.Validation.Defaults
import RecordRules.Proofs.Registry.Names
import RecordRules.Proofs.Service.Answers
import RecordRules.Proofs.Registry.Leads
import RecordRules.Proofs.Evaluation.Chains
import RecordRules.Proofs.Service.Resubmission
import RecordRules.Proofs.Service.Interruption
import RecordRules.Proofs.Service.Layers
import RecordRules.Proofs.Service.Coverage
import RecordRules.Proofs.Evaluation.Latch
import RecordRules.Proofs.CommandLine.Replay
import RecordRules.Proofs.Evaluation.Reach
import RecordRules.Proofs.Registry.InPlace
import RecordRules.Proofs.Registry.Slots
import RecordRules.Proofs.Registry.History
import RecordRules.Proofs.Registry.Consistency
import RecordRules.Proofs.Store.Purge
import RecordRules.Proofs.Registry.Absence
import RecordRules.Proofs.Evaluation.Dangling
import RecordRules.Proofs.Service.Steps
import RecordRules.Proofs.Service.Removal
import RecordRules.Proofs.Address
import RecordRules.Proofs.Registry.Authoring
import RecordRules.Proofs.Evaluation.Capture
import RecordRules.Proofs.Store.History
import RecordRules.Proofs.Evaluation.Comparisons
import RecordRules.Proofs.Evaluation.Integers
import RecordRules.Proofs.Store.Rewriting
import RecordRules.Proofs.Evaluation.Reapplication
import RecordRules.Proofs.Validation.Acceptance
import RecordRules.Proofs.Store.Keys
import RecordRules.Proofs.Value
import RecordRules.Proofs.Evaluation.Sources
import RecordRules.Proofs.Store.Increments
