import Pipework.Definition.Encode
import Pipework.Main
import Pipework.Proofs.Loop
import Pipework.Proofs.Trace
import Pipework.Scripted
import Pipework.Proofs.Alike
import Pipework.Proofs.Recursion
import Pipework.Proofs.System
import Pipework.Proofs.Leases
import Pipework.Proofs.History
import Pipework.Proofs.Exclusion
import Pipework.Proofs.Answering
import Pipework.Proofs.Conversation
import Pipework.Proofs.Withdrawal
import Pipework.Proofs.Nesting
import Pipework.Proofs.Upkeep
import Pipework.Proofs.Positions
import Pipework.Proofs.Calls
import Pipework.Proofs.Permission
import Pipework.Proofs.Templates
import Pipework.Proofs.Course
import Pipework.Proofs.Passing
import Pipework.Proofs.Lifetime
import Pipework.Proofs.Faithful
import Pipework.Proofs.VisibleInput
import Pipework.Proofs.Keys
import Pipework.Proofs.Prompts
import Pipework.Proofs.WellFormed
import Pipework.Proofs.Isolation
import Pipework.Proofs.Twins
import Pipework.Proofs.RootOutput
import Pipework.Proofs.Outputs
import Pipework.Proofs.Limit
import Pipework.Proofs.Located
import Pipework.Proofs.Restart
import Pipework.Proofs.Progress
import Pipework.Proofs.Globs
import Pipework.Proofs.Allowance
import Pipework.Proofs.Reporting
import Pipework.Proofs.Interference
import Pipework.Proofs.Fingerprints
import Pipework.Proofs.RoundTrip
import Pipework.Proofs.Sole
import Pipework.Proofs.Mappings
import Pipework.Proofs.Selection
import Pipework.Proofs.Cancellation
import Pipework.Proofs.Autofill
import Pipework.Proofs.Pruning
