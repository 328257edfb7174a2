import EvalPlan.Bus.Session
import EvalPlan.Main
import EvalPlan.Scope.Schedule
import EvalPlan.Proofs.Action
import EvalPlan.Proofs.Law
import EvalPlan.Proofs.Law.Reading
import EvalPlan.Proofs.Law.Standard
import EvalPlan.Proofs.Law.Domain
import EvalPlan.Proofs.Law.Script
import EvalPlan.Proofs.Law.Session
import EvalPlan.Proofs.Law.Announcing
import EvalPlan.Proofs.Law.Keeping
import EvalPlan.Proofs.Law.Running
import EvalPlan.Proofs.Law.Uniform
import EvalPlan.Proofs.Law.Indifferent
import EvalPlan.Proofs.Sorting
import EvalPlan.Proofs.Law.Declaring
import EvalPlan.Proofs.Ledger
import EvalPlan.Proofs.Recorded
import EvalPlan.Proofs.Frozen
import EvalPlan.Proofs.Calls
import EvalPlan.Proofs.Isolation
import EvalPlan.Proofs.Builders
import EvalPlan.Proofs.Resolution
import EvalPlan.Proofs.Failure
import EvalPlan.Proofs.Bus
import EvalPlan.Proofs.Fixture
import EvalPlan.Proofs.Lifecycle
import EvalPlan.Manifest.Written
import EvalPlan.Proofs.Ancestry
import EvalPlan.Proofs.Decoding
import EvalPlan.Proofs.Defaults
import EvalPlan.Proofs.Tasks
import EvalPlan.Proofs.Schedule
import EvalPlan.Proofs.Paths
import EvalPlan.Proofs.Named
import EvalPlan.Proofs.Describing
import EvalPlan.Proofs.Delivery
import EvalPlan.Proofs.Launch
import EvalPlan.Proofs.Chain
import EvalPlan.Proofs.Nesting
import EvalPlan.Proofs.Unwinding
import EvalPlan.Proofs.Publishing
import EvalPlan.Proofs.Alone
import EvalPlan.Proofs.Tolerance
import EvalPlan.Proofs.Closing
import EvalPlan.Proofs.Roster
import EvalPlan.Proofs.Subscriptions
import EvalPlan.Proofs.TypeNames
import EvalPlan.Proofs.Modules
import EvalPlan.Proofs.BuiltIn
import EvalPlan.Proofs.Discovery
import EvalPlan.Proofs.OrderBlind
import EvalPlan.Proofs.Settings
import EvalPlan.Proofs.Discreet
import EvalPlan.Proofs.Loading
import EvalPlan.Proofs.Ending
import EvalPlan.Proofs.Outcome
import EvalPlan.Proofs.Shift
import EvalPlan.Proofs.Shift.Heap
import EvalPlan.Proofs.Shift.Follows
import EvalPlan.Proofs.Shift.Steps
import EvalPlan.Proofs.Shift.Runs
import EvalPlan.Proofs.Shift.Reading
import EvalPlan.Proofs.Shift.Telling
import EvalPlan.Proofs.Shift.Standard
import EvalPlan.Proofs.Shift.Domain
import EvalPlan.Proofs.Shift.Declaring
import EvalPlan.Proofs.Shift.Running
import EvalPlan.Proofs.Shift.Script
import EvalPlan.Proofs.Shift.Source
import EvalPlan.Proofs.Shift.Foundation
import EvalPlan.Proofs.Shift.Still
import EvalPlan.Proofs.Apart
import EvalPlan.Proofs.Lines
import EvalPlan.Proofs.Layout
import EvalPlan.Proofs.Merging
import EvalPlan.Proofs.Trailing
import EvalPlan.Proofs.Changes
import EvalPlan.Proofs.Emission
import EvalPlan.Proofs.Uncalled
import EvalPlan.Proofs.Traffic
import EvalPlan.Proofs.Conduct
import EvalPlan.Proofs.Standing
import EvalPlan.Proofs.Removal
import EvalPlan.Proofs.Skipping
import EvalPlan.Proofs.Collisions
import EvalPlan.Proofs.EmptyKeys
import EvalPlan.Proofs.Doubles
import EvalPlan.Proofs.Building
import EvalPlan.Proofs.Crossfolds
import EvalPlan.Proofs.Coercion
import EvalPlan.Proofs.JsonForm
import EvalPlan.Proofs.OwnText
import EvalPlan.Proofs.Printing
import EvalPlan.Proofs.Escapes
import EvalPlan.Proofs.Starting
import EvalPlan.Proofs.Aliases
