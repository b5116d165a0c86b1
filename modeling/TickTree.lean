import TickTree.Builder
import TickTree.Builder.Term
import TickTree.Callback
import TickTree.Clock
import TickTree.Config
import TickTree.Decimal.Binary
import TickTree.Decimal.Layout
import TickTree.Decimal.Shortest
import TickTree.Describe
import TickTree.Directory
import TickTree.Duration
import TickTree.Duration.Seconds
import TickTree.Fault
import TickTree.Forest
import TickTree.Host
import TickTree.Journal
import TickTree.Node
import TickTree.Node.Cleared
import TickTree.Node.Composite
import TickTree.Node.Composite.Tick
import TickTree.Node.Decorator
import TickTree.Node.Decorator.Tick
import TickTree.Node.Labelled
import TickTree.Node.Leaf
import TickTree.Node.Leaf.Tick
import TickTree.Node.Lifecycle
import TickTree.Node.Offer
import TickTree.Node.Reference
import TickTree.Node.Reference.Tick
import TickTree.Node.Tick
import TickTree.Plan
import TickTree.Pool
import TickTree.Proofs.Builder
import TickTree.Proofs.Builder.Misuse
import TickTree.Proofs.Builder.Resolve
import TickTree.Proofs.Builder.Term
import TickTree.Proofs.Calls
import TickTree.Proofs.Calm
import TickTree.Proofs.Cooldown
import TickTree.Proofs.Cooldown.Clock
import TickTree.Proofs.Cooldown.Watch
import TickTree.Proofs.Coupling
import TickTree.Proofs.Coupling.Agreement
import TickTree.Proofs.Coupling.Node
import TickTree.Proofs.Coupling.Parent
import TickTree.Proofs.Coupling.Plan
import TickTree.Proofs.Coupling.Record
import TickTree.Proofs.Dealing
import TickTree.Proofs.Dealing.Attempts
import TickTree.Proofs.Dealing.Chronicle
import TickTree.Proofs.Dealing.Deadline
import TickTree.Proofs.Dealing.Episode
import TickTree.Proofs.Dealing.Fold
import TickTree.Proofs.Dealing.Gate
import TickTree.Proofs.Dealing.Restarts
import TickTree.Proofs.Dealing.Rounds
import TickTree.Proofs.Dealing.Selection
import TickTree.Proofs.Dealing.Streak
import TickTree.Proofs.Dealing.Tally
import TickTree.Proofs.Duality
import TickTree.Proofs.Duality.Course
import TickTree.Proofs.Duality.Crown
import TickTree.Proofs.Embedding
import TickTree.Proofs.Exchange
import TickTree.Proofs.Exchange.Plan
import TickTree.Proofs.Exchange.World
import TickTree.Proofs.Flattening
import TickTree.Proofs.Forest
import TickTree.Proofs.Forest.Nesting
import TickTree.Proofs.Forest.Visit
import TickTree.Proofs.Handling
import TickTree.Proofs.Hooks.Balance
import TickTree.Proofs.Hooks.Path
import TickTree.Proofs.Hooks.Run
import TickTree.Proofs.Locality
import TickTree.Proofs.Locality.Node
import TickTree.Proofs.Locality.Reach
import TickTree.Proofs.Locality.Schedule
import TickTree.Proofs.Parts
import TickTree.Proofs.Progress
import TickTree.Proofs.Progress.Run
import TickTree.Proofs.Reference
import TickTree.Proofs.Reference.Refusal
import TickTree.Proofs.Reference.Sticky
import TickTree.Proofs.Reference.Stint
import TickTree.Proofs.Renewal
import TickTree.Proofs.Renewal.Run
import TickTree.Proofs.Reset
import TickTree.Proofs.Reset.Completion
import TickTree.Proofs.Reset.Continuation
import TickTree.Proofs.Reset.Target
import TickTree.Proofs.Softening
import TickTree.Proofs.Soundness
import TickTree.Proofs.Soundness.Run
import TickTree.Proofs.Standalone
import TickTree.Proofs.Timing
import TickTree.Proofs.Trace
import TickTree.Proofs.Trace.Accounts
import TickTree.Proofs.Trace.Draws
import TickTree.Proofs.Trace.Pending
import TickTree.Proofs.Waits
import TickTree.Quoted
import TickTree.Quoted.Combining
import TickTree.Quoted.Invisible
import TickTree.Quoted.Ranges
import TickTree.Random.Keystream
import TickTree.Random.Source
import TickTree.Service
import TickTree.Snapshot
import TickTree.Status
import TickTree.Table
import TickTree.Timer
import TickTree.World
