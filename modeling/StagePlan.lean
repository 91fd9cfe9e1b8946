import StagePlan.Trace.Text
import StagePlan.Graph.Dot
import StagePlan.Partition.Sequential
import StagePlan.Partition.Wide
import StagePlan.Event
import StagePlan.Text.Printable
import StagePlan.Command.Matching
import StagePlan.Command.PlanTraces
import StagePlan.Command.CheckTraces
import StagePlan.Command.FileTree
import StagePlan.Main
import StagePlan.Proofs.Search
import StagePlan.Proofs.Cycles
import StagePlan.Proofs.Sequential.InUse
import StagePlan.Proofs.Sequential.Answers
import StagePlan.Proofs.Sequential.Ascending
import StagePlan.Proofs.Sequential.Anchor
import StagePlan.Proofs.Sequential.Settled
import StagePlan.Proofs.Sequential.Contiguous
import StagePlan.Proofs.Sequential.Acceptance
import StagePlan.Proofs.Sequential.Wide
import StagePlan.Proofs.Sequential.Balance
import StagePlan.Proofs.Sequential.Scaling
import StagePlan.Proofs.Graph.Edges
import StagePlan.Proofs.Graph.Splicing
import StagePlan.Proofs.Graph.Passes
import StagePlan.Proofs.Graph.Building
import StagePlan.Proofs.Graph.Cleanup
import StagePlan.Proofs.Graph.Ordering
import StagePlan.Proofs.Graph.Confluence
import StagePlan.Proofs.Graph.Edits
import StagePlan.Proofs.Schedule
import StagePlan.Proofs.Loads
import StagePlan.Proofs.Requests
import StagePlan.Proofs.Plan
import StagePlan.Proofs.Trace
import StagePlan.Proofs.Trace.Layout
import StagePlan.Proofs.Graph.Scoping
import StagePlan.Proofs.Graph.Additions
import StagePlan.Proofs.Graph.Layout
import StagePlan.Proofs.Graph.Reachable
import StagePlan.Proofs.Graph.Removal
import StagePlan.Proofs.Graph.Rounds
import StagePlan.Proofs.Graph.Refusal
import StagePlan.Proofs.Graph.Views
import StagePlan.Proofs.Graph.Drawing
import StagePlan.Proofs.Sequential.Cut
import StagePlan.Proofs.Renaming
import StagePlan.Proofs.Sizes
import StagePlan.Proofs.Trace.Text
import StagePlan.Proofs.Layers
import StagePlan.Proofs.Labels
import StagePlan.Proofs.Costs
import StagePlan.Proofs.Profiles
import StagePlan.Proofs.Sequential.Evenness
import StagePlan.Proofs.Accounts
import StagePlan.Proofs.Shapes
import StagePlan.Proofs.Elements
import StagePlan.Proofs.Graph.Loops
import StagePlan.Proofs.Sequential.Components
