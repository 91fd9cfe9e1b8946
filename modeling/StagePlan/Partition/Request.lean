import StagePlan.Graph.Basic
import StagePlan.Settings

/-!
# Requests to a solver

A solver splits a graph into parts of similar weight. It is shown an undirected picture of the graph:
for every node its neighbours by index, and a whole number for its weight. `PartitionRequest.ofGraph`
draws the picture, and a `Solver` answers a request with a `Partitioning`, or fails. A `PartialSolver`
may also give no answer at all.
-/

namespace StagePlan

/-- The weight of a cost: the scaled mean time of a measured layer, and nothing for anything else. -/
def WeightPolicy.weight (policy : WeightPolicy) : NodeWeight → Nat
  | .timing profile => Word.ofFloat (policy.timeScale * profile.mean)
  | .elements _ | .unmeasured => 0

/-- The weight of a node: only a profiled layer weighs anything. -/
def WeightPolicy.nodeWeight (policy : WeightPolicy) (n : Node) : Nat :=
  if n.kind = .profiledLayer then policy.weight n.weight else 0

/-- What a solver is given. -/
structure PartitionRequest where
  /-- The neighbours of every node. -/
  adjacency : List (List Nat)
  /-- The weight of every node. -/
  weights : List Nat
  /-- The number of parts wanted. -/
  parts : Nat
  /-- Whether parts should be connected. -/
  contiguous : Bool

/-- The number of nodes. -/
def PartitionRequest.size (r : PartitionRequest) : Nat := r.weights.length

/-- The request to split a graph, whose indices have to be its positions. -/
def PartitionRequest.ofGraph (g : Graph) (s : SplitSettings) : Except Error PartitionRequest :=
  if s.devices = 0 then .error (.settings .noDevicesToSplit)
  else if !g.isNormalized then .error (.partitioning .notNormalized)
  else .ok {
    adjacency := g.adjacency false
    weights := g.nodes.map s.weights.nodeWeight
    parts := s.devices
    contiguous := s.contiguous }

/-- The answer of a solver. -/
structure Partitioning where
  /-- The number of parts achieved. -/
  count : Nat
  /-- The part of every node. -/
  parts : List Nat

/-- A way to split graphs. -/
abbrev Solver := PartitionRequest → Except Error Partitioning

/-- A way to split graphs that may end the program instead of answering. -/
abbrev PartialSolver := PartitionRequest → Option (Except Error Partitioning)

end StagePlan
