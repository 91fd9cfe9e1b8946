import StagePlan.Partition.Request
import StagePlan.Search

/-!
# The sequential solver

Indices follow the order of a trace, so a neighbour with a smaller index comes before a node and one
with a larger index after it. `Sequential.split` cuts the nodes into consecutive runs of similar weight;
a node belongs to the run that the middle of its weight falls into. If the parts are to be connected,
every part keeps its heaviest component, and its other components move to neighbouring parts: after
their latest predecessor or else before their earliest successor. In the end the parts that are in use
are numbered without gaps. On a symmetric adjacency no node comes into an earlier part than one of its
predecessors.

The runs are a parameter of `splitBy`. `Sequential.split` cuts them with exact numbers, and
`Sequential.Wide.split?` as a machine does.
-/

namespace StagePlan.Sequential

/-! ## Runs -/

/-- Twice the place of the middle of a weight, where the weights before it sum up to `before`. -/
def doubledMiddle (before weight : Nat) : Nat := 2 * before + weight

/-- The run of a node: of `k` equal slices of the total, the one that its middle falls into. -/
def run (total k before weight : Nat) : Nat :=
  min (doubledMiddle before weight * k / (2 * total)) (k - 1)

/-- The runs of the nodes with the given weights, where those before them sum up to `before`. -/
def runsFrom (total k before : Nat) : List Nat → List Nat
  | [] => []
  | w :: ws => run total k before w :: runsFrom total k (before + w) ws

/-- The runs of nodes of the given weights. -/
def runs (weights : List Nat) (k : Nat) : List Nat :=
  runsFrom (weights.foldr (· + ·) 0) k 0 weights

/-- The weights to balance: where nothing weighs anything, every node counts the same. -/
def effectiveWeights (weights : List Nat) : List Nat :=
  if weights.all (· == 0) then weights.map fun _ => 1 else weights

/-! ## Components -/

section Components

variable (next : Nat → List Nat) (parts : Array Nat) (part : Nat)

/-- The neighbours of a node inside a part. -/
def insideNeighbours (v : Nat) : List Nat := (next v).filter fun u => parts[u]? == some part

/-- The neighbours of a node outside a part. -/
def outsideNeighbours (v : Nat) : List Nat := (next v).filter fun u => parts[u]? != some part

/-- The components that the given nodes of a part lie in, except for what was seen before. -/
def componentsFrom (seen : List Nat) : List Nat → List (List Nat)
  | [] => []
  | v :: vs =>
    if v ∈ seen then componentsFrom seen vs
    else
      let search := Search.sweep (insideNeighbours next parts part) parts.size ⟨v :: seen, []⟩ [v]
      search.finished.mergeSort :: componentsFrom search.seen vs

/-- The components of a part in the order of their first members; each lists its members in ascending
order. -/
def components : List (List Nat) :=
  componentsFrom next parts part []
    ((List.range parts.size).filter fun v => parts[v]? == some part)

/-! ## Repair -/

/-- The parts of those outside neighbours of a component that stand in a relation to the member they
are neighbours of. -/
def outsideParts (component : List Nat) (stands : Nat → Nat → Bool) : List Nat :=
  component.flatMap fun v =>
    ((outsideNeighbours next parts part v).filter (stands · v)).map fun u => parts.getD u 0

/-- Where a component moves to: into the part of its latest predecessor, or else of its earliest
successor; nowhere if it has neither. -/
def target? (component : List Nat) : Option Nat :=
  (outsideParts next parts part component (· < ·)).max?.orElse fun _ =>
    (outsideParts next parts part component (· > ·)).min?

/-- The parts once a component has moved. -/
def move (component : List Nat) : Array Nat :=
  match target? next parts part component with
  | none => parts
  | some target => parts.mapIdx fun v p => if v ∈ component then target else p

end Components

/-- The position of the first heaviest component. -/
def anchor (weight : Nat → Nat) (components : List (List Nat)) : Nat :=
  let weights := components.map fun component => (component.map weight).foldr (· + ·) 0
  weights.idxOf (weights.foldl max 0)

/-- The parts once all components of a part but its heaviest have moved. -/
def settle (next : Nat → List Nat) (weight : Nat → Nat) (parts : Array Nat) (part : Nat) : Array Nat :=
  let components := components next parts part
  (components.eraseIdx (anchor weight components)).foldl
    (fun parts component => move next parts part component) parts

/-- The parts once every part in use has settled, in ascending order. A component moves to a part in use,
so that no other part ever has a node. -/
def repair (next : Nat → List Nat) (weight : Nat → Nat) (parts : Array Nat) : Array Nat :=
  (HandleSet.ofList parts.toList).toList.foldl (settle next weight) parts

/-! ## Answers -/

/-- The answer with the parts in use numbered from zero, in their order. -/
def compact (parts : List Nat) : Partitioning :=
  let used := HandleSet.ofList parts
  { count := used.size
    parts := parts.map fun p => (used.toList.filter (· < p)).length }

/-- The parts of nodes that were cut into runs, which are repaired if parts have to be connected. -/
def repairRuns (r : PartitionRequest) (runs : List Nat) : List Nat :=
  if r.contiguous then
    let adjacency := r.adjacency.toArray
    let weights := (effectiveWeights r.weights).toArray
    (repair (adjacency.getD · []) (weights.getD · 0) runs.toArray).toList
  else runs

/-- Why a request is refused: it has not one row for every weight, a neighbour is no node, or no part is
wanted although there are nodes. -/
def refusal? (r : PartitionRequest) : Option PartitionCause :=
  if r.adjacency.length ≠ r.size then some (.rowCount r.adjacency.length r.size)
  else
    match r.adjacency.flatten.find? (r.size ≤ ·) with
    | some u => some (.unknownNeighbour u)
    | none => if r.size ≠ 0 ∧ r.parts = 0 then some .noPartsRequested else none

/-- Splits a graph into runs, which are repaired if parts have to be connected. How the effective weights
are cut into runs may have effects. -/
def splitBy {m : Type → Type} [Monad m] (cut : List Nat → Nat → m (List Nat)) (r : PartitionRequest) :
    m (Except Error Partitioning) :=
  match refusal? r with
  | some cause => return .error (.partitioning cause)
  | none => return .ok (compact (repairRuns r (← cut (effectiveWeights r.weights) r.parts)))

/-- Splits a graph into runs that are cut with exact numbers. -/
def split : Solver := splitBy (m := Id) runs

end StagePlan.Sequential
