import StagePlan.Partition.Request

/-!
# Answers of a solver

Nothing is taken on trust from a solver. `Partitioning.validate` checks an answer against its request,
`Partitioning.loads` adds up the weights of its parts, and `PartitionRequest.accept` lets only valid
answers through. `Graph.split` asks a solver, and `Graph.split?` one that may give no answer.
-/

namespace StagePlan

namespace Partitioning

/-- Checks an answer: a part for every node, no more parts than requested, parts if there are nodes, and
every part below the number of parts. -/
def validate (p : Partitioning) (r : PartitionRequest) : Except Error Unit :=
  if p.parts.length ≠ r.size then .error (.partitioning (.partCount p.parts.length r.size))
  else if r.parts < p.count then .error (.partitioning (.tooManyParts p.count r.parts))
  else if p.count = 0 ∧ r.size ≠ 0 then .error (.partitioning .noPartsAchieved)
  else
    match p.parts.zipIdx.find? (p.count ≤ ·.1) with
    | some (part, node) => .error (.partitioning (.partOutOfRange node part p.count))
    | none => .ok ()

/-- Adds a weight to the load of its part. -/
def addLoad (loads : List Nat) : Nat × Nat → Except Error (List Nat)
  | (part, weight) =>
    if part < loads.length then .ok (loads.modify part (Word.saturatingAdd · weight))
    else .error .outOfRange

/-- The weight of every part. -/
def loads (p : Partitioning) (weights : List Nat) : Except Error (List Nat) :=
  (p.parts.zip weights).foldlM addLoad (List.replicate p.count 0)

end Partitioning

/-- A valid answer with the request it answers. -/
structure Split where
  /-- What the solver was asked. -/
  request : PartitionRequest
  /-- What it answered. -/
  answer : Partitioning
  /-- The weight of every part. -/
  loads : List Nat

/-- An error of a solver, which is a failure to split whatever else it is. -/
def Error.ofSolver : Error → Error
  | .partitioning cause => .partitioning cause
  | e => .partitioning (.stated e.message)

/-- The split that an answer to a request makes, if it is valid. -/
def PartitionRequest.accept (request : PartitionRequest) (answer : Except Error Partitioning) :
    Except Error Split := do
  let answer ← answer.mapError Error.ofSolver
  answer.validate request
  let loads ← answer.loads request.weights
  return { request, answer, loads }

/-- Splits a graph by a solver. -/
def Graph.split (g : Graph) (s : SplitSettings) (solver : Solver) : Except Error Split := do
  let request ← PartitionRequest.ofGraph g s
  request.accept (solver request)

/-- Splits a graph by a solver, unless that ends the program. -/
def Graph.split? (g : Graph) (s : SplitSettings) (solver : PartialSolver) :
    Option (Except Error Split) :=
  match PartitionRequest.ofGraph g s with
  | .ok request => (solver request).map request.accept
  | .error e => some (.error e)

end StagePlan
