import StagePlan.Partition.Answer
import StagePlan.Search

/-!
# Schedules

A split graph runs in stages, one per part. `Graph.schedule` writes the parts onto the nodes of a graph
and derives when the stages can run: a stage reads from another if an edge of the graph leads from a
node of the other to one of its own (`stageEdges`), and every stage runs after those it reads from
(`stageOrder`). Stages that wait for each other cannot be ordered, and the first stage found to come
before one it reads from gives away the cycle.
-/

namespace StagePlan

/-- What a stage holds. -/
structure StageTotals where
  /-- The part it runs. -/
  part : Nat
  /-- The number of its nodes. -/
  nodes : Nat := 0
  /-- The weight of its measured layers. -/
  weight : Nat := 0
  /-- The static memory of its measured layers. -/
  memory : Nat := 0
  /-- The number of elements of its parameters and buffers. -/
  parameters : Nat := 0

/-- When and with what the stages run. -/
structure Schedule where
  /-- The parts in an order in which every part comes after those it reads from. -/
  order : List Nat
  /-- The pairs of parts of which the second reads from the first, ascending. -/
  edges : List (Nat × Nat)
  /-- What each stage holds, by part. -/
  stages : List StageTotals

/-! ## Stage edges -/

/-- The entry of a list at a position it has to have. -/
def entry (l : List α) (position : Nat) : Except Error α :=
  match l[position]? with
  | some a => .ok a
  | none => .error .outOfRange

/-- The parts at both ends of an edge. -/
def Graph.edgeParts (g : Graph) (parts : List Nat) (source : Nat) (target : Handle) :
    Except Error (Nat × Nat) :=
  match g.node? target with
  | none => .error (.inconsistentPartition (.removedNode target))
  | some n => do return (source, ← entry parts n.index)

/-- The parts at both ends of every edge of the graph. -/
def Graph.partPairs (g : Graph) (parts : List Nat) : Except Error (List (Nat × Nat)) := do
  let pairs ← g.nodes.mapM fun n => do
    let source ← entry parts n.index
    n.targets.toList.mapM (g.edgeParts parts source)
  return pairs.flatten

/-- The pairs of different parts below `count`, each once and in ascending order. -/
def stageEdges (count : Nat) (pairs : List (Nat × Nat)) : List (Nat × Nat) :=
  (List.range count).flatMap fun source =>
    let targets := (pairs.filter fun (a, b) => a == source && b != source).map (·.2)
    (HandleSet.ofList targets).toList.map fun target => (source, target)

/-! ## Stage order -/

/-- The parts that read from a part. -/
def readers (edges : List (Nat × Nat)) (part : Nat) : List Nat :=
  (edges.filter (·.1 == part)).map (·.2)

/-- The parts that a part reads from. -/
def producers (edges : List (Nat × Nat)) (part : Nat) : List Nat :=
  (edges.filter (·.2 == part)).map (·.1)

/-- The first producer found that does not come before its reader in an order, where `earlier` comes
before the whole order. -/
def lateProducer? (edges : List (Nat × Nat)) (earlier : List Nat) : List Nat → Option Nat
  | [] => none
  | part :: order =>
    ((producers edges part).find? (· ∉ part :: earlier)).orElse fun _ =>
      lateProducer? edges (part :: earlier) order

/-- The parts below `count` in an order in which every part comes after those it reads from: that of a
depth-first search, the last part done first. -/
def stageOrder (count : Nat) (edges : List (Nat × Nat)) : Except Error (List Nat) :=
  let order := (Search.all (readers edges) count).finished
  match lateProducer? edges [] order with
  | some part => .error (.inconsistentPartition (.cycle part))
  | none => .ok order

/-! ## Stage totals -/

/-- Whether a node is a measured layer. -/
def Node.isMeasured (n : Node) : Bool :=
  match n.kind, n.weight with
  | .profiledLayer, .timing _ => true
  | _, _ => false

/-- The static memory of a measured layer. -/
def Node.memory (n : Node) : Nat :=
  match n.weight with
  | .timing profile => profile.memory
  | _ => 0

/-- The number of elements of a parameter or buffer. -/
def Node.parameters (n : Node) : Nat :=
  match n.kind, n.weight with
  | .parameterOrBuffer, .elements elements => elements
  | _, _ => 0

/-- The first node of each scope, after the scopes of `met`. -/
def firstOfScope (met : List String) : List Node → List Node
  | [] => []
  | n :: ns => if n.scope ∈ met then firstOfScope met ns else n :: firstOfScope (n.scope :: met) ns

/-- What the stage of a part holds. A layer that was traced as several nodes holds its memory once. -/
def stageTotals (policy : WeightPolicy) (nodes : List Node) (part : Nat) : StageTotals :=
  let own := nodes.filter (·.part == some part)
  let layers := own.filter (·.isMeasured)
  { part
    nodes := own.length
    weight := Word.saturatingSum (layers.map fun n => policy.weight n.weight)
    memory := Word.saturatingSum ((firstOfScope [] layers).map (·.memory))
    parameters := Word.saturatingSum (own.map (·.parameters)) }

/-! ## Scheduling -/

/-- The graph with the parts written onto its nodes, in canonical order. -/
def Graph.assignParts (g : Graph) (parts : List Nat) : Graph :=
  g.modifyEach parts fun part n => { n with part := some part }

/-- Checks that an answer fits a graph. -/
def Graph.checkAnswer (g : Graph) (p : Partitioning) : Except Error Unit :=
  if !g.isNormalized then .error (.inconsistentPartition .notNormalized)
  else if p.parts.length ≠ g.size then
    .error (.inconsistentPartition (.partCount p.parts.length g.size))
  else
    match p.parts.find? (p.count ≤ ·) with
    | some part => .error (.inconsistentPartition (.partOutOfRange part p.count))
    | none => .ok ()

/-- The schedule of a graph whose nodes carry their parts. -/
def Graph.scheduleOf (g : Graph) (p : Partitioning) (policy : WeightPolicy) :
    Except Error Schedule := do
  let edges := stageEdges p.count (← g.partPairs p.parts)
  let order ← stageOrder p.count edges
  return { order, edges, stages := (List.range p.count).map (stageTotals policy g.nodes) }

/-- Writes an answer onto a graph and schedules it. The graph still has to have the indices that the
solver saw. It is answered as it is left, also where the stages cannot be ordered. -/
def Graph.schedule (g : Graph) (p : Partitioning) (policy : WeightPolicy) :
    Graph × Except Error Schedule :=
  match g.checkAnswer p with
  | .error e => (g, .error e)
  | .ok () => (g.assignParts p.parts, (g.assignParts p.parts).scheduleOf p policy)

/-! ## Writing -/

/-- The totals of a stage as JSON. -/
def StageTotals.toJson (s : StageTotals) : Json :=
  .object [
    ("partition", .nat s.part),
    ("nodes", .nat s.nodes),
    ("solver_weight", .nat s.weight),
    ("memory_bytes", .nat s.memory),
    ("parameter_elements", .nat s.parameters)]

/-- A schedule as JSON. -/
def Schedule.toJson (s : Schedule) : Json :=
  .object [
    ("order", .nats s.order),
    ("edges", .array (s.edges.map fun (a, b) => .nats [a, b])),
    ("stages", .array (s.stages.map StageTotals.toJson))]

end StagePlan
