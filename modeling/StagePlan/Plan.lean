import StagePlan.Build
import StagePlan.Graph.Cleanup
import StagePlan.Graph.Listing
import StagePlan.Schedule

/-!
# Plans

A plan says how a traced model runs on several devices: the cleaned graph with a part for every node,
and the schedule of the parts. `Plan.make` builds, cleans, splits and schedules the graph of a trace;
the first failure ends it. `Plan.make?` does the same with a solver that may end the program.
-/

namespace StagePlan

/-- How a traced model runs on several devices. -/
structure Plan where
  /-- The cleaned graph, whose nodes carry their parts. -/
  graph : Graph
  /-- The answer of the solver. -/
  answer : Partitioning
  /-- The schedule of the parts. -/
  schedule : Schedule
  /-- What the clean-up removed. -/
  report : CleanupReport

/-- The plan of a clean graph that is split. -/
def Plan.ofSplit (s : Settings) (cleaned : CleanupReport × Graph) (split : Split) :
    Except Error Plan := do
  let (report, graph) := cleaned
  let (graph, schedule) := graph.schedule split.answer s.split.weights
  return { graph, answer := split.answer, schedule := ← schedule, report }

/-- Plans a trace. -/
def Plan.make (t : Trace) (s : Settings) (solver : Solver) : Except Error Plan := do
  let built ← Graph.ofTrace t s.build
  let cleaned := built.cleanUp s.cleanup.constantMarker
  let split ← cleaned.2.split s.split solver
  Plan.ofSplit s cleaned split

/-- Plans a trace, unless the solver ends the program. -/
def Plan.make? (t : Trace) (s : Settings) (solver : PartialSolver) : Option (Except Error Plan) :=
  match Graph.ofTrace t s.build with
  | .ok built =>
    let cleaned := built.cleanUp s.cleanup.constantMarker
    (cleaned.2.split? s.split solver).map (· >>= Plan.ofSplit s cleaned)
  | .error e => some (.error e)

/-- A plan as JSON. -/
def Plan.toJson (p : Plan) : Json :=
  .object [
    ("graph", p.graph.toJson),
    ("n_parts", .nat p.answer.count),
    ("parts", .nats p.answer.parts),
    ("schedule", p.schedule.toJson),
    ("report", p.report.toJson)]

end StagePlan
