import StagePlan.Plan
import StagePlan.Profile.Table

/-!
# Events

What happens while profiles are read and plans are made is reported as events, each with a level and a
line of text. `tableEvents` and `planEvents` give the events of a call in order, up to the point where
it fails.
-/

namespace StagePlan

/-- Something worth reporting. -/
inductive Event where
  /-- A scope has several rows in a table. -/
  | repeatedProfile (scope : String)
  /-- There are more parameter scopes than parameters. -/
  | unmatchedScopes (surplus : Nat)
  /-- The nodes of a graph were added and weighed. -/
  | nodesAdded (inputs ops overrides : Nat)
  /-- A graph was built. -/
  | graphBuilt (nodes ops : Nat)
  /-- A graph was cleaned. -/
  | graphCleaned (nodes : Nat) (report : CleanupReport)
  /-- A graph was split. -/
  | graphSplit (split : Split)
  /-- The stages were ordered. -/
  | stagesOrdered (schedule : Schedule)

/-- How important an event is. -/
def Event.level : Event → String
  | repeatedProfile _ | unmatchedScopes _ => "WARN"
  | nodesAdded .. | stagesOrdered _ => "DEBUG"
  | graphBuilt .. | graphCleaned .. | graphSplit _ => "INFO"

/-- An event in words. -/
def Event.text : Event → String
  | repeatedProfile scope => s!"profile for {scope} listed twice, keeping the last row"
  | unmatchedScopes surplus => s!"{surplus} parameter scopes have no matching trace input"
  | nodesAdded inputs ops overrides =>
    s!"built graph with {inputs} io nodes, {ops} op nodes, {overrides} weight overrides"
  | graphBuilt nodes ops => s!"built graph with {nodes} nodes from {ops} trace ops"
  | graphCleaned nodes report =>
    s!"optimized graph to {nodes} nodes: {report.constants} constants and "
      ++ s!"{report.deadEnds} dead ends removed in {report.rounds} rounds"
  | graphSplit split =>
    s!"partitioned {split.request.size} nodes into {split.answer.count} of "
      ++ s!"{split.request.parts} requested parts, loads " ++ Text.bracketed split.loads
  | stagesOrdered schedule =>
    "stage order " ++ Text.bracketed schedule.order
      ++ s!" over {schedule.edges.length} cross-stage edges"

/-- An event with its level. -/
def Event.line (e : Event) : String := e.level ++ " " ++ e.text

/-- The events of reading a table that is not refused. -/
def tableEvents (bytes : List UInt8) : List Event :=
  match ProfileSet.tableEntries bytes with
  | .ok entries => (ProfileSet.repeated entries).map .repeatedProfile
  | .error _ => []

/-- The warning that parameter scopes are left over. It is raised even if an input turns out to be at
fault later. -/
def scopeEvents (t : Trace) (s : BuildSettings) : List Event :=
  let parameters := t.inputs.length - s.numInputs
  if s.numInputs ≤ t.inputs.length ∧ parameters < s.parameterScopes.length then
    [.unmatchedScopes (s.parameterScopes.length - parameters)]
  else []

/-- The events of building a graph. -/
def buildEvents (t : Trace) (s : BuildSettings) : List Event :=
  scopeEvents t s ++
    match Graph.ofTrace t s with
    | .error _ => []
    | .ok g =>
      let overrides := g.nodes.filter fun n => (n.measured? s.overrides).isSome
      [.nodesAdded t.inputs.length (g.size - t.inputs.length) overrides.length]

/-- The events of splitting and scheduling a graph. -/
def splitEvents (g : Graph) (s : SplitSettings) (solver : Solver) : List Event :=
  match g.split s solver with
  | .error _ => []
  | .ok split =>
    .graphSplit split ::
      match (g.schedule split.answer s.weights).2 with
      | .error _ => []
      | .ok schedule => [.stagesOrdered schedule]

/-- The events of planning a trace. -/
def planEvents (t : Trace) (s : Settings) (solver : Solver) : List Event :=
  buildEvents t s.build ++
    match Graph.ofTrace t s.build with
    | .error _ => []
    | .ok built =>
      let (report, g) := built.cleanUp s.cleanup.constantMarker
      .graphBuilt built.size t.ops.length :: .graphCleaned g.size report
        :: splitEvents g s.split solver

end StagePlan
