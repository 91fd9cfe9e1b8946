import StagePlan.Command.Matching
import StagePlan.Command.Session
import StagePlan.Graph.Dot
import StagePlan.Partition.Wide
import StagePlan.Plan
import StagePlan.Profile.Table
import StagePlan.Trace.Text

/-!
# The command that plans traces

`planTraces` plans one trace or all traces of a directory with the sequential solver, prints a summary
of every plan and, if wanted, writes each plan with a drawing of its graph into a directory. A trace that
has no plan does not keep the others from theirs.
-/

namespace StagePlan

/-- What the command is told besides the traces. -/
structure PlanOptions where
  /-- The settings. -/
  config : Option String := none
  /-- The table of layer costs. -/
  profile : Option String := none
  /-- The number of devices, in the stead of that of the settings. -/
  devices : Option Nat := none
  /-- The time scale, in the stead of that of the settings. -/
  timeScale : Option Float := none
  /-- Whether parts need not be connected. -/
  scattered : Bool := false
  /-- Where plans are written. -/
  outDir : Option String := none
  /-- Whether parameters and buffers are drawn. -/
  showParameters : Bool := false

/-! ## Arguments -/

/-- What was met so far in a list of arguments. -/
structure PlanArguments where
  /-- A trace, or a directory of traces. -/
  traces : Option String := none
  /-- The options. -/
  options : PlanOptions := {}

namespace PlanArguments

/-- A path, which must not be empty. -/
def path? (text : String) : Option String := if text.isEmpty then none else some text

/-- The options of the command. -/
def switches : List (Switch PlanArguments) := [
  { name := "traces", letter := 't', about := "A trace file, or a directory of *.json traces"
    isSet := fun a => a.traces.isSome
    effect := .value fun a v => (path? v).map ({ a with traces := some · }) },
  { name := "config", letter := 'c', about := "JSON run configuration"
    isSet := fun a => a.options.config.isSome
    effect := .value fun a v => (path? v).map ({ a with options.config := some · }) },
  { name := "profile", letter := 'p'
    about := "CSV of per-layer timings (scope,forward_ms,backward_ms,memory_bytes)"
    isSet := fun a => a.options.profile.isSome
    effect := .value fun a v => (path? v).map ({ a with options.profile := some · }) },
  { name := "devices", letter := 'd'
    about := "Number of target devices; overrides the configuration"
    isSet := fun a => a.options.devices.isSome
    effect := .value fun a v => (Word.read? 10 v.toList).map ({ a with options.devices := some · }) },
  { name := "time-scale"
    about := "Multiplier turning mean layer milliseconds into solver weights"
    isSet := fun a => a.options.timeScale.isSome
    effect := .value fun a v =>
      (Decimal.read? v.toList).map ({ a with options.timeScale := some · }) },
  { name := "no-contiguous", about := "Allow partitions that are not connected"
    isSet := fun a => a.options.scattered
    effect := .flag fun a => { a with options.scattered := true } },
  { name := "out-dir", letter := 'o'
    about := "Directory receiving <trace>.json results and <trace>.dot graphs"
    isSet := fun a => a.options.outDir.isSome
    effect := .value fun a v => (path? v).map ({ a with options.outDir := some · }) },
  { name := "show-params", about := "Draw parameter and buffer nodes in the DOT output"
    isSet := fun a => a.options.showParameters
    effect := .flag fun a => { a with options.showParameters := true } }] ++ Switch.general

/-- The traces and the options that a list of arguments gives. -/
def read (args : List String) : Except Stop (String × PlanOptions) := do
  let a ← Switch.scan switches {} args
  match a.traces with
  | some traces => return (traces, a.options)
  | none => throw (.usage (.missing "traces"))

end PlanArguments

namespace PlanOptions

/-- Settings with the changes that the options ask for. -/
def override (o : PlanOptions) (s : Settings) : Settings :=
  { s with split := {
      devices := o.devices.getD s.split.devices
      contiguous := s.split.contiguous && !o.scattered
      weights := o.timeScale.elim s.split.weights fun scale => ⟨scale⟩ } }

/-! ## Reporting -/

/-- The line on a stage. -/
def stageLine (s : StageTotals) : String :=
  let megabytes := Decimal.fixedText 2 (s.memory.toUInt64.toFloat / 1e6)
  s!"  stage {s.part} nodes " ++ Text.padLeft 5 (toString s.nodes)
    ++ "  weight " ++ Text.padLeft 8 (toString s.weight)
    ++ "  layer memory " ++ Text.padLeft 8 megabytes
    ++ s!"MB  parameters {s.parameters}"

/-- The summary of a plan. -/
def summary (path : String) (p : Plan) : List String :=
  let head :=
    path ++ s!" {p.graph.size} nodes, {p.answer.count} parts, "
      ++ s!"{p.report.removed} nodes removed by optimization"
  let stages := p.schedule.order.filterMap fun part => p.schedule.stages[part]?
  let edges :=
    if p.schedule.edges.isEmpty then []
    else ["  stage edges: " ++ Text.bracketedPairs p.schedule.edges]
  head :: stages.map stageLine ++ edges

/-! ## Running -/

section Running

variable {m : Type → Type} [Monad m] [MonadFiles m]

/-- What a file holds, by a reader of JSON. -/
def load (read : List UInt8 → Except Error α) (path : String) : m (Except Error α) := do
  match ← MonadFiles.read path with
  | .ok bytes => return read bytes
  | .error .isDirectory => return .error (.unreadableTrace .isDirectory)
  | .error cause => return .error (.file cause)

/-- The profiles of a table in a file. -/
def loadProfiles (path : String) : m (Except Error ProfileSet) := do
  match ← MonadFiles.read path with
  | .ok bytes => return ProfileSet.ofTable bytes
  | .error _ => return .error (.malformedProfile .unreadable)

/-- The settings of the run: those of a file, with the costs of a table, as the options change them. -/
def settings (o : PlanOptions) : Session m Settings := do
  let loaded ← match o.config with
    | some path => Session.attempt (.config path) (load Settings.ofText path)
    | none => pure {}
  let measured ← match o.profile with
    | some path =>
      let profiles ← Session.attempt (.profile path) (loadProfiles path)
      pure { loaded with build := loaded.build.withProfiles profiles }
    | none => pure loaded
  let final := o.override measured
  Session.attempt .settings (pure final.validate)
  return final

/-- The traces to plan: those of a directory, or the one. -/
def tracePaths (traces : String) : Session m (List String) := do
  let paths ←
    if ← MonadFiles.isDirectory traces then
      Session.attempt .pattern (MonadFiles.matching (Path.join traces "*.json"))
    else pure [traces]
  if paths.isEmpty then throw (.noTraces traces)
  return paths

/-- Writes a plan and its drawing into a directory. -/
def writePlan (o : PlanOptions) (path : String) (p : Plan) (directory : String) : Session m Unit := do
  let target (extension : String) := Path.join directory (Path.stem path ++ extension)
  Session.attempt .result (MonadFiles.write (target ".json") (p.toJson.text .indented))
  Session.attempt .drawing
    (MonadFiles.write (target ".dot") (p.graph.toDot { showParameters := o.showParameters }))

/-- Reports what came of a trace. -/
def report (o : PlanOptions) (path : String) : Except Error Plan → Session m Unit
  | .ok p => do
    (summary path p).forM Session.say
    o.outDir.forM (writePlan o path p)
  | .error e => Session.complain ((Failure.trace path e).report "error: ")

/-- Plans the trace in a file. -/
def plan (s : Settings) (path : String) : Session m (Except Error Plan) := do
  match ← load Trace.ofText path with
  | .error e => return .error e
  | .ok trace =>
    match Plan.make? trace s Sequential.Wide.split? with
    | some result => return result
    | none => throw .overflow

/-- Runs the command. All traces are planned before the first is reported. -/
def session (o : PlanOptions) (traces : String) : Session m Nat := do
  let settings ← settings o
  let paths ← tracePaths traces
  o.outDir.forM fun directory => Session.attempt .outputDirectory (MonadFiles.makeDirectory directory)
  let results ← paths.mapM fun path => return (path, ← plan settings path)
  results.forM fun (path, result) => report o path result
  let failed := results.filter fun (_, result) => !result.isOk
  if failed.isEmpty then return 0 else throw (.failedTraces failed.length results.length)

end Running

end PlanOptions

/-- Plans the traces that the arguments name. -/
def planTraces {m : Type → Type} [Monad m] [MonadFiles m] (info : CommandInfo)
    (args : List String) : m Outcome :=
  match PlanArguments.read args with
  | .error stop => return stop.outcome info PlanArguments.switches
  | .ok (traces, options) => (options.session traces).outcome

end StagePlan
