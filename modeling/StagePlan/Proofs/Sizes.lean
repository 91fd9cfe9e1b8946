import StagePlan.Proofs.Graph.Lockstep
import StagePlan.Proofs.Graph.Unsized
import StagePlan.Proofs.Loads
import StagePlan.Proofs.Plan

/-!
# Sizes do not matter to a plan

Two traces that differ in the sizes of their inputs and the types of their outputs only
(`Trace.unsized`) are built in lockstep, so that their graphs, if they have any, are equal without
sizes (`Graph.unsized_ofTrace`). All that comes after works on a graph without sizes as on the
graph: it is cleaned alike, the solver is asked for the same (`Graph.split_unsized`), and the stages
differ in the elements of their parameters at most (`Graph.schedule_unsized`). So sizes never show
in a plan, except for where they are counted (`Plan.make_unsized`).
-/

open StagePlan.Results (Agree)

namespace StagePlan

/-- The op without the type of its first output. -/
def TraceOp.unsized (op : TraceOp) : TraceOp := { op with outputType := "" }

/-- The trace without the sizes of its inputs and the types of its outputs. -/
def Trace.unsized (t : Trace) : Trace :=
  { t with inputs := t.inputs.map fun _ => {}, ops := t.ops.map TraceOp.unsized }

/-! ## Building -/

/-- Two graphs are the same without sizes. -/
abbrev Graph.SameButSizes (g g' : Graph) : Prop := g.unsized = g'.unsized

/-- Nodes that differ in their sizes keep graphs the same but for sizes. -/
theorem Graph.SameButSizes.add {g g' : Graph} (same : g.SameButSizes g') (scope : String)
    (kind : NodeKind) (shapes shapes' : List Shape) {weight weight' : NodeWeight}
    (weights : weight.unsized = weight'.unsized) :
    (g.add scope kind shapes weight).SameButSizes (g'.add scope kind shapes' weight') := by
  unfold Graph.SameButSizes
  rw [Graph.unsized_add, Graph.unsized_add, same, weights]

/-- Graphs that are the same without sizes stay so. -/
theorem Graph.kept_unsized : Graph.Kept Graph.SameButSizes where
  nextHandle same := by simpa using congrArg Graph.nextHandle same
  connect u v same := by
    unfold Graph.SameButSizes
    rw [Graph.unsized_connect, Graph.unsized_connect, same]
  addSecondary? {g g'} primary slot same := by
    have both : (g.addSecondary? primary slot).map Graph.unsized
        = (g'.addSecondary? primary slot).map Graph.unsized := by
      rw [← Graph.addSecondary?_unsized, ← Graph.addSecondary?_unsized, same]
    cases added : g.addSecondary? primary slot with
    | none =>
      rw [added, Option.map_none] at both
      rw [Option.map_eq_none_iff.1 both.symm]
      exact .none
    | some grown =>
      rw [added, Option.map_some] at both
      obtain ⟨grown', added', graphs⟩ := Option.map_eq_some_iff.1 both.symm
      rw [added']
      exact .some graphs.symm
  markOutput {g g'} h same := congrArg (·.markOutput h) same

/-- Ops that are the same without types add nodes that are the same without sizes. -/
theorem TraceOp.inStep_of_unsized {op op' : TraceOp} (same : op.unsized = op'.unsized) :
    op.InStep Graph.SameButSizes id op' where
  inputs := by rw [List.map_id]; exact congrArg (·.inputs) same.symm
  outputs := by rw [List.map_id]; exact congrArg (·.outputs) same.symm
  scope := congrArg (·.scope) same.symm
  kind := congrArg (·.kind) same.symm
  add scope kind graphs := graphs.add scope kind _ _ rfl

namespace Builder

variable {b b' c c' : Builder} {s : BuildSettings} {position : Nat}

/-- Inputs that differ in their sizes add nodes that do, once both are added. -/
theorem addInput_unsized {input input' : TraceInput} (step : b.InStep Graph.SameButSizes id b')
    (added : b.addInput s position input = .ok c)
    (added' : b'.addInput s position input' = .ok c') : c.InStep Graph.SameButSizes id c' := by
  unfold addInput at added added'
  split at added
  next => cases added
  next sizes _ =>
    split at added'
    next => cases added'
    next sizes' _ =>
      obtain ⟨⟨kind, scope⟩, labelled, added⟩ := Results.bind_eq_ok.1 added
      obtain ⟨_, labelled', added'⟩ := Results.bind_eq_ok.1 added'
      cases labelled.symm.trans labelled'
      dsimp only at added added'
      split at added
      next => cases added
      next =>
        split at added'
        next => cases added'
        next =>
          cases added
          cases added'
          refine ⟨step.graph.add scope kind _ _ rfl, ?_⟩
          rw [step.handles, Graph.kept_unsized.nextHandle step.graph]
          rfl

/-- So do all inputs together. -/
theorem addInputs_unsized : ∀ {inputs inputs' : List TraceInput} {position : Nat}
    {b b' : Builder}, inputs.length = inputs'.length → b.InStep Graph.SameButSizes id b' →
      b.addInputs s position inputs = .ok c → b'.addInputs s position inputs' = .ok c' →
        c.InStep Graph.SameButSizes id c'
  | [], [], _, _, _, _, step, added, added' => by
    cases added
    cases added'
    exact step
  | _ :: inputs, _ :: inputs', position, _, _, length, step, added, added' => by
    obtain ⟨d, first, rest⟩ := Results.bind_eq_ok.1 added
    obtain ⟨d', first', rest'⟩ := Results.bind_eq_ok.1 added'
    exact addInputs_unsized (Nat.succ.inj length) (addInput_unsized step first first') rest rest'

end Builder

namespace Graph

variable {g g' : Graph} {p : Partitioning} {s : SplitSettings} {policy : WeightPolicy}

/-- Measured costs are put onto a graph without sizes as onto the graph. -/
theorem unsized_override (overrides : ProfileSet) (g : Graph) :
    (g.mapNodes (·.override overrides)).unsized = g.unsized.mapNodes (·.override overrides) := by
  have blind (n : Node) : (n.override overrides).unsized = n.unsized.override overrides := by
    have measured : n.unsized.measured? overrides = n.measured? overrides := rfl
    unfold Node.override
    rw [measured]
    cases n.measured? overrides <;> rfl
  simp [unsized, mapNodes, Option.map_map, Function.comp_def, blind]

/-- Traces that differ in sizes have graphs that differ in sizes. -/
theorem unsized_ofTrace {t t' : Trace} {s : BuildSettings} (same : t.unsized = t'.unsized)
    (built : ofTrace t s = .ok g) (built' : ofTrace t' s = .ok g') : g.unsized = g'.unsized := by
  obtain ⟨u, unmeasured, measured⟩ := Results.bind_eq_ok.1 built
  obtain ⟨u', unmeasured', measured'⟩ := Results.bind_eq_ok.1 built'
  cases measured
  cases measured'
  rw [unsized_override, unsized_override]
  rw [ofTraceUnmeasured_eq] at unmeasured unmeasured'
  split at unmeasured
  next => cases unmeasured
  next =>
    split at unmeasured'
    next => cases unmeasured'
    next =>
      obtain ⟨b, inputs, rest⟩ := Results.bind_eq_ok.1 unmeasured
      obtain ⟨b', inputs', rest'⟩ := Results.bind_eq_ok.1 unmeasured'
      have length : t.inputs.length = t'.inputs.length := by
        simpa [Trace.unsized] using congrArg (·.inputs.length) same
      have ops : List.Forall₂ (TraceOp.InStep Graph.SameButSizes id) t.ops t'.ops := by
        have unsized : List.Forall₂ Eq (t.ops.map TraceOp.unsized) (t'.ops.map TraceOp.unsized) :=
          List.forall₂_eq_eq_eq ▸ congrArg (·.ops) same
        rw [List.forall₂_map_left_iff, List.forall₂_map_right_iff] at unsized
        exact unsized.imp fun _ _ => TraceOp.inStep_of_unsized
      have outputs : t'.outputs = t.outputs.map id :=
        (congrArg (·.outputs) same.symm).trans (List.map_id _).symm
      -- sizes decide whether inputs are accepted, so from here on both builds go on
      have step := Builder.addInputs_unsized length ⟨rfl, rfl⟩ inputs inputs'
      have results := step.finish (s := s) Graph.kept_unsized Function.injective_id ops outputs
      rw [show (b.addOps s 0 t.ops >>= fun b => b.markResults t.outputs) = .ok u from rest,
        show (b'.addOps s 0 t'.ops >>= fun b => b.markResults t'.outputs) = .ok u' from rest']
        at results
      cases results with
      | ok graphs => rw [graphs]

/-! ## Splitting -/

/-- Whether indices are positions has nothing to do with sizes. -/
theorem isNormalized_unsized (g : Graph) : g.unsized.isNormalized = g.isNormalized := by
  unfold isNormalized
  rw [nodes_unsized, List.zipIdx_map, List.all_map]
  rfl

/-- Neither have the indices of handles. -/
theorem indices_unsized (g : Graph) (hs : HandleSet) : g.unsized.indices hs = g.indices hs := by
  have index : (hs.toList.filterMap g.unsized.node?).map (·.index)
      = (hs.toList.filterMap g.node?).map (·.index) := by
    simp only [List.map_filterMap, node?_unsized, Option.map_map]
    rfl
  rw [indices, indices, index]

/-- Neither has the adjacency. -/
theorem adjacency_unsized (g : Graph) (directed : Bool) :
    g.unsized.adjacency directed = g.adjacency directed := by
  unfold adjacency
  rw [nodes_unsized, List.map_map]
  exact List.map_congr_left fun n _ => indices_unsized g _

/-- Numbers of elements weigh nothing. -/
theorem nodeWeight_unsized (policy : WeightPolicy) (n : Node) :
    policy.nodeWeight n.unsized = policy.nodeWeight n := by
  have weight : policy.weight n.weight.unsized = policy.weight n.weight := by
    cases n.weight <;> rfl
  unfold WeightPolicy.nodeWeight Node.unsized
  rw [weight]

/-- A solver is asked for the same. -/
theorem ofGraph_unsized (g : Graph) (s : SplitSettings) :
    PartitionRequest.ofGraph g.unsized s = PartitionRequest.ofGraph g s := by
  unfold PartitionRequest.ofGraph
  rw [isNormalized_unsized, adjacency_unsized, nodes_unsized, List.map_map]
  simp only [Function.comp_def, nodeWeight_unsized]

/-- So a graph without sizes is split as it is with them. -/
theorem split_unsized (g : Graph) (s : SplitSettings) (solver : Solver) :
    g.unsized.split s solver = g.split s solver := by
  rw [split, ofGraph_unsized]
  rfl

end Graph

/-! ## Scheduling -/

/-- The totals without the number of elements of parameters. -/
def StageTotals.unsized (stage : StageTotals) : StageTotals := { stage with parameters := 0 }

/-- The schedule whose stages are without numbers of elements. -/
def Schedule.unsized (schedule : Schedule) : Schedule :=
  { schedule with stages := schedule.stages.map StageTotals.unsized }

/-- Whether a node is measured has nothing to do with its size. -/
theorem isMeasured_unsized (n : Node) : n.unsized.isMeasured = n.isMeasured := by
  unfold Node.isMeasured Node.unsized
  cases n.kind <;> cases n.weight <;> rfl

/-- Neither has which node of a layer comes first. -/
theorem firstOfScope_unsized (met : List String) (ns : List Node) :
    firstOfScope met (ns.map Node.unsized) = (firstOfScope met ns).map Node.unsized := by
  induction ns generalizing met with
  | nil => rfl
  | cons n ns ih =>
    have scope : n.unsized.scope = n.scope := rfl
    rw [List.map_cons, firstOfScope, firstOfScope, scope]
    split
    · exact ih met
    · rw [List.map_cons, ih]

/-- A stage holds the same, except for the elements of its parameters. -/
theorem stageTotals_unsized (policy : WeightPolicy) (ns : List Node) (part : Nat) :
    stageTotals policy (ns.map Node.unsized) part = (stageTotals policy ns part).unsized := by
  have own : (ns.map Node.unsized).filter (·.part == some part)
      = (ns.filter (·.part == some part)).map Node.unsized := List.filter_map
  have layers (own : List Node) : (own.map Node.unsized).filter (·.isMeasured)
      = (own.filter (·.isMeasured)).map Node.unsized := by
    rw [List.filter_map]
    simp only [Function.comp_def, isMeasured_unsized]
  have weight (n : Node) : policy.weight n.unsized.weight = policy.weight n.weight := by
    unfold Node.unsized
    cases n.weight <;> rfl
  have memory (n : Node) : n.unsized.memory = n.memory := by
    unfold Node.memory Node.unsized
    cases n.weight <;> rfl
  have parameters (n : Node) : n.unsized.parameters = 0 := by
    unfold Node.parameters Node.unsized
    cases n.kind <;> cases n.weight <;> rfl
  unfold stageTotals StageTotals.unsized
  simp only [own, layers, firstOfScope_unsized, List.map_map, Function.comp_def, weight, memory,
    parameters, List.length_map, Word.saturatingSum_eq]
  simp

namespace Graph

/-- The parts along the edges are the same without sizes. -/
theorem partPairs_unsized (g : Graph) (parts : List Nat) :
    g.unsized.partPairs parts = g.partPairs parts := by
  have ends (source : Nat) : g.unsized.edgeParts parts source = g.edgeParts parts source := by
    funext target
    unfold edgeParts
    rw [node?_unsized]
    cases g.node? target <;> rfl
  unfold partPairs
  rw [nodes_unsized, List.mapM_map]
  simp only [ends]
  rfl

/-- The parts run in the same order, in stages that hold the same except for the elements of their
parameters. -/
theorem scheduleOf_unsized (g : Graph) (p : Partitioning) (policy : WeightPolicy) :
    g.unsized.scheduleOf p policy = (g.scheduleOf p policy).map Schedule.unsized := by
  unfold scheduleOf
  rw [partPairs_unsized, nodes_unsized]
  cases g.partPairs p.parts with
  | error e => rfl
  | ok pairs =>
    show (stageOrder p.count (stageEdges p.count pairs) >>= _)
      = (stageOrder p.count (stageEdges p.count pairs) >>= _).map Schedule.unsized
    cases stageOrder p.count (stageEdges p.count pairs) with
    | error e => rfl
    | ok order =>
      refine congrArg (fun stages => Except.ok (Schedule.mk order _ stages)) ?_
      rw [List.map_map]
      exact List.map_congr_left fun part _ => stageTotals_unsized policy g.nodes part

/-- So an answer is scheduled or refused as with sizes, and only what stages hold of parameters
differs. -/
theorem schedule_unsized (g : Graph) (p : Partitioning) (policy : WeightPolicy) :
    g.unsized.schedule p policy
      = ((g.schedule p policy).1.unsized, (g.schedule p policy).2.map Schedule.unsized) := by
  have checked : g.unsized.checkAnswer p = g.checkAnswer p := by
    rw [checkAnswer, isNormalized_unsized]
    rfl
  have assigned : g.unsized.assignParts p.parts = (g.assignParts p.parts).unsized :=
    (unsized_modifyEach (f := fun part n => { n with part := some part }) (fun _ _ => rfl) g
      p.parts).symm
  unfold schedule
  rw [checked, assigned, scheduleOf_unsized]
  cases g.checkAnswer p <;> rfl

end Graph

/-! ## Plans -/

namespace Plan

/-- Two plans differ in shapes, numbers of elements and the elements that stages hold of parameters
at most. -/
structure Similar (plan plan' : Plan) : Prop where
  answer : plan.answer = plan'.answer
  report : plan.report = plan'.report
  order : plan.schedule.order = plan'.schedule.order
  edges : plan.schedule.edges = plan'.schedule.edges
  stages : plan.schedule.stages.map StageTotals.unsized
    = plan'.schedule.stages.map StageTotals.unsized
  graph : plan.graph.unsized = plan'.graph.unsized

/-- Sizes do not matter to a plan. Where the graphs of two traces that differ in sizes only can be
built, whatever the settings and the solver are, there is a plan for both and these are similar, or
both fail for the same reason. -/
theorem make_unsized (t t' : Trace) (same : t.unsized = t'.unsized) (s : Settings)
    (built : ∃ g, Graph.ofTrace t s.build = .ok g)
    (built' : ∃ g, Graph.ofTrace t' s.build = .ok g) (solver : Solver) :
    Agree Similar Eq (make t s solver) (make t' s solver) := by
  obtain ⟨g, built⟩ := built
  obtain ⟨g', built'⟩ := built'
  have cleaned := congrArg (Graph.cleanUp s.cleanup.constantMarker)
    (Graph.unsized_ofTrace same built built')
  rw [Graph.cleanUp_unsized, Graph.cleanUp_unsized, Prod.mk.injEq] at cleaned
  obtain ⟨report, graphs⟩ := cleaned
  unfold make
  rw [built, built']
  show Agree Similar Eq ((g.cleanUp s.cleanup.constantMarker).2.split s.split solver >>= _)
    ((g'.cleanUp s.cleanup.constantMarker).2.split s.split solver >>= _)
  rw [← Graph.split_unsized, graphs, Graph.split_unsized]
  refine (Agree.refl _).bind fun split _ _ _ answered => ?_
  subst answered
  have scheduled := congrArg (Graph.schedule · split.answer s.split.weights) graphs
  simp only [Graph.schedule_unsized, Prod.mk.injEq] at scheduled
  obtain ⟨written, schedules⟩ := scheduled
  refine (Agree.of_map schedules).bind fun schedule schedule' _ _ same => .ok ?_
  exact ⟨rfl, report, congrArg (·.order) same, congrArg (·.edges) same, congrArg (·.stages) same,
    written⟩

/-- A trace of one op on a weight of some size. -/
def weightTrace (size : Nat) (type : String) : Trace where
  inputs := [⟨some [size, 2]⟩]
  ops := [⟨[0, 0], [1], "layer", "onnx::Add", type⟩]
  outputs := [1]

/-- Settings for two devices and a trace with one weight. -/
def weightSettings : Settings where
  build := { parameterScopes := ["weight"] }
  split := { devices := 2 }

/-- Weights of different sizes make similar plans, which the elements of the weight tell apart. -/
theorem weightTrace_similar :
    (weightTrace 3 "Float(3, 2)").unsized = (weightTrace 5 "").unsized ∧
    (∃ g, Graph.ofTrace (weightTrace 3 "Float(3, 2)") weightSettings.build = .ok g) ∧
    (∃ g, Graph.ofTrace (weightTrace 5 "") weightSettings.build = .ok g) ∧
    ∃ plan plan', make (weightTrace 3 "Float(3, 2)") weightSettings swappingSolver = .ok plan ∧
      make (weightTrace 5 "") weightSettings swappingSolver = .ok plan' ∧ plan.Similar plan' ∧
        plan.schedule.stages.map (·.parameters) = [0, 6] ∧
          plan'.schedule.stages.map (·.parameters) = [0, 10] := by
  have same : (weightTrace 3 "Float(3, 2)").unsized = (weightTrace 5 "").unsized := rfl
  have built : ∃ g, Graph.ofTrace (weightTrace 3 "Float(3, 2)") weightSettings.build = .ok g :=
    ⟨_, rfl⟩
  have built' : ∃ g, Graph.ofTrace (weightTrace 5 "") weightSettings.build = .ok g := ⟨_, rfl⟩
  have agree := make_unsized _ _ same weightSettings built built' swappingSolver
  have six : (make (weightTrace 3 "Float(3, 2)") weightSettings swappingSolver).toOption.map
      (·.schedule.stages.map (·.parameters)) = some [0, 6] := by decide +kernel
  have ten : (make (weightTrace 5 "") weightSettings swappingSolver).toOption.map
      (·.schedule.stages.map (·.parameters)) = some [0, 10] := by decide +kernel
  refine ⟨same, built, built', ?_⟩
  generalize make (weightTrace 3 "Float(3, 2)") weightSettings swappingSolver = x at agree six
  generalize make (weightTrace 5 "") weightSettings swappingSolver = y at agree ten
  cases agree with
  | error _ => cases six
  | ok similar => exact ⟨_, _, rfl, rfl, similar, Option.some.inj six, Option.some.inj ten⟩

end Plan

end StagePlan
