import Mathlib.Algebra.BigOperators.Group.Finset.Basic
import StagePlan.Proofs.Costs
import StagePlan.Proofs.Loads
import StagePlan.Proofs.Plan

/-!
# What the stages of a plan hold

The stages of a plan are `Accounted` for by its nodes: every stage has as many nodes as its part, the
elements of the parameters in it, and the memory of every measured layer with a node in it, once. A
stage adds up the memory of the first node of each layer that it meets (`firstOfScope`). It does not
matter which node is the first: all nodes are `Costed`, so those of a layer have the memory of the one
profile that the layer has. That costs are right shows where the graph is built (`ofTrace_costed`), and
neither the clean-up nor the parts change what describes a node.
-/

namespace StagePlan

/-- The memory of a layer by its profile, if it has one. -/
def ProfileSet.memoryOf (overrides : ProfileSet) (layer : String) : Nat :=
  (overrides.get? layer).elim 0 (·.memory)

namespace Node

/-- The number of elements that a node costs. -/
def elements (n : Node) : Nat :=
  match n.weight with
  | .elements count => count
  | _ => 0

/-- A node has a measured cost just if it is an op of a layer with a profile, and then this cost. A
parameter or buffer costs the elements of its shape. -/
structure Costed (overrides : ProfileSet) (n : Node) : Prop where
  timing : ∀ profile, n.weight = .timing profile ↔
    n.kind = .profiledLayer ∧ overrides.get? n.scope = some profile
  parameter : n.kind = .parameterOrBuffer →
    ∃ sizes count, n.shapes = [sizes] ∧ Shape.elements? sizes = some count ∧
      n.weight = .elements count

variable {overrides : ProfileSet} {n m : Node}

/-- Whether a node is costed shows in what describes it. -/
theorem Costed.of_description (costed : m.Costed overrides) (same : n.description = m.description) :
    n.Costed overrides := by
  simp only [description, Prod.mk.injEq] at same
  obtain ⟨scope, kind, shapes, weight⟩ := same
  constructor
  · rw [scope, kind, weight]
    exact costed.timing
  · rw [kind, shapes, weight]
    exact costed.parameter

/-- A measured layer has the memory of its profile. -/
theorem Costed.memory (costed : n.Costed overrides) (measured : n.isMeasured = true) :
    n.memory = overrides.memoryOf n.scope := by
  unfold isMeasured at measured
  split at measured
  next profile _ weight =>
    obtain ⟨-, profiled⟩ := (costed.timing profile).1 weight
    rw [Node.memory, ProfileSet.memoryOf, weight, profiled]
    rfl
  next => cases measured

/-- Only parameters and buffers have elements that count. -/
theorem parameters_eq (n : Node) :
    n.parameters = if n.kind == .parameterOrBuffer then n.elements else 0 := by
  unfold parameters elements
  cases n.kind <;> cases n.weight <;> rfl

end Node

/-! ## The first node of each scope -/

section

variable {met : List String} {ns : List Node}

/-- The first nodes of layers stand in the order of the nodes they were taken from. -/
theorem firstOfScope_sublist : ∀ (met : List String) (ns : List Node),
    (firstOfScope met ns).Sublist ns
  | _, [] => .slnil
  | met, n :: ns => by
    unfold firstOfScope
    split
    · exact (firstOfScope_sublist met ns).cons n
    · exact (firstOfScope_sublist (n.scope :: met) ns).cons_cons n

/-- Every scope that was not met before has a first node. -/
theorem mem_map_firstOfScope {scope : String} :
    scope ∈ (firstOfScope met ns).map (·.scope) ↔ scope ∈ ns.map (·.scope) ∧ scope ∉ met := by
  induction ns generalizing met with
  | nil => simp [firstOfScope]
  | cons n ns ih =>
    unfold firstOfScope
    split
    next old =>
      rw [ih, List.map_cons, List.mem_cons]
      refine and_congr_left fun new => (or_iff_right ?_).symm
      exact fun same => new (same ▸ old)
    next new =>
      rw [List.map_cons, List.mem_cons, ih, List.map_cons, List.mem_cons, List.mem_cons]
      by_cases same : scope = n.scope
      · subst same
        simp [new]
      · simp [same]

/-- No scope has two first nodes. -/
theorem nodup_map_firstOfScope : ((firstOfScope met ns).map (·.scope)).Nodup := by
  induction ns generalizing met with
  | nil => exact .nil
  | cons n ns ih =>
    unfold firstOfScope
    split
    · exact ih
    · rw [List.map_cons, List.nodup_cons]
      refine ⟨fun again => ?_, ih⟩
      exact (mem_map_firstOfScope.1 again).2 List.mem_cons_self

/-- What the first node of each scope adds is added for each scope once, if it depends on the scope. -/
theorem sum_firstOfScope {f : Node → Nat} {cost : String → Nat}
    (same : ∀ n ∈ ns, f n = cost n.scope) :
    ((firstOfScope [] ns).map f).sum = ∑ scope ∈ (ns.map (·.scope)).toFinset, cost scope := by
  have scopes : (ns.map (·.scope)).toFinset
      = ((firstOfScope [] ns).map (·.scope)).toFinset := by
    ext scope
    simp only [List.mem_toFinset, mem_map_firstOfScope]
    simp
  rw [scopes, List.sum_toFinset cost nodup_map_firstOfScope, List.map_map]
  refine congrArg List.sum (List.map_congr_left fun n hn => ?_)
  exact same n ((firstOfScope_sublist [] ns).subset hn)

end

/-! ## Costs of graphs -/

namespace Graph

variable {g : Graph} {t : Trace} {s : BuildSettings}

/-- A parameter or buffer costs its elements. -/
theorem ofTraceUnmeasured_parameter (built : ofTraceUnmeasured t s = .ok g) {h : Handle} {n : Node}
    (found : g.node? h = some n) (isParameter : n.kind = .parameterOrBuffer) :
    ∃ sizes count, n.shapes = [sizes] ∧ Shape.elements? sizes = some count ∧
      n.weight = .elements count := by
  rcases ofTraceUnmeasured_cases built found with ⟨input, described⟩ | ⟨position, op, described⟩
  · obtain ⟨_, _, sizes, count, -, counted, described⟩ :=
      TraceInput.description?_eq_some described
    simp only [Node.description, Prod.mk.injEq] at described
    obtain ⟨-, -, shapes, weight⟩ := described
    exact ⟨sizes, count, shapes, counted, weight⟩
  -- an op is never a parameter
  · have kind : n.kind = (Builder.opLabel s position op).1 := congrArg (·.2.1) described
    rw [kind] at isParameter
    rcases Builder.opLabel_cases s position op with ⟨_, _, label⟩ | ⟨_, label⟩ <;>
      rw [label] at isParameter <;> cases isParameter

/-- The nodes of a graph that is built cost what they should. -/
theorem ofTrace_costed (built : ofTrace t s = .ok g) {h : Handle} {n : Node}
    (found : g.node? h = some n) : n.Costed s.overrides := by
  obtain ⟨plain, first, measured⟩ := Results.bind_eq_ok.1 built
  cases measured
  have timing := ((ofTraceUnmeasured_untimed first).measured s.overrides).timing h n
  refine ⟨fun profile => timing profile found, fun isParameter => ?_⟩
  rw [node?_mapNodes] at found
  obtain ⟨m, found', rfl⟩ := Option.map_eq_some_iff.1 found
  have isParameter' : m.kind = .parameterOrBuffer := Node.kind_override ▸ isParameter
  have unmeasured : m.override s.overrides = m := by
    simp [Node.override, Node.measured?, isParameter']
  rw [unmeasured]
  exact ofTraceUnmeasured_parameter first found' isParameter'

/-- The clean-up leaves the costs of the nodes that it keeps. -/
theorem cleanUp_costed (built : ofTrace t s = .ok g) (marker : String) {h : Handle} {n : Node}
    (found : (g.cleanUp marker).2.node? h = some n) : n.Costed s.overrides := by
  obtain ⟨m, found', same⟩ :=
    ((ofTrace_topological built).cleanUp_removes marker).spliced.kept h n found
  refine (ofTrace_costed built found').of_description ?_
  exact congrArg (fun label => (label.2.1, label.2.2.1, label.2.2.2.1, label.2.2.2.2.1)) same

/-- The parts leave the costs of the nodes. -/
theorem assignParts_costed {overrides : ProfileSet} {parts : List Nat}
    (costed : ∀ h n, g.node? h = some n → n.Costed overrides) :
    ∀ n ∈ (g.assignParts parts).nodes, n.Costed overrides := by
  intro n listed
  obtain ⟨h, -, found⟩ := mem_nodes.1 listed
  have same := map_node?_modifyEach (g := g) Node.description
    (fun part n => { n with part := some part }) (fun _ _ => rfl) parts h
  rw [← assignParts, found] at same
  obtain ⟨m, found', described⟩ := Option.map_eq_some_iff.1 same.symm
  exact (costed h m found').of_description described.symm

/-! ## Nodes by parts -/

/-- The nodes in a part. -/
def nodesIn (g : Graph) (part : Nat) : List Node := g.nodes.filter (·.part == some part)

/-- The layers with a measured node in a part. -/
def layersIn (g : Graph) (part : Nat) : Finset String :=
  (((g.nodesIn part).filter (·.isMeasured)).map (·.scope)).toFinset

section

variable {p : Partitioning} {policy : WeightPolicy} {schedule : Schedule}

/-- The parts of the nodes are those of the answer, position by position. -/
theorem Fits.map_part (fits : g.Fits p) (stored : g.Stored) :
    (g.assignParts p.parts).nodes.map (·.part) = p.parts.map some := by
  have live : p.parts.length = g.nodes.length := fits.length.trans stored.length_nodes.symm
  rw [nodes_assignParts fits.normalized fits.length live, List.map_zipWith]
  refine List.ext_getElem (by simp [live]) fun i _ _ => ?_
  simp

/-- There are as many nodes in a part as the answer has it. -/
theorem Fits.length_nodesIn (fits : g.Fits p) (stored : g.Stored) (part : Nat) :
    ((g.assignParts p.parts).nodesIn part).length = p.parts.count part := by
  have parts := congrArg (List.count (some part)) (fits.map_part stored)
  rw [List.count_map_of_injective _ some (Option.some_injective Nat)] at parts
  rw [← parts, nodesIn, ← List.countP_eq_length_filter, List.count_eq_countP, List.countP_map]
  rfl

/-- A stage has the elements of the parameters and buffers in its part. -/
theorem parameters_stageTotals (g : Graph) (policy : WeightPolicy) (part : Nat) :
    (stageTotals policy g.nodes part).parameters = min
      (((g.nodesIn part).filter (·.kind == .parameterOrBuffer)).map (·.elements)).sum
      (2 ^ 64 - 1) := by
  rw [sum_filter Node.parameters_eq]
  exact Word.saturatingSum_eq _

/-- A stage has the memory of the layers in its part, whichever node of a layer it meets first. -/
theorem memory_stageTotals {overrides : ProfileSet} (costed : ∀ n ∈ g.nodes, n.Costed overrides)
    (policy : WeightPolicy) (part : Nat) :
    (stageTotals policy g.nodes part).memory
      = min (∑ layer ∈ g.layersIn part, overrides.memoryOf layer) (2 ^ 64 - 1) := by
  have memory : ∀ n ∈ (g.nodesIn part).filter (·.isMeasured),
      n.memory = overrides.memoryOf n.scope := by
    intro n listed
    obtain ⟨inPart, measured⟩ := List.mem_filter.1 listed
    exact (costed n (List.mem_of_mem_filter inPart)).memory measured
  rw [layersIn, ← sum_firstOfScope memory]
  exact Word.saturatingSum_eq _

/-- The stages of a schedule are those of the parts, in their order. -/
theorem stages_of_scheduleOf (scheduled : g.scheduleOf p policy = .ok schedule) :
    schedule.stages = (List.range p.count).map (stageTotals policy g.nodes) := by
  obtain ⟨pairs, -, scheduled⟩ := Results.bind_eq_ok.1 scheduled
  obtain ⟨order, -, scheduled⟩ := Results.bind_eq_ok.1 scheduled
  cases scheduled
  rfl

end

end Graph

/-- Parts that are below a count are counted by it. -/
theorem Partitioning.sum_count {p : Partitioning} (counted : ∀ part ∈ p.parts, part < p.count) :
    ((List.range p.count).map fun part => p.parts.count part).sum = p.parts.length := by
  rw [← List.sum_toFinset _ List.nodup_range]
  have all : ∀ part ∈ (p.parts : Multiset Nat), part ∈ (List.range p.count).toFinset := by
    intro part listed
    exact List.mem_toFinset.2 (List.mem_range.2 (counted part listed))
  simpa only [Multiset.coe_count, Multiset.coe_card] using Multiset.sum_count_eq_card all

namespace Plan

variable {t : Trace} {s : Settings} {solver : Solver}

/-- The stages of a plan are accounted for by its nodes: there is one for every part, which has as many
nodes as the part, the elements of the parameters and buffers in it, and the memory of every layer
with a measured node in it. A total that exceeds the largest word stops there. -/
structure Accounted (plan : Plan) (overrides : ProfileSet) : Prop where
  costed : ∀ n ∈ plan.graph.nodes, n.Costed overrides
  length : plan.schedule.stages.length = plan.answer.count
  /-- A layer is in a part once, however many of its nodes are, and in every part that has some. -/
  stage : ∀ part < plan.answer.count, ∃ stage, plan.schedule.stages[part]? = some stage ∧
    stage.part = part ∧ stage.nodes = (plan.graph.nodesIn part).length ∧
      stage.nodes = plan.answer.parts.count part ∧
      stage.parameters = min
        (((plan.graph.nodesIn part).filter (·.kind == .parameterOrBuffer)).map (·.elements)).sum
        (2 ^ 64 - 1) ∧
      stage.memory =
        min (∑ layer ∈ plan.graph.layersIn part, overrides.memoryOf layer) (2 ^ 64 - 1)
  /-- No node is left out, and none is in two stages. -/
  nodes : (plan.schedule.stages.map (·.nodes)).sum = plan.graph.size

/-- Whatever the trace, the settings and the solver: a plan is accounted for. -/
theorem make_accounted {plan : Plan} (made : make t s solver = .ok plan) :
    plan.Accounted s.build.overrides := by
  obtain ⟨built, split, schedule, build, answered, scheduled, rfl⟩ := make_eq_ok.1 made
  have top := (topological_cleanUp build).1
  have costed := fun h n => Graph.cleanUp_costed build s.cleanup.constantMarker (h := h) (n := n)
  generalize (built.cleanUp s.cleanup.constantMarker).2 = g at top answered scheduled costed ⊢
  obtain ⟨fits, -⟩ := top.split_ok answered
  rw [fits.schedule_eq] at scheduled ⊢
  have stages := Graph.stages_of_scheduleOf scheduled
  have costed' : ∀ n ∈ (g.assignParts split.answer.parts).nodes, n.Costed s.build.overrides :=
    Graph.assignParts_costed costed
  have held (part : Nat) := fits.length_nodesIn top.toStored part
  refine ⟨costed', by simp [stages], fun part lt => ?_, ?_⟩
  · refine ⟨stageTotals s.split.weights (g.assignParts split.answer.parts).nodes part, ?_, rfl, rfl,
      held part, Graph.parameters_stageTotals _ _ part, Graph.memory_stageTotals costed' _ part⟩
    rw [stages, List.getElem?_map, List.getElem?_range lt]
    rfl
  · have size : (g.assignParts split.answer.parts).size = g.size :=
      congrArg List.length (Graph.sameLinks_assignParts split.answer.parts).order
    rw [stages, List.map_map, size, ← fits.length, ← Partitioning.sum_count fits.counted]
    exact congrArg List.sum (List.map_congr_left fun part _ => held part)

/-- A trace of a layer with two ops, of which the first has two outputs, and of a raw op. -/
def sharedTrace : Trace where
  inputs := [⟨some [4]⟩, ⟨some [2, 3]⟩]
  ops := [⟨[0, 1], [2, 3], "net/fork", "onnx::Split", ""⟩,
    ⟨[2], [4], "net/fork/relu", "onnx::Relu", ""⟩, ⟨[3, 4], [5], "net", "onnx::Add", ""⟩]
  outputs := [5]

/-- Settings for two devices in which the layer was measured. -/
def sharedSettings : Settings where
  build := {
    numInputs := 1
    parameterScopes := ["weight"]
    profiledLayers := ["net/fork"]
    overrides := .ofList [("net/fork", { forward := 2, backward := 4, memory := 64 })] }
  split := { devices := 2 }

/-- A solver that cuts six nodes in the middle. -/
def halvingSolver : Solver := fun _ => .ok ⟨2, [0, 0, 0, 1, 1, 1]⟩

/-- One node of the layer lies in the first part and two in the second. Both stages hold the memory of
the layer once. -/
theorem sharedTrace_accounted : ∃ plan, make sharedTrace sharedSettings halvingSolver = .ok plan ∧
    plan.Accounted sharedSettings.build.overrides ∧
      plan.schedule.stages.map (fun stage => (stage.nodes, stage.memory, stage.parameters))
        = [(3, 64, 6), (3, 64, 0)] := by
  have stages : (make sharedTrace sharedSettings halvingSolver).toOption.map (fun plan =>
      plan.schedule.stages.map fun stage => (stage.nodes, stage.memory, stage.parameters))
        = some [(3, 64, 6), (3, 64, 0)] := by decide +kernel
  cases made : make sharedTrace sharedSettings halvingSolver with
  | error e => rw [made] at stages; cases stages
  | ok plan =>
    rw [made] at stages
    exact ⟨plan, rfl, make_accounted made, Option.some.inj stages⟩

end Plan

end StagePlan
