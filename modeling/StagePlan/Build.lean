import StagePlan.Graph.Basic
import StagePlan.Settings
import StagePlan.Text.Search
import StagePlan.Trace

/-!
# Building a graph from a trace

`Graph.ofTrace` adds a node for every input of a trace, then for every op a primary node and one more
node per further output slot. An op reads from the nodes of its operands, through its primary node; the
nodes of the further slots only read from the primary one. An op inside a profiled layer is labelled
with that layer and weighed by its measured cost, any other with its own scope, kind and position.

The build stops at the first fault in the order of the trace: the number of model inputs, then the
inputs one by one, then the ops, each with its operands before its outputs, then the results.
-/

namespace StagePlan

/-- A graph under construction, with the node of every value defined so far. -/
structure Builder where
  /-- The graph. -/
  graph : Graph := .empty
  /-- The nodes of the values. -/
  handles : List (ValueId × Handle) := []

namespace Builder

/-! ## Inputs -/

/-- What the input at a position stands for, and its scope. -/
def inputLabel (s : BuildSettings) (position : Nat) : Except Error (NodeKind × String) :=
  if position < s.numInputs then .ok (.input, s!"input{position}")
  else
    match s.parameterScopes[position - s.numInputs]? with
    | some scope => .ok (.parameterOrBuffer, scope)
    | none => .error (.shapeResolution position .noScope)

/-- Adds the node of an input, which is the value of its position. -/
def addInput (s : BuildSettings) (b : Builder) (position : Nat) (input : TraceInput) :
    Except Error Builder :=
  match input.sizes with
  | none => .error (.shapeResolution position .noSizes)
  | some sizes => do
    let (kind, scope) ← inputLabel s position
    match Shape.elements? sizes with
    | none => throw (.shapeResolution position (.overflow sizes))
    | some n =>
      return {
        graph := b.graph.add scope kind [sizes] (.elements n)
        handles := (position, b.graph.nextHandle) :: b.handles }

/-- Adds the nodes of the inputs from a position on. -/
def addInputs (s : BuildSettings) (b : Builder) (position : Nat) :
    List TraceInput → Except Error Builder
  | [] => .ok b
  | input :: inputs => do addInputs s (← b.addInput s position input) (position + 1) inputs

/-! ## Ops -/

/-- The node of a value; `user` names who asks for it. -/
def resolve (b : Builder) (user : String) (v : ValueId) : Except Error Handle :=
  match b.handles.lookup v with
  | some h => .ok h
  | none => .error (.danglingReference v (.noProducer user))

/-- The longer of two layers that both enclose a scope. -/
def longer (chosen : Option String) (layer : String) : Option String :=
  match chosen with
  | some best => if best.length < layer.length then some layer else some best
  | none => some layer

/-- The longest profiled layer that a scope begins with; the empty scope is no layer. -/
def enclosingLayer? (layers : List String) (scope : String) : Option String :=
  (layers.filter fun layer => !layer.isEmpty && Text.hasPrefix layer scope).foldl longer none

/-- The label and the kind of the node of an op. -/
def opLabel (s : BuildSettings) (position : Nat) (op : TraceOp) : NodeKind × String :=
  match enclosingLayer? s.profiledLayers op.scope with
  | some layer => (.profiledLayer, layer)
  | none => (.rawOp, s!"{op.scope}/{op.kind}{position}")

/-- Gives a value its node; a value has one producer. -/
def define (b : Builder) (position : Nat) (op : TraceOp) (v : ValueId) (h : Handle) :
    Except Error Builder :=
  match b.handles.lookup v with
  | some _ => .error (.danglingReference v (.producedTwice position op.kind))
  | none => .ok { b with handles := (v, h) :: b.handles }

/-- Gives the values of the output slots from `slot` on their nodes: slot 0 is the primary node, and
each further slot gets a node of its own. -/
def addSlots (b : Builder) (position : Nat) (op : TraceOp) (primary : Handle) (slot : Nat) :
    List ValueId → Except Error Builder
  | [] => .ok b
  | v :: vs =>
    if slot = 0 then do
      addSlots (← b.define position op v primary) position op primary (slot + 1) vs
    else
      match b.graph.addSecondary? primary slot with
      | none => .error (.inconsistentPartition (.slotOutOfPlace slot position))
      | some graph => do
        let b ← { b with graph }.define position op v b.graph.nextHandle
        b.addSlots position op primary (slot + 1) vs

/-- Adds the nodes of an op. -/
def addOp (s : BuildSettings) (b : Builder) (position : Nat) (op : TraceOp) :
    Except Error Builder := do
  let operands ← op.inputs.mapM (b.resolve op.kind)
  let (kind, scope) := opLabel s position op
  let primary := b.graph.nextHandle
  let graph := b.graph.add scope kind [op.outputShape] .unmeasured
  let graph := operands.foldl (fun g operand => g.connect operand primary) graph
  { b with graph }.addSlots position op primary 0 op.outputs

/-- Adds the nodes of the ops from a position on. -/
def addOps (s : BuildSettings) (b : Builder) (position : Nat) : List TraceOp → Except Error Builder
  | [] => .ok b
  | op :: ops => do addOps s (← b.addOp s position op) (position + 1) ops

/-- The graph with the nodes of the results marked as outputs. -/
def markResults (b : Builder) (results : List ValueId) : Except Error Graph := do
  let handles ← results.mapM (b.resolve "graph output")
  return handles.foldl .markOutput b.graph

end Builder

/-- The measured cost of a node: only ops of profiled layers have one. -/
def Node.measured? (overrides : ProfileSet) (n : Node) : Option LayerProfile :=
  if n.kind = .profiledLayer then overrides.get? n.scope else none

/-- The node with its measured cost, if there is one. -/
def Node.override (overrides : ProfileSet) (n : Node) : Node :=
  match n.measured? overrides with
  | some profile => { n with weight := .timing profile }
  | none => n

namespace Graph

/-- The graph with every node changed in the same way. -/
def mapNodes (g : Graph) (f : Node → Node) : Graph := { g with slots := g.slots.map (Option.map f) }

/-- Looking a node up after all nodes were changed gives the changed node. -/
theorem node?_mapNodes (g : Graph) (f : Node → Node) (h : Handle) :
    (g.mapNodes f).node? h = (g.node? h).map f := by
  simp only [node?, mapNodes, Array.getElem?_map]
  cases g.slots[h]? with
  | none => rfl
  | some slot => cases slot <;> rfl

/-- The graph of a trace before its nodes get their measured costs. -/
def ofTraceUnmeasured (t : Trace) (s : BuildSettings) : Except Error Graph := do
  if t.inputs.length < s.numInputs then
    throw (.settings (.tooManyInputs s.numInputs t.inputs.length))
  let b ← Builder.addInputs s {} 0 t.inputs
  let b ← b.addOps s 0 t.ops
  b.markResults t.outputs

/-- The graph of a trace. -/
def ofTrace (t : Trace) (s : BuildSettings) : Except Error Graph := do
  return (← ofTraceUnmeasured t s).mapNodes (·.override s.overrides)

end Graph

end StagePlan
