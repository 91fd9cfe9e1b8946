import StagePlan.Proofs.Graph.Additions

/-!
# The layout of the graph of a trace

The graph of a trace is exactly what the layout of the trace says (`Graph.ofTrace_laidOut`): which
nodes there are and where, what describes them, the edges between them, and the outputs. A builder
`Draws` the part of the trace that it has read. One more op adds to it what the layout of a trace with
one more op has in addition (`Draws.addOp`), which carries over to all ops (`Draws.addOps`). Measured
costs come last, and change nothing but costs (`Node.override_eq`).
-/

namespace StagePlan

/-- What describes the node of the input at a position. -/
def TraceInput.description? (s : BuildSettings) (position : Nat) (input : TraceInput) :
    Option (String × NodeKind × List Shape × NodeWeight) :=
  match input.sizes, Builder.inputLabel s position with
  | some sizes, .ok (kind, scope) =>
    (Shape.elements? sizes).map fun n => (scope, kind, [sizes], .elements n)
  | _, _ => none

/-- An input is described by its label, its sizes and the number of its elements. -/
theorem TraceInput.description?_eq_some {s : BuildSettings} {position : Nat} {input : TraceInput}
    {d : String × NodeKind × List Shape × NodeWeight}
    (described : input.description? s position = some d) :
    ∃ scope kind sizes n, Builder.inputLabel s position = .ok (kind, scope) ∧
      Shape.elements? sizes = some n ∧ d = (scope, kind, [sizes], .elements n) := by
  unfold TraceInput.description? at described
  split at described
  next sizes kind scope _ labelled =>
    obtain ⟨n, counted, same⟩ := Option.map_eq_some_iff.1 described
    exact ⟨scope, kind, sizes, n, labelled, counted, same.symm⟩
  next => cases described

/-- The cost of an op, which is known if its layer was measured. -/
def TraceOp.cost (s : BuildSettings) (op : TraceOp) : NodeWeight :=
  ((Builder.enclosingLayer? s.profiledLayers op.scope).bind s.overrides.get?).elim
    .unmeasured .timing

namespace Builder

variable {s : BuildSettings} {b b' : Builder} {op : TraceOp} {position : Nat}

/-! ## A whole trace -/

/-- A builder has drawn a trace, up to its results and the costs. -/
structure Draws (b : Builder) (s : BuildSettings) (t : Trace) : Prop where
  sound : b.Sound
  count : b.count = t.nodeCount
  input : ∀ (i : Nat) input, t.inputs[i]? = some input →
    b.graph.description? i = input.description? s i
  slot : ∀ position op place, t.OpAt position op place → ∀ slot, slot < op.nodeCount →
    b.graph.description? (place + slot) = some (op.description s position .unmeasured)
  edge : ∀ u v : Nat, b.graph.Edge u v ↔ t.Joins u v
  lookup : ∀ v h : Nat, b.handles.lookup v = some h ↔ t.Holds v h
  operands : ∀ op ∈ t.ops, ∀ v ∈ op.inputs, ∃ h, t.Holds v h
  outputs : b.graph.outputs = ∅

/-- The builder that nothing was added to draws a trace without inputs and ops. -/
theorem draws_empty (s : BuildSettings) (results : List ValueId) :
    ({} : Builder).Draws s ⟨[], [], results⟩ where
  sound := .empty
  count := rfl
  input i input at_ := by simp at at_
  slot position op place at_ := absurd at_ (Trace.not_opAt rfl)
  edge u v := by
    refine iff_of_false (fun edge => ?_) (Trace.not_joins rfl)
    exact absurd edge.live.lt (Nat.not_lt_zero u)
  lookup v h := by simp [Trace.holds_of_inputs]
  operands op member := by simp at member
  outputs := rfl

/-- An input that is added is the value of its position, and its node stands at the end. -/
theorem addInput_eq_ok {input : TraceInput} (added : b.addInput s position input = .ok b') :
    ∃ scope kind shapes cost, input.description? s position = some (scope, kind, shapes, cost) ∧
      { graph := b.graph.add scope kind shapes cost,
        handles := (position, b.graph.nextHandle) :: b.handles } = b' := by
  unfold Builder.addInput at added
  split at added
  next => cases added
  next sizes sized =>
    obtain ⟨⟨kind, scope⟩, labelled, added⟩ := Results.bind_eq_ok.1 added
    dsimp only at added
    split at added
    next => cases added
    next n elements =>
      refine ⟨scope, kind, [sizes], .elements n, ?_, Except.ok.inj added⟩
      rw [TraceInput.description?, sized, labelled]
      exact congrArg (Option.map _) elements

/-- One more input is drawn where there is no op yet. -/
theorem Draws.addInput {inputs : List TraceInput} {input : TraceInput} {results : List ValueId}
    (draws : b.Draws s ⟨inputs, [], results⟩)
    (added : b.addInput s inputs.length input = .ok b') :
    b'.Draws s ⟨inputs ++ [input], [], results⟩ := by
  have sound' := draws.sound.addInput added
  have count : b.count = inputs.length := draws.count
  obtain ⟨scope, kind, shapes, cost, described, rfl⟩ := addInput_eq_ok added
  have new : b.handles.lookup inputs.length = none := by
    refine Option.eq_none_iff_forall_ne_some.2 fun h found => ?_
    have held := (Trace.holds_of_inputs rfl).1 ((draws.lookup _ h).1 found)
    exact Nat.lt_irrefl _ held.1
  refine ⟨sound', ?_, fun i input' at_ => ?_, fun _ _ _ at_ => absurd at_ (Trace.not_opAt rfl),
    fun u v => ?_, fun v h => ?_, fun op member => (nomatch member), draws.outputs⟩
  · show (b.graph.add scope kind shapes cost).nextHandle = _
    rw [Graph.nextHandle_add, Trace.nodeCount, List.length_append]
    exact congrArg (· + 1) count
  · rw [Graph.add, Graph.description?_push]
    show (if i = b.count then _ else _) = _
    rw [count]
    rcases Nat.lt_trichotomy i inputs.length with lt | rfl | gt
    · rw [if_neg (Nat.ne_of_lt lt)]
      exact draws.input i input' (List.getElem?_append_left lt ▸ at_)
    · obtain rfl : input = input' := by simpa using at_
      rw [if_pos rfl, described]
      rfl
    · rw [List.getElem?_eq_none (by simp; omega)] at at_
      cases at_
  · rw [Graph.add, Graph.edge_push fun _ _ => rfl, draws.edge]
    exact iff_of_false (Trace.not_joins rfl) (Trace.not_joins rfl)
  · have same : h = b.count ↔ h = inputs.length := by rw [count]
    rw [lookup_cons_new new, draws.lookup, Trace.holds_of_inputs rfl, Trace.holds_of_inputs rfl,
      same]
    show v < inputs.length ∧ _ ∨ _ ↔ v < (inputs ++ [input]).length ∧ _
    rw [List.length_append, List.length_singleton]
    omega

/-- Adding inputs draws the trace with these inputs too. -/
theorem Draws.addInputs : ∀ {rest inputs : List TraceInput} {results : List ValueId} {b : Builder},
    b.Draws s ⟨inputs, [], results⟩ → b.addInputs s inputs.length rest = .ok b' →
      b'.Draws s ⟨inputs ++ rest, [], results⟩
  | [], inputs, _, _, draws, added => by
    cases added
    rwa [List.append_nil]
  | input :: rest, inputs, _, b, draws, added => by
    obtain ⟨b₁, first, added⟩ := Results.bind_eq_ok.1 added
    have length : inputs.length + 1 = (inputs ++ [input]).length := by simp
    have drawn := (draws.addInput first).addInputs (length ▸ added)
    rwa [List.append_assoc, List.singleton_append] at drawn

variable {t : Trace}

/-- One more op is drawn after a trace. -/
theorem Draws.addOp (draws : b.Draws s t) (added : b.addOp s t.ops.length op = .ok b') :
    b'.Draws s (t.snocOp op) := by
  have op_ := draws.sound.opAdded added
  have count := draws.count
  have lookup : ∀ v h, b'.handles.lookup v = some h ↔ (t.snocOp op).Holds v h := by
    intro v h
    rw [op_.lookup, draws.lookup, count, Trace.holds_snocOp]
  -- a value that had a node keeps it
  have settled : ∀ {v h k}, t.Holds v h → (t.snocOp op).Holds v k → t.Holds v k := by
    intro v h k held held'
    have found := (op_.lookup v h).2 (.inl ((draws.lookup v h).2 held))
    obtain rfl := Option.some.inj (found.symm.trans ((lookup v k).2 held'))
    exact held
  have operands : ∀ op' ∈ (t.snocOp op).ops, ∀ v ∈ op'.inputs, ∃ h, t.Holds v h := by
    intro op' member v hv
    rcases List.mem_append.1 member with old | new
    · exact draws.operands op' old v hv
    · obtain ⟨h, found⟩ := op_.operands v (List.mem_singleton.1 new ▸ hv)
      exact ⟨h, (draws.lookup v h).1 found⟩
  refine ⟨draws.sound.addOp added, ?_, fun i input at_ => ?_, fun position op' place at_ slot lt => ?_,
    fun u w => ?_, lookup, fun op' member v hv => ?_, op_.outputs.trans draws.outputs⟩
  · rw [op_.count, count, Trace.nodeCount_snocOp]
  · rw [op_.kept i (count ▸ Trace.lt_nodeCount at_), draws.input i input at_]
  · rcases Trace.opAt_snocOp.1 at_ with old | ⟨rfl, rfl, rfl⟩
    · have le := old.add_le
      rw [op_.kept (place + slot) (by omega), draws.slot position op' place old slot lt]
    · exact op_.new _ (by omega) (by rw [op_.count]; omega)
  · have settled' : ∀ op' ∈ t.ops, ∀ v ∈ op'.inputs, ∀ h, (t.snocOp op).Holds v h → t.Holds v h := by
      intro op' member v hv h held
      obtain ⟨k, held'⟩ := draws.operands op' member v hv
      exact settled held' held
    rw [op_.edge, draws.edge, Trace.joins_snocOp settled', op_.count, count]
    refine or_congr .rfl (or_congr (and_congr .rfl ?_) .rfl)
    refine exists_congr fun v => and_congr_right fun hv => (draws.lookup v u).trans ?_
    obtain ⟨k, held⟩ := operands op (List.mem_append_right _ List.mem_cons_self) v hv
    exact ⟨fun held => Trace.holds_snocOp.2 (.inl held), settled held⟩
  · obtain ⟨h, held⟩ := operands op' member v hv
    exact ⟨h, Trace.holds_snocOp.2 (.inl held)⟩

/-- Adding ops draws the trace with these ops too. -/
theorem Draws.addOps : ∀ {ops : List TraceOp} {t : Trace} {b : Builder}, b.Draws s t →
    b.addOps s t.ops.length ops = .ok b' → b'.Draws s { t with ops := t.ops ++ ops }
  | [], t, _, draws, added => by
    cases added
    rwa [List.append_nil]
  | op :: ops, t, b, draws, added => by
    obtain ⟨b₁, first, added⟩ := Results.bind_eq_ok.1 added
    have length : t.ops.length + 1 = (t.snocOp op).ops.length := by simp
    have drawn := (draws.addOp first).addOps (length ▸ added)
    rwa [Trace.ops_snocOp, List.append_assoc, List.singleton_append] at drawn

end Builder

/-! ## Results and costs -/

/-- Marking the results changes nothing but the outputs. -/
theorem Builder.markResults_eq_ok {b : Builder} {results : List ValueId} {g : Graph}
    (marked : b.markResults results = .ok g) :
    (g.order = b.graph.order ∧ ∀ h, g.node? h = b.graph.node? h) ∧
      (∀ h, h ∈ g.outputs ↔ h ∈ b.graph.outputs ∨ ∃ v ∈ results, b.handles.lookup v = some h) ∧
        ∀ v ∈ results, ∃ h, b.handles.lookup v = some h := by
  obtain ⟨handles, resolved, marked⟩ := Results.bind_eq_ok.1 marked
  cases marked
  rw [Graph.foldl_markOutput_eq]
  refine ⟨⟨rfl, fun _ => rfl⟩, fun h => ?_, fun v hv => ?_⟩
  · rw [HandleSet.mem_foldl_insert, mem_resolved resolved]
  · obtain ⟨h, -, found⟩ := exists_of_resolved resolved v hv
    exact ⟨h, found⟩

/-- A measured cost takes the place of the cost, and changes nothing else. -/
theorem Node.override_eq (overrides : ProfileSet) (n : Node) : n.override overrides =
    { n with weight := (n.measured? overrides).elim n.weight .timing } := by
  unfold Node.override
  cases n.measured? overrides <;> rfl

/-- The cost of an op is that of its layer. -/
theorem Node.description_override_op {n : Node} {s : BuildSettings} {position : Nat} {op : TraceOp}
    (described : n.description = op.description s position .unmeasured) :
    (n.override s.overrides).description = op.description s position (op.cost s) := by
  simp only [Node.description, TraceOp.description, Prod.mk.injEq] at described
  obtain ⟨scope, kind, shapes, weight⟩ := described
  have measured : n.measured? s.overrides =
      (Builder.enclosingLayer? s.profiledLayers op.scope).bind s.overrides.get? := by
    rw [Node.measured?, kind, scope, Builder.opLabel]
    cases Builder.enclosingLayer? s.profiledLayers op.scope <;> rfl
  rw [Node.override_eq, Node.description, measured, scope, kind, shapes, weight]
  rfl

/-- No input is an op of a profiled layer. -/
theorem Builder.inputLabel_ne {s : BuildSettings} {position : Nat} {kind : NodeKind} {scope : String}
    (labelled : inputLabel s position = .ok (kind, scope)) : kind ≠ .profiledLayer := by
  unfold inputLabel at labelled
  split at labelled
  next => cases labelled; nofun
  next =>
    split at labelled
    next => cases labelled; nofun
    next => cases labelled

/-- An input has no other cost than its size. -/
theorem Node.description_override_input {n : Node} {s : BuildSettings} {position : Nat}
    {input : TraceInput} (described : input.description? s position = some n.description) :
    (n.override s.overrides).description = n.description := by
  have kind : n.kind ≠ .profiledLayer := by
    obtain ⟨_, kind, _, _, labelled, -, same⟩ := TraceInput.description?_eq_some described
    have same : n.kind = kind := congrArg (·.2.1) same
    exact same ▸ Builder.inputLabel_ne labelled
  rw [Node.override_eq, Node.measured?, if_neg kind]
  rfl

namespace Graph

variable {t : Trace} {s : BuildSettings} {g : Graph}

/-- A graph is laid out as a trace says. -/
structure LaidOut (g : Graph) (t : Trace) (s : BuildSettings) : Prop where
  size : g.size = t.nodeCount
  /-- The place of a node is its handle and its index. -/
  numbered : ∀ i, i < t.nodeCount → ∃ n, g.nodeAt? i = some n ∧ n.handle = i ∧ n.index = i
  /-- The inputs come first. -/
  input : ∀ (i : Nat) input, t.inputs[i]? = some input →
    ∃ n, g.nodeAt? i = some n ∧ input.description? s i = some n.description
  /-- The slots of an op follow each other, and share what describes the op. -/
  slot : ∀ position op place, t.OpAt position op place → ∀ slot, slot < op.nodeCount →
    ∃ n, g.nodeAt? (place + slot) = some n ∧ n.description = op.description s position (op.cost s)
  /-- The edges are those that the trace asks for, and recorded at both ends. -/
  edge : ∀ u v, g.Edge u v ↔ t.Joins u v
  consistent : g.IsConsistent
  /-- The node of a further slot reads from the primary node only. -/
  secondary : ∀ position op place, t.OpAt position op place → ∀ slot, slot ≠ 0 →
    slot < op.outputs.length → ∀ u, g.Edge u (place + slot) ↔ u = place
  /-- A value has one node at most, and one if it is used. -/
  unique : ∀ v h k, t.Holds v h → t.Holds v k → h = k
  operands : ∀ op ∈ t.ops, ∀ v ∈ op.inputs, ∃ h, t.Holds v h
  results : ∀ v ∈ t.outputs, ∃ h, t.Holds v h
  /-- The outputs are the nodes of the results. -/
  outputs : ∀ h, h ∈ g.outputs ↔ ∃ v ∈ t.outputs, t.Holds v h

/-- What a builder draws is laid out, once its results are marked and its costs are measured. -/
theorem LaidOut.of_draws {b : Builder} (draws : b.Draws s t)
    (marked : b.markResults t.outputs = .ok g) :
    (g.mapNodes (·.override s.overrides)).LaidOut t s := by
  obtain ⟨⟨order, nodes⟩, outputs, resolved⟩ := Builder.markResults_eq_ok marked
  have growing := draws.sound.growing
  have links := sameLinks_override s.overrides g
  have top := links.topological (draws.sound.markResults marked)
  have edge : ∀ u v, (g.mapNodes (·.override s.overrides)).Edge u v ↔ t.Joins u v := by
    intro u v
    rw [links.edge, ← draws.edge, Edge, nodes]
    rfl
  have order' : (g.mapNodes (·.override s.overrides)).order = List.range t.nodeCount :=
    order.trans (growing.order_eq.trans (congrArg List.range draws.count))
  -- a node of the builder stands where its handle says, and nothing but its cost is changed
  have placed : ∀ {i : Nat}, i < t.nodeCount → ∃ n, b.graph.node? i = some n ∧
      (g.mapNodes (·.override s.overrides)).nodeAt? i = some (n.override s.overrides) := by
    intro i lt
    obtain ⟨n, found⟩ := growing.full i (draws.count ▸ lt : i < b.count)
    refine ⟨n, found, ?_⟩
    rw [nodeAt?, order', List.getElem?_range lt, Option.bind_some, node?_mapNodes, nodes, found]
    rfl
  refine ⟨?_, fun i lt => ?_, fun i input at_ => ?_, fun position op place at_ slot lt => ?_, edge,
    top.consistent,
    fun position op place at_ slot further lt u => (edge u _).trans (at_.joins_slot_iff further lt),
    fun v h k held held' => ?_, draws.operands, fun v hv => ?_, fun h => ?_⟩
  · rw [Graph.size, order', List.length_range]
  · obtain ⟨n, found, found'⟩ := placed lt
    refine ⟨_, found', ?_⟩
    rw [Node.override_eq]
    exact ⟨growing.handle i n found, growing.index i n found⟩
  · obtain ⟨n, found, found'⟩ := placed (Trace.lt_nodeCount at_)
    have same : input.description? s i = some n.description :=
      (draws.input i input at_).symm.trans (congrArg (Option.map _) found)
    exact ⟨_, found', (Node.description_override_input same).symm ▸ same⟩
  · have le := at_.add_le
    obtain ⟨n, found, found'⟩ := placed (i := place + slot) (by omega)
    have same : some n.description = some (op.description s position .unmeasured) :=
      (congrArg (Option.map _) found).symm.trans (draws.slot position op place at_ slot lt)
    exact ⟨_, found', Node.description_override_op (Option.some.inj same)⟩
  · exact Option.some.inj (((draws.lookup v h).2 held).symm.trans ((draws.lookup v k).2 held'))
  · obtain ⟨h, found⟩ := resolved v hv
    exact ⟨h, (draws.lookup v h).1 found⟩
  · show h ∈ g.outputs ↔ _
    have none : h ∉ b.graph.outputs := draws.outputs ▸ HandleSet.not_mem_empty h
    rw [outputs, or_iff_right none]
    exact exists_congr fun v => and_congr_right fun _ => draws.lookup v h

/-- A builder has drawn the trace of a graph that is built. -/
theorem exists_draws (built : ofTraceUnmeasured t s = .ok g) :
    ∃ b : Builder, b.Draws s t ∧ b.markResults t.outputs = .ok g := by
  rw [ofTraceUnmeasured_eq] at built
  split at built
  next => cases built
  next =>
    obtain ⟨b, inputs, built⟩ := Results.bind_eq_ok.1 built
    obtain ⟨b', ops, marked⟩ := Results.bind_eq_ok.1 built
    exact ⟨b', ((Builder.draws_empty s t.outputs).addInputs inputs).addOps ops, marked⟩

/-- The node of an output slot shares what describes the op. -/
theorem ofTrace_slot {position place slot : Nat} {op : TraceOp} (built : ofTrace t s = .ok g)
    (at_ : t.OpAt position op place) (lt : slot < op.nodeCount) :
    ∃ n, g.nodeAt? (place + slot) = some n ∧
      n.description = op.description s position (op.cost s) := by
  obtain ⟨unmeasured, first, measured⟩ := Results.bind_eq_ok.1 built
  cases measured
  obtain ⟨b, draws, marked⟩ := exists_draws first
  exact (LaidOut.of_draws draws marked).slot position op place at_ slot lt

/-- The graph of a trace is laid out as the trace says. -/
theorem ofTrace_laidOut (built : ofTrace t s = .ok g) : g.LaidOut t s := by
  obtain ⟨unmeasured, first, measured⟩ := Results.bind_eq_ok.1 built
  cases measured
  obtain ⟨b, draws, marked⟩ := exists_draws first
  exact .of_draws draws marked

/-- A trace of an op with three outputs that reads one input twice, one without outputs that reads a
further slot, and one that reads two slots. -/
def forkingTrace : Trace where
  inputs := [⟨some [2, 3]⟩, ⟨some [4]⟩]
  ops := [⟨[0, 1, 0], [2, 3, 4], "net/fork", "onnx::Split", "Float(1, 3)"⟩,
    ⟨[3, 3], [], "net", "prim::Print", ""⟩, ⟨[4, 2], [5], "net", "onnx::Add", ""⟩]
  outputs := [5, 3, 5]

/-- Settings in which the first op of the trace belongs to a measured layer. -/
def forkingSettings : BuildSettings where
  numInputs := 1
  parameterScopes := ["weight"]
  profiledLayers := ["net/fork"]
  overrides := .ofList [("net/fork", { forward := 2, backward := 4 })]

/-- The op without outputs has a node as well, after the three of the first op. -/
theorem forkingTrace_laidOut : ∃ g, ofTrace forkingTrace forkingSettings = .ok g ∧
    g.LaidOut forkingTrace forkingSettings ∧ forkingTrace.nodeCount = 7 ∧
      (forkingTrace.primary 0, forkingTrace.primary 1, forkingTrace.primary 2) = (2, 5, 6) ∧
        g.nodes.map (·.targets.toList) = [[2], [2], [3, 4, 6], [5], [6], [], []] := by
  have built : ∃ g, ofTrace forkingTrace forkingSettings = .ok g := ⟨_, rfl⟩
  have targets : (ofTrace forkingTrace forkingSettings).toOption.map
      (·.nodes.map (·.targets.toList)) = some [[2], [2], [3, 4, 6], [5], [6], [], []] := by
    decide +kernel
  obtain ⟨g, built⟩ := built
  rw [built] at targets
  exact ⟨g, built, ofTrace_laidOut built, rfl, rfl, Option.some.inj targets⟩

end Graph

end StagePlan
