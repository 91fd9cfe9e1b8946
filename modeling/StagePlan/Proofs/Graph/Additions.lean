import StagePlan.Proofs.Graph.Building
import StagePlan.Proofs.Trace.Layout

/-!
# What one op adds to a graph

An op adds its nodes at the end of a graph under construction, and leaves what is there. First comes
its primary node, with the edges from the operands (`Builder.PrimaryAdded`). Then come the output
slots, one by one: the primary node stands for the first of them, and every further one gets a node
that shares what describes the primary node and reads from it (`Builder.SlotsAdded`).
`Sound.opAdded` puts the two together: where the nodes of the op are, what describes them, which
edges are new, and which values have which nodes then.
-/

namespace StagePlan

/-- What describes a node: its scope, kind, shapes and cost. -/
def Node.description (n : Node) : String × NodeKind × List Shape × NodeWeight :=
  (n.scope, n.kind, n.shapes, n.weight)

/-- What describes the nodes of the op at a position, for a cost. -/
def TraceOp.description (s : BuildSettings) (position : Nat) (op : TraceOp) (cost : NodeWeight) :
    String × NodeKind × List Shape × NodeWeight :=
  ((Builder.opLabel s position op).2, (Builder.opLabel s position op).1, [op.outputShape], cost)

namespace Graph

variable {g : Graph} {u v h : Handle} {node : Handle → Nat → Node}

/-- What describes the live node of a handle. -/
def description? (g : Graph) (h : Handle) : Option (String × NodeKind × List Shape × NodeWeight) :=
  (g.node? h).map Node.description

/-- A new node is described by its own fields, and all others as before. -/
theorem description?_push : (g.push node).description? h =
    if h = g.nextHandle then some (node g.nextHandle g.size).description else g.description? h := by
  unfold description?
  rw [node?_push]
  split <;> rfl

@[simp] theorem description?_connect : (g.connect u v).description? h = g.description? h := by
  unfold description?
  rw [node?_connect, Option.map_map]
  rfl

@[simp] theorem description?_foldl_connect : ∀ (us : List Handle) (g : Graph),
    (us.foldl (fun g u => g.connect u v) g).description? h = g.description? h
  | [], _ => rfl
  | u :: us, g => (description?_foldl_connect us (g.connect u v)).trans description?_connect

@[simp] theorem outputs_foldl_connect : ∀ (us : List Handle) (g : Graph),
    (us.foldl (fun g u => g.connect u v) g).outputs = g.outputs
  | [], _ => rfl
  | u :: us, g => outputs_foldl_connect us (g.connect u v)

/-- Edges from live nodes to one node come on top of those that there are. -/
theorem edge_foldl_connect {a b : Handle} : ∀ (us : List Handle) {g : Graph}, (∀ u ∈ us, g.Live u) →
    ((us.foldl (fun g u => g.connect u v) g).Edge a b ↔ g.Edge a b ∨ a ∈ us ∧ b = v)
  | [], _, _ => by simp
  | u :: us, g, live => by
    have rest := edge_foldl_connect us (g := g.connect u v) (a := a) (b := b) fun w hw =>
      live_connect.2 (live w (List.mem_cons_of_mem u hw))
    rw [List.foldl_cons, rest, edge_connect (live u List.mem_cons_self), List.mem_cons, or_assoc,
      or_and_right]

section Secondary

variable {g' : Graph} {primary : Handle} {slot : Nat}

/-- The node of a further output slot is described like its primary node. -/
theorem description?_addSecondary? (added : g.addSecondary? primary slot = some g') :
    g'.description? h = if h = g.nextHandle then g.description? primary else g.description? h := by
  obtain ⟨n, found, -, -, rfl⟩ := addSecondary?_eq_some.1 added
  have described : g.description? primary = some n.description := congrArg (Option.map _) found
  rw [description?_connect, description?_push, described]
  rfl

/-- It has one edge, which comes from its primary node. -/
theorem edge_addSecondary? (added : g.addSecondary? primary slot = some g') :
    g'.Edge u v ↔ g.Edge u v ∨ u = primary ∧ v = g.nextHandle := by
  obtain ⟨n, found, -, -, rfl⟩ := addSecondary?_eq_some.1 added
  rw [edge_connect (live_push.2 (.inr ⟨n, found⟩)), edge_push fun _ _ => rfl]

/-- A further output slot is no output of the graph by itself. -/
theorem outputs_addSecondary? (added : g.addSecondary? primary slot = some g') :
    g'.outputs = g.outputs := by
  obtain ⟨n, found, -, -, rfl⟩ := addSecondary?_eq_some.1 added
  rfl

end Secondary

/-- To mark nodes as outputs changes nothing but the set of outputs. -/
theorem foldl_markOutput_eq : ∀ (hs : List Handle) (g : Graph),
    hs.foldl markOutput g = { g with outputs := hs.foldl .insert g.outputs }
  | [], _ => rfl
  | h :: hs, g => foldl_markOutput_eq hs (g.markOutput h)

end Graph

namespace Builder

variable {s : BuildSettings} {b b' : Builder} {op : TraceOp} {vs : List ValueId}
  {position slot primary v w h k : Nat}

/-- A value is resolved to the node that it names. -/
theorem resolve_eq_ok {user : String} : b.resolve user v = .ok h ↔ b.handles.lookup v = some h := by
  unfold resolve
  split
  next found => simp [found]
  next missing => simp [missing]

/-- A value gets its node if it has none. -/
theorem define_eq_ok : b.define position op v h = .ok b' ↔
    b.handles.lookup v = none ∧ { b with handles := (v, h) :: b.handles } = b' := by
  unfold define
  split
  next found => simp [found]
  next missing => simp [missing]

/-- A new value keeps the nodes of the other ones. -/
theorem lookup_cons_new (new : b.handles.lookup v = none) :
    ((v, h) :: b.handles).lookup w = some k ↔ b.handles.lookup w = some k ∨ w = v ∧ k = h := by
  rw [List.lookup_cons]
  by_cases same : w = v
  · subst same
    simp [new, eq_comm]
  · simp [same, beq_false_of_ne same]

/-- Every value that is resolved has a node. -/
theorem exists_of_resolved {user : String} {hs : List Handle}
    (resolved : vs.mapM (b.resolve user) = .ok hs) :
    ∀ v ∈ vs, ∃ h ∈ hs, b.handles.lookup v = some h := by
  intro v hv
  obtain ⟨h, member, found⟩ := Results.exists_mem_of_mapM resolved v hv
  exact ⟨h, member, resolve_eq_ok.1 found⟩

/-- Values are resolved to their nodes. -/
theorem mem_resolved {user : String} {hs : List Handle}
    (resolved : vs.mapM (b.resolve user) = .ok hs) :
    h ∈ hs ↔ ∃ v ∈ vs, b.handles.lookup v = some h := by
  refine ⟨fun member => ?_, fun ⟨v, hv, found⟩ => ?_⟩
  · obtain ⟨v, hv, found⟩ := Results.exists_of_mem_mapM resolved h member
    exact ⟨v, hv, resolve_eq_ok.1 found⟩
  · obtain ⟨k, member, found'⟩ := exists_of_resolved resolved v hv
    obtain rfl := Option.some.inj (found.symm.trans found')
    exact member

/-! ## One more op -/

/-- A value of some output slots is that of the first one or of a later one. -/
theorem slots_cons : (∃ i : Nat, (v :: vs)[i]? = some w ∧ h = primary + slot + i) ↔
    (w = v ∧ h = primary + slot) ∨ ∃ i : Nat, vs[i]? = some w ∧ h = primary + (slot + 1) + i := by
  rw [← Nat.or_exists_add_one]
  simp [eq_comm, Nat.add_assoc, Nat.add_comm 1]

/-- No value is that of an output slot where there are none. -/
theorem slots_nil : ¬ ∃ i : Nat, ([] : List ValueId)[i]? = some w ∧ h = primary + slot + i := by
  simp

/-- The number of nodes so far, which is the handle of the next one. -/
abbrev count (b : Builder) : Nat := b.graph.nextHandle

/-- The output slots of an op from one on have been added: those but the first have nodes of their
own at the end, which share what describes the primary node. -/
structure SlotsAdded (b : Builder) (primary slot : Nat) (vs : List ValueId) (b' : Builder) :
    Prop where
  start : primary + max slot 1 = b.count
  count : primary + max (slot + vs.length) 1 = b'.count
  kept : ∀ h : Nat, h < b.count → b'.graph.description? h = b.graph.description? h
  new : ∀ h : Nat, b.count ≤ h → h < b'.count →
    b'.graph.description? h = b.graph.description? primary
  edge : ∀ u v : Nat, b'.graph.Edge u v ↔
    b.graph.Edge u v ∨ u = primary ∧ b.count ≤ v ∧ v < b'.count
  lookup : ∀ (v : ValueId) (h : Nat), b'.handles.lookup v = some h ↔
    b.handles.lookup v = some h ∨ ∃ i : Nat, vs[i]? = some v ∧ h = primary + slot + i
  outputs : b'.graph.outputs = b.graph.outputs

/-- Where no slot is left to add, nothing changes. -/
theorem SlotsAdded.nil (start : primary + max slot 1 = b.count) :
    b.SlotsAdded primary slot [] b where
  start := start
  count := start
  kept _ _ := rfl
  new h more lt := absurd lt (Nat.not_lt.2 more)
  edge u v := (or_iff_left fun none => Nat.not_lt.2 none.2.1 none.2.2).symm
  lookup v h := by simp
  outputs := rfl

/-- Slots that are added after the first one are added together with it. -/
theorem SlotsAdded.cons {b₁ : Builder} (first : b.SlotsAdded primary slot [v] b₁)
    (rest : b₁.SlotsAdded primary (slot + 1) vs b') : b.SlotsAdded primary slot (v :: vs) b' := by
  have start := first.start
  have count := first.count
  have count' := rest.count
  rw [List.length_singleton] at count
  refine ⟨start, ?_, fun h lt => ?_, fun h ge lt => ?_, fun u w => ?_, fun w h => ?_, ?_⟩
  · rw [← count', List.length_cons]
    omega
  · rw [rest.kept h (by omega), first.kept h lt]
  · by_cases lt₁ : h < b₁.count
    · rw [rest.kept h lt₁, first.new h ge lt₁]
    · rw [rest.new h (Nat.le_of_not_lt lt₁) lt, first.kept primary (by omega)]
  · have split : b.count ≤ w ∧ w < b'.count ↔
        (b.count ≤ w ∧ w < b₁.count) ∨ b₁.count ≤ w ∧ w < b'.count := by omega
    rw [rest.edge, first.edge, or_assoc, ← and_or_left, ← split]
  · simp only [rest.lookup, first.lookup, slots_cons, slots_nil, or_false, or_assoc]
  · rw [rest.outputs, first.outputs]

/-- The first slot of an op is the primary node. -/
theorem SlotsAdded.first (start : primary + 1 = b.count) (new : b.handles.lookup v = none) :
    b.SlotsAdded primary 0 [v] { b with handles := (v, primary) :: b.handles } where
  start := start
  count := start
  kept _ _ := rfl
  new h more lt := absurd lt (Nat.not_lt.2 more)
  edge u v := (or_iff_left fun none => Nat.not_lt.2 none.2.1 none.2.2).symm
  lookup w h := by
    simp only [lookup_cons_new new, slots_cons, slots_nil, or_false]
    rfl
  outputs := rfl

/-- A further slot gets a node of its own. -/
theorem SlotsAdded.further {g : Graph} (further : slot ≠ 0) (next : primary + slot = b.count)
    (new : b.handles.lookup v = none) (added : b.graph.addSecondary? primary slot = some g)
    (more : g.nextHandle = b.count + 1) :
    b.SlotsAdded primary slot [v] { graph := g, handles := (v, b.count) :: b.handles } where
  start := by omega
  count := by
    have one : max (slot + 1) 1 = slot + 1 := Nat.max_eq_left (Nat.le_add_left 1 slot)
    show primary + max (slot + 1) 1 = g.nextHandle
    rw [one, more, ← next, Nat.add_assoc]
  kept h lt := by rw [Graph.description?_addSecondary? added, if_neg (Nat.ne_of_lt lt)]
  new h ge lt := by
    have last : h = b.count := Nat.le_antisymm (Nat.le_of_lt_succ (Nat.lt_of_lt_of_eq lt more)) ge
    rw [Graph.description?_addSecondary? added, if_pos last]
  edge u w := by
    have last : b.count ≤ w ∧ w < g.nextHandle ↔ w = b.count := by rw [more]; omega
    exact (Graph.edge_addSecondary? added).trans (or_congr .rfl (and_congr .rfl last.symm))
  lookup w h := by
    simp only [lookup_cons_new new, slots_cons, slots_nil, or_false]
    rw [next]
  outputs := Graph.outputs_addSecondary? added

/-- Adding the output slots of an op adds them as described. The induction is on the values, and `slot`
is the position of the first of them. -/
theorem Sound.slotsAdded : ∀ {vs : List ValueId} {slot : Nat} {b : Builder}, b.Sound →
    primary + max slot 1 = b.count → b.addSlots position op primary slot vs = .ok b' →
      b.SlotsAdded primary slot vs b'
  | [], _, _, _, start, added => Except.ok.inj added ▸ .nil start
  | v :: vs, slot, b, sound, start, added => by
    rw [Builder.addSlots] at added
    split at added
    next first =>
      subst first
      obtain ⟨b₁, defined, added⟩ := Results.bind_eq_ok.1 added
      obtain ⟨new, rfl⟩ := define_eq_ok.1 defined
      have step := SlotsAdded.first start new
      have lt : primary < b.count := by omega
      exact step.cons ((sound.define lt defined).1.slotsAdded step.count added)
    next further =>
      split at added
      next => cases added
      next g secondary =>
        obtain ⟨b₁, defined, added⟩ := Results.bind_eq_ok.1 added
        obtain ⟨new, rfl⟩ := define_eq_ok.1 defined
        obtain ⟨growing, more⟩ := sound.growing.addSecondary? secondary
        have step := SlotsAdded.further (b := b) further (by omega) new secondary more
        have lt : b.count < g.nextHandle := more ▸ Nat.lt_succ_self _
        have sound' := sound.grow growing (Nat.le_of_lt lt)
        exact step.cons ((sound'.define lt defined).1.slotsAdded step.count added)

/-- The primary node of an op has been added, with the edges from its operands. -/
structure PrimaryAdded (b : Builder) (s : BuildSettings) (position : Nat) (op : TraceOp)
    (b' : Builder) : Prop where
  count : b'.count = b.count + 1
  description : ∀ h : Nat, b'.graph.description? h =
    if h = b.count then some (op.description s position .unmeasured) else b.graph.description? h
  edge : ∀ u w : Nat, b'.graph.Edge u w ↔
    b.graph.Edge u w ∨ w = b.count ∧ ∃ v ∈ op.inputs, b.handles.lookup v = some u
  operands : ∀ v ∈ op.inputs, ∃ h, b.handles.lookup v = some h
  handles : b'.handles = b.handles
  outputs : b'.graph.outputs = b.graph.outputs

/-- An op has been added: its nodes stand at the end, with edges from its operands to the first of
them and from there to the other ones. -/
structure OpAdded (b : Builder) (s : BuildSettings) (position : Nat) (op : TraceOp) (b' : Builder) :
    Prop where
  count : b'.count = b.count + op.nodeCount
  kept : ∀ h : Nat, h < b.count → b'.graph.description? h = b.graph.description? h
  new : ∀ h : Nat, b.count ≤ h → h < b'.count →
    b'.graph.description? h = some (op.description s position .unmeasured)
  edge : ∀ u w : Nat, b'.graph.Edge u w ↔ b.graph.Edge u w ∨
    (w = b.count ∧ ∃ v ∈ op.inputs, b.handles.lookup v = some u) ∨
      u = b.count ∧ u < w ∧ w < b'.count
  operands : ∀ v ∈ op.inputs, ∃ h, b.handles.lookup v = some h
  lookup : ∀ (v : ValueId) (h : Nat), b'.handles.lookup v = some h ↔ b.handles.lookup v = some h ∨
    ∃ slot : Nat, op.outputs[slot]? = some v ∧ h = b.count + slot
  outputs : b'.graph.outputs = b.graph.outputs

/-- An op gets its primary node first, and its output slots then. -/
theorem Sound.primaryAdded (sound : b.Sound) (added : b.addOp s position op = .ok b') :
    ∃ b₁ : Builder, b₁.Sound ∧ b.PrimaryAdded s position op b₁ ∧
      b₁.addSlots position op b.count 0 op.outputs = .ok b' := by
  obtain ⟨operands, resolved, added⟩ := Results.bind_eq_ok.1 added
  obtain ⟨sound₁, more⟩ := sound.addPrimary resolved (opLabel s position op).2
    (opLabel s position op).1 [op.outputShape] rfl
  refine ⟨_, sound₁, ⟨more, fun h => ?_, fun u w => ?_, fun v hv => ?_, rfl, ?_⟩, added⟩
  · rw [Graph.description?_foldl_connect, Graph.add, Graph.description?_push]
    rfl
  · have live : ∀ u ∈ operands, (b.graph.add (opLabel s position op).2 (opLabel s position op).1
        [op.outputShape] .unmeasured).Live u := fun u hu =>
      Graph.live_push.2 (.inr (sound.growing.full u (sound.resolve_mapM resolved u hu)))
    rw [Graph.edge_foldl_connect operands live, mem_resolved resolved, and_comm]
    exact or_congr (Graph.edge_push fun _ _ => rfl) .rfl
  · obtain ⟨h, -, found⟩ := exists_of_resolved resolved v hv
    exact ⟨h, found⟩
  · exact Graph.outputs_foldl_connect operands _

/-- An op has been added once its primary node and after that all of its output slots were. -/
theorem PrimaryAdded.opAdded {b₁ : Builder} (first : b.PrimaryAdded s position op b₁)
    (slots : b₁.SlotsAdded b.count 0 op.outputs b') : b.OpAdded s position op b' := by
  have start := first.count
  have count := slots.count
  rw [Nat.zero_add, Nat.max_comm, ← TraceOp.nodeCount] at count
  have pos := op.nodeCount_pos
  refine ⟨count.symm, fun h lt => ?_, fun h ge lt => ?_, fun u w => ?_, first.operands,
    fun v h => ?_, slots.outputs.trans first.outputs⟩
  · rw [slots.kept h (by omega), first.description, if_neg (Nat.ne_of_lt lt)]
  · by_cases same : h = b.count
    · rw [slots.kept h (by omega), first.description, if_pos same]
    · rw [slots.new h (by omega) lt, first.description, if_pos rfl]
  · rw [slots.edge, first.edge, or_assoc]
    refine or_congr .rfl (or_congr .rfl ?_)
    omega
  · rw [slots.lookup, first.handles]
    rfl

/-- A step of the builder adds its op to a sound builder as described. -/
theorem Sound.opAdded (sound : b.Sound) (added : b.addOp s position op = .ok b') :
    b.OpAdded s position op b' := by
  obtain ⟨b₁, sound₁, first, added⟩ := sound.primaryAdded added
  exact first.opAdded (sound₁.slotsAdded first.count.symm added)

end Builder

end StagePlan
