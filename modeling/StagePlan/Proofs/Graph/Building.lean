import Mathlib.Data.List.Sort
import StagePlan.Build
import StagePlan.Proofs.Graph.Edges
import StagePlan.Proofs.Results

/-!
# Graphs of traces

A graph under construction is `Growing`: it is topological and no node has been removed, so that
every index is the handle of its node and the position of that (`Growing.isNormalized`). Adding a
node keeps this (`Growing.push`), and so does an edge that leads from a node to a younger one
(`Growing.connect`). A builder is `Sound` if moreover its values name nodes of its graph, so that
an op, whose primary node is younger than all of them, reads from older nodes only; `Sound.addOp`
is the step. `ofTrace_topological` and `ofTrace_normalized` conclude that the graph of a trace is
topological and that its indices are the positions.
-/

open Relation

namespace StagePlan

namespace Graph

/-- A topological graph from which no node has been removed, so that indices are handles. -/
structure Growing (g : Graph) : Prop extends Topological g where
  full : ∀ h, h < g.nextHandle → g.Live h
  index : ∀ h n, g.node? h = some n → n.index = h

section

variable {g : Graph} {u v h : Handle} {node : Handle → Nat → Node}

/-- The canonical order of a growing graph lists all handles that were given out. -/
theorem Growing.order_eq (growing : g.Growing) : g.order = List.range g.nextHandle := by
  refine growing.ascending.eq_of_mem_iff List.pairwise_lt_range fun h => ?_
  rw [growing.listed, List.mem_range]
  exact ⟨fun live => live.lt, growing.full h⟩

/-- A growing graph has as many nodes as handles were given out. -/
theorem Growing.size_eq (growing : g.Growing) : g.size = g.nextHandle := by
  rw [size, growing.order_eq, List.length_range]

/-- The indices of a growing graph are the positions. -/
theorem Growing.isNormalized (growing : g.Growing) : g.isNormalized = true := by
  refine isNormalized_iff.2 fun i n at_ => ?_
  rw [growing.getElem?_nodes, growing.order_eq, Option.bind_eq_some_iff] at at_
  obtain ⟨h, at_, found⟩ := at_
  obtain ⟨_, rfl⟩ := List.getElem?_eq_some_iff.1 at_
  rw [List.getElem_range] at found
  exact growing.index i n found

/-! ## A further node -/

@[simp] theorem nextHandle_push : (g.push node).nextHandle = g.nextHandle + 1 :=
  Array.size_push _

/-- A new node is live, and so is what was live before. -/
theorem live_push : (g.push node).Live h ↔ h = g.nextHandle ∨ g.Live h := by
  unfold Live
  rw [node?_push]
  by_cases new : h = g.nextHandle
  · rw [if_pos new]
    exact ⟨fun _ => .inl new, fun _ => ⟨_, rfl⟩⟩
  · rw [if_neg new]
    exact ⟨.inr, fun live => live.resolve_left new⟩

/-- A node that records nothing on a side leaves what is recorded there. -/
theorem records_push {side : Node → HandleSet} (nothing : ∀ h i, side (node h i) = ∅) :
    (g.push node).Records side u v ↔ g.Records side u v := by
  unfold Records
  rw [node?_push]
  by_cases new : u = g.nextHandle
  · rw [if_pos new, new, node?_eq_none (not_live_nextHandle g)]
    refine ⟨?_, fun ⟨_, found, _⟩ => (nomatch found)⟩
    rintro ⟨_, found, member⟩
    cases found
    rw [nothing] at member
    exact absurd member (HandleSet.not_mem_empty v)
  · rw [if_neg new]

/-- A new node without targets brings no edge. -/
theorem edge_push (targets : ∀ h i, (node h i).targets = ∅) :
    (g.push node).Edge u v ↔ g.Edge u v :=
  records_push targets

/-- A new node without sources brings no record of one. -/
theorem back_push (sources : ∀ h i, (node h i).sources = ∅) :
    (g.push node).Back u v ↔ g.Back u v :=
  records_push sources

/-- A new node that knows its handle is stored in place. -/
theorem Stored.push (stored : g.Stored) (handle : ∀ h i, (node h i).handle = h) :
    (g.push node).Stored where
  handle h n found := by
    rw [node?_push] at found
    by_cases new : h = g.nextHandle
    · rw [if_pos new] at found
      cases found
      exact (handle _ _).trans new.symm
    · rw [if_neg new] at found
      exact stored.handle h n found
  listed h := by
    rw [live_push, or_comm]
    show h ∈ g.order ++ [g.nextHandle] ↔ _
    rw [List.mem_append, List.mem_singleton, stored.listed]
  ascending := by
    refine List.pairwise_append.2 ⟨stored.ascending, List.pairwise_singleton _ _, ?_⟩
    intro u listed v new
    rw [List.mem_singleton.1 new]
    exact ((stored.listed u).1 listed).lt

/-- A further node without edges keeps a graph growing. -/
theorem Growing.push (growing : g.Growing) (handle : ∀ h i, (node h i).handle = h)
    (index : ∀ h i, (node h i).index = i) (sources : ∀ h i, (node h i).sources = ∅)
    (targets : ∀ h i, (node h i).targets = ∅) : (g.push node).Growing where
  toStored := growing.toStored.push handle
  consistent u v := by rw [edge_push targets, back_push sources, growing.consistent]
  forward u v edge := growing.forward u v ((edge_push targets).1 edge)
  outputs_live h output := live_push.2 (.inr (growing.outputs_live h output))
  full h lt := by
    rw [nextHandle_push] at lt
    rcases Nat.eq_or_lt_of_le (Nat.le_of_lt_succ lt) with new | lt
    · exact live_push.2 (.inl new)
    · exact live_push.2 (.inr (growing.full h lt))
  index h n found := by
    rw [node?_push] at found
    by_cases new : h = g.nextHandle
    · rw [if_pos new] at found
      cases found
      rw [index, growing.size_eq, new]
    · rw [if_neg new] at found
      exact growing.index h n found

section

variable {scope : String} {kind : NodeKind} {shapes : List Shape} {weight : NodeWeight}

@[simp] theorem nextHandle_add :
    (g.add scope kind shapes weight).nextHandle = g.nextHandle + 1 := nextHandle_push

/-- A graph still grows when a node without neighbours is added. -/
theorem Growing.add (growing : g.Growing) : (g.add scope kind shapes weight).Growing :=
  growing.push (fun _ _ => rfl) (fun _ _ => rfl) (fun _ _ => rfl) fun _ _ => rfl

end

/-! ## A further edge -/

@[simp] theorem nextHandle_connect : (g.connect u v).nextHandle = g.nextHandle := by
  rw [connect, nextHandle_modify, nextHandle_modify]

/-- A new edge is written down at its two ends, and nowhere else. -/
theorem node?_connect (k : Handle) : (g.connect u v).node? k = (g.node? k).map fun n =>
    { n with
      targets := if u = k then n.targets.insert v else n.targets
      sources := if v = k then n.sources.insert u else n.sources } := by
  rw [connect, node?_modify, node?_modify]
  cases g.node? k with
  | none => simp
  | some n => split <;> split <;> rfl

/-- From a live node, a new edge comes on top of those that there are. -/
theorem edge_connect (live : g.Live u) {a b : Handle} :
    (g.connect u v).Edge a b ↔ g.Edge a b ∨ a = u ∧ b = v := by
  unfold Edge
  rw [node?_connect]
  by_cases same : u = a
  · subst same
    obtain ⟨n, found⟩ := live
    rw [found]
    simp [or_comm]
  · simp [same, Ne.symm same]

/-- So it does at its other end, if that is live. -/
theorem back_connect (live : g.Live v) {a b : Handle} :
    (g.connect u v).Back a b ↔ g.Back a b ∨ a = u ∧ b = v := by
  unfold Back
  rw [node?_connect]
  by_cases same : v = b
  · subst same
    obtain ⟨n, found⟩ := live
    rw [found]
    simp [or_comm]
  · simp [same, Ne.symm same]

/-- A new edge neither brings nodes nor removes any. -/
theorem live_connect : (g.connect u v).Live h ↔ g.Live h := by
  unfold Live
  rw [node?_connect]
  cases g.node? h with
  | none => exact ⟨fun ⟨_, found⟩ => (nomatch found), fun ⟨_, found⟩ => (nomatch found)⟩
  | some n => exact ⟨fun _ => ⟨_, rfl⟩, fun _ => ⟨_, rfl⟩⟩

/-- A new edge leaves every node stored in place. -/
theorem Stored.connect (stored : g.Stored) : (g.connect u v).Stored := by
  unfold Graph.connect
  refine (stored.modify u ?_).modify v ?_ <;> exact fun _ => rfl

/-- An edge to a younger node keeps a graph growing. -/
theorem Growing.connect (growing : g.Growing) (older : u < v) (lt : v < g.nextHandle) :
    (g.connect u v).Growing := by
  have source := growing.full u (Nat.lt_trans older lt)
  have target := growing.full v lt
  refine ⟨⟨growing.toStored.connect, fun a b => ?_, fun a b edge => ?_, fun h output => ?_⟩,
    fun h lt => ?_, fun h n found => ?_⟩
  · rw [edge_connect source, back_connect target, growing.consistent]
  · rcases (edge_connect source).1 edge with edge | ⟨rfl, rfl⟩
    · exact growing.forward a b edge
    · exact older
  · exact live_connect.2 (growing.outputs_live h output)
  · exact live_connect.2 (growing.full h (nextHandle_connect ▸ lt))
  · rw [node?_connect] at found
    obtain ⟨m, found', rfl⟩ := Option.map_eq_some_iff.1 found
    exact growing.index h m found'

/-- Edges from older nodes to one node keep a graph growing, and take no handle. -/
theorem Growing.foldl_connect : ∀ (us : List Handle) {g : Graph}, g.Growing → (∀ u ∈ us, u < v) →
    v < g.nextHandle → (us.foldl (fun g u => g.connect u v) g).Growing ∧
      (us.foldl (fun g u => g.connect u v) g).nextHandle = g.nextHandle
  | [], _, growing, _, _ => ⟨growing, rfl⟩
  | u :: us, g, growing, older, lt => by
    have first := growing.connect (older u List.mem_cons_self) lt
    obtain ⟨rest, same⟩ := Growing.foldl_connect us first
      (fun w hw => older w (List.mem_cons_of_mem u hw)) (nextHandle_connect.symm ▸ lt)
    exact ⟨rest, same.trans nextHandle_connect⟩

/-- There is a node for an output slot if the slot follows its primary node at the right distance. -/
theorem addSecondary?_eq_some {g' : Graph} {primary : Handle} {slot : Nat} :
    g.addSecondary? primary slot = some g' ↔ ∃ node, g.node? primary = some node ∧ slot ≠ 0 ∧
      node.index + slot = g.size ∧
        (g.push (node.secondary · ·)).connect primary g.nextHandle = g' := by
  unfold Graph.addSecondary?
  cases found : g.node? primary with
  | none => exact ⟨fun added => (nomatch added), fun ⟨_, none_, _⟩ => (nomatch none_)⟩
  | some node =>
    simp only [Option.some.injEq, exists_eq_left', Option.ite_none_left_eq_some, not_or, ne_eq,
      Decidable.not_not, and_assoc]

/-- The node of a further output slot keeps a graph growing. -/
theorem Growing.addSecondary? {g' : Graph} {primary : Handle} {slot : Nat} (growing : g.Growing)
    (added : g.addSecondary? primary slot = some g') :
    g'.Growing ∧ g'.nextHandle = g.nextHandle + 1 := by
  obtain ⟨node, found, -, -, rfl⟩ := addSecondary?_eq_some.1 added
  have pushed : (g.push (node.secondary · ·)).Growing :=
    growing.push (fun _ _ => rfl) (fun _ _ => rfl) (fun _ _ => rfl) fun _ _ => rfl
  refine ⟨pushed.connect (Live.lt ⟨node, found⟩) ?_, ?_⟩
  · rw [nextHandle_push]
    exact Nat.lt_succ_self _
  · rw [nextHandle_connect, nextHandle_push]

/-- There is a node for the output slot that follows its primary node at the right distance. -/
theorem Growing.exists_addSecondary? {primary slot : Nat} (growing : g.Growing)
    (further : slot ≠ 0) (next : primary + slot = g.nextHandle) :
    ∃ g', g.addSecondary? primary slot = some g' := by
  have older : primary < g.nextHandle := next ▸ Nat.lt_add_of_pos_right (Nat.pos_of_ne_zero further)
  obtain ⟨node, found⟩ := growing.full primary older
  have inPlace : node.index + slot = g.size := by
    rw [growing.index primary node found, growing.size_eq, next]
  exact ⟨_, addSecondary?_eq_some.2 ⟨node, found, further, inPlace, rfl⟩⟩

/-- Live outputs keep a graph topological. -/
theorem Topological.foldl_markOutput : ∀ (hs : List Handle) {g : Graph}, g.Topological →
    (∀ h ∈ hs, g.Live h) → (hs.foldl markOutput g).Topological
  | [], _, top, _ => top
  | h :: hs, g, top, live => by
    have marked : (g.markOutput h).Topological :=
      { top with
        outputs_live := fun k output => (HandleSet.mem_insert.1 output).elim
          (fun same => same ▸ live h List.mem_cons_self) (top.outputs_live k) }
    exact Topological.foldl_markOutput hs marked fun k hk => live k (List.mem_cons_of_mem h hk)

@[simp] theorem nodes_foldl_markOutput : ∀ (hs : List Handle) (g : Graph),
    (hs.foldl markOutput g).nodes = g.nodes
  | [], _ => rfl
  | h :: hs, g => nodes_foldl_markOutput hs (g.markOutput h)

/-- Nothing is wrong with the graph without nodes. -/
theorem growing_empty : empty.Growing := by
  have dead : ∀ h, ¬ empty.Live h := fun h live => Nat.not_lt_zero h live.lt
  refine ⟨⟨⟨fun h n found => absurd ⟨n, found⟩ (dead h), fun h => ?_, List.Pairwise.nil⟩,
    fun u v => ?_, fun u v edge => absurd edge.live (dead u), fun h output => ?_⟩, fun h lt => ?_,
    fun h n found => absurd ⟨n, found⟩ (dead h)⟩
  · exact ⟨fun listed => (nomatch listed), fun live => absurd live (dead h)⟩
  · exact ⟨fun edge => absurd edge.live (dead u), fun back => absurd back.live (dead v)⟩
  · exact absurd output (HandleSet.not_mem_empty h)
  · exact absurd lt (Nat.not_lt_zero h)

end

end Graph

/-! ## Builders -/

/-- The graph under construction is growing, and values name its nodes. -/
structure Builder.Sound (b : Builder) : Prop where
  growing : b.graph.Growing
  known : ∀ v h, b.handles.lookup v = some h → h < b.graph.nextHandle

namespace Builder.Sound

variable {b b' : Builder} {s : BuildSettings} {position : Nat} {op : TraceOp}

/-- The builder that nothing was added to is sound. -/
theorem empty : ({} : Builder).Sound where
  growing := Graph.growing_empty
  known _ _ found := nomatch found

/-- One more value has a node, while the graph grows. -/
theorem extend {g : Graph} {v : ValueId} {h : Handle} (sound : b.Sound) (growing : g.Growing)
    (more : b.graph.nextHandle ≤ g.nextHandle) (lt : h < g.nextHandle) :
    ({ graph := g, handles := (v, h) :: b.handles } : Builder).Sound where
  growing := growing
  known w k found := by
    rw [List.lookup_cons] at found
    split at found
    next => cases found; exact lt
    next => exact Nat.lt_of_lt_of_le (sound.known w k found) more

/-- One more input keeps a builder sound. -/
theorem addInput {input : TraceInput} (sound : b.Sound)
    (added : b.addInput s position input = .ok b') : b'.Sound := by
  unfold Builder.addInput at added
  split at added
  next => cases added
  next sizes _ =>
    obtain ⟨⟨kind, scope⟩, _, added⟩ := Results.bind_eq_ok.1 added
    dsimp only at added
    split at added
    next => cases added
    next =>
      cases added
      refine sound.extend sound.growing.add ?_ ?_
      · exact Graph.nextHandle_add.symm ▸ Nat.le_succ _
      · exact Graph.nextHandle_add.symm ▸ Nat.lt_succ_self _

/-- All inputs together keep a builder sound. -/
theorem addInputs : ∀ {inputs : List TraceInput} {position : Nat} {b : Builder}, b.Sound →
    b.addInputs s position inputs = .ok b' → b'.Sound
  | [], _, _, sound, added => Except.ok.inj added ▸ sound
  | _ :: _, _, _, sound, added =>
    let ⟨_, first, rest⟩ := Results.bind_eq_ok.1 added; addInputs (sound.addInput first) rest

/-- A value is resolved to a node of the graph. -/
theorem resolve {user : String} {v : ValueId} {h : Handle} (sound : b.Sound)
    (resolved : b.resolve user v = .ok h) : h < b.graph.nextHandle := by
  unfold Builder.resolve at resolved
  split at resolved
  next found =>
    cases resolved
    exact sound.known v h found
  next => cases resolved

/-- The values that an op reads are resolved to nodes of the graph. -/
theorem resolve_mapM {user : String} {vs : List ValueId} {hs : List Handle} (sound : b.Sound)
    (resolved : vs.mapM (b.resolve user) = .ok hs) : ∀ h ∈ hs, h < b.graph.nextHandle := by
  intro h hh
  obtain ⟨v, _, found⟩ := Results.exists_of_mem_mapM resolved h hh
  exact sound.resolve found

/-- A value gets a node of the graph. -/
theorem define {v : ValueId} {h : Handle} (sound : b.Sound) (lt : h < b.graph.nextHandle)
    (defined : b.define position op v h = .ok b') :
    b'.Sound ∧ b'.graph = b.graph := by
  unfold Builder.define at defined
  split at defined
  next => cases defined
  next =>
    cases defined
    exact ⟨sound.extend sound.growing (Nat.le_refl _) lt, rfl⟩

/-- A graph that grows keeps a builder sound. -/
theorem grow {g : Graph} (sound : b.Sound) (growing : g.Growing)
    (more : b.graph.nextHandle ≤ g.nextHandle) : ({ b with graph := g } : Builder).Sound where
  growing := growing
  known v h found := Nat.lt_of_lt_of_le (sound.known v h found) more

/-- The output slots of an op keep a builder sound. -/
theorem addSlots {primary : Handle} : ∀ {vs : List ValueId} {slot : Nat} {b : Builder}, b.Sound →
    primary < b.graph.nextHandle → b.addSlots position op primary slot vs = .ok b' → b'.Sound
  | [], _, _, sound, _, added => Except.ok.inj added ▸ sound
  | v :: vs, slot, b, sound, lt, added => by
    unfold Builder.addSlots at added
    split at added
    next =>
      obtain ⟨b₁, defined, rest⟩ := Results.bind_eq_ok.1 added
      obtain ⟨sound₁, same⟩ := sound.define lt defined
      exact addSlots sound₁ (same ▸ lt) rest
    next =>
      split at added
      next => cases added
      next g secondary =>
        obtain ⟨b₁, defined, rest⟩ := Results.bind_eq_ok.1 added
        obtain ⟨growing, next⟩ := sound.growing.addSecondary? secondary
        have more : b.graph.nextHandle < g.nextHandle := next.symm ▸ Nat.lt_succ_self _
        obtain ⟨sound₁, same⟩ := (sound.grow growing (Nat.le_of_lt more)).define more defined
        exact addSlots sound₁ (same ▸ Nat.lt_trans lt more) rest

/-- The primary node of an op, with edges from those of its operands, keeps a builder sound: it is
younger than all of them. -/
theorem addPrimary {user : String} {operands : List Handle} {g : Graph} (sound : b.Sound)
    (resolved : op.inputs.mapM (b.resolve user) = .ok operands) (scope : String) (kind : NodeKind)
    (shapes : List Shape) (same : operands.foldl (fun g operand => g.connect operand
      b.graph.nextHandle) (b.graph.add scope kind shapes .unmeasured) = g) :
    ({ b with graph := g } : Builder).Sound ∧ g.nextHandle = b.graph.nextHandle + 1 := by
  have next : (b.graph.add scope kind shapes .unmeasured).nextHandle = b.graph.nextHandle + 1 :=
    Graph.nextHandle_add
  have lt : b.graph.nextHandle < b.graph.nextHandle + 1 := Nat.lt_succ_self _
  obtain ⟨growing, more⟩ := Graph.Growing.foldl_connect operands sound.growing.add
    (sound.resolve_mapM resolved) (next.symm ▸ lt)
  rw [next] at more
  subst same
  exact ⟨sound.grow growing (more ▸ Nat.le_of_lt lt), more⟩

/-- One more op keeps a builder sound. -/
theorem addOp (sound : b.Sound) (added : b.addOp s position op = .ok b') : b'.Sound := by
  obtain ⟨operands, resolved, added⟩ := Results.bind_eq_ok.1 added
  obtain ⟨sound', next⟩ := sound.addPrimary resolved (opLabel s position op).2
    (opLabel s position op).1 [op.outputShape] rfl
  exact sound'.addSlots (next ▸ Nat.lt_succ_self _) added

/-- All ops together keep a builder sound. -/
theorem addOps : ∀ {ops : List TraceOp} {position : Nat} {b : Builder}, b.Sound →
    b.addOps s position ops = .ok b' → b'.Sound
  | [], _, _, sound, added => Except.ok.inj added ▸ sound
  | _ :: _, _, _, sound, added =>
    let ⟨_, first, rest⟩ := Results.bind_eq_ok.1 added; addOps (sound.addOp first) rest

/-- Marking the results leaves a topological graph. -/
theorem markResults {results : List ValueId} {g : Graph} (sound : b.Sound)
    (marked : b.markResults results = .ok g) : g.Topological := by
  obtain ⟨handles, resolved, marked⟩ := Results.bind_eq_ok.1 marked
  cases marked
  have live : ∀ h ∈ handles, b.graph.Live h := fun h hh =>
    sound.growing.full h (sound.resolve_mapM resolved h hh)
  exact Graph.Topological.foldl_markOutput handles sound.growing.toTopological live

end Builder.Sound

/-! ## Traces -/

namespace Graph

variable {t : Trace} {s : BuildSettings} {g : Graph}

/-- Measuring costs touches neither handles nor edges. -/
theorem sameLinks_override (overrides : ProfileSet) (g : Graph) :
    SameLinks g (g.mapNodes (·.override overrides)) where
  order := rfl
  outputs := rfl
  links h := by
    rw [node?_mapNodes, Option.map_map]
    refine Option.map_congr fun n _ => ?_
    show (n.override overrides).links = n.links
    unfold Node.override
    split <;> rfl

/-- Changing all nodes keeps them in their order. -/
theorem nodes_mapNodes (g : Graph) (f : Node → Node) : (g.mapNodes f).nodes = g.nodes.map f := by
  rw [nodes, nodes, List.map_filterMap]
  exact congrArg (List.filterMap · g.order) (funext (node?_mapNodes g f))

/-- Measuring costs leaves the indices as they are. -/
theorem isNormalized_override (overrides : ProfileSet) (normalized : g.isNormalized = true) :
    (g.mapNodes (·.override overrides)).isNormalized = true := by
  refine isNormalized_iff.2 fun i n at_ => ?_
  rw [nodes_mapNodes, List.getElem?_map, Option.map_eq_some_iff] at at_
  obtain ⟨m, at_, rfl⟩ := at_
  have index : (m.override overrides).index = m.index := by
    unfold Node.override
    split <;> rfl
  rw [index]
  exact isNormalized_iff.1 normalized i m at_

/-- A trace with inputs enough is built step by step. -/
theorem ofTraceUnmeasured_eq (t : Trace) (s : BuildSettings) : ofTraceUnmeasured t s =
    if t.inputs.length < s.numInputs then
      .error (.settings (.tooManyInputs s.numInputs t.inputs.length))
    else Builder.addInputs s {} 0 t.inputs >>= fun b =>
      b.addOps s 0 t.ops >>= fun b => b.markResults t.outputs := by
  unfold ofTraceUnmeasured
  split <;> rfl

/-- A graph that is built has its results marked by a sound builder. -/
theorem exists_sound (built : ofTraceUnmeasured t s = .ok g) :
    ∃ b : Builder, b.Sound ∧ b.markResults t.outputs = .ok g := by
  unfold ofTraceUnmeasured at built
  split at built
  next => cases built
  next =>
    obtain ⟨b, inputs, rest⟩ := Results.bind_eq_ok.1 built
    obtain ⟨b', ops, marked⟩ := Results.bind_eq_ok.1 rest
    exact ⟨b', (Builder.Sound.empty.addInputs inputs).addOps ops, marked⟩

/-- The graph of a trace is topological. -/
theorem ofTrace_topological (built : ofTrace t s = .ok g) : g.Topological := by
  obtain ⟨unmeasured, first, measured⟩ := Results.bind_eq_ok.1 built
  cases measured
  obtain ⟨b, sound, marked⟩ := exists_sound first
  exact (sameLinks_override s.overrides unmeasured).topological (sound.markResults marked)

/-- The indices of the graph of a trace are the positions. -/
theorem ofTrace_normalized (built : ofTrace t s = .ok g) : g.isNormalized = true := by
  obtain ⟨unmeasured, first, measured⟩ := Results.bind_eq_ok.1 built
  cases measured
  obtain ⟨b, sound, marked⟩ := exists_sound first
  obtain ⟨handles, _, marked⟩ := Results.bind_eq_ok.1 marked
  cases marked
  refine isNormalized_override s.overrides ?_
  rw [Graph.isNormalized, nodes_foldl_markOutput]
  exact sound.growing.isNormalized

end Graph

end StagePlan
