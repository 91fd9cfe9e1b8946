import StagePlan.Graph.Node

/-!
# Dataflow graphs

A `Graph` keeps its nodes in slots, one for each handle that was ever given out; a slot is emptied when
its node is removed and never filled again. The canonical order lists the handles of the live nodes in
the order they were added. All access goes through `Graph.node?`, which answers the live node of a
handle: `node?_modify` says what a change of one node does to it, `node?_modifyAll` what a change of a set
of nodes does, and `node?_push` what a new node does.
-/

namespace StagePlan

/-- A dataflow graph. -/
structure Graph where
  /-- The nodes by handle; a removed node leaves an empty slot. -/
  slots : Array (Option Node) := #[]
  /-- The handles of the live nodes, in canonical order. -/
  order : List Handle := []
  /-- The nodes that hold the results of the trace. -/
  outputs : HandleSet := ∅

namespace Graph

/-- The graph without nodes. -/
def empty : Graph := {}

/-- The live node of a handle. -/
def node? (g : Graph) (h : Handle) : Option Node := (g.slots[h]?).join

/-- The live nodes in canonical order. -/
def nodes (g : Graph) : List Node := g.order.filterMap g.node?

/-- The number of nodes. -/
def size (g : Graph) : Nat := g.order.length

/-- Whether there are no nodes. -/
def isEmpty (g : Graph) : Bool := g.order.isEmpty

/-- The node at a position of the canonical order. -/
def nodeAt? (g : Graph) (position : Nat) : Option Node := g.order[position]?.bind g.node?

/-- The handle that the next node gets. -/
def nextHandle (g : Graph) : Handle := g.slots.size

/-- Whether a handle is among the outputs. -/
def isOutput (g : Graph) (h : Handle) : Bool := h ∈ g.outputs

/-! ## Changing nodes in place -/

/-- The graph with the live node of a handle, if any, changed. -/
def modify (g : Graph) (h : Handle) (f : Node → Node) : Graph :=
  { g with slots := g.slots.modify h (Option.map f) }

/-- The graph with the live nodes of a set changed. -/
def modifyAll (g : Graph) (s : HandleSet) (f : Node → Node) : Graph :=
  s.toList.foldl (fun g h => g.modify h f) g

/-- The graph whose nodes are changed along the canonical order, each by the value at its position. -/
def modifyEach (g : Graph) (values : List α) (f : α → Node → Node) : Graph :=
  (g.order.zip values).foldl (fun g (h, a) => g.modify h (f a)) g

@[simp] theorem order_modify (g : Graph) (h : Handle) (f : Node → Node) :
    (g.modify h f).order = g.order := rfl

@[simp] theorem outputs_modify (g : Graph) (h : Handle) (f : Node → Node) :
    (g.modify h f).outputs = g.outputs := rfl

@[simp] theorem nextHandle_modify (g : Graph) (h : Handle) (f : Node → Node) :
    (g.modify h f).nextHandle = g.nextHandle := by
  simp [modify, nextHandle]

/-- Only the node that is modified reads differently afterwards. -/
theorem node?_modify (g : Graph) (h k : Handle) (f : Node → Node) :
    (g.modify h f).node? k = if h = k then (g.node? k).map f else g.node? k := by
  simp only [node?, modify, Array.getElem?_modify]
  split
  · cases g.slots[k]? with
    | none => rfl
    | some slot => cases slot <;> rfl
  · rfl

section ModifyAll

variable (g : Graph) (s : HandleSet) (f : Node → Node)

/-- What a change of several nodes leaves alone. -/
theorem foldl_modify_frame (hs : List Handle) :
    (hs.foldl (fun g h => g.modify h f) g).order = g.order ∧
      (hs.foldl (fun g h => g.modify h f) g).outputs = g.outputs ∧
        (hs.foldl (fun g h => g.modify h f) g).nextHandle = g.nextHandle := by
  induction hs generalizing g with
  | nil => exact ⟨rfl, rfl, rfl⟩
  | cons h hs ih => simpa using ih (g.modify h f)

@[simp] theorem order_modifyAll : (g.modifyAll s f).order = g.order := (foldl_modify_frame g f _).1

@[simp] theorem outputs_modifyAll : (g.modifyAll s f).outputs = g.outputs :=
  (foldl_modify_frame g f _).2.1

@[simp] theorem nextHandle_modifyAll : (g.modifyAll s f).nextHandle = g.nextHandle :=
  (foldl_modify_frame g f _).2.2

/-- Distinct handles are modified once each, and no other node reads differently. -/
theorem node?_foldl_modify {hs : List Handle} (distinct : hs.Nodup) (k : Handle) :
    (hs.foldl (fun g h => g.modify h f) g).node? k =
      if k ∈ hs then (g.node? k).map f else g.node? k := by
  induction hs generalizing g with
  | nil => simp
  | cons h hs ih =>
    rw [List.nodup_cons] at distinct
    rw [List.foldl_cons, ih _ distinct.2, node?_modify]
    by_cases same : h = k
    · subst same
      simp [distinct.1]
    · simp [same, Ne.symm same]

/-- Modifying a set of handles changes exactly the nodes of the set. -/
theorem node?_modifyAll (k : Handle) :
    (g.modifyAll s f).node? k = if k ∈ s then (g.node? k).map f else g.node? k :=
  node?_foldl_modify g f s.nodup_toList k

end ModifyAll

/-! ## Adding nodes and edges -/

/-- The graph with a further node at the end of the canonical order; the node is built from its handle
and its index. -/
def push (g : Graph) (node : Handle → Nat → Node) : Graph :=
  { g with
    slots := g.slots.push (some (node g.nextHandle g.size))
    order := g.order ++ [g.nextHandle] }

/-- The new node is found under the next handle, and all others where they were. -/
theorem node?_push (g : Graph) (node : Handle → Nat → Node) (k : Handle) :
    (g.push node).node? k =
      if k = g.nextHandle then some (node g.nextHandle g.size) else g.node? k := by
  simp only [node?, push, nextHandle, Array.getElem?_push]
  split <;> simp_all

/-- The graph with a further node; its handle is `g.nextHandle`. -/
def add (g : Graph) (scope : String) (kind : NodeKind) (shapes : List Shape) (weight : NodeWeight) :
    Graph :=
  g.push fun handle index => ⟨handle, index, scope, kind, shapes, weight, ∅, ∅, none⟩

/-- The graph with an edge, recorded at those of its ends that are live. -/
def connect (g : Graph) (source target : Handle) : Graph :=
  (g.modify source (·.addTargets [target])).modify target (·.addSources [source])

/-- The graph without an edge. -/
def disconnect (g : Graph) (source target : Handle) : Graph :=
  (g.modify source (·.dropTargets [target])).modify target (·.dropSources [source])

/-- The graph with the node of a further output slot and the edge to it from the primary node. The slot
has to follow the primary node at the distance of its number. -/
def addSecondary? (g : Graph) (primary : Handle) (slot : Nat) : Option Graph :=
  match g.node? primary with
  | none => none
  | some node =>
    if slot = 0 ∨ node.index + slot ≠ g.size then none
    else some ((g.push (node.secondary · ·)).connect primary g.nextHandle)

/-- The graph with one more output. -/
def markOutput (g : Graph) (h : Handle) : Graph := { g with outputs := g.outputs.insert h }

/-! ## Removing nodes -/

/-- The graph without the given node, which is live: its sources are joined to its targets, so that
what could be reached through it still can. -/
def splice (g : Graph) (h : Handle) (node : Node) : Graph :=
  let emptied : Graph := { g with slots := g.slots.setIfInBounds h none }
  let bridged := emptied.modifyAll node.sources fun source =>
    { source with targets := (source.targets.erase h).union node.targets }
  let bridged := bridged.modifyAll node.targets fun target =>
    { target with sources := (target.sources.erase h).union node.sources }
  { bridged with
    order := bridged.order.filter (· ≠ h)
    outputs := bridged.outputs.erase h }

/-- Removes a node, if it is live; it is answered as it was. -/
def remove (g : Graph) (h : Handle) : Option Node × Graph :=
  match g.node? h with
  | none => (none, g)
  | some node => (some node, g.splice h node)

/-- Removes nodes one after the other and counts those that were live. -/
def removeEach (g : Graph) : List Handle → Nat × Graph
  | [] => (0, g)
  | h :: hs =>
    match g.node? h with
    | none => g.removeEach hs
    | some node =>
      let (n, g) := (g.splice h node).removeEach hs
      (n + 1, g)

/-- The handles of the nodes that a test picks out, in canonical order. -/
def pick (g : Graph) (test : Graph → Node → Bool) : List Handle :=
  g.order.filter fun h => (g.node? h).any (test g)

@[simp] theorem order_splice (g : Graph) (h : Handle) (node : Node) :
    (g.splice h node).order = g.order.filter (· ≠ h) := by
  simp [splice]

/-- Removing nodes one after another lists no more nodes than before. -/
theorem length_order_removeEach_le (g : Graph) (hs : List Handle) :
    (g.removeEach hs).2.order.length ≤ g.order.length := by
  fun_induction removeEach g hs with
  | case1 => exact Nat.le_refl _
  | case2 _ _ _ _ ih => exact ih
  | case3 g h hs node _ _ _ removed ih =>
    rw [removed, order_splice] at ih
    exact Nat.le_trans ih (List.length_filter_le _ _)

/-- Removing what a test picks out shortens the canonical order, if that is anything. -/
theorem length_order_removeEach_lt {g : Graph} {test : Graph → Node → Bool}
    (some_ : g.pick test ≠ []) : (g.removeEach (g.pick test)).2.order.length < g.order.length := by
  cases picked : g.pick test with
  | nil => exact absurd picked some_
  | cons h hs =>
    have inPick : h ∈ g.pick test := picked ▸ List.mem_cons_self
    obtain ⟨inOrder, passes⟩ := List.mem_filter.1 inPick
    cases live : g.node? h with
    | none => simp [live] at passes
    | some node =>
      simp only [removeEach, live]
      refine Nat.lt_of_le_of_lt (length_order_removeEach_le _ hs) ?_
      rw [order_splice]
      exact List.length_filter_lt_length_iff_exists.2 ⟨h, inOrder, by simp⟩

/-- Removes what a test picks out, until it picks out nothing; counts the removed nodes. -/
def removeWhere (test : Graph → Node → Bool) (g : Graph) : Nat × Graph :=
  if some_ : g.pick test = [] then (0, g)
  else
    let removed := g.removeEach (g.pick test)
    have := length_order_removeEach_lt some_
    let further := removeWhere test removed.2
    (removed.1 + further.1, further.2)
termination_by g.order.length

/-! ## Indices -/

/-- The graph in which every index is the position in the canonical order. -/
def renumber (g : Graph) : Graph :=
  g.modifyEach (List.range g.size) fun index node => { node with index := index }

/-- The indices of the live nodes of a set, in ascending order. -/
def indices (g : Graph) (s : HandleSet) : List Nat :=
  ((s.toList.filterMap g.node?).map (·.index)).mergeSort

/-- For every node the ascending indices of its neighbours: of its targets only, or of its sources as
well. -/
def adjacency (g : Graph) (directed : Bool) : List (List Nat) :=
  g.nodes.map fun n => g.indices (if directed then n.targets else n.targets.union n.sources)

/-- The costs in canonical order. -/
def weights (g : Graph) : List NodeWeight := g.nodes.map (·.weight)

/-- Whether the indices are exactly the positions in the canonical order. -/
def isNormalized (g : Graph) : Bool := g.nodes.zipIdx.all fun (n, position) => n.index == position

/-- Whether every edge is recorded at both ends, which are live. -/
def isConsistent (g : Graph) : Bool :=
  g.nodes.all fun n =>
    n.targets.toList.all (fun h => (g.node? h).any (n.handle ∈ ·.sources))
      && n.sources.toList.all (fun h => (g.node? h).any (n.handle ∈ ·.targets))

end Graph

end StagePlan
