import StagePlan.Graph.Cleanup
import StagePlan.Proofs.Graph.Building

/-!
# Redescribed graphs

Shapes and costs describe a node, and nothing that changes a graph reads them. So it does not matter
whether the nodes get other shapes and costs before a change or after it, as long as these are found
from what describes a node (`Node.redescribe`). Nodes that are added, joined, spliced out or
renumbered are so alike (`redescribe_splice`, `redescribe_modifyEach`), and the clean-up, which
picks nodes by their scopes and edges, picks the same ones (`cleanUp_redescribe`).
-/

namespace StagePlan

/-- Other shapes and another cost for a node, found from its scope, kind, shapes and cost. -/
abbrev Redescription := String → NodeKind → List Shape → NodeWeight → List Shape × NodeWeight

/-- The node with other shapes and another cost. -/
def Node.redescribe (r : Redescription) (n : Node) : Node :=
  { n with
    shapes := (r n.scope n.kind n.shapes n.weight).1
    weight := (r n.scope n.kind n.shapes n.weight).2 }

namespace Graph

/-- The graph whose nodes have other shapes and costs. -/
def redescribe (r : Redescription) (g : Graph) : Graph := g.mapNodes (·.redescribe r)

variable {r : Redescription}

@[simp] theorem order_redescribe (r : Redescription) (g : Graph) :
    (g.redescribe r).order = g.order := rfl

@[simp] theorem size_redescribe (r : Redescription) (g : Graph) :
    (g.redescribe r).size = g.size := rfl

@[simp] theorem nextHandle_redescribe (r : Redescription) (g : Graph) :
    (g.redescribe r).nextHandle = g.nextHandle :=
  Array.size_map

@[simp] theorem node?_redescribe (r : Redescription) (g : Graph) (h : Handle) :
    (g.redescribe r).node? h = (g.node? h).map (·.redescribe r) :=
  node?_mapNodes g _ h

/-! ## Nodes in place -/

/-- A change of a node that has nothing to do with what describes it is the same for other shapes
and costs. -/
theorem redescribe_modify {f : Node → Node}
    (blind : ∀ n, (f n).redescribe r = f (n.redescribe r)) (g : Graph) (h : Handle) :
    (g.modify h f).redescribe r = (g.redescribe r).modify h f := by
  have slots : (g.slots.modify h (Option.map f)).map (Option.map (·.redescribe r))
      = (g.slots.map (Option.map (·.redescribe r))).modify h (Option.map f) := by
    refine Array.ext_getElem? fun i => ?_
    simp only [Array.getElem?_map, Array.getElem?_modify]
    split
    · cases g.slots[i]? with
      | none => rfl
      | some slot => cases slot <;> simp [blind]
    · rfl
  simp only [redescribe, mapNodes, modify, slots]

/-- The same goes for a set of nodes. -/
theorem redescribe_modifyAll {f : Node → Node}
    (blind : ∀ n, (f n).redescribe r = f (n.redescribe r)) (g : Graph) (s : HandleSet) :
    (g.modifyAll s f).redescribe r = (g.redescribe r).modifyAll s f := by
  unfold modifyAll
  induction s.toList generalizing g with
  | nil => rfl
  | cons h hs ih => rw [List.foldl_cons, List.foldl_cons, ih, redescribe_modify blind]

/-- The same goes for nodes along the canonical order. -/
theorem redescribe_modifyEach {α : Type} {f : α → Node → Node}
    (blind : ∀ a n, (f a n).redescribe r = f a (n.redescribe r)) (g : Graph)
    (values : List α) :
    (g.modifyEach values f).redescribe r = (g.redescribe r).modifyEach values f := by
  unfold modifyEach
  rw [order_redescribe]
  induction g.order.zip values generalizing g with
  | nil => rfl
  | cons value values ih =>
    rw [List.foldl_cons, List.foldl_cons, ih, redescribe_modify (blind value.2)]

/-! ## Further nodes and edges -/

/-- A new node is redescribed before it is pushed or afterwards. -/
theorem redescribe_push (r : Redescription) (g : Graph) (node : Handle → Nat → Node) :
    (g.push node).redescribe r = (g.redescribe r).push fun h i => (node h i).redescribe r := by
  simp [redescribe, mapNodes, push, nextHandle, size]

/-- A node is added with its own description, or it is redescribed afterwards. -/
theorem redescribe_add (r : Redescription) (g : Graph) (scope : String) (kind : NodeKind)
    (shapes : List Shape) (weight : NodeWeight) : (g.add scope kind shapes weight).redescribe r =
      (g.redescribe r).add scope kind (r scope kind shapes weight).1
        (r scope kind shapes weight).2 :=
  redescribe_push r g _

/-- An edge has nothing to do with what describes its ends. -/
theorem redescribe_connect (r : Redescription) (g : Graph) (u v : Handle) :
    (g.connect u v).redescribe r = (g.redescribe r).connect u v := by
  unfold connect
  rw [redescribe_modify (f := (·.addSources [u])) fun _ => rfl,
    redescribe_modify (f := (·.addTargets [v])) fun _ => rfl]

/-- The node of a further output slot is described like its primary node, so it changes with it. -/
theorem addSecondary?_redescribe (r : Redescription) (g : Graph) (primary : Handle) (slot : Nat) :
    (g.redescribe r).addSecondary? primary slot =
      (g.addSecondary? primary slot).map (redescribe r) := by
  unfold addSecondary?
  rw [node?_redescribe]
  cases g.node? primary with
  | none => rfl
  | some n =>
    have index : (n.redescribe r).index = n.index := rfl
    simp only [Option.map_some, index, size_redescribe, nextHandle_redescribe]
    split
    · rfl
    · simp only [Option.map_some, redescribe_connect, redescribe_push]
      rfl

/-! ## Removed nodes -/

/-- A node is spliced out of the redescribed graph as out of the plain one. -/
theorem redescribe_splice (r : Redescription) (g : Graph) (h : Handle) (n : Node) :
    (g.splice h n).redescribe r = (g.redescribe r).splice h (n.redescribe r) := by
  have emptied : ({ g with slots := g.slots.setIfInBounds h none } : Graph).redescribe r
      = { g.redescribe r with slots := (g.redescribe r).slots.setIfInBounds h none } := by
    simp [redescribe, mapNodes, Array.map_setIfInBounds]
  have joined (g : Graph) := redescribe_modifyAll (r := r) (f := fun m : Node =>
    { m with targets := (m.targets.erase h).union n.targets }) (fun _ => rfl) g n.sources
  have joined' (g : Graph) := redescribe_modifyAll (r := r) (f := fun m : Node =>
    { m with sources := (m.sources.erase h).union n.sources }) (fun _ => rfl) g n.targets
  have bridged := joined' (({ g with slots := g.slots.setIfInBounds h none } : Graph).modifyAll
    n.sources fun m => { m with targets := (m.targets.erase h).union n.targets })
  rw [joined, emptied] at bridged
  exact congrArg (fun g : Graph =>
    { g with order := g.order.filter (· ≠ h), outputs := g.outputs.erase h }) bridged

/-- The same nodes are removed from a redescribed graph. -/
theorem removeEach_redescribe (r : Redescription) (hs : List Handle) (g : Graph) :
    (g.redescribe r).removeEach hs = ((g.removeEach hs).1, (g.removeEach hs).2.redescribe r) := by
  induction hs generalizing g with
  | nil => rfl
  | cons h hs ih =>
    rw [removeEach, removeEach, node?_redescribe]
    cases g.node? h with
    | none => exact ih g
    | some n =>
      simp only [Option.map_some, ← redescribe_splice, ih]

/-- A test of nodes does not look at their shapes and costs. -/
def Blind (test : Graph → Node → Bool) : Prop :=
  ∀ r g n, test (redescribe r g) (n.redescribe r) = test g n

section

variable {test : Graph → Node → Bool}

/-- A test that does not see descriptions picks out the same nodes. -/
theorem Blind.pick_redescribe (blind : Blind test) (r : Redescription) (g : Graph) :
    (g.redescribe r).pick test = g.pick test := by
  unfold pick
  refine List.filter_congr fun h _ => ?_
  rw [node?_redescribe]
  cases g.node? h with
  | none => rfl
  | some n => exact blind r g n

/-- So its pass takes out the same ones, and as many. -/
theorem Blind.removeWhere_redescribe (blind : Blind test) (r : Redescription) (g : Graph) :
    (g.redescribe r).removeWhere test =
      ((g.removeWhere test).1, (g.removeWhere test).2.redescribe r) := by
  fun_induction removeWhere test g with
  | case1 g none_ =>
    rw [removeWhere, dif_pos (by rw [blind.pick_redescribe, none_])]
  | case2 g some_ removed _ further ih =>
    have some_' : (g.redescribe r).pick test ≠ [] := by rwa [blind.pick_redescribe]
    rw [removeWhere, dif_neg some_']
    simp only [blind.pick_redescribe, removeEach_redescribe]
    exact congrArg (fun rest => (removed.1 + rest.1, rest.2)) ih

end

/-! ## The clean-up -/

/-- Constants are found by their labels, so the same ones are removed. -/
theorem removeConstants_redescribe (marker : String) (r : Redescription) (g : Graph) :
    (g.redescribe r).removeConstants marker =
      ((g.removeConstants marker).1, (g.removeConstants marker).2.redescribe r) :=
  Blind.removeWhere_redescribe (fun _ _ _ => rfl) r g

/-- Dead ends are found by the edges, so the same ones are removed. -/
theorem removeDeadEnds_redescribe (r : Redescription) (g : Graph) :
    (g.redescribe r).removeDeadEnds = (g.removeDeadEnds.1, g.removeDeadEnds.2.redescribe r) :=
  Blind.removeWhere_redescribe (fun _ _ _ => rfl) r g

/-- All rounds do the same to the redescribed graph, and report the same. -/
theorem cleanRounds_redescribe (marker : String) (r : Redescription) (g : Graph) :
    (g.redescribe r).cleanRounds marker =
      ((g.cleanRounds marker).1, (g.cleanRounds marker).2.redescribe r) := by
  fun_induction cleanRounds marker g with
  | case1 g constants deadEnds none_ =>
    rw [cleanRounds]
    simp only [removeConstants_redescribe, removeDeadEnds_redescribe]
    rw [dif_pos none_]
  | case2 g constants deadEnds some_ _ further ih =>
    rw [cleanRounds]
    simp only [removeConstants_redescribe, removeDeadEnds_redescribe]
    rw [dif_neg some_]
    exact congrArg (fun rest => (CleanupReport.mk (constants.1 + rest.1.constants)
      (deadEnds.1 + rest.1.deadEnds) (rest.1.rounds + 1), rest.2)) ih

/-- The clean-up removes the same nodes from a redescribed graph, in as many rounds. -/
theorem cleanUp_redescribe (marker : String) (r : Redescription) (g : Graph) :
    (g.redescribe r).cleanUp marker =
      ((g.cleanUp marker).1, (g.cleanUp marker).2.redescribe r) := by
  have renumbered (g : Graph) : (g.redescribe r).renumber = g.renumber.redescribe r :=
    (redescribe_modifyEach (f := fun index n => { n with index := index }) (fun _ _ => rfl)
      g _).symm
  unfold cleanUp
  simp only [cleanRounds_redescribe, renumbered]

end Graph

end StagePlan
