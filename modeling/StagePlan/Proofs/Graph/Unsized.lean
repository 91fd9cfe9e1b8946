import StagePlan.Proofs.Graph.Redescribed

/-!
# Graphs without sizes

Sizes are in a graph twice, as the shapes of its nodes and as the numbers of their elements.
`Graph.unsized` takes both out and leaves all else. A node without sizes is a redescribed one, so
whatever changes a graph does the same to a graph without sizes (`unsized_add`, `unsized_connect`,
`addSecondary?_unsized`, `unsized_modifyEach`), and the clean-up removes the same nodes from it
(`cleanUp_unsized`).
-/

namespace StagePlan

/-- The cost without the number of elements. -/
def NodeWeight.unsized : NodeWeight → NodeWeight
  | .elements _ => .elements 0
  | .timing profile => .timing profile
  | .unmeasured => .unmeasured

/-- The node without shapes and without a number of elements. -/
def Node.unsized (n : Node) : Node := { n with shapes := [], weight := n.weight.unsized }

/-- What describes a node but its sizes. -/
def sizeless : Redescription := fun _ _ _ weight => ([], weight.unsized)

namespace Graph

/-- The graph whose nodes are without sizes. -/
def unsized (g : Graph) : Graph := g.mapNodes Node.unsized

@[simp] theorem nextHandle_unsized (g : Graph) : g.unsized.nextHandle = g.nextHandle :=
  nextHandle_redescribe sizeless g

@[simp] theorem node?_unsized (g : Graph) (h : Handle) :
    g.unsized.node? h = (g.node? h).map Node.unsized :=
  node?_mapNodes g Node.unsized h

@[simp] theorem nodes_unsized (g : Graph) : g.unsized.nodes = g.nodes.map Node.unsized :=
  nodes_mapNodes g Node.unsized

/-- A change of nodes that has nothing to do with sizes is the same without them. -/
theorem unsized_modifyEach {α : Type} {f : α → Node → Node}
    (blind : ∀ a n, (f a n).unsized = f a n.unsized) (g : Graph) (values : List α) :
    (g.modifyEach values f).unsized = g.unsized.modifyEach values f :=
  redescribe_modifyEach (r := sizeless) blind g values

/-- A node is added without its sizes, or they are taken out afterwards. -/
theorem unsized_add (g : Graph) (scope : String) (kind : NodeKind) (shapes : List Shape)
    (weight : NodeWeight) :
    (g.add scope kind shapes weight).unsized = g.unsized.add scope kind [] weight.unsized :=
  redescribe_add sizeless g scope kind shapes weight

/-- An edge has nothing to do with sizes. -/
theorem unsized_connect (g : Graph) (u v : Handle) :
    (g.connect u v).unsized = g.unsized.connect u v :=
  redescribe_connect sizeless g u v

/-- Whether a further output slot gets a node has nothing to do with sizes. -/
theorem addSecondary?_unsized (g : Graph) (primary : Handle) (slot : Nat) :
    g.unsized.addSecondary? primary slot = (g.addSecondary? primary slot).map unsized :=
  addSecondary?_redescribe sizeless g primary slot

/-- The clean-up removes the same nodes from a graph without sizes, in as many rounds. -/
theorem cleanUp_unsized (marker : String) (g : Graph) :
    g.unsized.cleanUp marker = ((g.cleanUp marker).1, (g.cleanUp marker).2.unsized) :=
  cleanUp_redescribe marker sizeless g

end Graph

end StagePlan
