import StagePlan.Graph.HandleSet
import StagePlan.Profile.Text
import StagePlan.Shape

/-!
# Nodes

A node stands for an input of a model or for an output slot of an op. It knows its neighbours by their
handles: `sources` are the nodes it reads from and `targets` those that read from it. Its handle never
changes; its index is its position in the graph at the last renumbering. An edge is kept at both of its
ends, which `Graph.IsConsistent` states.
-/

namespace StagePlan

/-- What a node stands for. -/
inductive NodeKind where
  /-- A model input. -/
  | input
  /-- A parameter or buffer. -/
  | parameterOrBuffer
  /-- An op of a layer whose cost was measured. -/
  | profiledLayer
  /-- Any other op. -/
  | rawOp
  deriving DecidableEq

/-- The name of a kind in results. -/
def NodeKind.name : NodeKind → String
  | input => "Input"
  | parameterOrBuffer => "ParameterOrBuffer"
  | profiledLayer => "ProfiledLayer"
  | rawOp => "RawOp"

/-- The name of a kind in listings. -/
def NodeKind.shortName : NodeKind → String
  | input => "IN"
  | parameterOrBuffer => "BUFF_PARAM"
  | profiledLayer => "LAYER"
  | rawOp => "OP"

/-- The cost of a node before it is scaled for a solver. -/
inductive NodeWeight where
  /-- The number of elements of an input, parameter or buffer. -/
  | elements (n : Nat)
  /-- The measured cost of a layer. -/
  | timing (profile : LayerProfile)
  /-- No cost is known. -/
  | unmeasured

/-- A cost in words: times to the microsecond. -/
def NodeWeight.text : NodeWeight → String
  | elements n => toString n
  | timing p =>
    "fwd " ++ Decimal.fixedText 3 p.forward ++ "ms bwd " ++ Decimal.fixedText 3 p.backward ++ "ms"
  | unmeasured => "0"

/-- A cost as JSON. -/
def NodeWeight.toJson : NodeWeight → Json
  | elements n => .object [("Elements", .nat n)]
  | timing p => .object [("Timing", p.toJson)]
  | unmeasured => .string "Unmeasured"

/-- A node of a graph. -/
structure Node where
  /-- Its handle. -/
  handle : Handle
  /-- Its index. -/
  index : Nat
  /-- The scope it is labelled with. -/
  scope : String
  /-- What it stands for. -/
  kind : NodeKind
  /-- The shapes of its output. -/
  shapes : List Shape
  /-- Its cost. -/
  weight : NodeWeight
  /-- The nodes it reads from. -/
  sources : HandleSet := ∅
  /-- The nodes that read from it. -/
  targets : HandleSet := ∅
  /-- The part it was assigned to. -/
  part : Option Nat := none

namespace Node

/-- The node for a further output slot: it shares what describes the primary node, and has no edges of
its own yet. -/
def secondary (primary : Node) (handle : Handle) (index : Nat) : Node :=
  ⟨handle, index, primary.scope, primary.kind, primary.shapes, primary.weight, ∅, ∅, none⟩

/-- The node with further sources. -/
def addSources (n : Node) (hs : List Handle) : Node := { n with sources := hs.foldl .insert n.sources }

/-- The node with further targets. -/
def addTargets (n : Node) (hs : List Handle) : Node := { n with targets := hs.foldl .insert n.targets }

/-- The node without some of its sources. -/
def dropSources (n : Node) (hs : List Handle) : Node := { n with sources := n.sources.eraseAll hs }

/-- The node without some of its targets. -/
def dropTargets (n : Node) (hs : List Handle) : Node := { n with targets := n.targets.eraseAll hs }

end Node

end StagePlan
