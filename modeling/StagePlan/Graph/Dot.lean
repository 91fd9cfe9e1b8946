import StagePlan.Graph.Basic
import StagePlan.Text.Lists

/-!
# Drawing a graph

`Graph.toDot` writes a graph as Graphviz source: two statements on how to draw, then a statement per
visible node, coloured by its part, then one per edge between visible nodes. A label stands in quotes;
inside it a backslash takes the next character with it, so quotes and backslashes of a scope are
escaped, and lines within a label are parted by `\n`.
-/

namespace StagePlan

namespace Dot

/-- What is shown. -/
structure Options where
  /-- Whether parameters and buffers are drawn. -/
  showParameters : Bool := false
  /-- Whether labels give the costs. -/
  showWeights : Bool := true

/-- A statement about the nodes and edges. -/
inductive Statement where
  /-- A box with a label, filled with a colour. -/
  | node (index : Nat) (label : String) (color : String)
  /-- An arrow. -/
  | edge (source target : Nat)

/-- The colours of the parts, which repeat after eight. -/
def partColors : List String :=
  ["grey", "green", "red", "yellow", "orange", "brown", "purple", "pink"]

/-- The colour of a node. -/
def color : Option Nat → String
  | some part => partColors.getD (part % 8) "white"
  | none => "white"

/-- A character inside quotes. -/
def escape (c : Char) : List Char := if c = '\\' ∨ c = '"' then ['\\', c] else [c]

/-- A text inside quotes. -/
def escaped (text : String) : String := String.ofList (text.toList.flatMap escape)

/-- A shape in parentheses. -/
def shapeText (shape : Shape) : String := "(" ++ Text.enumerated (shape.map toString) ++ ")"

/-- The cost line of a label; costs that are not known are left out. -/
def weightLine (options : Options) : NodeWeight → String
  | .unmeasured => ""
  | weight => if options.showWeights then "\\n" ++ weight.text else ""

/-- The label of a node: its scope, its cost and the shapes of its output. -/
def label (options : Options) (n : Node) : String :=
  escaped n.scope ++ weightLine options n.weight ++ "\\noutput_shape ["
    ++ Text.enumerated (n.shapes.map shapeText) ++ "]"

/-- Whether a node is drawn. -/
def isVisible (options : Options) (n : Node) : Bool :=
  n.kind ≠ .parameterOrBuffer || options.showParameters

/-- The statements about the visible nodes, then those about the edges between them. -/
def statements (options : Options) (g : Graph) : List Statement :=
  let visible := g.nodes.filter (isVisible options)
  visible.map (fun n => .node n.index (label options n) (color n.part))
    ++ visible.flatMap fun n =>
      ((n.sources.toList.filterMap g.node?).filter (isVisible options)).map
        fun source => .edge source.index n.index

/-- The source text of a statement. -/
def Statement.text : Statement → String
  | node index label color =>
    "  " ++ toString index ++ " [label=\"" ++ label ++ "\", fillcolor=" ++ color ++ "];\n"
  | edge source target => "  " ++ toString source ++ " -> " ++ toString target ++ ";\n"

/-- The two statements on how to draw. -/
def header : String :=
  "  graph [concentrate=true, rankdir=TB, bgcolor=\"#FFFFFF\", fontname=\"Times\"];\n"
    ++ "  node [shape=box, style=filled, fontsize=10, fontname=\"Times\", color=\"#000000\"];\n"

end Dot

/-- The Graphviz source of a graph. -/
def Graph.toDot (options : Dot.Options) (g : Graph) : String :=
  "digraph \x7b\n" ++ Dot.header ++ String.join ((Dot.statements options g).map (·.text)) ++ "\x7d\n"

end StagePlan
