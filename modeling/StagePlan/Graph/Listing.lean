import StagePlan.Graph.Basic
import StagePlan.Text.Lists

/-!
# Listing a graph

`Graph.listing` shows a graph line by line, and `Graph.toJson` gives its records; both name nodes by
their indices, and both leave out neighbours that are no longer live.
-/

namespace StagePlan

/-- A node in words. -/
def Node.title (n : Node) : String :=
  s!"node {n.index} in scope {n.scope} of kind {n.kind.shortName}"

namespace Graph

/-- The indices of a set in braces. -/
def braced (g : Graph) (s : HandleSet) : String :=
  "\x7b" ++ Text.enumerated ((g.indices s).map toString) ++ "\x7d"

/-- A line per node, with the indices it flows to and those it gathers from. -/
def listing (g : Graph) : String :=
  String.join (g.nodes.map fun n =>
    n.title ++ " flows to " ++ g.braced n.targets ++ " gathers " ++ g.braced n.sources ++ "\n")

/-- The record of a node, with edges given by indices. -/
def record (g : Graph) (n : Node) : Json :=
  .object [
    ("index", .nat n.index),
    ("scope", .string n.scope),
    ("kind", .string n.kind.name),
    ("weight", n.weight.toJson),
    ("output_shape", .array (n.shapes.map .nats)),
    ("inputs", .nats (g.indices n.sources)),
    ("outputs", .nats (g.indices n.targets)),
    ("partition", .optional .nat n.part),
    ("is_output", .bool (g.isOutput n.handle))]

/-- The records of the nodes in canonical order. -/
def toJson (g : Graph) : Json := .array (g.nodes.map g.record)

end Graph

end StagePlan
