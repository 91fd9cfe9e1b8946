/-!
# Searches

`Search.visit` searches depth first: it follows a successor function from a node that was not seen
before, and notes every node once all of its successors are done. The search of all nodes
`0, …, n - 1` visits the successors of a node in their order; `finished` then lists the nodes with the
last one done first, so that a node stands before its successors wherever the graph has no cycle.

`Search.sweep` searches breadth first: it takes the nodes from the front of a queue, which their
successors join at its end.
-/

namespace StagePlan

/-- A search under way. -/
structure Search where
  /-- The nodes met so far. -/
  seen : List Nat := []
  /-- The nodes that are done, the last one first. -/
  finished : List Nat := []

namespace Search

/-- Visits a node and, below it, at most `depth` nodes deep, what can be reached and was not met before.
The nodes along a path are distinct, so the number of nodes is depth enough. -/
def visit (next : Nat → List Nat) : Nat → Search → Nat → Search
  | 0, s, _ => s
  | depth + 1, s, v =>
    if v ∈ s.seen then s
    else
      let below := (next v).foldl (visit next depth) { s with seen := v :: s.seen }
      { below with finished := v :: below.finished }

/-- Visits the nodes `0, …, n - 1` in ascending order. -/
def all (next : Nat → List Nat) (n : Nat) : Search := (List.range n).foldl (visit next n) {}

/-- The nodes of a list that were not met before, each of them once, in the order of the list. -/
def unmet (seen : List Nat) : List Nat → List Nat
  | [] => []
  | v :: vs => if v ∈ seen then unmet seen vs else v :: unmet (v :: seen) vs

/-- Empties a queue, in at most the given number of rounds. The node at its front is done, and those of
its successors that were not met before are met and join the queue. A node joins once at most, so the
number of nodes is rounds enough. -/
def sweep (next : Nat → List Nat) : Nat → Search → List Nat → Search
  | 0, s, _ => s
  | _ + 1, s, [] => s
  | rounds + 1, s, v :: queue =>
    let joining := unmet s.seen (next v)
    sweep next rounds ⟨joining ++ s.seen, v :: s.finished⟩ (queue ++ joining)

end Search

end StagePlan
