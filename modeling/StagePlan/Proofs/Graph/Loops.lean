import StagePlan.Proofs.Graph.Reachable

/-!
# Removing nodes that are joined to themselves

Edges may be added at will, also from a node to itself, and a removal joins a node to itself that was
on a cycle of two nodes with the removed one. When a node goes that is joined to itself, its neighbours
inherit its own handle from it and keep it, at their side only. So a removal keeps a consistent graph
consistent exactly if the node had no such edge or no other neighbours
(`Reachable.remove_consistent`); what is recorded between the other nodes is right in any case.
-/

namespace StagePlan.Graph

/-- A live node is removed by its splice. -/
theorem remove_eq {g : Graph} {h : Handle} {node : Node} (live : g.node? h = some node) :
    (g.remove h).2 = g.splice h node := by
  rw [remove, live]

/-- Whatever operations make a graph, if it is consistent, then the removal of a live node keeps it
consistent exactly if the node was not joined to itself or had no other neighbours. Otherwise the
removed node stays recorded at these neighbours. All that is recorded between other nodes is what there
was before and what bridges the removed node, at both ends. -/
theorem Reachable.remove_consistent {g : Graph} (reachable : g.Reachable)
    (consistent : g.isConsistent = true) {h : Handle} (live : g.Live h) :
    ((g.remove h).2.isConsistent = true ↔
      (g.Edge h h → ∀ u, u ≠ h → ¬ g.Edge u h ∧ ¬ g.Edge h u)) ∧
    (∀ u, (g.remove h).2.Edge u h ↔ u ≠ h ∧ g.Edge u h ∧ g.Edge h h) ∧
    (∀ u, (g.remove h).2.Back h u ↔ u ≠ h ∧ g.Edge h u ∧ g.Edge h h) ∧
    ∀ u v, u ≠ h → v ≠ h →
      ((g.remove h).2.Edge u v ↔ g.Edge u v ∨ g.Edge u h ∧ g.Edge h v) ∧
        ((g.remove h).2.Back u v ↔ g.Edge u v ∨ g.Edge u h ∧ g.Edge h v) := by
  obtain ⟨node, live⟩ := live
  have consistent := reachable.stored.isConsistent_iff.1 consistent
  rw [(reachable.remove h).stored.isConsistent_iff, remove_eq live]
  exact ⟨consistent.splice_iff live, fun _ => consistent.edge_splice_self live,
    fun _ => consistent.back_splice_self live, fun _ _ => consistent.splice_other live⟩

/-- Two nodes, the second of which reads from the first and from itself. -/
def looped : Graph :=
  (((empty.add "a" .rawOp [] .unmeasured).add "b" .rawOp [] .unmeasured).connect 0 1).connect 1 1

/-- The second node stays a target of the first when it is removed. -/
theorem looped_dangling : looped.Reachable ∧ looped.isConsistent = true ∧ looped.Live 1 ∧
    (looped.remove 1).2.isConsistent = false ∧ (looped.remove 1).2.Edge 0 1 ∧
      ¬ (looped.remove 1).2.Live 1 := by
  refine ⟨.connect 1 1 (.connect 0 1 (.add _ _ _ _ (.add _ _ _ _ .empty))), by decide, ⟨_, rfl⟩,
    by decide, ⟨_, rfl, by decide⟩, ?_⟩
  rintro ⟨n, found⟩
  cases found

/-- Two nodes that read from each other, and one that reads from the first. -/
def paired : Graph :=
  let three := ((empty.add "a" .rawOp [] .unmeasured).add "b" .rawOp [] .unmeasured).add "c" .rawOp
    [] .unmeasured
  ((three.connect 0 1).connect 1 0).connect 0 2

/-- The removal of the second node of a pair keeps the graph consistent, but joins the first one to
itself, and the removal of that one leaves it a source of the third. -/
theorem paired_removed : paired.Reachable ∧ (paired.remove 1).2.isConsistent = true ∧
    (paired.remove 1).2.Edge 0 0 ∧ ((paired.remove 1).2.remove 0).2.isConsistent ≠ true ∧
      ((paired.remove 1).2.remove 0).2.Back 0 2 := by
  have reachable : paired.Reachable := .connect 0 2 (.connect 1 0 (.connect 0 1
    (.add _ _ _ _ (.add _ _ _ _ (.add _ _ _ _ .empty)))))
  have loopless : ¬ paired.Edge 1 1 := by
    rw [edge_iff rfl]
    decide
  obtain ⟨first, -, -, others⟩ := reachable.remove_consistent (h := 1) (by decide) ⟨_, rfl⟩
  have consistent := first.2 fun loop => absurd loop loopless
  have loop : (paired.remove 1).2.Edge 0 0 :=
    (others 0 0 (by decide) (by decide)).1.2 (.inr ⟨⟨_, rfl, by decide⟩, ⟨_, rfl, by decide⟩⟩)
  have neighbour : (paired.remove 1).2.Edge 0 2 :=
    (others 0 2 (by decide) (by decide)).1.2 (.inl ⟨_, rfl, by decide⟩)
  obtain ⟨second, -, kept, -⟩ := (reachable.remove 1).remove_consistent consistent loop.live
  exact ⟨reachable, consistent, loop, fun consistent' => (second.1 consistent' loop 2 (by decide)).2
    neighbour, (kept 2).2 ⟨by decide, neighbour, loop⟩⟩

end StagePlan.Graph
