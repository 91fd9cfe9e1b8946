import StagePlan.Proofs.Graph.Cleanup

/-!
# The order of the nodes

In the graph of a trace every edge leads to a later place of the canonical order. A `Revision` takes
nodes out of a graph or numbers those that are left, and whatever a sequence of revisions leaves is
spliced out of the graph that it started from (`Topological.reviseAll_spliced`): the bridges over a
node lead from what came before it to what came after it. So a graph stays `Ordered` throughout,
and it is `Numbered` where the indices are fresh, which they are after the build and after a
clean-up (`ofTrace_ordered`).
-/

open Relation

namespace StagePlan.Graph

/-- A way to take nodes out of a graph, or to number those that are left. A test that changes its
mind while it runs is a sequence of `remove`. -/
inductive Revision where
  /-- Takes out the node of a handle, if it is live. -/
  | remove (h : Handle)
  /-- Takes out what a test picks out, until it picks out nothing. -/
  | removeWhere (test : Graph → Node → Bool)
  /-- Takes out the nodes that carry a marker. -/
  | removeConstants (marker : String)
  /-- Takes out the nodes whose result nobody reads. -/
  | removeDeadEnds
  /-- Makes the indices the positions. -/
  | renumber

/-- The graph once it is revised. -/
def revise (g : Graph) : Revision → Graph
  | .remove h => (g.remove h).2
  | .removeWhere test => (g.removeWhere test).2
  | .removeConstants marker => (g.removeConstants marker).2
  | .removeDeadEnds => g.removeDeadEnds.2
  | .renumber => g.renumber

/-- The graph once it is revised several times. -/
def reviseAll (g : Graph) (revisions : List Revision) : Graph := revisions.foldl revise g

/-- Every edge is recorded at both of its ends and leads to a later place of the canonical order, so
no path leads back. -/
structure Ordered (g : Graph) : Prop where
  consistent : g.isConsistent = true
  distinct : g.order.Nodup
  later : ∀ u v, g.Edge u v → ∃ i j : Nat, i < j ∧ g.order[i]? = some u ∧ g.order[j]? = some v
  acyclic : ∀ u, ¬ TransGen g.Edge u u

/-- The indices are the positions, and every edge leads to a larger one. -/
structure Numbered (g : Graph) : Prop where
  normalized : g.isNormalized = true
  ascending : ∀ u v n m, g.Edge u v → g.node? u = some n → g.node? v = some m → n.index < m.index

section

variable {g : Graph}

/-- A topological graph is ordered: older nodes stand at earlier places. -/
theorem Topological.ordered (top : g.Topological) : g.Ordered where
  consistent := top.isConsistent_iff.2 top.consistent
  distinct := top.nodup
  later u v edge := by
    obtain ⟨i, source⟩ := List.mem_iff_getElem?.1 ((top.listed u).2 edge.live)
    obtain ⟨j, target⟩ := List.mem_iff_getElem?.1 ((top.listed v).2 (top.live_target edge))
    exact ⟨i, j, top.lt_of_edge edge source target, source, target⟩
  acyclic _ cycle := Nat.lt_irrefl _ (top.lt_of_transGen cycle)

/-- Where indices are positions, they ascend along the edges. -/
theorem Topological.numbered (top : g.Topological) (normalized : g.isNormalized = true) :
    g.Numbered where
  normalized := normalized
  ascending _ _ _ _ edge found found' :=
    top.lt_of_edge edge (top.order_index normalized found) (top.order_index normalized found')

/-- A revision leaves a graph with some nodes spliced out. -/
theorem Topological.revise_spliced (top : g.Topological) (r : Revision) :
    Spliced g (g.revise r) := by
  cases r with
  | remove h =>
    cases found : g.node? h with
    | none => simpa only [revise, Graph.remove, found] using top.spliced_refl
    | some node => simpa only [revise, Graph.remove, found] using top.spliced found
  | removeWhere test => exact (top.removeWhere_removes test).spliced
  | removeConstants marker => exact (top.removeWhere_removes fun _ n => isConstant marker n).spliced
  | removeDeadEnds => exact (top.removeWhere_removes isDeadEnd).spliced
  | renumber => exact top.renumber_spliced

/-- So does a sequence of revisions. -/
theorem Topological.reviseAll_spliced (top : g.Topological) (revisions : List Revision) :
    Spliced g (g.reviseAll revisions) := by
  unfold reviseAll
  induction revisions generalizing g with
  | nil => exact top.spliced_refl
  | cons r revisions ih =>
    have first := top.revise_spliced r
    exact first.trans (ih (first.topological top))

end

/-- The graph of a trace is ordered, however it is revised, and so is acyclic. After the build, and
after a clean-up of whatever revisions left, moreover the indices grow along the edges. -/
theorem ofTrace_ordered {t : Trace} {s : BuildSettings} {g : Graph} (built : ofTrace t s = .ok g)
    (revisions : List Revision) (marker : String) :
    (g.reviseAll revisions).Ordered ∧ g.Numbered ∧
      ((g.reviseAll revisions).cleanUp marker).2.Ordered ∧
        ((g.reviseAll revisions).cleanUp marker).2.Numbered := by
  have top := ofTrace_topological built
  have revised := (top.reviseAll_spliced revisions).topological top
  have cleaned := (revised.cleanUp_removes marker).spliced.topological revised
  exact ⟨revised.ordered, top.numbered (ofTrace_normalized built), cleaned.ordered,
    cleaned.numbered (revised.isNormalized_cleanUp marker)⟩

/-- A trace of a layer that computes two values from a constant, the second of which is read twice by
one op and returned. -/
def slottedTrace : Trace where
  inputs := [⟨some [2]⟩]
  ops := [⟨[0], [1], "scale", "onnx::Constant", ""⟩, ⟨[1, 0], [2, 3], "layer", "onnx::Split", ""⟩,
    ⟨[3, 3], [4], "layer", "onnx::Mul", ""⟩]
  outputs := [4, 3]

/-- Takes out the primary node of the layer and the input, and numbers nothing anew. -/
def slottedRevisions : List Revision := [.remove 2, .removeWhere fun _ n => n.kind = .input]

/-- Its graph is ordered also where the constant is cleaned away from what these revisions leave. -/
theorem slottedTrace_ordered : ∃ g, ofTrace slottedTrace { numInputs := 1 } = .ok g ∧
    (g.reviseAll slottedRevisions).Ordered ∧ g.Numbered ∧
      ((g.reviseAll slottedRevisions).cleanUp "::Constant").2.Ordered ∧
        ((g.reviseAll slottedRevisions).cleanUp "::Constant").2.Numbered := by
  obtain ⟨g, built⟩ : ∃ g, ofTrace slottedTrace { numInputs := 1 } = .ok g := ⟨_, rfl⟩
  exact ⟨g, built, ofTrace_ordered built slottedRevisions "::Constant"⟩

end StagePlan.Graph
