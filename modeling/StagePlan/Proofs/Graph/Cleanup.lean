import StagePlan.Proofs.Graph.Building
import StagePlan.Proofs.Graph.Passes

/-!
# What the clean-up leaves

The clean-up needs one round, and a second one that removes nothing if the first one removed
anything (`Stored.cleanRounds_eq`). On a topological graph a node `Survives` it if it carries no
marker and reaches an output that carries none (`Topological.live_cleanRounds`). Renumbering then
makes the indices the positions (`Stored.isNormalized_renumber`). `Graph.Cleaned` collects what this
means for a graph and its report, and `ofTrace_cleaned` states it of every graph of a trace.
-/

open Relation

namespace StagePlan.Graph

/-- A node carries no marker and reaches an output without marker. -/
def Survives (g : Graph) (marker : String) (h : Handle) : Prop :=
  ¬ g.Marked marker h ∧ ∃ o ∈ g.outputs, ¬ g.Marked marker o ∧ ReflTransGen g.Edge h o

/-- A graph is left, and reported on, after another one is cleaned of constants and dead ends. -/
structure Cleaned (marker : String) (g : Graph) (report : CleanupReport) (g' : Graph) : Prop where
  /-- The nodes that are left are those that survive. -/
  live : ∀ h, g'.Live h ↔ g.Survives marker h
  /-- They are what they were. -/
  labels : ∀ h n', g'.node? h = some n' → ∃ n, g.node? h = some n ∧ n'.label = n.label
  /-- They are what the canonical order lists. -/
  listed : ∀ h, h ∈ g'.order ↔ g'.Live h
  /-- It lists them as it did before. -/
  order : g'.order = g.order.filter fun h => (g'.node? h).isSome
  /-- An edge stands for a path through marked nodes. -/
  edges : ∀ u v, g'.Edge u v ↔
    g.Survives marker u ∧ g.Survives marker v ∧ g.PathThrough (g.Marked marker) u v
  /-- Every edge is recorded at both of its ends. -/
  consistent : g'.IsConsistent
  /-- The outputs are those without marker. -/
  outputs : ∀ h, h ∈ g'.outputs ↔ h ∈ g.outputs ∧ ¬ g.Marked marker h
  /-- The report counts the marked nodes. -/
  constants : report.constants = g.nodes.countP (isConstant marker)
  /-- The report counts the nodes that are gone. -/
  removed : report.removed + g'.size = g.size

section

variable {g g' : Graph} {marker : String} {u v h : Handle}

/-! ## Rounds -/

/-- A round that finds nothing is the last one. -/
theorem cleanRounds_of_clean (noConstant : g.pick (fun _ n => isConstant marker n) = [])
    (noDeadEnd : g.pick isDeadEnd = []) : g.cleanRounds marker = (⟨0, 0, 1⟩, g) := by
  have constants : g.removeConstants marker = (0, g) := removeWhere_of_pick_eq_nil noConstant
  have deadEnds : g.removeDeadEnds = (0, g) := removeWhere_of_pick_eq_nil noDeadEnd
  unfold cleanRounds
  simp only [constants, deadEnds]
  rfl

/-- What is left after both passes has no constants: the marker depends on the labels only. -/
theorem Stored.noConstant_deadEnds (stored : g.Stored) (marker : String) :
    (g.removeConstants marker).2.removeDeadEnds.2.pick (fun _ n => isConstant marker n) = [] := by
  have stored₁ : (g.removeConstants marker).2.Stored := stored.removeWhere _
  have stored₂ : (g.removeConstants marker).2.removeDeadEnds.2.Stored := stored₁.removeWhere _
  refine List.eq_nil_iff_forall_not_mem.2 fun h picked => ?_
  obtain ⟨n', found', marked'⟩ := stored₂.mem_pick_isConstant.1 picked
  obtain ⟨n, found, label⟩ := kept_removeWhere isDeadEnd _ h n' found'
  have picked₁ := stored₁.mem_pick_isConstant.2 ⟨n, found, (isConstant_congr label).symm.trans marked'⟩
  rw [removeConstants, pick_removeWhere] at picked₁
  cases picked₁

/-- The first round does it all, and a second one is needed if it did anything. -/
theorem Stored.cleanRounds_eq (stored : g.Stored) (marker : String) :
    g.cleanRounds marker =
      (⟨(g.removeConstants marker).1, (g.removeConstants marker).2.removeDeadEnds.1,
        if (g.removeConstants marker).1 + (g.removeConstants marker).2.removeDeadEnds.1 = 0 then 1
          else 2⟩,
        (g.removeConstants marker).2.removeDeadEnds.2) := by
  have again := cleanRounds_of_clean (stored.noConstant_deadEnds marker)
    (pick_removeWhere isDeadEnd (g.removeConstants marker).2)
  rw [cleanRounds]
  split
  next none_ =>
    obtain ⟨noConstants, noDeadEnds⟩ := Nat.add_eq_zero_iff.1 none_
    rw [noConstants, noDeadEnds]
  next =>
    dsimp only
    rw [again]
    rfl

/-! ## What is left -/

/-- The rounds only splice nodes out, as many as they report. -/
theorem Topological.cleanRounds_removes (top : g.Topological) (marker : String) :
    Removes g (g.cleanRounds marker).1.removed (g.cleanRounds marker).2 := by
  have constants := top.removeWhere_removes fun _ n => isConstant marker n
  rw [top.cleanRounds_eq]
  exact constants.trans ((constants.spliced.topological top).removeWhere_removes isDeadEnd)

/-- The nodes that are left are those that survive. -/
theorem Topological.live_cleanRounds (top : g.Topological) :
    (g.cleanRounds marker).2.Live h ↔ g.Survives marker h := by
  have spliced := (top.removeWhere_removes fun _ n => isConstant marker n).spliced
  have top₁ : (g.removeConstants marker).2.Topological := spliced.topological top
  rw [top.cleanRounds_eq, top₁.live_removeDeadEnds]
  refine ⟨?_, ?_⟩
  · intro wanted
    have left := top₁.live_of_wanted wanted
    obtain ⟨o, output, path⟩ := wanted
    obtain ⟨output, left'⟩ := (spliced.outputs o).1 output
    exact ⟨(top.live_removeConstants.1 left).2, o, output, (top.live_removeConstants.1 left').2,
      (spliced.reaches_iff left left').1 path⟩
  · rintro ⟨unmarked, o, output, unmarked', path⟩
    have live : g.Live h := top.live_of_wanted ⟨o, output, path⟩
    have left := top.live_removeConstants.2 ⟨live, unmarked⟩
    have left' := top.live_removeConstants.2 ⟨top.outputs_live o output, unmarked'⟩
    exact ⟨o, (spliced.outputs o).2 ⟨output, left'⟩, (spliced.reaches_iff left left').2 path⟩

/-- A path to a node that survives leads through nodes that do not only if they are marked. -/
theorem PathThrough.marked (survives : g.Survives marker v)
    (path : g.PathThrough (fun h => ¬ g.Survives marker h) u v) :
    g.PathThrough (g.Marked marker) u v := by
  induction path with
  | edge edge => exact .edge edge
  | @via u w v edge gone rest ih =>
    refine .via edge (Classical.byContradiction fun unmarked => gone ?_) (ih survives)
    obtain ⟨-, o, output, unmarked', path⟩ := survives
    exact ⟨unmarked, o, output, unmarked', rest.transGen.to_reflTransGen.trans path⟩

/-- As many nodes are marked as the pass over the constants removes. -/
theorem Topological.count_removeConstants (top : g.Topological) (marker : String) :
    (g.removeConstants marker).1 = g.nodes.countP (isConstant marker) := by
  obtain ⟨spliced, sizes⟩ := top.removeWhere_removes fun _ n => isConstant marker n
  have gone : ∀ h ∈ g.order, (¬ ((g.removeConstants marker).2.node? h).isSome = true) ↔
      ((g.node? h).map (isConstant marker)).getD false = true := by
    intro h listed
    obtain ⟨n, found⟩ := (top.listed h).1 listed
    rw [Option.isSome_iff_exists]
    refine (not_congr (top.live_removeConstants.trans (and_iff_right ⟨n, found⟩))).trans ?_
    rw [Classical.not_not, found, Option.map_some, Option.getD_some]
    exact ⟨fun ⟨m, found', marked⟩ => Option.some.inj (found'.symm.trans found) ▸ marked,
      fun marked => ⟨n, found, marked⟩⟩
  have parted := List.length_eq_countP_add_countP (l := g.order)
    fun h => ((g.removeConstants marker).2.node? h).isSome
  have left : (g.removeConstants marker).2.size =
      g.order.countP fun h => ((g.removeConstants marker).2.node? h).isSome := by
    rw [List.countP_eq_length_filter]
    exact congrArg List.length spliced.order
  have marked : g.nodes.countP (isConstant marker) =
      g.order.countP fun h => decide ¬ ((g.removeConstants marker).2.node? h).isSome = true := by
    rw [nodes, List.countP_filterMap]
    exact List.countP_congr fun h listed => (decide_eq_true_iff.trans (gone h listed)).symm
  have total : (g.removeConstants marker).1 + (g.removeConstants marker).2.size = g.order.length :=
    sizes
  omega

/-! ## Renumbering -/

/-- Renumbering gives a node its position for an index. -/
theorem Stored.node?_renumber (stored : g.Stored) {i : Nat} (at_ : g.order[i]? = some h) :
    g.renumber.node? h = (g.node? h).map fun n => { n with index := i } := by
  have inRange : i < g.size := (List.getElem?_eq_some_iff.1 at_).1
  have complete : g.size ≤ (List.range g.size).length := Nat.le_of_eq List.length_range.symm
  exact stored.node?_modifyEach _ complete at_ (List.getElem?_range inRange)

/-- Renumbering leaves everything but the indices. -/
theorem Topological.renumber_spliced (top : g.Topological) : Spliced g g.renumber := by
  have same : SameLinks g g.renumber := sameLinks_renumber
  refine top.spliced_of_same (fun h n' found => ?_) (fun h => same.live) same.order same.outputs
    (fun u v => same.edge) (same.topological top).consistent
  have label : (g.renumber.node? h).map Node.label = (g.node? h).map Node.label :=
    map_node?_modifyEach Node.label (fun index n => { n with index := index }) (fun _ _ => rfl) _ h
  rw [found, Option.map_some] at label
  obtain ⟨n, found', label⟩ := Option.map_eq_some_iff.1 label.symm
  exact ⟨n, found', label.symm⟩

/-- Renumbering makes the indices the positions. -/
theorem Stored.isNormalized_renumber (stored : g.Stored) : g.renumber.isNormalized = true := by
  refine isNormalized_iff.2 fun i n at_ => ?_
  rw [(sameLinks_renumber.stored stored).getElem?_nodes, Option.bind_eq_some_iff] at at_
  obtain ⟨h, at_, found⟩ := at_
  have at_' : g.order[i]? = some h := order_modifyEach (g := g) _ _ ▸ at_
  rw [stored.node?_renumber at_'] at found
  obtain ⟨m, _, rfl⟩ := Option.map_eq_some_iff.1 found
  rfl

/-! ## The clean-up -/

/-- The whole clean-up only splices nodes out, as many as it reports. -/
theorem Topological.cleanUp_removes (top : g.Topological) (marker : String) :
    Removes g (g.cleanUp marker).1.removed (g.cleanUp marker).2 := by
  have rounds := top.cleanRounds_removes marker
  refine ⟨rounds.spliced.trans (rounds.spliced.topological top).renumber_spliced, ?_⟩
  rw [← rounds.size]
  exact congrArg (_ + List.length ·) (order_modifyEach _ _)

/-- What the clean-up leaves is numbered by position. -/
theorem Topological.isNormalized_cleanUp (top : g.Topological) (marker : String) :
    (g.cleanUp marker).2.isNormalized = true :=
  ((top.cleanRounds_removes marker).spliced.topological top).isNormalized_renumber

/-- The clean-up leaves exactly the nodes that survive. -/
theorem Topological.live_cleanUp (top : g.Topological) :
    (g.cleanUp marker).2.Live h ↔ g.Survives marker h := by
  have top' := (top.cleanRounds_removes marker).spliced.topological top
  have renumbered : SameLinks (g.cleanRounds marker).2 (g.cleanUp marker).2 := sameLinks_renumber
  rw [renumbered.live, top.live_cleanRounds]

/-- A topological graph is left clean by the clean-up. -/
theorem Topological.cleaned (top : g.Topological) (marker : String) :
    Cleaned marker g (g.cleanUp marker).1 (g.cleanUp marker).2 := by
  obtain ⟨spliced, size⟩ := top.cleanUp_removes marker
  have live : ∀ h, (g.cleanUp marker).2.Live h ↔ g.Survives marker h := fun _ => top.live_cleanUp
  refine ⟨live, spliced.kept, (spliced.topological top).listed, spliced.order, fun u v => ?_,
    spliced.consistent, fun h => ?_, ?_, size⟩
  · rw [spliced.edges, live, live]
    refine and_congr_right fun _ => and_congr_right fun survives => ?_
    exact ⟨fun path => (path.mono fun h gone => mt (live h).2 gone).marked survives,
      fun path => path.mono fun h marked left => ((live h).1 left).1 marked⟩
  · rw [spliced.outputs, live]
    exact and_congr_right fun output =>
      ⟨fun survives => survives.1, fun unmarked => ⟨unmarked, h, output, unmarked, .refl⟩⟩
  · rw [← top.count_removeConstants]
    exact congrArg (·.1.constants) (top.cleanRounds_eq marker)

end

/-! ## Graphs of traces -/

/-- On the graph of every trace the clean-up does exactly what it should: the nodes without marker
that reach an output without marker are left as they were, joined by what were paths through marked
nodes. -/
theorem ofTrace_cleaned {t : Trace} {s : BuildSettings} {g : Graph} (built : ofTrace t s = .ok g)
    (marker : String) : Cleaned marker g (g.cleanUp marker).1 (g.cleanUp marker).2 :=
  (ofTrace_topological built).cleaned marker

/-- A trace of a layer that reads a constant made from the input, and of an op that nobody reads. -/
def constantTrace : Trace where
  inputs := [⟨some [2]⟩]
  ops := [⟨[0], [1], "scale", "onnx::Constant", ""⟩, ⟨[1], [2], "layer", "onnx::MatMul", ""⟩,
    ⟨[0], [3], "layer", "onnx::Relu", ""⟩]
  outputs := [2]

/-- The graph of the trace, which has four nodes, is cleaned of the constant and the dead end. -/
theorem constantTrace_cleaned : ∃ g, ofTrace constantTrace { numInputs := 1 } = .ok g ∧
    g.size = 4 ∧ Cleaned "::Constant" g (g.cleanUp "::Constant").1 (g.cleanUp "::Constant").2 := by
  obtain ⟨g, built, size⟩ : ∃ g, ofTrace constantTrace { numInputs := 1 } = .ok g ∧ g.size = 4 :=
    ⟨_, rfl, rfl⟩
  exact ⟨g, built, size, ofTrace_cleaned built "::Constant"⟩

end StagePlan.Graph
