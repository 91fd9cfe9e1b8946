import StagePlan.Proofs.Graph.Cleanup

/-!
# The order of the passes

The clean-up runs its two passes in turn, but it could run them in any order and as often as it
likes. Every pass spares the nodes that survive the clean-up (`Survives.runPass`), and a graph that
is `Settled`, so that neither pass finds anything in it, has no other nodes
(`Topological.live_runPasses`). What splices leave of a graph depends only on which nodes are left
(`Spliced.eq_of_live`), so all sequences of passes that end in a settled graph end in the same one,
which is that of the clean-up (`ofTrace_confluent`). Every sequence of passes gets there if both
passes run once more (`Topological.settled_append`).
-/

open Relation

namespace StagePlan

/-- A node is what it is apart from its place, its index and its neighbours. -/
theorem Node.eq_of_label {n n' : Node} (label : n.label = n'.label) (index : n.index = n'.index)
    (sources : n.sources = n'.sources) (targets : n.targets = n'.targets) : n = n' := by
  cases n
  cases n'
  simp only [Node.label, Prod.mk.injEq] at label
  simp_all

namespace Graph

/-- A pass of the clean-up. -/
inductive Pass where
  /-- Splices out the nodes that carry the marker. -/
  | constants
  /-- Removes the nodes whose result nobody reads or wants. -/
  | deadEnds

/-- Runs a pass; answers how many nodes it removes. -/
def runPass (marker : String) (g : Graph) : Pass → Nat × Graph
  | .constants => g.removeConstants marker
  | .deadEnds => g.removeDeadEnds

/-- The graph once several passes have run, one after the other. -/
def runPasses (marker : String) (g : Graph) (passes : List Pass) : Graph :=
  passes.foldl (fun g pass => (g.runPass marker pass).2) g

/-- No pass removes anything. -/
def Settled (marker : String) (g : Graph) : Prop := ∀ pass, (g.runPass marker pass).1 = 0

/-- No handle is given out and no node is numbered anew. -/
structure Unmoved (g g' : Graph) : Prop where
  nextHandle : g'.nextHandle = g.nextHandle
  index : ∀ h n', g'.node? h = some n' → ∃ n, g.node? h = some n ∧ n'.index = n.index

section

variable {g g' g'' : Graph} {marker : String} {passes : List Pass} {h : Handle}

/-! ## What is left after splices -/

/-- A graph has the handles and the indices that it has. -/
theorem Unmoved.refl (g : Graph) : Unmoved g g := ⟨rfl, fun _ n found => ⟨n, found, rfl⟩⟩

/-- What is unmoved twice is unmoved altogether. -/
theorem Unmoved.trans (first : Unmoved g g') (second : Unmoved g' g'') : Unmoved g g'' where
  nextHandle := second.nextHandle.trans first.nextHandle
  index h n'' found := by
    obtain ⟨n', found', same'⟩ := second.index h n'' found
    obtain ⟨n, found, same⟩ := first.index h n' found'
    exact ⟨n, found, same'.trans same⟩

/-- Splicing a node out gives out no handle and numbers nothing anew. -/
theorem unmoved_splice (g : Graph) (h : Handle) (node : Node) : Unmoved g (g.splice h node) where
  nextHandle := nextHandle_splice g h node
  index k n' found := by
    obtain ⟨n, found', -, index⟩ := kept_splice found
    exact ⟨n, found', index⟩

/-- Neither does a pass. -/
theorem unmoved_removeWhere (test : Graph → Node → Bool) (g : Graph) :
    Unmoved g (g.removeWhere test).2 :=
  removeWhere_induction (fun g' h node _ unmoved => unmoved.trans (unmoved_splice g' h node)) test
    (.refl g)

/-- A graph is what its look-ups answer. -/
theorem eq_of_node? (nextHandle : g.nextHandle = g'.nextHandle)
    (nodes : ∀ h, g.node? h = g'.node? h) (order : g.order = g'.order)
    (outputs : g.outputs = g'.outputs) : g = g' := by
  obtain ⟨slots, _, _⟩ := g
  obtain ⟨slots', _, _⟩ := g'
  have same : slots = slots' := by
    refine Array.ext nextHandle fun i lt lt' => ?_
    simpa [node?, lt, lt'] using nodes i
  subst same order outputs
  rfl

/-- A consistent graph is what its nodes are apart from their neighbours, with its edges. -/
theorem eq_of_edges (nextHandle : g.nextHandle = g'.nextHandle) (order : g.order = g'.order)
    (outputs : g.outputs = g'.outputs) (lives : ∀ h, g.Live h ↔ g'.Live h)
    (kept : ∀ h n n', g.node? h = some n → g'.node? h = some n' →
      n.label = n'.label ∧ n.index = n'.index)
    (edges : ∀ u v, g.Edge u v ↔ g'.Edge u v) (consistent : g.IsConsistent)
    (consistent' : g'.IsConsistent) : g = g' := by
  refine eq_of_node? nextHandle (fun h => ?_) order outputs
  by_cases live : g.Live h
  · obtain ⟨n, found⟩ := live
    obtain ⟨n', found'⟩ := (lives h).1 ⟨n, found⟩
    obtain ⟨label, index⟩ := kept h n n' found found'
    -- both nodes record the edges, which are the same
    have targets : n.targets = n'.targets := by
      ext v
      rw [← edge_iff found, ← edge_iff found', edges]
    have sources : n.sources = n'.sources := by
      ext u
      rw [← back_iff found, ← back_iff found', ← consistent, ← consistent', edges]
    rw [found, found', Node.eq_of_label label index sources targets]
  · rw [node?_eq_none live, node?_eq_none (mt (lives h).2 live)]

/-- A node that splices leave is labelled and numbered as it was. -/
theorem Spliced.stamped (spliced : Spliced g g') (unmoved : Unmoved g g') {n' : Node}
    (left : g'.node? h = some n') :
    ∃ n, g.node? h = some n ∧ n'.label = n.label ∧ n'.index = n.index := by
  obtain ⟨n, found, label⟩ := spliced.kept h n' left
  obtain ⟨m, found', index⟩ := unmoved.index h n' left
  cases found.symm.trans found'
  exact ⟨n, found, label, index⟩

/-- What splices leave of a graph depends only on which nodes are left. -/
theorem Spliced.eq_of_live (first : Spliced g g') (unmoved : Unmoved g g')
    (second : Spliced g g'') (unmoved' : Unmoved g g'')
    (same : ∀ h, g'.Live h ↔ g''.Live h) : g' = g'' := by
  refine eq_of_edges (unmoved.nextHandle.trans unmoved'.nextHandle.symm) ?_ ?_ same ?_ ?_
    first.consistent second.consistent
  · have left : ∀ h, (g'.node? h).isSome = (g''.node? h).isSome := fun h => by
      rw [Bool.eq_iff_iff, Option.isSome_iff_exists, Option.isSome_iff_exists]
      exact same h
    simp only [first.order, second.order, left]
  · ext h
    rw [first.outputs, second.outputs, same]
  · intro h n' n'' found' found''
    obtain ⟨n, found, label', index'⟩ := first.stamped unmoved found'
    obtain ⟨m, foundM, label'', index''⟩ := second.stamped unmoved' found''
    cases found.symm.trans foundM
    exact ⟨label'.trans label''.symm, index'.trans index''.symm⟩
  · intro u v
    simp only [first.edges, second.edges, same]

/-! ## Sequences of passes -/

/-- A pass of either kind splices nodes out and moves none. -/
theorem Topological.runPass_spliced (top : g.Topological) (marker : String) (pass : Pass) :
    Spliced g (g.runPass marker pass).2 ∧ Unmoved g (g.runPass marker pass).2 := by
  cases pass with
  | constants => exact ⟨(top.removeWhere_removes _).spliced, unmoved_removeWhere _ g⟩
  | deadEnds => exact ⟨(top.removeWhere_removes _).spliced, unmoved_removeWhere _ g⟩

/-- So do several passes, one after the other. -/
theorem Topological.runPasses_spliced (top : g.Topological) (marker : String)
    (passes : List Pass) :
    Spliced g (g.runPasses marker passes) ∧ Unmoved g (g.runPasses marker passes) := by
  unfold runPasses
  induction passes generalizing g with
  | nil => exact ⟨top.spliced_refl, .refl g⟩
  | cons pass passes ih =>
    obtain ⟨spliced, unmoved⟩ := top.runPass_spliced marker pass
    obtain ⟨spliced', unmoved'⟩ := ih (spliced.topological top)
    exact ⟨spliced.trans spliced', unmoved.trans unmoved'⟩

/-- A node that survives reaches an output, so no pass removes it. -/
theorem Survives.live_runPass (top : g.Topological) (survives : g.Survives marker h)
    (pass : Pass) : (g.runPass marker pass).2.Live h := by
  obtain ⟨unmarked, o, output, -, path⟩ := survives
  have wanted : g.Wanted h := ⟨o, output, path⟩
  cases pass with
  | constants => exact top.live_removeConstants.2 ⟨top.live_of_wanted wanted, unmarked⟩
  | deadEnds => exact top.live_removeDeadEnds.2 wanted

/-- A node that survives does so in what a pass leaves: the output that it reaches survives too. -/
theorem Survives.runPass (top : g.Topological) (survives : g.Survives marker h) (pass : Pass) :
    (g.runPass marker pass).2.Survives marker h := by
  have spliced := (top.runPass_spliced marker pass).1
  have left := survives.live_runPass top pass
  obtain ⟨unmarked, o, output, unmarked', path⟩ := survives
  have left' : (g.runPass marker pass).2.Live o :=
    Survives.live_runPass top ⟨unmarked', o, output, unmarked', .refl⟩ pass
  refine ⟨fun marked => unmarked ((spliced.marked_iff left).1 marked), o,
    (spliced.outputs o).2 ⟨output, left'⟩,
    fun marked => unmarked' ((spliced.marked_iff left').1 marked),
    (spliced.reaches_iff left left').2 path⟩

/-- No sequence of passes removes a node that survives the clean-up. -/
theorem Survives.runPasses (top : g.Topological) (survives : g.Survives marker h)
    (passes : List Pass) : (g.runPasses marker passes).Survives marker h := by
  unfold Graph.runPasses
  induction passes generalizing g with
  | nil => exact survives
  | cons pass passes ih =>
    exact ih ((top.runPass_spliced marker pass).1.topological top) (survives.runPass top pass)

/-- In a settled graph every live node survives: it carries no marker and reaches an output, which
carries none either. -/
theorem Topological.survives_of_settled (top : g.Topological) (settled : g.Settled marker)
    (live : g.Live h) : g.Survives marker h := by
  have noConstant : g.pick (fun _ n => isConstant marker n) = [] :=
    pick_of_count_eq_zero (settled .constants)
  have unmarked : ∀ k, ¬ g.Marked marker k := by
    intro k marked
    have picked := top.mem_pick_isConstant.2 marked
    rw [noConstant] at picked
    cases picked
  obtain ⟨o, output, path⟩ := top.wanted_of_live (pick_of_count_eq_zero (settled .deadEnds)) live
  exact ⟨unmarked h, o, output, unmarked o, path⟩

/-- A node that survives in what is left survived. -/
theorem Survives.of_spliced (spliced : Spliced g g') (left : g'.Live h)
    (survives : g'.Survives marker h) : g.Survives marker h := by
  obtain ⟨unmarked, o, output, unmarked', path⟩ := survives
  obtain ⟨output', left'⟩ := (spliced.outputs o).1 output
  exact ⟨fun marked => unmarked ((spliced.marked_iff left).2 marked), o, output',
    fun marked => unmarked' ((spliced.marked_iff left').2 marked),
    (spliced.reaches_iff left left').1 path⟩

/-- Passes that end in a settled graph leave exactly the nodes that survive the clean-up. -/
theorem Topological.live_runPasses (top : g.Topological)
    (settled : (g.runPasses marker passes).Settled marker) :
    (g.runPasses marker passes).Live h ↔ g.Survives marker h := by
  have spliced := (top.runPasses_spliced marker passes).1
  have top' := spliced.topological top
  constructor
  · intro left
    exact (top'.survives_of_settled settled left).of_spliced spliced left
  · intro survives
    obtain ⟨-, o, output, -, path⟩ := survives.runPasses top passes
    exact top'.live_of_wanted ⟨o, output, path⟩

/-- Passes that end in a settled graph leave what the rounds of the clean-up leave. -/
theorem Topological.runPasses_eq (top : g.Topological)
    (settled : (g.runPasses marker passes).Settled marker) :
    g.runPasses marker passes = (g.cleanRounds marker).2 := by
  obtain ⟨spliced, unmoved⟩ := top.runPasses_spliced marker passes
  -- the rounds come down to one run of either pass
  have once : (g.cleanRounds marker).2 = g.runPasses marker [.constants, .deadEnds] :=
    congrArg Prod.snd (top.cleanRounds_eq marker)
  refine spliced.eq_of_live unmoved (top.cleanRounds_removes marker).spliced ?_ fun h => ?_
  · rw [once]
    exact (top.runPasses_spliced marker _).2
  · rw [top.live_runPasses settled, top.live_cleanRounds]

/-- Whatever passes have run, running both once more settles the graph. -/
theorem Topological.settled_append (top : g.Topological) (marker : String) (passes : List Pass) :
    (g.runPasses marker (passes ++ [.constants, .deadEnds])).Settled marker := by
  have top' := (top.runPasses_spliced marker passes).1.topological top
  unfold runPasses at top' ⊢
  rw [List.foldl_append]
  generalize passes.foldl _ g = g' at top' ⊢
  intro pass
  cases pass with
  | constants =>
    have nothing := top'.noConstant_deadEnds marker
    exact congrArg Prod.fst (removeWhere_of_pick_eq_nil nothing)
  | deadEnds =>
    exact congrArg Prod.fst (removeWhere_of_pick_eq_nil (pick_removeWhere isDeadEnd _))

end

/-! ## Graphs of traces -/

/-- On the graph of a trace all sequences of passes that end where neither pass removes anything end
in the same graph. It is the one that the rounds of the clean-up end in, so that renumbering it
gives the graph of the clean-up. -/
theorem ofTrace_confluent {t : Trace} {s : BuildSettings} {g : Graph} (built : ofTrace t s = .ok g)
    (marker : String) (passes passes' : List Pass)
    (settled : (g.runPasses marker passes).Settled marker)
    (settled' : (g.runPasses marker passes').Settled marker) :
    g.runPasses marker passes = g.runPasses marker passes' ∧
      g.runPasses marker passes = (g.cleanRounds marker).2 ∧
        (g.runPasses marker passes).renumber = (g.cleanUp marker).2 := by
  have top := ofTrace_topological built
  have rounds := top.runPasses_eq settled
  exact ⟨rounds.trans (top.runPasses_eq settled').symm, rounds, congrArg renumber rounds⟩

/-- A trace of two inputs, the second of which is only read by a constant. The constant is returned,
and an op that nobody reads reads it. -/
def returnedConstantTrace : Trace where
  inputs := [⟨some [2]⟩, ⟨some [3]⟩]
  ops := [⟨[1], [2], "scale", "onnx::Constant", ""⟩, ⟨[0], [3], "layer", "onnx::MatMul", ""⟩,
    ⟨[2, 3], [4], "layer", "onnx::Relu", ""⟩]
  outputs := [2, 3]

/-- A pass over the dead ends that comes first leaves one more of them behind the constant, and
takes it out when it is run again. -/
theorem returnedConstantTrace_confluent :
    ∃ g, ofTrace returnedConstantTrace { numInputs := 2 } = .ok g ∧
      (g.runPasses "::Constant" [.deadEnds, .constants]).size = 3 ∧
      (g.runPasses "::Constant" [.deadEnds, .constants, .deadEnds]).size = 2 ∧
      (g.runPasses "::Constant" [.deadEnds, .constants, .deadEnds]).Settled "::Constant" ∧
      (g.runPasses "::Constant" [.constants, .deadEnds]).Settled "::Constant" ∧
      g.runPasses "::Constant" [.deadEnds, .constants, .deadEnds] =
        g.runPasses "::Constant" [.constants, .deadEnds] ∧
      g.runPasses "::Constant" [.deadEnds, .constants, .deadEnds] =
        (g.cleanRounds "::Constant").2 ∧
      (g.runPasses "::Constant" [.deadEnds, .constants, .deadEnds]).renumber =
        (g.cleanUp "::Constant").2 := by
  have sizes : (ofTrace returnedConstantTrace { numInputs := 2 }).toOption.map (fun g =>
      ((g.runPasses "::Constant" [.deadEnds, .constants]).size,
        (g.runPasses "::Constant" [.deadEnds, .constants, .deadEnds]).size)) = some (3, 2) := by
    decide +kernel
  cases built : ofTrace returnedConstantTrace { numInputs := 2 } with
  | error e => rw [built] at sizes; cases sizes
  | ok g =>
    rw [built] at sizes
    obtain ⟨two, three⟩ := Prod.mk.inj (Option.some.inj sizes)
    have top := ofTrace_topological built
    have settled : (g.runPasses "::Constant" [.deadEnds, .constants, .deadEnds]).Settled
        "::Constant" := top.settled_append "::Constant" [.deadEnds]
    have settled' : (g.runPasses "::Constant" [.constants, .deadEnds]).Settled "::Constant" :=
      top.settled_append "::Constant" []
    exact ⟨g, rfl, two, three, settled, settled',
      ofTrace_confluent built "::Constant" _ _ settled settled'⟩

end Graph

end StagePlan
