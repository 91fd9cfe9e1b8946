import StagePlan.Proofs.Graph.Confluence
import StagePlan.Proofs.Graph.Reachable

/-!
# The rounds of the clean-up

The clean-up settles in two rounds on every graph that operations make, however broken: with cycles,
with nodes that read from themselves, with edges to nodes that are gone and with old indices. A splice
changes no scope, so removing dead ends brings no constant back, and it is the last pass that finds
none of its own left. What the clean-up leaves is `Tidy` (`Stored.tidy_cleanUp`), and it leaves a tidy
graph alone, indices included (`Stored.cleanUp_of_tidy`). `Reachable.cleanUp_settles` puts this
together with the count of the nodes that are gone.
-/

namespace StagePlan.Graph

/-- The clean-up has nothing to do: no node carries the marker, every one has a target or is an
output, and the indices are the positions. -/
structure Tidy (marker : String) (g : Graph) : Prop where
  unmarked : ∀ h n, g.node? h = some n → isConstant marker n = false
  useful : ∀ h n, g.node? h = some n → (∃ v, v ∈ n.targets) ∨ h ∈ g.outputs
  normalized : g.isNormalized = true

section

variable {g : Graph} {marker : String} {h : Handle}

/-! ## Renumbering -/

/-- Renumbering leaves the nodes but for their indices. -/
theorem node?_of_renumber {n' : Node} (found : g.renumber.node? h = some n') :
    ∃ n, g.node? h = some n ∧ n'.scope = n.scope ∧ n'.targets = n.targets := by
  have same : (g.renumber.node? h).map (fun n => (n.scope, n.targets)) =
      (g.node? h).map fun n => (n.scope, n.targets) :=
    map_node?_modifyEach _ (fun index n => { n with index := index }) (fun _ _ => rfl) _ h
  rw [found, Option.map_some] at same
  obtain ⟨n, found', same⟩ := Option.map_eq_some_iff.1 same.symm
  obtain ⟨scope, targets⟩ := Prod.mk.inj same
  exact ⟨n, found', scope.symm, targets.symm⟩

/-- Where the indices are the positions, renumbering changes nothing. -/
theorem Stored.renumber_eq (stored : g.Stored) (normalized : g.isNormalized = true) :
    g.renumber = g := by
  refine eq_of_node? (nextHandle_modifyEach _ _) (fun h => ?_) (order_modifyEach _ _)
    (outputs_modifyEach _ _)
  cases found : g.node? h with
  | none =>
    refine node?_eq_none fun live => ?_
    obtain ⟨n, found'⟩ := sameLinks_renumber.live.1 live
    cases found.symm.trans found'
  | some n => rw [stored.node?_renumber (stored.order_index normalized found), found, Option.map_some]

/-! ## Tidy graphs -/

/-- Where neither pass picks anything out, renumbering makes a graph tidy. -/
theorem Stored.tidy_renumber (stored : g.Stored)
    (noConstant : g.pick (fun _ n => isConstant marker n) = []) (noDeadEnd : g.pick isDeadEnd = []) :
    Tidy marker g.renumber where
  unmarked h n' found' := by
    obtain ⟨n, found, scope, -⟩ := node?_of_renumber found'
    refine Bool.eq_false_iff.2 fun marked => ?_
    have picked := stored.mem_pick_isConstant.2
      ⟨n, found, (congrArg (Text.contains marker) scope).symm.trans marked⟩
    rw [noConstant] at picked
    cases picked
  useful h n' found' := by
    obtain ⟨n, found, -, targets⟩ := node?_of_renumber found'
    have spared : h ∉ g.pick isDeadEnd := noDeadEnd ▸ List.not_mem_nil
    by_cases output : h ∈ g.outputs
    · exact .inr (sameLinks_renumber.outputs.symm ▸ output)
    · refine .inl (Classical.byContradiction fun none_ => spared ?_)
      refine stored.mem_pick_isDeadEnd.2 ⟨⟨n, found⟩, fun v edge => none_ ⟨v, ?_⟩, output⟩
      exact targets ▸ (edge_iff found).1 edge
  normalized := stored.isNormalized_renumber

/-- The clean-up leaves a tidy graph. -/
theorem Stored.tidy_cleanUp (stored : g.Stored) (marker : String) :
    Tidy marker (g.cleanUp marker).2 := by
  have rounds := congrArg Prod.snd (stored.cleanRounds_eq marker)
  refine (stored.cleanRounds marker).tidy_renumber ?_ ?_
  · rw [rounds]
    exact stored.noConstant_deadEnds marker
  · rw [rounds]
    exact pick_removeWhere isDeadEnd _

/-- The clean-up leaves a tidy graph as it is. -/
theorem Stored.cleanUp_of_tidy (stored : g.Stored) (tidy : Tidy marker g) :
    g.cleanUp marker = (⟨0, 0, 1⟩, g) := by
  have noConstant : g.pick (fun _ n => isConstant marker n) = [] := by
    refine List.eq_nil_iff_forall_not_mem.2 fun h picked => ?_
    obtain ⟨n, found, marked⟩ := stored.mem_pick_isConstant.1 picked
    exact Bool.eq_false_iff.1 (tidy.unmarked h n found) marked
  have noDeadEnd : g.pick isDeadEnd = [] := by
    refine List.eq_nil_iff_forall_not_mem.2 fun h picked => ?_
    obtain ⟨⟨n, found⟩, noTarget, noOutput⟩ := stored.mem_pick_isDeadEnd.1 picked
    rcases tidy.useful h n found with ⟨v, target⟩ | output
    · exact noTarget v ⟨n, found, target⟩
    · exact noOutput output
  rw [cleanUp, cleanRounds_of_clean noConstant noDeadEnd]
  exact congrArg _ (stored.renumber_eq tidy.normalized)

/-! ## Reports -/

/-- The report counts the nodes that are gone. -/
theorem Stored.removed_cleanUp (stored : g.Stored) (marker : String) :
    (g.cleanUp marker).1.removed + (g.cleanUp marker).2.size = g.size := by
  have renumbered : (g.cleanUp marker).2.size = (g.cleanRounds marker).2.size :=
    congrArg List.length (order_modifyEach _ _)
  have constants := stored.size_removeWhere fun _ n => isConstant marker n
  have deadEnds := (stored.removeWhere fun _ n => isConstant marker n).size_removeWhere isDeadEnd
  rw [renumbered, cleanUp, stored.cleanRounds_eq, CleanupReport.removed, Nat.add_assoc]
  exact (congrArg _ deadEnds).trans constants

end

/-- Whatever operations make a graph, the clean-up is done after one round if it removes nothing, and
after two rounds otherwise. It counts the nodes that are gone and leaves a tidy graph, and a second
clean-up changes nothing and reports so. -/
theorem Reachable.cleanUp_settles {g : Graph} (reachable : g.Reachable) (marker : String) :
    (g.cleanUp marker).1.rounds = (if (g.cleanUp marker).1.removed = 0 then 1 else 2) ∧
      (g.cleanUp marker).1.removed + (g.cleanUp marker).2.size = g.size ∧
        Tidy marker (g.cleanUp marker).2 ∧
          (g.cleanUp marker).2.cleanUp marker = (⟨0, 0, 1⟩, (g.cleanUp marker).2) := by
  have stored := reachable.stored
  have tidy := stored.tidy_cleanUp marker
  refine ⟨?_, stored.removed_cleanUp marker, tidy, ?_⟩
  · rw [Graph.cleanUp, stored.cleanRounds_eq]
    rfl
  · exact (reachable.cleanUp marker).stored.cleanUp_of_tidy tidy

/-- A constant that reads from itself and from a node that reads from it in turn, which also has an
edge to a node that was never added; and a node that nobody reads, listed after them. -/
def tangled : Graph :=
  let three := ((empty.add "w::Constant" .rawOp [] .unmeasured).add "loop" .rawOp [] .unmeasured).add
    "idle" .rawOp [] .unmeasured
  ((((three.connect 0 0).connect 0 1).connect 1 0).connect 1 9).connect 0 2

/-- The clean-up removes two of its nodes. What is left reads from itself, and still records the edges
to the constant and to the node that was never added. -/
theorem tangled_settles : tangled.Reachable ∧ tangled.isConsistent = false ∧
    (tangled.cleanUp "::Constant").1.removed = 2 ∧ (tangled.cleanUp "::Constant").1.rounds = 2 ∧
      Tidy "::Constant" (tangled.cleanUp "::Constant").2 ∧
        ((tangled.cleanUp "::Constant").2.cleanUp "::Constant").1.rounds = 1 := by
  have reachable : tangled.Reachable :=
    .connect 0 2 (.connect 1 9 (.connect 1 0 (.connect 0 1 (.connect 0 0
      (.add _ _ _ _ (.add _ _ _ _ (.add _ _ _ _ .empty)))))))
  obtain ⟨rounds, -, tidy, again⟩ := reachable.cleanUp_settles "::Constant"
  have removed : (tangled.cleanUp "::Constant").1.removed = 2 := by decide +kernel
  rw [removed] at rounds
  exact ⟨reachable, by decide, removed, rounds, tidy, by rw [again]⟩

end StagePlan.Graph
