import StagePlan.Proofs.Graph.Reachable

/-!
# Refused answers

An answer is refused either as such or for what shows along the edges of the graph, which are looked
at once the parts are written. So a refusal of the first kind leaves the graph as it was. One of the
second kind, an edge to a removed node or a cycle of the stages, leaves it `Assigned`: every node
carries its part, whatever it carried before, and nothing else is changed
(`Reachable.schedule_refused`). `chain_assigned` is a refusal that can be seen on the graph.
-/

namespace StagePlan.Graph

/-- A graph is another one with the parts of an answer written onto its nodes. -/
structure Assigned (g : Graph) (p : Partitioning) (g' : Graph) : Prop where
  order : g'.order = g.order
  outputs : g'.outputs = g.outputs
  nextHandle : g'.nextHandle = g.nextHandle
  removed : ∀ h, g.node? h = none → g'.node? h = none
  assigned : ∀ h n, g.node? h = some n → ∃ part, p.parts[n.index]? = some part ∧ part < p.count ∧
    g'.node? h = some { n with part := some part }

section

variable {g : Graph} {p : Partitioning} {policy : WeightPolicy}

/-- Writing an answer that fits changes the parts of the nodes and nothing else. -/
theorem Fits.assigned (fits : g.Fits p) (stored : g.Stored) :
    Assigned g p (g.assignParts p.parts) where
  order := order_modifyEach _ _
  outputs := outputs_modifyEach _ _
  nextHandle := nextHandle_modifyEach _ _
  removed h dead := by
    refine node?_eq_none fun live => ?_
    obtain ⟨n, found⟩ := (sameLinks_assignParts p.parts).live.1 live
    cases dead.symm.trans found
  assigned h n found := by
    obtain ⟨part, at_⟩ := fits.exists_part stored found
    have complete : g.size ≤ p.parts.length := Nat.le_of_eq fits.length.symm
    refine ⟨part, at_, fits.counted part (List.mem_of_getElem? at_), ?_⟩
    rw [Graph.assignParts, stored.node?_modifyEach _ complete
      (stored.order_index fits.normalized found) at_, found, Option.map_some]

/-- An answer that is refused as such leaves no trace. One that is refused for what shows along the
edges leaves its parts on the nodes, and nothing else. -/
theorem Reachable.schedule_refused (reachable : g.Reachable) {e : Error}
    (failed : (g.schedule p policy).2 = .error e) :
    ∃ cause, e = .inconsistentPartition cause ∧
      (cause.OfAnswer ∧ (g.schedule p policy).1 = g ∨
        cause.OfEdges ∧ Assigned g p (g.schedule p policy).1) := by
  have stored := reachable.stored
  cases checked : g.checkAnswer p with
  | error e' =>
    obtain ⟨cause, rfl, ofAnswer⟩ := checkAnswer_error checked
    rw [Graph.schedule, checked] at failed ⊢
    cases failed
    exact ⟨cause, rfl, .inl ⟨ofAnswer, rfl⟩⟩
  | ok =>
    have fits := checkAnswer_eq_ok.1 checked
    rw [fits.schedule_eq] at failed ⊢
    obtain ⟨cause, rfl, ofEdges⟩ := fits.assignParts.scheduleOf_error
      ((sameLinks_assignParts p.parts).stored stored) failed
    exact ⟨cause, rfl, .inr ⟨ofEdges, fits.assigned stored⟩⟩

end

/-- The chain with an edge to a node that there never was. -/
def danglingChain : Graph := chain.connect 2 7

/-- The dangling chain is left as it was by an answer that lacks a part, and has the parts of one that
is refused for its last edge. -/
theorem danglingChain_refused : danglingChain.Reachable ∧
    (danglingChain.schedule ⟨2, [0, 1]⟩ {}).2 = .error (.inconsistentPartition (.partCount 2 3)) ∧
    (danglingChain.schedule ⟨2, [0, 1]⟩ {}).1 = danglingChain ∧
    (danglingChain.schedule ⟨2, [0, 1, 1]⟩ {}).2 = .error (.inconsistentPartition (.removedNode 7)) ∧
    Assigned danglingChain ⟨2, [0, 1, 1]⟩ (danglingChain.schedule ⟨2, [0, 1, 1]⟩ {}).1 := by
  have reachable : danglingChain.Reachable := .connect 2 7 (.connect 1 2 (.connect 0 1
    (.add _ _ _ _ (.add _ _ _ _ (.add _ _ _ _ .empty)))))
  have short : (danglingChain.schedule ⟨2, [0, 1]⟩ {}).2 =
      .error (.inconsistentPartition (.partCount 2 3)) := rfl
  have dangling : (danglingChain.schedule ⟨2, [0, 1, 1]⟩ {}).2 =
      .error (.inconsistentPartition (.removedNode 7)) := rfl
  obtain ⟨_, same, ⟨-, left_⟩ | ⟨ofEdges, -⟩⟩ := reachable.schedule_refused short
  · obtain ⟨_, same', ⟨ofAnswer, -⟩ | ⟨-, assigned⟩⟩ := reachable.schedule_refused dangling
    · cases same'
      exact ofAnswer.elim
    · exact ⟨reachable, short, left_, dangling, assigned⟩
  · cases same
    exact ofEdges.elim

/-- The nodes of the chain have no parts before an answer is refused for its cycle, and have them
afterwards. -/
theorem chain_assigned : chain.Reachable ∧
    (chain.schedule ⟨2, [0, 1, 0]⟩ {}).2 = .error (.inconsistentPartition (.cycle 1)) ∧
    chain.nodes.map (·.part) = [none, none, none] ∧
    (chain.schedule ⟨2, [0, 1, 0]⟩ {}).1.nodes.map (·.part) = [some 0, some 1, some 0] ∧
    (chain.schedule ⟨2, [0, 1, 0]⟩ {}).1 ≠ chain := by
  have before : chain.nodes.map (·.part) = [none, none, none] := rfl
  have after : (chain.schedule ⟨2, [0, 1, 0]⟩ {}).1.nodes.map (·.part) =
      [some 0, some 1, some 0] := rfl
  refine ⟨.connect 1 2 (.connect 0 1 (.add _ _ _ _ (.add _ _ _ _ (.add _ _ _ _ .empty)))), rfl,
    before, after, fun same => ?_⟩
  rw [same, before] at after
  cases after

end StagePlan.Graph
