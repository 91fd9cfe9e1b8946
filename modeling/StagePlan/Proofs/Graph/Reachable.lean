import StagePlan.Proofs.Graph.Cleanup
import StagePlan.Proofs.Graph.Edits
import StagePlan.Proofs.Schedule

/-!
# Reachable graphs

A graph is `Reachable` if the operations make it: those that add nodes and edges, that take them out
again, that number the nodes, and the scheduling of an answer, which writes the parts onto the
nodes. Edges may be added at will, so such a graph need not be consistent, and it can have cycles.
But it is `Stored` (`Reachable.stored`): a handle is given out once, later nodes have larger ones,
and no operation changes the handle of a node. That is enough to say exactly which answers a
reachable graph that is consistent can be scheduled with (`Reachable.schedule_exact`).
-/

open Relation

namespace StagePlan.Graph

/-- Operations, one after the other, make a graph. A test of `removeWhere` that changes its mind while
it runs is a sequence of `remove`. -/
inductive Reachable : Graph → Prop
  | empty : Reachable .empty
  | ofTrace {t : Trace} {s : BuildSettings} {g : Graph} : ofTrace t s = .ok g → Reachable g
  | add {g : Graph} (scope : String) (kind : NodeKind) (shapes : List Shape) (weight : NodeWeight) :
    Reachable g → Reachable (g.add scope kind shapes weight)
  | addSecondary {g g' : Graph} (primary : Handle) (slot : Nat) :
    Reachable g → g.addSecondary? primary slot = some g' → Reachable g'
  | connect {g : Graph} (u v : Handle) : Reachable g → Reachable (g.connect u v)
  | disconnect {g : Graph} (u v : Handle) : Reachable g → Reachable (g.disconnect u v)
  | markOutput {g : Graph} (h : Handle) : Reachable g → Reachable (g.markOutput h)
  | remove {g : Graph} (h : Handle) : Reachable g → Reachable (g.remove h).2
  | removeWhere {g : Graph} (test : Graph → Node → Bool) :
    Reachable g → Reachable (g.removeWhere test).2
  | removeConstants {g : Graph} (marker : String) :
    Reachable g → Reachable (g.removeConstants marker).2
  | removeDeadEnds {g : Graph} : Reachable g → Reachable g.removeDeadEnds.2
  | renumber {g : Graph} : Reachable g → Reachable g.renumber
  | cleanUp {g : Graph} (marker : String) : Reachable g → Reachable (g.cleanUp marker).2
  | schedule {g : Graph} (p : Partitioning) (policy : WeightPolicy) :
    Reachable g → Reachable (g.schedule p policy).1

section

variable {g g' : Graph} {u v h : Handle}

/-! ## Operations on stored graphs -/

/-- The node of a further output slot is stored in place. -/
theorem Stored.addSecondary? {primary : Handle} {slot : Nat} (stored : g.Stored)
    (added : g.addSecondary? primary slot = some g') : g'.Stored := by
  obtain ⟨node, -, -, -, rfl⟩ := addSecondary?_eq_some.1 added
  exact (stored.push fun _ _ => rfl).connect

/-- The rounds of the clean-up leave a graph stored. -/
theorem Stored.cleanRounds (stored : g.Stored) (marker : String) :
    (g.cleanRounds marker).2.Stored := by
  fun_induction Graph.cleanRounds marker g with
  | case1 => exact (stored.removeWhere _).removeWhere _
  | case2 _ _ _ _ _ _ ih => exact ih ((stored.removeWhere _).removeWhere _)

/-- Whether an answer is scheduled or refused, the graph stays stored. -/
theorem Stored.schedule (stored : g.Stored) (p : Partitioning) (policy : WeightPolicy) :
    (g.schedule p policy).1.Stored := by
  unfold Graph.schedule
  split
  next => exact stored
  next => exact (sameLinks_assignParts p.parts).stored stored

/-! ## Runs of operations -/

/-- Whatever operations make a graph, it is stored. -/
theorem Reachable.stored (reachable : g.Reachable) : g.Stored := by
  induction reachable with
  | empty => exact growing_empty.toStored
  | ofTrace built => exact (ofTrace_topological built).toStored
  | add _ _ _ _ _ ih => exact ih.push fun _ _ => rfl
  | addSecondary _ _ _ added ih => exact ih.addSecondary? added
  | connect _ _ _ ih => exact ih.connect
  | disconnect _ _ _ ih => exact ih.disconnect
  | markOutput _ _ ih => exact ih.of_same_handles rfl fun _ => rfl
  | @remove g h _ ih =>
    unfold Graph.remove
    split
    next => exact ih
    next node _ => exact ih.splice node
  | removeWhere test _ ih => exact ih.removeWhere test
  | removeConstants _ _ ih => exact ih.removeWhere _
  | removeDeadEnds _ ih => exact ih.removeWhere _
  | renumber _ ih => exact sameLinks_renumber.stored ih
  | cleanUp marker _ ih => exact sameLinks_renumber.stored (ih.cleanRounds marker)
  | schedule p policy _ ih => exact ih.schedule p policy

/-- A reachable graph that is consistent is scheduled exactly if the answer fits it and no part
feeds itself through others. The schedule is then as it should be, and whatever the answer is, no
part is looked up where there is none. -/
theorem Reachable.schedule_exact (reachable : g.Reachable) (consistent : g.isConsistent = true)
    (p : Partitioning) (policy : WeightPolicy) :
    (g.schedule p policy).2 ≠ .error .outOfRange ∧
      ((∃ schedule, (g.schedule p policy).2 = .ok schedule) ↔
        g.Fits p ∧ ∀ a, ¬ TransGen (g.Feeds p) a a) ∧
      ∀ schedule, (g.schedule p policy).2 = .ok schedule → g.Scheduled p schedule := by
  have stored := reachable.stored
  have consistent := stored.isConsistent_iff.1 consistent
  refine ⟨fun failed => ?_, ⟨?_, ?_⟩, fun schedule scheduled => ?_⟩
  · obtain ⟨cause, same⟩ := stored.schedule_error consistent failed
    cases same
  · rintro ⟨schedule, scheduled⟩
    obtain ⟨fits, exactly⟩ := stored.schedule_ok consistent scheduled
    exact ⟨fits, exactly.acyclic⟩
  · rintro ⟨fits, acyclic⟩
    obtain ⟨schedule, scheduled⟩ := stored.exists_schedule consistent fits acyclic
    exact ⟨schedule, congrArg Prod.snd scheduled⟩
  · exact (stored.schedule_ok consistent scheduled).2

end

/-- Three nodes, each of which reads from the one before it. -/
def chain : Graph :=
  let three := ((empty.add "a" .rawOp [] .unmeasured).add "b" .rawOp [] .unmeasured).add "c" .rawOp
    [] .unmeasured
  (three.connect 0 1).connect 1 2

/-- The chain is scheduled where its last node has the first of three parts and no node has the
second one, and not where its ends have a part of which the node between them reads. -/
theorem chain_scheduled : chain.Reachable ∧ chain.isConsistent = true ∧
    (∃ schedule, (chain.schedule ⟨3, [2, 2, 0]⟩ {}).2 = .ok schedule ∧
      chain.Scheduled ⟨3, [2, 2, 0]⟩ schedule) ∧
    ¬ ∃ schedule, (chain.schedule ⟨2, [0, 1, 0]⟩ {}).2 = .ok schedule := by
  have reachable : chain.Reachable :=
    .connect 1 2 (.connect 0 1 (.add _ _ _ _ (.add _ _ _ _ (.add _ _ _ _ .empty))))
  have consistent : chain.isConsistent = true := by decide
  obtain ⟨-, -, exactly⟩ := reachable.schedule_exact consistent ⟨3, [2, 2, 0]⟩ {}
  obtain ⟨-, refused, -⟩ := reachable.schedule_exact consistent ⟨2, [0, 1, 0]⟩ {}
  obtain ⟨schedule, scheduled⟩ : ∃ schedule,
      (chain.schedule ⟨3, [2, 2, 0]⟩ {}).2 = .ok schedule := ⟨_, rfl⟩
  refine ⟨reachable, consistent, ⟨schedule, scheduled, exactly schedule scheduled⟩, fun found => ?_⟩
  obtain ⟨-, acyclic⟩ := refused.1 found
  have there : chain.Feeds ⟨2, [0, 1, 0]⟩ 0 1 :=
    ⟨by decide, 0, 1, ⟨_, rfl, by decide⟩, rfl, rfl⟩
  have back : chain.Feeds ⟨2, [0, 1, 0]⟩ 1 0 :=
    ⟨by decide, 1, 2, ⟨_, rfl, by decide⟩, rfl, rfl⟩
  exact acyclic 0 ((TransGen.single there).tail back)

end StagePlan.Graph
