import StagePlan.Plan
import StagePlan.Proofs.Graph.Cleanup
import StagePlan.Proofs.Graph.Scoping
import StagePlan.Proofs.Requests
import StagePlan.Proofs.Sequential.Wide

/-!
# Plans

The graph of a trace is topological and stays so when it is cleaned. Whatever solver splits it, only
an answer that fits the graph is let through, so a plan is `Coherent`: its graph, its answer and its
schedule tell the same about the parts (`make_coherent`). The sequential solver moreover splits the
graph into parts that do not descend along its edges, and such parts can be scheduled. So with at
least one device its plan fails only where the graph cannot be built (`make_sequential`).

What is run is `make?` with the solver in wide words. It ends the program because of numbers that are too
large, or it does what `make` does with the exact solver (`make?_wide`), and so all that is proved of
`make` holds of it.
-/

namespace StagePlan.Plan

variable {t : Trace} {s : Settings} {solver : Solver}

/-- A plan is made of what the steps answer, if all of them succeed. -/
theorem make_eq_ok {plan : Plan} : make t s solver = .ok plan ↔ ∃ built split schedule,
    Graph.ofTrace t s.build = .ok built ∧
      (built.cleanUp s.cleanup.constantMarker).2.split s.split solver = .ok split ∧
        ((built.cleanUp s.cleanup.constantMarker).2.schedule split.answer s.split.weights).2 =
          .ok schedule ∧
            plan = ⟨((built.cleanUp s.cleanup.constantMarker).2.schedule split.answer
              s.split.weights).1, split.answer, schedule,
                (built.cleanUp s.cleanup.constantMarker).1⟩ := by
  simp only [make, ofSplit, Results.bind_eq_ok]
  refine ⟨?_, ?_⟩
  · rintro ⟨built, build, split, answer, schedule, order, same⟩
    exact ⟨built, split, schedule, build, answer, order, (Except.ok.inj same).symm⟩
  · rintro ⟨built, split, schedule, build, answer, order, rfl⟩
    exact ⟨built, build, split, answer, schedule, order, rfl⟩

/-- A plan fails for what its first step that fails does. -/
theorem make_eq_error {e : Error} : make t s solver = .error e ↔
    Graph.ofTrace t s.build = .error e ∨ ∃ built, Graph.ofTrace t s.build = .ok built ∧
      ((built.cleanUp s.cleanup.constantMarker).2.split s.split solver = .error e ∨ ∃ split,
        (built.cleanUp s.cleanup.constantMarker).2.split s.split solver = .ok split ∧
          ((built.cleanUp s.cleanup.constantMarker).2.schedule split.answer s.split.weights).2 =
            .error e) := by
  simp only [make, ofSplit, Results.bind_eq_error]
  refine or_congr_right (exists_congr fun built => and_congr_right fun build => or_congr_right ?_)
  refine exists_congr fun split => and_congr_right fun answer => ?_
  exact ⟨fun failed => failed.resolve_right fun ⟨_, _, never⟩ => (nomatch never), .inl⟩

/-! ## Plans of any solver -/

/-- The graph, the answer and the schedule of a plan for a number of devices tell the same about the
parts: they are counted, there are no more of them than devices, every node has its own, every part
has its stage and its place in the order, and along the edges the parts run one after the other. -/
structure Coherent (plan : Plan) (devices : Nat) : Prop where
  few : plan.answer.count ≤ devices
  length : plan.answer.parts.length = plan.graph.size
  counted : ∀ part ∈ plan.answer.parts, part < plan.answer.count
  assigned : ∀ n ∈ plan.graph.nodes, ∃ part, n.part = some part ∧
    plan.answer.parts[n.index]? = some part
  stages : plan.schedule.stages.map (·.part) = List.range plan.answer.count
  order : plan.schedule.order.Perm (List.range plan.answer.count)
  producersFirst : ∀ u v n m a b, plan.graph.Edge u v → plan.graph.node? u = some n →
    plan.graph.node? v = some m → n.part = some a → m.part = some b → a ≠ b →
      plan.schedule.order.idxOf a < plan.schedule.order.idxOf b

/-- The graph that is split is topological and its indices are the positions. -/
theorem topological_cleanUp {g : Graph} (built : Graph.ofTrace t s.build = .ok g) :
    (g.cleanUp s.cleanup.constantMarker).2.Topological ∧
      (g.cleanUp s.cleanup.constantMarker).2.isNormalized = true :=
  have top := Graph.ofTrace_topological built
  ⟨(top.cleanUp_removes s.cleanup.constantMarker).spliced.topological top,
    top.isNormalized_cleanUp s.cleanup.constantMarker⟩

/-- A plan is coherent. -/
theorem coherent_of_make {plan : Plan} (made : make t s solver = .ok plan) :
    plan.Coherent s.split.devices := by
  obtain ⟨built, split, schedule, build, answered, scheduled, rfl⟩ := make_eq_ok.1 made
  have top := (topological_cleanUp build).1
  generalize (built.cleanUp s.cleanup.constantMarker).2 = g at top answered scheduled ⊢
  obtain ⟨fits, few⟩ := top.split_ok answered
  obtain ⟨-, exactly⟩ := top.schedule_ok top.consistent scheduled
  -- the graph of the plan is the cleaned one with the parts written onto its nodes
  rw [fits.schedule_eq]
  refine ⟨few, fits.assignParts.length, fits.counted, fun n listed => ?_, exactly.stages,
    exactly.order.complete, fun u v n m a b edge found found' part part' different => ?_⟩
  · obtain ⟨h, _, found⟩ := Graph.mem_nodes.1 listed
    exact fits.part_assignParts top.toStored found
  -- a node that carries a part is given it by the answer, so parts at an edge feed each other
  · have own : ∀ {h n a}, (g.assignParts split.answer.parts).node? h = some n → n.part = some a →
        (g.assignParts split.answer.parts).partOf? split.answer h = some a := by
      intro h n a found part
      obtain ⟨a', part', at_⟩ := fits.part_assignParts top.toStored found
      cases part.symm.trans part'
      exact Graph.partOf?_eq_some.2 ⟨n, found, at_⟩
    refine exactly.order.producersFirst a b ((exactly.edges a b).2 ?_)
    exact Graph.feeds_assignParts.1 ⟨different, u, v, edge, own found part, own found' part'⟩

/-- No step of a plan looks up what there is not. -/
theorem make_ne_outOfRange : make t s solver ≠ .error .outOfRange := by
  intro failed
  rcases make_eq_error.1 failed with refused | ⟨built, build, refused | ⟨split, _, refused⟩⟩
  · rcases Graph.ofTrace_cases t s.build with ⟨g, other⟩ | ⟨_, other⟩ | ⟨_, _, other⟩ | ⟨_, _, other⟩
    all_goals cases other.symm.trans refused
  · rcases Graph.split_error refused with ⟨_, same⟩ | ⟨_, same⟩ <;> cases same
  · have top := (topological_cleanUp build).1
    obtain ⟨_, same⟩ := top.schedule_error top.consistent refused
    cases same

/-- Whatever a solver answers, a plan never looks up what there is not, and if there is one it is
coherent. An error of the solver is a failure to split. -/
theorem make_coherent (t : Trace) (s : Settings) (solver : Solver) :
    make t s solver ≠ .error .outOfRange ∧
      (∀ plan, make t s solver = .ok plan → plan.Coherent s.split.devices) ∧
      ∀ g r e, Graph.ofTrace t s.build = .ok g →
        PartitionRequest.ofGraph (g.cleanUp s.cleanup.constantMarker).2 s.split = .ok r →
          solver r = .error e → ∃ cause, make t s solver = .error (.partitioning cause) := by
  refine ⟨make_ne_outOfRange, fun plan made => coherent_of_make made, ?_⟩
  intro g r e built asked refused
  obtain ⟨cause, same⟩ := e.exists_ofSolver
  refine ⟨cause, make_eq_error.2 (.inr ⟨g, built, .inl ?_⟩)⟩
  rw [Graph.split_of_refusal asked refused, same]

/-- Settings for two devices. -/
def twoDevices : Settings where
  build := { numInputs := 1 }
  split := { devices := 2 }

/-- A solver that puts the first of two nodes into the second part. -/
def swappingSolver : Solver := fun _ => .ok ⟨2, [1, 0]⟩

/-- A solver that refuses, and states another error than a failure to split. -/
def refusingSolver : Solver := fun _ => .error (.settings .noDevices)

/-- The two nodes of a cleaned trace run in the order of the edge between them, whatever the numbers
of their parts, and if they are not split the plan fails for that. -/
theorem constantTrace_coherent :
    (∃ plan, make Graph.constantTrace twoDevices swappingSolver = .ok plan ∧
      plan.schedule.order = [1, 0] ∧ plan.Coherent twoDevices.split.devices) ∧
    ∃ cause, make Graph.constantTrace twoDevices refusingSolver = .error (.partitioning cause) := by
  obtain ⟨-, coherent, -⟩ := make_coherent Graph.constantTrace twoDevices swappingSolver
  obtain ⟨-, -, refusal⟩ := make_coherent Graph.constantTrace twoDevices refusingSolver
  refine ⟨?_, ?_⟩
  · have order : (make Graph.constantTrace twoDevices swappingSolver).toOption.map
        (·.schedule.order) = some [1, 0] := by decide +kernel
    cases made : make Graph.constantTrace twoDevices swappingSolver with
    | error e => rw [made] at order; cases order
    | ok plan =>
      rw [made] at order
      exact ⟨plan, rfl, Option.some.inj order, coherent plan made⟩
  · obtain ⟨g, built⟩ : ∃ g, Graph.ofTrace Graph.constantTrace twoDevices.build = .ok g := ⟨_, rfl⟩
    obtain ⟨top, normalized⟩ := topological_cleanUp built
    have some_ : 1 ≤ twoDevices.split.devices := by decide
    obtain ⟨r, asked, -⟩ := top.exists_ofGraph normalized some_
    exact refusal g r (.settings .noDevices) built asked rfl

/-! ## Plans of the sequential solver -/

/-- A graph that is built is planned: the stages ascend, and there are some if there are nodes. -/
theorem exists_make {g : Graph} (built : Graph.ofTrace t s.build = .ok g)
    (some_ : 1 ≤ s.split.devices) :
    ∃ plan, make t s Sequential.split = .ok plan ∧ (∀ e ∈ plan.schedule.edges, e.1 < e.2) ∧
      (plan.answer.count = 0 ↔ (g.cleanUp s.cleanup.constantMarker).2.isEmpty = true) := by
  obtain ⟨top, normalized⟩ := topological_cleanUp built
  obtain ⟨split, answered, ascends, empty⟩ := top.exists_split normalized some_
  obtain ⟨schedule, scheduled, ascend⟩ := ascends.exists_schedule top s.split.weights
  exact ⟨_, make_eq_ok.2 ⟨g, split, schedule, built, answered, congrArg Prod.snd scheduled, rfl⟩,
    ascend, empty⟩

/-- With at least one device the sequential solver plans exactly the traces whose graph can be
built, and reports what kept the graph from being built otherwise. In a plan no stage reads from a
later one, and there are no parts exactly if the cleaned graph is empty. -/
theorem make_sequential (t : Trace) (s : Settings) (some_ : 1 ≤ s.split.devices) :
    (∀ e, Graph.ofTrace t s.build = .error e → make t s Sequential.split = .error e) ∧
      ∀ g, Graph.ofTrace t s.build = .ok g → ∃ plan, make t s Sequential.split = .ok plan ∧
        (∀ e ∈ plan.schedule.edges, e.1 < e.2) ∧
          (plan.answer.count = 0 ↔ (g.cleanUp s.cleanup.constantMarker).2.isEmpty = true) := by
  refine ⟨fun e failed => ?_, fun g built => exists_make built some_⟩
  rw [make, failed]
  rfl

/-- Two devices have a plan for a graph with a constant. -/
theorem constantTrace_planned : 1 ≤ twoDevices.split.devices ∧
    ∃ g, Graph.ofTrace Graph.constantTrace twoDevices.build = .ok g ∧
      ∃ plan, make Graph.constantTrace twoDevices Sequential.split = .ok plan ∧
        (∀ e ∈ plan.schedule.edges, e.1 < e.2) ∧
          (plan.answer.count = 0 ↔
            (g.cleanUp twoDevices.cleanup.constantMarker).2.isEmpty = true) := by
  obtain ⟨g, built⟩ : ∃ g, Graph.ofTrace Graph.constantTrace twoDevices.build = .ok g := ⟨_, rfl⟩
  have some_ : 1 ≤ twoDevices.split.devices := by decide
  exact ⟨some_, g, built, (make_sequential Graph.constantTrace twoDevices some_).2 g built⟩

/-! ## Plans in wide words -/

/-- A solver that may end the program does so, or it makes the plan of one that always answers. -/
theorem make?_cases {solver? : PartialSolver}
    (same : ∀ r, solver? r = none ∨ solver? r = some (solver r)) :
    (make? t s solver? = none ∧ ∃ g r, Graph.ofTrace t s.build = .ok g ∧
      PartitionRequest.ofGraph (g.cleanUp s.cleanup.constantMarker).2 s.split = .ok r ∧
        solver? r = none) ∨
      make? t s solver? = some (make t s solver) := by
  unfold make? make
  cases Graph.ofTrace t s.build with
  | error e => exact .inr rfl
  | ok g =>
    have cases_ := Graph.split?_cases (g := (g.cleanUp s.cleanup.constantMarker).2) (s := s.split) same
    rcases cases_ with ⟨ended, r, asked, none_⟩ | answered
    · exact .inl ⟨congrArg (Option.map _) ended, g, r, rfl, asked, none_⟩
    · exact .inr (congrArg (Option.map _) answered)

/-- In wide words a trace ends the program, because the request for its cleaned graph overflows, or its
plan is the one that is made with exact numbers. -/
theorem make?_wide (t : Trace) (s : Settings) :
    (make? t s Sequential.Wide.split? = none ∧ ∃ g r, Graph.ofTrace t s.build = .ok g ∧
      PartitionRequest.ofGraph (g.cleanUp s.cleanup.constantMarker).2 s.split = .ok r ∧
        r.Overflows) ∨
      make? t s Sequential.Wide.split? = some (make t s Sequential.split) := by
  rcases make?_cases Sequential.Wide.split?_same with ⟨ended, g, r, built, asked, none_⟩ | planned
  · exact .inl ⟨ended, g, r, built, asked, Sequential.Wide.overflows_of_split? none_⟩
  · exact .inr planned

end StagePlan.Plan
