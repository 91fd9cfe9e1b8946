import StagePlan.Proofs.Graph.Edges
import StagePlan.Proofs.Results
import StagePlan.Proofs.Stages

/-!
# Schedules of graphs

An answer `Fits` a graph if it has a counted part for every node, whose indices are the positions,
and one part `Feeds` another if an edge of the graph leads from a node of the one to a node of the
other. On a consistent graph that an answer fits the stage edges are the pairs of which the first
part feeds the second (`Fits.mem_stageEdges`), so there is a schedule exactly if no part feeds
itself through others, and it is `Scheduled` as it should be (`Stored.schedule_ok`,
`Stored.exists_schedule`). Where no edge leads to an earlier part (`Graph.Ascends`) this is so
(`Ascends.exists_schedule`).
-/

open Relation

namespace StagePlan

/-- An answer is refused as such, before it is written onto a graph. -/
def ScheduleCause.OfAnswer : ScheduleCause → Prop
  | .notNormalized | .partCount _ _ | .partOutOfRange _ _ => True
  | _ => False

/-- What is wrong shows only along the edges of a graph. -/
def ScheduleCause.OfEdges : ScheduleCause → Prop
  | .removedNode _ | .cycle _ => True
  | _ => False

/-- The entry of a list at a position is found where there is one. -/
theorem entry_eq_ok {α : Type} {l : List α} {i : Nat} {a : α} :
    entry l i = .ok a ↔ l[i]? = some a := by
  unfold entry
  split
  next b at_ => rw [at_, Except.ok.injEq, Option.some.injEq]
  next at_ => exact ⟨fun failed => (nomatch failed), fun found => (nomatch at_.symm.trans found)⟩

namespace Graph

/-- An answer has a part below its number of parts for every node, whose indices are the
positions. -/
structure Fits (g : Graph) (p : Partitioning) : Prop where
  normalized : g.isNormalized = true
  length : p.parts.length = g.size
  counted : ∀ part ∈ p.parts, part < p.count

/-- The part that an answer gives to the node of a handle. -/
def partOf? (g : Graph) (p : Partitioning) (h : Handle) : Option Nat :=
  (g.node? h).bind fun n => p.parts[n.index]?

/-- An edge leads from a node of one part to a node of another. -/
def Feeds (g : Graph) (p : Partitioning) (a b : Nat) : Prop :=
  a ≠ b ∧ ∃ u v, g.Edge u v ∧ g.partOf? p u = some a ∧ g.partOf? p v = some b

/-- A schedule has the edges between the parts, ascending, an order in which every part comes after
those that feed it, and a stage for every part. -/
structure Scheduled (g : Graph) (p : Partitioning) (schedule : Schedule) : Prop where
  edges : ∀ a b, (a, b) ∈ schedule.edges ↔ g.Feeds p a b
  ascending : schedule.edges.Pairwise fun e f => e.1 < f.1 ∨ e.1 = f.1 ∧ e.2 < f.2
  order : Orders p.count schedule.edges schedule.order
  stages : schedule.stages.map (·.part) = List.range p.count

section

variable {g g' : Graph} {p : Partitioning} {policy : WeightPolicy} {schedule : Schedule}
  {pairs : List (Nat × Nat)} {parts : List Nat} {a b : Nat} {u v h : Handle}

/-! ## Parts of nodes -/

/-- The part of a node is that at its index. -/
theorem partOf?_eq_some :
    g.partOf? p h = some a ↔ ∃ n, g.node? h = some n ∧ p.parts[n.index]? = some a :=
  Option.bind_eq_some_iff

/-- In an answer that fits, the part of a node is counted. -/
theorem Fits.lt_count (fits : g.Fits p) (part : g.partOf? p h = some a) : a < p.count := by
  obtain ⟨n, _, at_⟩ := partOf?_eq_some.1 part
  exact fits.counted a (List.mem_of_getElem? at_)

/-- So are two parts of which one feeds the other. -/
theorem Fits.lt_of_feeds (fits : g.Fits p) (feeds : g.Feeds p a b) : a < p.count ∧ b < p.count := by
  obtain ⟨-, u, v, -, part, part'⟩ := feeds
  exact ⟨fits.lt_count part, fits.lt_count part'⟩

/-- In an answer that fits, every live node has a part. -/
theorem Fits.exists_part (fits : g.Fits p) (stored : g.Stored) {n : Node}
    (found : g.node? h = some n) : ∃ a, p.parts[n.index]? = some a := by
  have at_ := stored.order_index fits.normalized found
  have lt : n.index < p.parts.length := fits.length ▸ (List.getElem?_eq_some_iff.1 at_).1
  exact ⟨p.parts[n.index], List.getElem?_eq_getElem lt⟩

/-! ## Checking an answer -/

/-- The check finds out whether an answer fits. -/
theorem checkAnswer_eq_ok : g.checkAnswer p = .ok () ↔ g.Fits p := by
  unfold checkAnswer
  split
  next stale =>
    refine ⟨fun failed => (nomatch failed), fun fits => ?_⟩
    rw [fits.normalized] at stale
    exact absurd stale Bool.false_ne_true
  next normalized =>
    split
    next wrong => exact ⟨fun failed => (nomatch failed), fun fits => absurd fits.length wrong⟩
    next length =>
      split
      next part found =>
        refine ⟨fun failed => (nomatch failed), fun fits => ?_⟩
        have lt := fits.counted part (List.mem_of_find?_eq_some found)
        have tooLarge : p.count ≤ part := by simpa using List.find?_some found
        exact absurd lt (Nat.not_lt.2 tooLarge)
      next none_ =>
        refine ⟨fun _ => ⟨by simpa using normalized, not_not.1 length, fun part member => ?_⟩,
          fun _ => rfl⟩
        simpa using List.find?_eq_none.1 none_ part member

/-- An answer that does not fit is refused for what is wrong with it. -/
theorem checkAnswer_error {e : Error} (failed : g.checkAnswer p = .error e) :
    ∃ cause, e = .inconsistentPartition cause ∧ cause.OfAnswer := by
  unfold checkAnswer at failed
  split at failed
  next => exact ⟨_, (Except.error.inj failed).symm, trivial⟩
  next =>
    split at failed
    next => exact ⟨_, (Except.error.inj failed).symm, trivial⟩
    next =>
      split at failed
      next => exact ⟨_, (Except.error.inj failed).symm, trivial⟩
      next => cases failed

/-! ## Stage edges of a graph -/

/-- The parts at the ends of an edge are found if the target is live and has one. -/
theorem edgeParts_eq_ok {source : Nat} {e : Nat × Nat} : g.edgeParts parts source v = .ok e ↔
    ∃ m, g.node? v = some m ∧ e.1 = source ∧ parts[m.index]? = some e.2 := by
  unfold edgeParts
  split
  next dead =>
    refine ⟨fun failed => (nomatch failed), ?_⟩
    rintro ⟨m, found, -⟩
    cases dead.symm.trans found
  next m found =>
    refine ⟨fun value => ?_, ?_⟩
    · obtain ⟨b, part, same⟩ := Results.bind_eq_ok.1 value
      cases same
      exact ⟨m, found, rfl, entry_eq_ok.1 part⟩
    · rintro ⟨m', found', rfl, part⟩
      obtain rfl : m = m' := Option.some.inj (found.symm.trans found')
      exact Results.bind_eq_ok.2 ⟨e.2, entry_eq_ok.2 part, rfl⟩

/-- The parts at the ends of every edge of a consistent graph are found. -/
theorem Fits.exists_partPairs (fits : g.Fits p) (stored : g.Stored) (consistent : g.IsConsistent) :
    ∃ pairs, g.partPairs p.parts = .ok pairs := by
  obtain ⟨lists, all⟩ : ∃ lists, (g.nodes.mapM fun n => do
      let source ← entry p.parts n.index
      n.targets.toList.mapM (g.edgeParts p.parts source)) = .ok lists := by
    refine Results.exists_mapM_eq_ok fun n listed => ?_
    obtain ⟨u, _, found⟩ := mem_nodes.1 listed
    obtain ⟨a, part⟩ := fits.exists_part stored found
    obtain ⟨es, ends⟩ : ∃ es, n.targets.toList.mapM (g.edgeParts p.parts a) = .ok es := by
      refine Results.exists_mapM_eq_ok fun v target => ?_
      -- the edge is recorded at its target, which is therefore live
      obtain ⟨m, found'⟩ := ((consistent u v).1 ⟨n, found, target⟩).live
      obtain ⟨b, part'⟩ := fits.exists_part stored found'
      exact ⟨(a, b), edgeParts_eq_ok.2 ⟨m, found', rfl, part'⟩⟩
    exact ⟨es, Results.bind_eq_ok.2 ⟨a, entry_eq_ok.2 part, ends⟩⟩
  exact ⟨lists.flatten, Results.bind_eq_ok.2 ⟨lists, all, rfl⟩⟩

/-- The parts at the ends of the edges are found unless an edge leads to a node that was removed. -/
theorem Fits.partPairs_error (fits : g.Fits p) (stored : g.Stored) {e : Error}
    (failed : g.partPairs p.parts = .error e) : ∃ h, e = .inconsistentPartition (.removedNode h) := by
  have found : ∀ h n, g.node? h = some n → entry p.parts n.index ≠ .error e := by
    intro h n live failed
    obtain ⟨a, part⟩ := fits.exists_part stored live
    cases (entry_eq_ok.2 part).symm.trans failed
  rcases Results.bind_eq_error.1 failed with failed | ⟨lists, -, failed⟩
  · obtain ⟨n, listed, failed⟩ := Results.exists_of_mapM_eq_error failed
    obtain ⟨u, -, live⟩ := mem_nodes.1 listed
    rcases Results.bind_eq_error.1 failed with failed | ⟨source, -, failed⟩
    · exact absurd failed (found u n live)
    obtain ⟨v, -, failed⟩ := Results.exists_of_mapM_eq_error failed
    unfold edgeParts at failed
    split at failed
    next => exact ⟨v, (Except.error.inj failed).symm⟩
    next m live' =>
      rcases Results.bind_eq_error.1 failed with failed | ⟨target, -, failed⟩
      · exact absurd failed (found v m live')
      · cases failed
  · cases failed

/-- The pairs of parts are those at the ends of the edges. -/
theorem Stored.mem_partPairs (stored : g.Stored) (found : g.partPairs p.parts = .ok pairs) :
    (a, b) ∈ pairs ↔ ∃ u v, g.Edge u v ∧ g.partOf? p u = some a ∧ g.partOf? p v = some b := by
  obtain ⟨lists, all, same⟩ := Results.bind_eq_ok.1 found
  cases same
  rw [List.mem_flatten]
  refine ⟨?_, ?_⟩
  · rintro ⟨es, member, inEs⟩
    obtain ⟨n, listed, ends⟩ := Results.exists_of_mem_mapM all es member
    obtain ⟨u, _, live⟩ := mem_nodes.1 listed
    obtain ⟨source, part, ends⟩ := Results.bind_eq_ok.1 ends
    obtain ⟨v, target, value⟩ := Results.exists_of_mem_mapM ends (a, b) inEs
    obtain ⟨m, live', rfl, part'⟩ := edgeParts_eq_ok.1 value
    exact ⟨u, v, ⟨n, live, target⟩, partOf?_eq_some.2 ⟨n, live, entry_eq_ok.1 part⟩,
      partOf?_eq_some.2 ⟨m, live', part'⟩⟩
  · rintro ⟨u, v, ⟨n, live, target⟩, part, part'⟩
    obtain ⟨_, live', at_⟩ := partOf?_eq_some.1 part
    cases live.symm.trans live'
    obtain ⟨m, live', at_'⟩ := partOf?_eq_some.1 part'
    have listed : n ∈ g.nodes := mem_nodes.2 ⟨u, (stored.listed u).2 ⟨n, live⟩, live⟩
    obtain ⟨es, member, ends⟩ := Results.exists_mem_of_mapM all n listed
    obtain ⟨source, part, ends⟩ := Results.bind_eq_ok.1 ends
    obtain rfl : source = a := Option.some.inj ((entry_eq_ok.1 part).symm.trans at_)
    -- the traversal of the node has a pair for each of its targets, and for this one it is `(a, b)`
    obtain ⟨e, inEs, value⟩ := Results.exists_mem_of_mapM ends v target
    obtain rfl : e = (source, b) := by
      obtain ⟨_, live'', first, second⟩ := edgeParts_eq_ok.1 value
      cases live'.symm.trans live''
      exact Prod.ext first (Option.some.inj (second.symm.trans at_'))
    exact ⟨es, member, inEs⟩

/-- The stage edges are the pairs of parts of which the first feeds the second. -/
theorem Fits.mem_stageEdges (fits : g.Fits p) (stored : g.Stored)
    (found : g.partPairs p.parts = .ok pairs) :
    (a, b) ∈ stageEdges p.count pairs ↔ g.Feeds p a b := by
  rw [StagePlan.mem_stageEdges, stored.mem_partPairs found]
  refine ⟨fun ⟨_, edge, different⟩ => ⟨different.symm, edge⟩, fun ⟨different, edge⟩ => ?_⟩
  exact ⟨(fits.lt_of_feeds ⟨different, edge⟩).1, edge, different.symm⟩

/-! ## Scheduling a graph -/

/-- A schedule consists of the stage edges, an order and the stages. -/
theorem scheduleOf_eq (found : g.partPairs p.parts = .ok pairs) :
    g.scheduleOf p policy = (stageOrder p.count (stageEdges p.count pairs)).map fun order =>
      ⟨order, stageEdges p.count pairs,
        (List.range p.count).map (stageTotals policy g.nodes)⟩ := by
  rw [scheduleOf, found]
  show (stageOrder p.count (stageEdges p.count pairs) >>= _) = _
  cases stageOrder p.count (stageEdges p.count pairs) <;> rfl

/-- A schedule is as it should be. -/
theorem Fits.scheduled (fits : g.Fits p) (stored : g.Stored) (consistent : g.IsConsistent)
    (scheduled : g.scheduleOf p policy = .ok schedule) : g.Scheduled p schedule := by
  obtain ⟨pairs, found⟩ := fits.exists_partPairs stored consistent
  rw [scheduleOf_eq found] at scheduled
  cases ordered : stageOrder p.count (stageEdges p.count pairs) with
  | error e => rw [ordered] at scheduled; cases scheduled
  | ok order =>
    rw [ordered] at scheduled
    cases scheduled
    have feeds : ∀ a b, (a, b) ∈ stageEdges p.count pairs ↔ g.Feeds p a b := fun a b =>
      fits.mem_stageEdges stored found
    refine ⟨feeds, pairwise_stageEdges _ _, ?_, ?_⟩
    · exact stageOrder_orders (fun a b edge => fits.lt_of_feeds ((feeds a b).1 edge))
        (fun a b edge => ((feeds a b).1 edge).1) ordered
    · rw [List.map_map]
      exact List.map_id _

/-- What keeps a graph that an answer fits from being scheduled shows along its edges. -/
theorem Fits.scheduleOf_error (fits : g.Fits p) (stored : g.Stored) {e : Error}
    (failed : g.scheduleOf p policy = .error e) :
    ∃ cause, e = .inconsistentPartition cause ∧ cause.OfEdges := by
  cases found : g.partPairs p.parts with
  | error e' =>
    rw [scheduleOf, found] at failed
    cases failed
    obtain ⟨h, rfl⟩ := fits.partPairs_error stored found
    exact ⟨_, rfl, trivial⟩
  | ok pairs =>
    rw [scheduleOf_eq found] at failed
    cases ordered : stageOrder p.count (stageEdges p.count pairs) with
    | ok order => rw [ordered] at failed; cases failed
    | error e' =>
      rw [ordered] at failed
      cases failed
      obtain ⟨part, rfl⟩ := stageOrder_error ordered
      exact ⟨_, rfl, trivial⟩

/-- There is a schedule if no part feeds itself through others. -/
theorem Fits.exists_scheduleOf (fits : g.Fits p) (stored : g.Stored) (consistent : g.IsConsistent)
    (acyclic : ∀ a, ¬ TransGen (g.Feeds p) a a) :
    ∃ schedule, g.scheduleOf p policy = .ok schedule := by
  obtain ⟨pairs, found⟩ := fits.exists_partPairs stored consistent
  have feeds : ∀ a b, (a, b) ∈ stageEdges p.count pairs → g.Feeds p a b := fun a b =>
    (fits.mem_stageEdges stored found).1
  obtain ⟨order, ordered⟩ : ∃ order, stageOrder p.count (stageEdges p.count pairs) = .ok order :=
    exists_stageOrder (fun a b edge => fits.lt_of_feeds (feeds a b edge)) fun a cycle =>
      acyclic a (TransGen.mono feeds a a cycle)
  rw [scheduleOf_eq found, ordered]
  exact ⟨_, rfl⟩

/-- Where there is a schedule no part feeds itself through others. -/
theorem Scheduled.acyclic (scheduled : g.Scheduled p schedule) (a : Nat) :
    ¬ TransGen (g.Feeds p) a a := fun cycle =>
  scheduled.order.acyclic a (TransGen.mono (fun a b => (scheduled.edges a b).2) a a cycle)

/-! ## Writing the parts onto the nodes -/

/-- The parts of the nodes leave everything but them. -/
theorem sameLinks_assignParts (parts : List Nat) : SameLinks g (g.assignParts parts) :=
  sameLinks_modifyEach (fun part n => { n with part := some part }) (fun _ _ => rfl) parts

/-- An answer still fits once it is written onto the graph. -/
theorem Fits.assignParts (fits : g.Fits p) : (g.assignParts p.parts).Fits p where
  normalized := isNormalized_modifyEach (fun part n => { n with part := some part })
    (fun _ _ => rfl) p.parts fits.normalized
  length := by rw [fits.length, size, size, (sameLinks_assignParts p.parts).order]
  counted := fits.counted

/-- Every node gets the part that stands at its index. -/
theorem Fits.part_assignParts (fits : g.Fits p) (stored : g.Stored) {n : Node}
    (found : (g.assignParts p.parts).node? h = some n) :
    ∃ a, n.part = some a ∧ p.parts[n.index]? = some a := by
  obtain ⟨m, found'⟩ := (sameLinks_assignParts p.parts).live.1 ⟨n, found⟩
  obtain ⟨a, part⟩ := fits.exists_part stored found'
  have complete : g.size ≤ p.parts.length := Nat.le_of_eq fits.length.symm
  rw [Graph.assignParts, stored.node?_modifyEach _ complete
    (stored.order_index fits.normalized found') part, found'] at found
  cases found
  exact ⟨a, rfl, part⟩

/-- The parts feed each other as before. -/
theorem feeds_assignParts : (g.assignParts p.parts).Feeds p a b ↔ g.Feeds p a b := by
  have parts : ∀ h, (g.assignParts p.parts).partOf? p h = g.partOf? p h := by
    intro h
    have index := congrArg (Option.bind · (p.parts[·]?)) (map_node?_modifyEach (g := g) Node.index
      (fun part n => { n with part := some part }) (fun _ _ => rfl) p.parts h)
    rw [Option.bind_map, Option.bind_map] at index
    exact index
  simp only [Feeds, parts, (sameLinks_assignParts p.parts).edge]

/-- An answer that fits is written onto the graph, which is then scheduled. -/
theorem Fits.schedule_eq (fits : g.Fits p) : g.schedule p policy =
    (g.assignParts p.parts, (g.assignParts p.parts).scheduleOf p policy) := by
  rw [Graph.schedule, checkAnswer_eq_ok.2 fits]

/-- A graph that is scheduled fits the answer, and the schedule is as it should be. -/
theorem Stored.schedule_ok (stored : g.Stored) (consistent : g.IsConsistent)
    (scheduled : (g.schedule p policy).2 = .ok schedule) : g.Fits p ∧ g.Scheduled p schedule := by
  cases checked : g.checkAnswer p with
  | error e => rw [Graph.schedule, checked] at scheduled; cases scheduled
  | ok =>
    have fits := checkAnswer_eq_ok.1 checked
    have same := sameLinks_assignParts (g := g) p.parts
    rw [fits.schedule_eq] at scheduled
    obtain ⟨edges, ascending, order, stages⟩ :=
      fits.assignParts.scheduled (same.stored stored) (same.consistent consistent) scheduled
    exact ⟨fits, fun a b => (edges a b).trans feeds_assignParts, ascending, order, stages⟩

/-- A graph that an answer fits is scheduled if no part feeds itself through others. -/
theorem Stored.exists_schedule (stored : g.Stored) (consistent : g.IsConsistent) (fits : g.Fits p)
    (acyclic : ∀ a, ¬ TransGen (g.Feeds p) a a) :
    ∃ schedule, g.schedule p policy = (g.assignParts p.parts, .ok schedule) := by
  have same := sameLinks_assignParts (g := g) p.parts
  obtain ⟨schedule, scheduled⟩ := fits.assignParts.exists_scheduleOf (same.stored stored)
    (same.consistent consistent) fun a cycle =>
      acyclic a (TransGen.mono (fun _ _ => feeds_assignParts.1) a a cycle)
  exact ⟨schedule, by rw [fits.schedule_eq, scheduled]⟩

/-- What keeps a consistent graph from being scheduled is the answer, or a cycle of the stages. -/
theorem Stored.schedule_error (stored : g.Stored) (consistent : g.IsConsistent) {e : Error}
    (failed : (g.schedule p policy).2 = .error e) : ∃ cause, e = .inconsistentPartition cause := by
  cases checked : g.checkAnswer p with
  | error e' =>
    rw [Graph.schedule, checked] at failed
    cases failed
    obtain ⟨cause, same, -⟩ := checkAnswer_error checked
    exact ⟨cause, same⟩
  | ok =>
    have fits := checkAnswer_eq_ok.1 checked
    have same := sameLinks_assignParts (g := g) p.parts
    obtain ⟨pairs, found⟩ :=
      fits.assignParts.exists_partPairs (same.stored stored) (same.consistent consistent)
    rw [fits.schedule_eq, scheduleOf_eq found] at failed
    cases ordered : stageOrder p.count (stageEdges p.count pairs) with
    | ok order => rw [ordered] at failed; cases failed
    | error e' =>
      rw [ordered] at failed
      cases failed
      obtain ⟨part, rfl⟩ := stageOrder_error ordered
      exact ⟨_, rfl⟩

/-! ## Ascending parts -/

/-- An answer has a part below its number of parts for every node, whose indices are the positions,
and along edges the parts do not descend. -/
structure Ascends (g : Graph) (p : Partitioning) : Prop where
  normalized : g.isNormalized = true
  length : p.parts.length = g.size
  counted : ∀ part ∈ p.parts, part < p.count
  ascends : ∀ (i j : Nat) u v a b, g.order[i]? = some u → g.order[j]? = some v → g.Edge u v →
    p.parts[i]? = some a → p.parts[j]? = some b → a ≤ b

/-- Where the parts do not descend along edges, a part feeds only later ones. -/
theorem Ascends.lt_of_feeds (ascends : g.Ascends p) (stored : g.Stored) (feeds : g.Feeds p a b) :
    a < b := by
  obtain ⟨different, u, v, edge, part, part'⟩ := feeds
  obtain ⟨n, found, at_⟩ := partOf?_eq_some.1 part
  obtain ⟨m, found', at_'⟩ := partOf?_eq_some.1 part'
  refine Nat.lt_of_le_of_ne ?_ different
  exact ascends.ascends n.index m.index u v a b (stored.order_index ascends.normalized found)
    (stored.order_index ascends.normalized found') edge at_ at_'

/-- A graph along whose edges the parts do not descend is scheduled, and its stage edges ascend. -/
theorem Ascends.exists_schedule (ascends : g.Ascends p) (top : g.Topological)
    (policy : WeightPolicy) :
    ∃ schedule, g.schedule p policy = (g.assignParts p.parts, .ok schedule) ∧
      ∀ e ∈ schedule.edges, e.1 < e.2 := by
  have later : ∀ a b, TransGen (g.Feeds p) a b → a < b := by
    intro a b path
    induction path with
    | single feeds => exact ascends.lt_of_feeds top.toStored feeds
    | tail _ feeds ih => exact Nat.lt_trans ih (ascends.lt_of_feeds top.toStored feeds)
  obtain ⟨schedule, scheduled⟩ := top.exists_schedule top.consistent
    ⟨ascends.normalized, ascends.length, ascends.counted⟩ fun a cycle =>
      Nat.lt_irrefl a (later a a cycle)
  obtain ⟨-, exactly⟩ := top.schedule_ok top.consistent (congrArg Prod.snd scheduled)
  exact ⟨schedule, scheduled, fun e edge =>
    ascends.lt_of_feeds top.toStored ((exactly.edges e.1 e.2).1 edge)⟩

end

end Graph

end StagePlan
