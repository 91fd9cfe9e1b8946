import StagePlan.Proofs.Graph.Confluence
import StagePlan.Proofs.Graph.Reachable

/-!
# Removing a set of nodes

Nodes may be taken out of an acyclic graph in any order. What is left of it after the first ones is a
graph `Without` these: it has the other nodes as they were, and its edges are the paths through nodes
that are gone. Taking out one more node keeps this (`Without.splice`), since a path through that node
and gone ones passes it a first and a last time (`PathThrough.insert_iff`). A graph without a set is
determined by the set (`Without.unique`), so it does not matter in which order the members are removed
(`Reachable.removeAll_exact`). The graph need not come from a trace: its edges may lead from younger to
older nodes, and its outputs may name nodes that are not there.
-/

open Relation

namespace StagePlan.Graph

/-- The graph after several nodes are removed, one after the other. -/
def removeAll (g : Graph) (hs : List Handle) : Graph := hs.foldl (fun g h => (g.remove h).2) g

/-- Edges are recorded at both of their ends, and no path leads back to where it starts. -/
structure Acyclic (g : Graph) : Prop extends Stored g where
  consistent : g.IsConsistent
  acyclic : ∀ u, ¬ TransGen g.Edge u u

/-- A graph is another one without the members of a set. -/
structure Without (g : Graph) (s : HandleSet) (g' : Graph) : Prop where
  /-- The other nodes are live. -/
  live : ∀ h, g'.Live h ↔ g.Live h ∧ h ∉ s
  /-- Apart from their neighbours they are what they were. -/
  kept : ∀ h n', g'.node? h = some n' →
    ∃ n, g.node? h = some n ∧ n'.label = n.label ∧ n'.index = n.index
  /-- They are listed in their old order. -/
  order : g'.order = g.order.filter (· ∉ s)
  /-- The outputs are the others too. -/
  outputs : ∀ h, h ∈ g'.outputs ↔ h ∈ g.outputs ∧ h ∉ s
  /-- An edge stands for a path through members of the set. -/
  edges : ∀ u v, g'.Edge u v ↔ u ∉ s ∧ v ∉ s ∧ g.PathThrough (· ∈ s) u v
  /-- It is recorded at both of its ends. -/
  consistent : g'.IsConsistent
  /-- No handle is given out. -/
  nextHandle : g'.nextHandle = g.nextHandle

section

variable {g g' g'' : Graph} {through : Handle → Prop} {s : HandleSet} {u v h : Handle}

/-- A path through one more node passes it a first time and a last time, or not at all. -/
theorem PathThrough.insert_iff : g.PathThrough (fun k => k = h ∨ through k) u v ↔
    g.PathThrough through u v ∨ g.PathThrough through u h ∧ g.PathThrough through h v := by
  constructor
  · intro path
    induction path with
    | edge edge => exact .inl (.edge edge)
    | via edge inside _ ih =>
      rcases inside with rfl | inside
      · exact .inr ⟨.edge edge, ih.elim id And.right⟩
      · exact ih.imp (.via edge inside) fun ⟨first, last⟩ => ⟨.via edge inside first, last⟩
  · have wider : ∀ k, through k → k = h ∨ through k := fun _ => .inr
    rintro (path | ⟨first, last⟩)
    · exact path.mono wider
    · exact (first.mono wider).trans (.inl rfl) (last.mono wider)

/-! ## Graphs without a set of nodes -/

/-- An acyclic graph is itself without no nodes. -/
theorem Acyclic.without_empty (acyclic : g.Acyclic) : Without g ∅ g where
  live h := (and_iff_left (HandleSet.not_mem_empty h)).symm
  kept _ n found := ⟨n, found, rfl, rfl⟩
  order := (List.filter_eq_self.2 fun h _ => decide_eq_true (HandleSet.not_mem_empty h)).symm
  outputs h := (and_iff_left (HandleSet.not_mem_empty h)).symm
  edges u v := by
    refine ⟨fun edge => ⟨HandleSet.not_mem_empty u, HandleSet.not_mem_empty v, .edge edge⟩, ?_⟩
    rintro ⟨-, -, path⟩
    cases path with
    | edge edge => exact edge
    | via _ inside _ => exact absurd inside (HandleSet.not_mem_empty _)
  consistent := acyclic.consistent
  nextHandle := rfl

/-- A graph without some nodes is acyclic, since its paths are paths of the graph with these. -/
theorem Without.acyclic (without : Without g s g') (acyclic : g.Acyclic) : g'.Acyclic where
  handle h n' found := by
    obtain ⟨n, found', label, -⟩ := without.kept h n' found
    exact (congrArg Prod.fst label).trans (acyclic.handle h n found')
  listed h := by
    rw [without.order, List.mem_filter, acyclic.listed, without.live, decide_eq_true_iff]
  ascending := without.order ▸ acyclic.ascending.filter _
  consistent := without.consistent
  acyclic u cycle := acyclic.acyclic u <|
    TransGen.closed (fun a b edge => ((without.edges a b).1 edge).2.2.transGen) u u cycle

/-- Taking out one more node joins those between which a path leads through it. -/
theorem Without.splice {node : Node} (without : Without g s g') (acyclic : g.Acyclic)
    (live : g'.node? h = some node) : Without g (s.insert h) (g'.splice h node) := by
  have loopless : ¬ g'.Edge h h := fun loop => (without.acyclic acyclic).acyclic h (.single loop)
  have notIn : h ∉ s := ((without.live h).1 ⟨node, live⟩).2
  refine ⟨fun k => ?_, fun k n' found => ?_, ?_, fun k => ?_, fun u v => ?_,
    without.consistent.splice loopless live, (nextHandle_splice _ _ _).trans without.nextHandle⟩
  · rw [live_splice, without.live, HandleSet.mem_insert, not_or, and_left_comm]
  · obtain ⟨n', found', label', index'⟩ := kept_splice found
    obtain ⟨n, found, label, index⟩ := without.kept k n' found'
    exact ⟨n, found, label'.trans label, index'.trans index⟩
  · rw [order_splice, without.order, List.filter_filter]
    refine List.filter_congr fun k _ => ?_
    rw [← Bool.decide_and, decide_eq_decide, HandleSet.mem_insert, not_or]
  · rw [outputs_splice, HandleSet.mem_erase, without.outputs, HandleSet.mem_insert, not_or,
      and_left_comm]
  · simp only [without.consistent.edge_splice loopless live, without.edges, HandleSet.mem_insert,
      not_or, PathThrough.insert_iff]
    constructor
    · rintro ⟨other, other', ⟨inG, inG', path⟩ | ⟨⟨inG, -, first⟩, -, inG', last⟩⟩
      · exact ⟨⟨other, inG⟩, ⟨other', inG'⟩, .inl path⟩
      · exact ⟨⟨other, inG⟩, ⟨other', inG'⟩, .inr ⟨first, last⟩⟩
    · rintro ⟨⟨other, inG⟩, ⟨other', inG'⟩, path | ⟨first, last⟩⟩
      · exact ⟨other, other', .inl ⟨inG, inG', path⟩⟩
      · exact ⟨other, other', .inr ⟨⟨inG, notIn, first⟩, notIn, inG', last⟩⟩

/-! ## Runs of removals -/

/-- Removing a node of the graph, which may be gone already, leaves the graph without it as well. -/
theorem Without.remove (without : Without g s g') (acyclic : g.Acyclic) (live : g.Live h) :
    Without g (s.insert h) (g'.remove h).2 := by
  unfold Graph.remove
  cases found : g'.node? h with
  | some node => exact without.splice acyclic found
  | none =>
    have gone : h ∈ s := Decidable.byContradiction fun notIn => by
      obtain ⟨n, found'⟩ := (without.live h).2 ⟨live, notIn⟩
      cases found.symm.trans found'
    have same : s.insert h = s := by
      ext k
      rw [HandleSet.mem_insert]
      exact or_iff_right_of_imp fun same => same ▸ gone
    rwa [same]

/-- Nodes that are removed one after the other are gone in addition to those that were gone before. -/
theorem Without.removeAll (without : Without g s g') (acyclic : g.Acyclic) {hs : List Handle}
    (live : ∀ h ∈ hs, g.Live h) : Without g (hs.foldl .insert s) (g'.removeAll hs) := by
  unfold Graph.removeAll
  induction hs generalizing s g' with
  | nil => exact without
  | cons h hs ih =>
    obtain ⟨first, rest⟩ := List.forall_mem_cons.1 live
    exact ih (without.remove acyclic first) rest

/-- A graph without the members of a set is determined by the set. -/
theorem Without.unique (first : Without g s g') (second : Without g s g'') : g' = g'' := by
  refine eq_of_edges (first.nextHandle.trans second.nextHandle.symm)
    (first.order.trans second.order.symm) ?_ (fun h => ?_) (fun h n' n'' found' found'' => ?_)
    (fun u v => ?_) first.consistent second.consistent
  · ext h
    rw [first.outputs, second.outputs]
  · rw [first.live, second.live]
  · obtain ⟨n, found, label', index'⟩ := first.kept h n' found'
    obtain ⟨m, foundM, label'', index''⟩ := second.kept h n'' found''
    cases found.symm.trans foundM
    exact ⟨label'.trans label''.symm, index'.trans index''.symm⟩
  · rw [first.edges, second.edges]

/-- Nodes that are not in the set reach each other as before. -/
theorem Without.reaches_iff (without : Without g s g') (source : g'.Live u) (target : g'.Live v) :
    ReflTransGen g'.Edge u v ↔ ReflTransGen g.Edge u v :=
  Bridges.reaches_iff without.edges ((without.live u).1 source).2 ((without.live v).1 target).2

end

/-- Whatever operations make a graph, if it is consistent and acyclic, then its nodes can be removed
in any order: the members of a set of live handles, however they are listed, leave the same graph,
which is the one without the set. What is left in it is reached as before. -/
theorem Reachable.removeAll_exact {g : Graph} (reachable : g.Reachable)
    (consistent : g.isConsistent = true) (acyclic : ∀ u, ¬ TransGen g.Edge u u) (s : HandleSet)
    (live : ∀ h ∈ s, g.Live h) :
    ∃ g', (∀ hs : List Handle, (∀ h, h ∈ hs ↔ h ∈ s) → g.removeAll hs = g') ∧ Without g s g' ∧
      ∀ u v, g'.Live u → g'.Live v →
        (ReflTransGen g'.Edge u v ↔ ReflTransGen g.Edge u v) := by
  have acyclic : g.Acyclic :=
    ⟨reachable.stored, reachable.stored.isConsistent_iff.1 consistent, acyclic⟩
  have without : ∀ hs : List Handle, (∀ h, h ∈ hs ↔ h ∈ s) → Without g s (g.removeAll hs) := by
    intro hs same
    have all : HandleSet.ofList hs = s := by
      ext h
      rw [HandleSet.mem_ofList, same]
    have removed := acyclic.without_empty.removeAll acyclic fun h listed => live h ((same h).1 listed)
    rwa [← HandleSet.ofList, all] at removed
  have canonical := without s.toList fun _ => HandleSet.mem_toList
  exact ⟨g.removeAll s.toList, fun hs same => (without hs same).unique canonical, canonical,
    fun _ _ source target => canonical.reaches_iff source target⟩

/-- Four nodes, each of which reads from the next one, and the second also from the last. One output
is the second node, and another one was never added. -/
def backward : Graph :=
  let four := (((empty.add "a" .rawOp [] .unmeasured).add "b" .rawOp [] .unmeasured).add "c" .rawOp
    [] .unmeasured).add "d" .rawOp [] .unmeasured
  (((((four.connect 3 2).connect 2 1).connect 1 0).connect 3 1).markOutput 1).markOutput 7

/-- Its two inner nodes can be removed in either order, which leaves one edge. -/
theorem backward_removed : backward.Reachable ∧ backward.isConsistent = true ∧
    (∀ u, ¬ TransGen backward.Edge u u) ∧ backward.removeAll [1, 2] = backward.removeAll [2, 1] ∧
      (backward.removeAll [2, 1]).Edge 3 0 ∧ (backward.removeAll [2, 1]).outputs.toList = [7] := by
  have reachable : backward.Reachable :=
    .markOutput 7 (.markOutput 1 (.connect 3 1 (.connect 1 0 (.connect 2 1 (.connect 3 2
      (.add _ _ _ _ (.add _ _ _ _ (.add _ _ _ _ (.add _ _ _ _ .empty)))))))))
  have consistent : backward.isConsistent = true := by decide
  have older : ∀ u v, backward.Edge u v → v < u := by
    rintro u v ⟨n, found, target⟩
    have lt : u < 4 := Live.lt ⟨n, found⟩
    have all : ∀ u < 4, ∀ n, backward.node? u = some n → ∀ v ∈ n.targets.toList, v < u := by
      decide
    exact all u lt n found v target
  have descends : ∀ {u v}, TransGen backward.Edge u v → v < u := by
    intro u v path
    induction path with
    | single edge => exact older _ _ edge
    | tail _ edge ih => exact Nat.lt_trans (older _ _ edge) ih
  have acyclic : ∀ u, ¬ TransGen backward.Edge u u := fun u cycle => Nat.lt_irrefl u (descends cycle)
  have live : ∀ h ∈ HandleSet.ofList [1, 2], backward.Live h := by
    intro h member
    rcases (by simpa using member : h = 1 ∨ h = 2) with rfl | rfl <;> exact ⟨_, rfl⟩
  obtain ⟨g', removed, without, -⟩ := reachable.removeAll_exact consistent acyclic _ live
  have first := removed [1, 2] fun h => HandleSet.mem_ofList.symm
  have second := removed [2, 1] fun h => by simp [or_comm]
  refine ⟨reachable, consistent, acyclic, first.trans second.symm, ?_, rfl⟩
  exact ⟨_, rfl, by decide⟩

end StagePlan.Graph
