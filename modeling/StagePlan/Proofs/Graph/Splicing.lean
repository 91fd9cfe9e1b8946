import StagePlan.Proofs.Graph.Edges

/-!
# Splicing out nodes

`Graph.splice` takes out one node and joins its sources to its targets, and the passes of the
clean-up do so many times. `Graph.Spliced` says what is left of a graph after any number of
splices: the edges between nodes that are left are the paths through nodes that are not
(`Graph.PathThrough`). The relation is reflexive and transitive (`Spliced.trans`), so a pass has it
because a single splice does (`Topological.spliced`), and it preserves which of the nodes that are
left can reach each other (`Spliced.reaches_iff`).
-/

open Relation

namespace StagePlan

/-- What a node is, apart from its place in a graph: its handle, scope, kind, shapes, cost and
part. -/
def Node.label (n : Node) : Handle × String × NodeKind × List Shape × NodeWeight × Option Nat :=
  (n.handle, n.scope, n.kind, n.shapes, n.weight, n.part)

/-- A node, with its handle, after another one is spliced out. -/
def Node.bypass (n : Node) (k h : Handle) (node : Node) : Node :=
  { n with
    targets := if k ∈ node.sources then (n.targets.erase h).union node.targets else n.targets
    sources := if k ∈ node.targets then (n.sources.erase h).union node.sources else n.sources }

namespace Graph

/-- A path leads from one node to another one, along some edge at least and through a set. -/
inductive PathThrough (g : Graph) (through : Handle → Prop) : Handle → Handle → Prop
  | edge {u v : Handle} : g.Edge u v → PathThrough g through u v
  | via {u w v : Handle} : g.Edge u w → through w → PathThrough g through w v →
      PathThrough g through u v

/-- The edges of a graph bridge those nodes of another one that are gone: they join the other nodes
where a path leads through gone ones. -/
def Bridges (g : Graph) (gone : Handle → Prop) (g' : Graph) : Prop :=
  ∀ u v, g'.Edge u v ↔ ¬ gone u ∧ ¬ gone v ∧ g.PathThrough gone u v

/-- A graph is left of another one after some of its nodes are spliced out: the nodes that are left
are labelled, listed and outputs as they were, and the edges are the paths through nodes that are
not left. -/
structure Spliced (g g' : Graph) : Prop where
  kept : ∀ h n', g'.node? h = some n' → ∃ n, g.node? h = some n ∧ n'.label = n.label
  order : g'.order = g.order.filter fun h => (g'.node? h).isSome
  outputs : ∀ h, h ∈ g'.outputs ↔ h ∈ g.outputs ∧ g'.Live h
  edges : ∀ u v, g'.Edge u v ↔ g'.Live u ∧ g'.Live v ∧ g.PathThrough (fun h => ¬ g'.Live h) u v
  consistent : g'.IsConsistent

section

variable {g g' g'' : Graph} {through through' gone : Handle → Prop} {u v w h : Handle} {node : Node}

/-! ## Paths -/

/-- A path through a set is one through every larger set. -/
theorem PathThrough.mono (larger : ∀ h, through h → through' h) (path : g.PathThrough through u v) :
    g.PathThrough through' u v := by
  induction path with
  | edge edge => exact .edge edge
  | via edge inside _ ih => exact .via edge (larger _ inside) ih

/-- Two paths through a set are joined at a member of it. -/
theorem PathThrough.trans (first : g.PathThrough through u w) (inside : through w)
    (second : g.PathThrough through w v) : g.PathThrough through u v := by
  induction first with
  | edge edge => exact .via edge inside second
  | via edge inside' _ ih => exact .via edge inside' (ih inside second)

/-- A path through a set is a path. -/
theorem PathThrough.transGen (path : g.PathThrough through u v) : TransGen g.Edge u v := by
  induction path with
  | edge edge => exact .single edge
  | via edge _ _ ih => exact .head edge ih

/-- It starts at a live node. -/
theorem PathThrough.live (path : g.PathThrough through u v) : g.Live u := by
  cases path with
  | edge edge => exact edge.live
  | via edge _ _ => exact edge.live

/-! ## Bridges -/

/-- A node that reaches one that is not gone does so over bridges, or through gone nodes up to the
first bridge. -/
theorem Bridges.reach_cases (bridges : g.Bridges gone g') (path : ReflTransGen g.Edge u v)
    (target : ¬ gone v) :
    ¬ gone u ∧ ReflTransGen g'.Edge u v ∨
      ∃ w, ¬ gone w ∧ g.PathThrough gone u w ∧ ReflTransGen g'.Edge w v := by
  induction path using ReflTransGen.head_induction_on with
  | refl => exact .inl ⟨target, .refl⟩
  | @head u x edge _ ih =>
    rcases ih with ⟨left, rest⟩ | ⟨w, left, path, rest⟩
    · exact .inr ⟨x, left, .edge edge, rest⟩
    by_cases gone' : gone x
    · exact .inr ⟨w, left, .via edge gone' path, rest⟩
    · exact .inr ⟨x, gone', .edge edge, .head ((bridges x w).2 ⟨gone', left, path⟩) rest⟩

/-- Nodes that are not gone reach each other over bridges as before. -/
theorem Bridges.reaches_iff (bridges : g.Bridges gone g') (source : ¬ gone u) (target : ¬ gone v) :
    ReflTransGen g'.Edge u v ↔ ReflTransGen g.Edge u v := by
  refine ⟨?_, ?_⟩
  · intro path
    clear source target
    induction path with
    | refl => exact .refl
    | tail _ edge ih => exact ih.trans ((bridges _ _).1 edge).2.2.transGen.to_reflTransGen
  · intro path
    rcases bridges.reach_cases path target with ⟨-, rest⟩ | ⟨w, left, path, rest⟩
    · exact rest
    · exact .head ((bridges u w).2 ⟨source, left, path⟩) rest

/-! ## What is left -/

/-- A node that is left was there before. -/
theorem Spliced.live (spliced : Spliced g g') (left : g'.Live h) : g.Live h := by
  obtain ⟨n', found⟩ := left
  obtain ⟨n, found, _⟩ := spliced.kept h n' found
  exact ⟨n, found⟩

/-- In a topological graph an edge leads to a live node, for it is recorded there. -/
theorem Topological.live_target (top : g.Topological) (edge : g.Edge u v) : g.Live v :=
  ((top.consistent u v).1 edge).live

/-- A graph with the same nodes and edges is left after no splice. -/
theorem Topological.spliced_of_same (top : g.Topological)
    (kept : ∀ h n', g'.node? h = some n' → ∃ n, g.node? h = some n ∧ n'.label = n.label)
    (lives : ∀ h, g'.Live h ↔ g.Live h) (order : g'.order = g.order)
    (outputs : g'.outputs = g.outputs) (edges : ∀ u v, g'.Edge u v ↔ g.Edge u v)
    (consistent : g'.IsConsistent) : Spliced g g' where
  kept := kept
  consistent := consistent
  order := by
    rw [order, List.filter_eq_self.2]
    intro h listed
    obtain ⟨n, found⟩ := (lives h).2 ((top.listed h).1 listed)
    rw [found, Option.isSome_some]
  outputs h := by
    rw [outputs, lives]
    exact ⟨fun output => ⟨output, top.outputs_live h output⟩, fun output => output.1⟩
  edges u v := by
    rw [edges, lives, lives]
    refine ⟨fun edge => ⟨edge.live, top.live_target edge, .edge edge⟩, ?_⟩
    rintro ⟨-, -, path⟩
    cases path with
    | edge edge => exact edge
    | via _ gone rest => exact absurd ((lives _).2 rest.live) gone

/-- Nothing is spliced out of a graph that is left as it is. -/
theorem Topological.spliced_refl (top : g.Topological) : Spliced g g :=
  top.spliced_of_same (fun _ n found => ⟨n, found, rfl⟩) (fun _ => .rfl) rfl rfl (fun _ _ => .rfl)
    top.consistent

/-- A path to a node that is left after further splices leads through nodes that are not, or comes
from the last node on it that was there before them. -/
theorem Spliced.path_cases (first : Spliced g g') (second : Spliced g' g'')
    (path : g.PathThrough (fun h => ¬ g''.Live h) u v) (target : g''.Live v) :
    g.PathThrough (fun h => ¬ g'.Live h) u v ∨
      ∃ w, ¬ g''.Live w ∧ g'.Live w ∧ g.PathThrough (fun h => ¬ g'.Live h) u w ∧
        g'.PathThrough (fun h => ¬ g''.Live h) w v := by
  induction path with
  | edge edge => exact .inl (.edge edge)
  | @via u w v edge gone _ ih =>
    by_cases left : g'.Live w
    · refine .inr ⟨w, gone, left, .edge edge, ?_⟩
      rcases ih target with path | ⟨x, gone', left', path, rest⟩
      · exact .edge ((first.edges w v).2 ⟨left, second.live target, path⟩)
      · exact .via ((first.edges w x).2 ⟨left, left', path⟩) gone' rest
    · rcases ih target with path | ⟨x, gone', left', path, rest⟩
      · exact .inl (.via edge left path)
      · exact .inr ⟨x, gone', left', .via edge left path, rest⟩

/-- The paths through nodes that are spliced out first or later. -/
theorem Spliced.path_iff (first : Spliced g g') (second : Spliced g' g'') (source : g''.Live u)
    (target : g''.Live v) :
    g'.PathThrough (fun h => ¬ g''.Live h) u v ↔ g.PathThrough (fun h => ¬ g''.Live h) u v := by
  have more : ∀ h, ¬ g'.Live h → ¬ g''.Live h := fun h gone left => gone (second.live left)
  refine ⟨?_, ?_⟩
  · intro path
    clear source target
    induction path with
    | edge edge => exact ((first.edges _ _).1 edge).2.2.mono more
    | via edge gone _ ih => exact (((first.edges _ _).1 edge).2.2.mono more).trans gone ih
  · intro path
    have source' := second.live source
    rcases first.path_cases second path target with path | ⟨w, gone, left, path, rest⟩
    · exact .edge ((first.edges u v).2 ⟨source', second.live target, path⟩)
    · exact .via ((first.edges u w).2 ⟨source', left, path⟩) gone rest

/-- What is left of what is left is left. -/
theorem Spliced.trans (first : Spliced g g') (second : Spliced g' g'') : Spliced g g'' where
  kept h n'' found := by
    obtain ⟨n', found', same'⟩ := second.kept h n'' found
    obtain ⟨n, found, same⟩ := first.kept h n' found'
    exact ⟨n, found, same'.trans same⟩
  order := by
    rw [second.order, first.order, List.filter_filter]
    refine List.filter_congr fun h _ => ?_
    cases found : g''.node? h with
    | none => rfl
    | some n =>
      obtain ⟨n', found'⟩ := second.live ⟨n, found⟩
      rw [found', Option.isSome_some, Option.isSome_some, Bool.and_true]
  outputs h := by
    rw [second.outputs, first.outputs, and_assoc]
    exact and_congr_right fun _ => ⟨fun left => left.2, fun left => ⟨second.live left, left⟩⟩
  edges u v := by
    rw [second.edges]
    exact and_congr_right fun source => and_congr_right fun target =>
      first.path_iff second source target
  consistent := second.consistent

/-- What is left of a topological graph is topological. -/
theorem Spliced.topological (spliced : Spliced g g') (top : g.Topological) : g'.Topological where
  handle h n' found := by
    obtain ⟨n, found', same⟩ := spliced.kept h n' found
    exact (congrArg Prod.fst same).trans (top.handle h n found')
  listed h := by
    rw [spliced.order, List.mem_filter, Option.isSome_iff_exists]
    exact ⟨fun listed => listed.2, fun left => ⟨(top.listed h).2 (spliced.live left), left⟩⟩
  ascending := spliced.order ▸ top.ascending.filter _
  consistent := spliced.consistent
  forward u v edge := top.lt_of_transGen ((spliced.edges u v).1 edge).2.2.transGen
  outputs_live h output := ((spliced.outputs h).1 output).2

/-- The edges of what is left bridge the nodes that are gone. -/
theorem Spliced.bridges (spliced : Spliced g g') : g.Bridges (fun h => ¬ g'.Live h) g' :=
  fun u v => by rw [spliced.edges, Classical.not_not, Classical.not_not]

/-- Nodes that are left reach each other as before. -/
theorem Spliced.reaches_iff (spliced : Spliced g g') (source : g'.Live u) (target : g'.Live v) :
    ReflTransGen g'.Edge u v ↔ ReflTransGen g.Edge u v :=
  spliced.bridges.reaches_iff (not_not_intro source) (not_not_intro target)

/-! ## A single splice -/

/-- Emptying a slot removes the node of its handle, and no other one. -/
theorem node?_setIfInBounds (g : Graph) (h k : Handle) :
    ({ g with slots := g.slots.setIfInBounds h none } : Graph).node? k =
      if k = h then none else g.node? k := by
  simp only [node?, Array.getElem?_setIfInBounds]
  by_cases same : h = k
  · subst same
    rw [if_pos rfl, if_pos rfl]
    split <;> rfl
  · rw [if_neg same, if_neg (Ne.symm same)]

/-- A splice removes its node, and lets every other one bypass it. -/
theorem node?_splice (g : Graph) (h k : Handle) (node : Node) :
    (g.splice h node).node? k = if k = h then none else (g.node? k).map (·.bypass k h node) := by
  show ((Graph.modifyAll _ node.sources _).modifyAll node.targets _).node? k = _
  rw [node?_modifyAll, node?_modifyAll, node?_setIfInBounds]
  by_cases same : k = h
  · simp only [if_pos same, Option.map_none, ite_self]
  · simp only [if_neg same]
    cases g.node? k with
    | none => simp only [Option.map_none, ite_self]
    | some n =>
      simp only [Option.map_some, Node.bypass]
      split <;> split <;> rfl

@[simp] theorem outputs_splice (g : Graph) (h : Handle) (node : Node) :
    (g.splice h node).outputs = g.outputs.erase h := by
  simp [splice]

@[simp] theorem nextHandle_splice (g : Graph) (h : Handle) (node : Node) :
    (g.splice h node).nextHandle = g.nextHandle := by
  show ((Graph.modifyAll _ node.sources _).modifyAll node.targets _).nextHandle = _
  rw [nextHandle_modifyAll, nextHandle_modifyAll]
  simp [nextHandle]

/-- All nodes but the one that is spliced out stay live. -/
theorem live_splice {k : Handle} : (g.splice h node).Live k ↔ k ≠ h ∧ g.Live k := by
  unfold Live
  rw [node?_splice]
  by_cases same : k = h
  · rw [if_pos same]
    exact ⟨fun ⟨_, found⟩ => (nomatch found), fun ⟨other, _⟩ => absurd same other⟩
  · rw [if_neg same]
    refine ⟨?_, ?_⟩
    · rintro ⟨n', found⟩
      obtain ⟨n, found, _⟩ := Option.map_eq_some_iff.1 found
      exact ⟨same, n, found⟩
    · rintro ⟨-, n, found⟩
      exact ⟨_, congrArg (Option.map _) found⟩

/-- A splice leaves all but the neighbours of the other nodes. -/
theorem kept_splice {k : Handle} {n' : Node} (found : (g.splice h node).node? k = some n') :
    ∃ n, g.node? k = some n ∧ n'.label = n.label ∧ n'.index = n.index := by
  obtain ⟨other, n, found'⟩ := live_splice.1 ⟨n', found⟩
  rw [node?_splice, if_neg other, found', Option.map_some] at found
  cases found
  exact ⟨n, found', rfl, rfl⟩

/-- A splice leaves a graph stored. -/
theorem Stored.splice (stored : g.Stored) (node : Node) : (g.splice h node).Stored where
  handle k n' found := by
    obtain ⟨n, found', label, -⟩ := kept_splice found
    exact (congrArg Prod.fst label).trans (stored.handle k n found')
  listed k := by
    rw [order_splice, List.mem_filter, stored.listed, live_splice, decide_eq_true_iff, and_comm]
  ascending := by
    rw [order_splice]
    exact stored.ascending.filter _

/-- The neighbours on one side of a node next to a spliced node, which is one of them again if it
was its own neighbour. -/
theorem mem_bypass {s t : HandleSet} {joined : Prop} [Decidable joined] (recorded : h ∈ s ↔ joined) :
    v ∈ (if joined then (s.erase h).union t else s) ↔ v ≠ h ∧ v ∈ s ∨ joined ∧ v ∈ t := by
  by_cases next : joined
  · rw [if_pos next, HandleSet.mem_union, HandleSet.mem_erase, and_iff_right next]
  · have other : v ∈ s → v ≠ h := fun inS same => next (recorded.1 (same ▸ inS))
    rw [if_neg next, or_iff_left fun both => next both.1, and_iff_right_of_imp other]

/-- No node of a topological graph is joined to itself. -/
theorem Topological.loopless (top : g.Topological) (h : Handle) : ¬ g.Edge h h := fun edge =>
  Nat.lt_irrefl _ (top.forward h h edge)

/-- What is recorded on a side after a splice, where a node that recorded the spliced one there now
records what that one did. -/
theorem records_splice (side other : Node → HandleSet) (live : g.node? h = some node)
    (bypass : ∀ n k, side (n.bypass k h node) =
      if k ∈ other node then ((side n).erase h).union (side node) else side n)
    (joined : ∀ u, g.Records side u h ↔ u ∈ other node) :
    (g.splice h node).Records side u v ↔
      u ≠ h ∧ (v ≠ h ∧ g.Records side u v ∨ g.Records side u h ∧ g.Records side h v) := by
  have sides : ∀ n, g.node? u = some n → (v ∈ side (n.bypass u h node) ↔
      v ≠ h ∧ g.Records side u v ∨ g.Records side u h ∧ g.Records side h v) := by
    intro n found
    rw [bypass, joined, records_iff found, records_iff live]
    exact mem_bypass ((records_iff found).symm.trans (joined u))
  refine ⟨?_, ?_⟩
  · rintro ⟨n', found, member⟩
    obtain ⟨different, n, found'⟩ := live_splice.1 ⟨n', found⟩
    rw [node?_splice, if_neg different, found', Option.map_some] at found
    cases found
    exact ⟨different, (sides n found').1 member⟩
  · rintro ⟨different, rest⟩
    obtain ⟨n, found⟩ : g.Live u :=
      rest.elim (fun ⟨_, n, found, _⟩ => ⟨n, found⟩) fun ⟨⟨n, found, _⟩, _⟩ => ⟨n, found⟩
    refine ⟨n.bypass u h node, ?_, (sides n found).2 rest⟩
    rw [node?_splice, if_neg different, found, Option.map_some]

/-- The edges after a splice are the edges and the bridges over the spliced node. A bridge that ends
at that node itself comes from an edge that joined it to itself. -/
theorem IsConsistent.edge_splice_iff (consistent : g.IsConsistent) (live : g.node? h = some node) :
    (g.splice h node).Edge u v ↔ u ≠ h ∧ (v ≠ h ∧ g.Edge u v ∨ g.Edge u h ∧ g.Edge h v) :=
  records_splice Node.targets Node.sources live (fun _ _ => rfl)
    fun u => (consistent u h).trans (back_iff live)

/-- The edges that are recorded at their targets after a splice are edges and bridges as well. -/
theorem IsConsistent.back_splice_iff (consistent : g.IsConsistent) (live : g.node? h = some node) :
    (g.splice h node).Back u v ↔ v ≠ h ∧ (u ≠ h ∧ g.Edge u v ∨ g.Edge u h ∧ g.Edge h v) := by
  have back : (g.splice h node).Back u v ↔
      v ≠ h ∧ (u ≠ h ∧ g.Back u v ∨ g.Back h v ∧ g.Back u h) :=
    records_splice Node.sources Node.targets live (fun _ _ => rfl)
      fun v => (consistent h v).symm.trans (edge_iff live)
  rw [back, ← consistent, ← consistent, ← consistent, and_comm (a := g.Edge h v)]

/-- The edges after a splice of a node that is not joined to itself are the edges and the bridges
between the other nodes. -/
theorem IsConsistent.edge_splice (consistent : g.IsConsistent) (loopless : ¬ g.Edge h h)
    (live : g.node? h = some node) :
    (g.splice h node).Edge u v ↔ u ≠ h ∧ v ≠ h ∧ (g.Edge u v ∨ g.Edge u h ∧ g.Edge h v) := by
  have bridge : g.Edge u h ∧ g.Edge h v → v ≠ h := fun edges same => loopless (same ▸ edges.2)
  rw [consistent.edge_splice_iff live, and_or_left (a := v ≠ h), and_iff_right_of_imp bridge]

/-- The spliced node stays recorded at the nodes it was joined from, if it was joined to itself. -/
theorem IsConsistent.edge_splice_self (consistent : g.IsConsistent) (live : g.node? h = some node) :
    (g.splice h node).Edge u h ↔ u ≠ h ∧ g.Edge u h ∧ g.Edge h h := by
  rw [consistent.edge_splice_iff live, or_iff_right fun edge => edge.1 rfl]

/-- It stays recorded at the nodes it was joined to as well. -/
theorem IsConsistent.back_splice_self (consistent : g.IsConsistent) (live : g.node? h = some node) :
    (g.splice h node).Back h u ↔ u ≠ h ∧ g.Edge h u ∧ g.Edge h h := by
  rw [consistent.back_splice_iff live, or_iff_right fun edge => edge.1 rfl,
    and_comm (a := g.Edge h h)]

/-- Between other nodes the edges and the bridges are recorded at both ends. -/
theorem IsConsistent.splice_other (consistent : g.IsConsistent) (live : g.node? h = some node)
    (source : u ≠ h) (target : v ≠ h) :
    ((g.splice h node).Edge u v ↔ g.Edge u v ∨ g.Edge u h ∧ g.Edge h v) ∧
      ((g.splice h node).Back u v ↔ g.Edge u v ∨ g.Edge u h ∧ g.Edge h v) := by
  simp [consistent.edge_splice_iff live, consistent.back_splice_iff live, source, target]

/-- The node that is spliced out is gone. -/
theorem not_live_splice : ¬ (g.splice h node).Live h := fun live => (live_splice.1 live).1 rfl

/-- A splice keeps a graph consistent exactly if the node was not joined to itself or to no other. -/
theorem IsConsistent.splice_iff (consistent : g.IsConsistent) (live : g.node? h = some node) :
    (g.splice h node).IsConsistent ↔
      (g.Edge h h → ∀ u, u ≠ h → ¬ g.Edge u h ∧ ¬ g.Edge h u) := by
  constructor
  · intro consistent' loop u other
    refine ⟨fun edge => ?_, fun edge => ?_⟩
    · have kept := (consistent.edge_splice_self live).2 ⟨other, edge, loop⟩
      exact not_live_splice ((consistent' u h).1 kept).live
    · have kept := (consistent.back_splice_self live).2 ⟨other, edge, loop⟩
      exact not_live_splice ((consistent' h u).2 kept).live
  · intro alone u v
    by_cases source : u = h
    · subst source
      refine iff_of_false (fun edge => not_live_splice edge.live) fun back => ?_
      obtain ⟨other, edge, loop⟩ := (consistent.back_splice_self live).1 back
      exact (alone loop v other).2 edge
    by_cases target : v = h
    · subst target
      refine iff_of_false (fun edge => ?_) fun back => not_live_splice back.live
      obtain ⟨other, edge, loop⟩ := (consistent.edge_splice_self live).1 edge
      exact (alone loop u other).1 edge
    · obtain ⟨edge, back⟩ := consistent.splice_other live source target
      exact edge.trans back.symm

/-- A splice of a node that is not joined to itself keeps a graph consistent. -/
theorem IsConsistent.splice (consistent : g.IsConsistent) (loopless : ¬ g.Edge h h)
    (live : g.node? h = some node) : (g.splice h node).IsConsistent :=
  (consistent.splice_iff live).2 fun loop => absurd loop loopless

/-- A path through a single node is an edge or a bridge over the node. -/
theorem Topological.pathThrough_iff (top : g.Topological)
    (single : ∀ k, g.Live k → (through k ↔ k = h)) :
    g.PathThrough through u v ↔ g.Edge u v ∨ g.Edge u h ∧ g.Edge h v := by
  refine ⟨?_, ?_⟩
  · intro path
    induction path with
    | edge edge => exact .inl edge
    | via edge inside rest ih =>
      cases (single _ (top.live_target edge)).1 inside
      rcases ih with edge' | ⟨loop, -⟩
      · exact .inr ⟨edge, edge'⟩
      · exact absurd loop (top.loopless h)
  · rintro (edge | ⟨edge, edge'⟩)
    · exact .edge edge
    · exact .via edge ((single h edge'.live).2 rfl) (.edge edge')

/-- A graph without one of its nodes is left after its splice. -/
theorem Topological.spliced (top : g.Topological) (live : g.node? h = some node) :
    Spliced g (g.splice h node) where
  kept k n' found := by
    obtain ⟨n, found', label, -⟩ := kept_splice found
    exact ⟨n, found', label⟩
  order := by
    rw [order_splice]
    refine List.filter_congr fun k listed => ?_
    have left : ((g.splice h node).node? k).isSome ↔ k ≠ h := by
      rw [Option.isSome_iff_exists]
      exact live_splice.trans (and_iff_left ((top.listed k).1 listed))
    rw [Bool.eq_iff_iff, left, decide_eq_true_iff]
  outputs k := by
    rw [outputs_splice, HandleSet.mem_erase, live_splice, and_comm]
    exact and_congr_right fun output => (and_iff_left (top.outputs_live k output)).symm
  edges u v := by
    have single : ∀ k, g.Live k → (¬ (g.splice h node).Live k ↔ k = h) := by
      intro k live'
      rw [live_splice, and_iff_left live', Decidable.not_not]
    rw [top.consistent.edge_splice (top.loopless h) live, top.pathThrough_iff single, live_splice,
      live_splice]
    refine ⟨?_, ?_⟩
    · rintro ⟨other, other', edges⟩
      refine ⟨⟨other, edges.elim Edge.live fun bridge => bridge.1.live⟩, ⟨other', ?_⟩, edges⟩
      exact edges.elim top.live_target fun bridge => top.live_target bridge.2
    · rintro ⟨⟨other, -⟩, ⟨other', -⟩, edges⟩
      exact ⟨other, other', edges⟩
  consistent := top.consistent.splice (top.loopless h) live

end

end Graph

end StagePlan
