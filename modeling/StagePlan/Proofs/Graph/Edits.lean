import StagePlan.Proofs.Graph.Building
import StagePlan.Proofs.Graph.Passes

/-!
# Runs of edits

A graph is made by edits, one after the other, and an edit may name any handle: that of a live node,
of a removed one, or one that was never given out. A graph is `Oriented` if its edges are recorded
at both of their ends and lead from older to younger nodes. An edit keeps this (`Oriented.edit`), as
long as the edges that are added do so too (`Graph.Allows`): a splice takes out a node that is not
joined to itself, and its bridges lead from older to younger nodes again. Handles are given out in
ascending order (`issuedAll_eq`), and no edit brings a node back (`live_editAll`). So whatever run
of edits makes a graph, its nodes are stored under their handles, its order lists the live ones, its
edges are consistent, and its handles are never used twice (`editAll_empty`).
-/

namespace StagePlan.Graph

/-- An operation on a graph. A test of `removeWhere` that changes its mind while it runs is a
sequence of `remove`. -/
inductive Edit where
  /-- Adds a node. -/
  | add (scope : String) (kind : NodeKind) (shapes : List Shape) (weight : NodeWeight)
  /-- Adds the node of a further output slot, if the primary node is live and the slot next. -/
  | addSecondary (primary : Handle) (slot : Nat)
  /-- Adds an edge, at those of its ends that are live. -/
  | connect (source target : Handle)
  /-- Takes an edge out. -/
  | disconnect (source target : Handle)
  /-- Takes out the node of a handle, if it is live. -/
  | remove (h : Handle)
  /-- Takes out what a test picks out, until it picks out nothing. -/
  | removeWhere (test : Graph → Node → Bool)
  /-- Adds an output. -/
  | markOutput (h : Handle)
  /-- Makes the indices the positions. -/
  | renumber

/-- The graph after an edit. -/
def edit (g : Graph) : Edit → Graph
  | .add scope kind shapes weight => g.add scope kind shapes weight
  | .addSecondary primary slot => (g.addSecondary? primary slot).getD g
  | .connect u v => g.connect u v
  | .disconnect u v => g.disconnect u v
  | .remove h => (g.remove h).2
  | .removeWhere test => (g.removeWhere test).2
  | .markOutput h => g.markOutput h
  | .renumber => g.renumber

/-- The handle that an edit gives out, if it adds a node. -/
def issued? (g : Graph) : Edit → Option Handle
  | .add .. => some g.nextHandle
  | .addSecondary primary slot => (g.addSecondary? primary slot).map fun _ => g.nextHandle
  | _ => none

/-- Edges are only added between live nodes, from the older to the younger one. -/
def Allows (g : Graph) : Edit → Prop
  | .connect u v => g.Live u ∧ g.Live v ∧ u < v
  | _ => True

/-- The graph after several edits. -/
def editAll (g : Graph) (es : List Edit) : Graph := es.foldl edit g

/-- The handles that several edits give out. -/
def issuedAll (g : Graph) : List Edit → List Handle
  | [] => []
  | e :: es => (g.issued? e).toList ++ (g.edit e).issuedAll es

/-- Every one of several edits is allowed when its turn comes. -/
def AllowsAll (g : Graph) : List Edit → Prop
  | [] => True
  | e :: es => g.Allows e ∧ (g.edit e).AllowsAll es

/-- Edges are recorded at both of their ends and lead from older to younger nodes. -/
structure Oriented (g : Graph) : Prop extends Stored g where
  consistent : g.IsConsistent
  older : ∀ u v, g.Edge u v → u < v

section

variable {g g' : Graph} {u v a b h k : Handle} {node : Handle → Nat → Node} {e : Edit}
  {es : List Edit}

/-! ## Taking edges out -/

/-- An edge is taken out at its two ends, and nowhere else. -/
theorem node?_disconnect (k : Handle) : (g.disconnect u v).node? k = (g.node? k).map fun n =>
    { n with
      targets := if u = k then n.targets.erase v else n.targets
      sources := if v = k then n.sources.erase u else n.sources } := by
  rw [disconnect, node?_modify, node?_modify]
  cases g.node? k with
  | none => simp
  | some n => split <;> split <;> rfl

/-- All edges stay but the one that is taken out. -/
theorem edge_disconnect : (g.disconnect u v).Edge a b ↔ g.Edge a b ∧ ¬ (a = u ∧ b = v) := by
  unfold Edge
  rw [node?_disconnect]
  by_cases same : u = a
  · subst same
    cases g.node? u <;> simp [and_comm]
  · cases g.node? a <;> simp [same, Ne.symm same]

/-- So do the records of edges at the targets. -/
theorem back_disconnect : (g.disconnect u v).Back a b ↔ g.Back a b ∧ ¬ (a = u ∧ b = v) := by
  unfold Back
  rw [node?_disconnect]
  by_cases same : v = b
  · subst same
    cases g.node? v <;> simp [and_comm]
  · cases g.node? b <;> simp [same, Ne.symm same]

/-- Taking an edge out removes no node. -/
theorem live_disconnect : (g.disconnect u v).Live h ↔ g.Live h := by
  unfold Live
  rw [node?_disconnect]
  cases g.node? h <;> simp

@[simp] theorem nextHandle_disconnect : (g.disconnect u v).nextHandle = g.nextHandle := by
  rw [disconnect, nextHandle_modify, nextHandle_modify]

/-- It leaves every node stored in place. -/
theorem Stored.disconnect (stored : g.Stored) : (g.disconnect u v).Stored := by
  unfold Graph.disconnect
  refine (stored.modify u ?_).modify v ?_ <;> exact fun _ => rfl

/-! ## What edits keep -/

/-- The graph without nodes is oriented. -/
theorem oriented_empty : empty.Oriented :=
  let growing := growing_empty
  ⟨growing.toStored, growing.consistent, growing.forward⟩

/-- A new node without neighbours keeps a graph oriented. -/
theorem Oriented.push (oriented : g.Oriented) (handle : ∀ h i, (node h i).handle = h)
    (sources : ∀ h i, (node h i).sources = ∅) (targets : ∀ h i, (node h i).targets = ∅) :
    (g.push node).Oriented where
  toStored := oriented.toStored.push handle
  consistent u v := by rw [edge_push targets, back_push sources, oriented.consistent]
  older u v edge := oriented.older u v ((edge_push targets).1 edge)

/-- So does an edge between live nodes, from the older to the younger one. -/
theorem Oriented.connect (oriented : g.Oriented) (source : g.Live u) (target : g.Live v)
    (lt : u < v) : (g.connect u v).Oriented where
  toStored := oriented.toStored.connect
  consistent a b := by rw [edge_connect source, back_connect target, oriented.consistent]
  older a b edge := by
    rcases (edge_connect source).1 edge with edge | ⟨rfl, rfl⟩
    · exact oriented.older a b edge
    · exact lt

/-- So does taking out an edge, whether it is there or not. -/
theorem Oriented.disconnect (oriented : g.Oriented) : (g.disconnect u v).Oriented where
  toStored := oriented.toStored.disconnect
  consistent a b := by rw [edge_disconnect, back_disconnect, oriented.consistent]
  older a b edge := oriented.older a b (edge_disconnect.1 edge).1

/-- The node of a further output slot is younger than the primary node. -/
theorem Oriented.addSecondary? {primary : Handle} {slot : Nat} (oriented : g.Oriented)
    (added : g.addSecondary? primary slot = some g') : g'.Oriented := by
  obtain ⟨node, found, -, -, rfl⟩ := addSecondary?_eq_some.1 added
  have pushed : (g.push (node.secondary · ·)).Oriented :=
    oriented.push (fun _ _ => rfl) (fun _ _ => rfl) fun _ _ => rfl
  exact pushed.connect (live_push.2 (.inr ⟨node, found⟩)) (live_push.2 (.inl rfl))
    (Live.lt ⟨node, found⟩)

/-- No node of an oriented graph is joined to itself. -/
theorem Oriented.loopless (oriented : g.Oriented) : ¬ g.Edge h h := fun loop =>
  Nat.lt_irrefl h (oriented.older h h loop)

/-- Splicing a live node out keeps a graph oriented. -/
theorem Oriented.splice {n : Node} (oriented : g.Oriented) (live : g.node? h = some n) :
    (g.splice h n).Oriented where
  toStored := oriented.toStored.splice n
  consistent := oriented.consistent.splice oriented.loopless live
  older u v edge := by
    obtain ⟨-, -, edge | ⟨edge, edge'⟩⟩ :=
      (oriented.consistent.edge_splice oriented.loopless live).1 edge
    · exact oriented.older u v edge
    · exact Nat.lt_trans (oriented.older u h edge) (oriented.older h v edge')

/-- So does every change that touches neither handles nor edges. -/
theorem Oriented.sameLinks (oriented : g.Oriented) (same : SameLinks g g') : g'.Oriented where
  toStored := same.stored oriented.toStored
  consistent := same.consistent oriented.consistent
  older u v edge := oriented.older u v (same.edge.1 edge)

/-- So does marking an output, live or not. -/
theorem Oriented.markOutput (oriented : g.Oriented) (h : Handle) : (g.markOutput h).Oriented where
  toStored := oriented.toStored.of_same_handles rfl fun _ => rfl
  consistent := oriented.consistent
  older := oriented.older

/-- An edit that is allowed keeps a graph oriented. -/
theorem Oriented.edit (oriented : g.Oriented) (allowed : g.Allows e) : (g.edit e).Oriented := by
  cases e with
  | add =>
    unfold Graph.edit Graph.add
    exact oriented.push (fun _ _ => rfl) (fun _ _ => rfl) fun _ _ => rfl
  | addSecondary primary slot =>
    cases added : g.addSecondary? primary slot with
    | none => simpa [Graph.edit, added] using oriented
    | some g' => simpa [Graph.edit, added] using oriented.addSecondary? added
  | connect u v => exact oriented.connect allowed.1 allowed.2.1 allowed.2.2
  | disconnect u v => exact oriented.disconnect
  | remove h =>
    cases found : g.node? h with
    | none => simpa [Graph.edit, Graph.remove, found] using oriented
    | some n => simpa [Graph.edit, Graph.remove, found] using oriented.splice found
  | removeWhere test =>
    exact removeWhere_induction (fun _ _ _ live oriented => oriented.splice live) test oriented
  | markOutput h => exact oriented.markOutput h
  | renumber => exact oriented.sameLinks sameLinks_renumber

/-- A run of edits keeps a graph oriented, if every one of them is allowed when its turn comes. -/
theorem Oriented.editAll (oriented : g.Oriented) (allowed : g.AllowsAll es) :
    (g.editAll es).Oriented := by
  unfold Graph.editAll
  induction es generalizing g with
  | nil => exact oriented
  | cons e es ih => exact ih (oriented.edit allowed.1) allowed.2

/-! ## Handles -/

/-- The node of a further output slot takes one handle. -/
theorem nextHandle_addSecondary? {primary : Handle} {slot : Nat}
    (added : g.addSecondary? primary slot = some g') : g'.nextHandle = g.nextHandle + 1 := by
  obtain ⟨node, -, -, -, rfl⟩ := addSecondary?_eq_some.1 added
  simp

/-- An edit that adds a node gives out the next handle, and no other edit gives out any. -/
theorem issued?_cases (g : Graph) (e : Edit) :
    (g.issued? e = none ∧ (g.edit e).nextHandle = g.nextHandle) ∨
      (g.issued? e = some g.nextHandle ∧ (g.edit e).nextHandle = g.nextHandle + 1) := by
  cases e with
  | add => exact .inr ⟨rfl, nextHandle_add⟩
  | addSecondary primary slot =>
    cases added : g.addSecondary? primary slot with
    | none => simp [issued?, edit, added]
    | some g' => simp [issued?, edit, added, nextHandle_addSecondary? added]
  | connect u v => exact .inl ⟨rfl, nextHandle_connect⟩
  | disconnect u v => exact .inl ⟨rfl, nextHandle_disconnect⟩
  | remove h =>
    cases found : g.node? h with
    | none => simp [issued?, edit, Graph.remove, found]
    | some n => simp [issued?, edit, Graph.remove, found]
  | removeWhere test => exact .inl ⟨rfl, nextHandle_removeWhere test g⟩
  | markOutput h => exact .inl ⟨rfl, rfl⟩
  | renumber => exact .inl ⟨rfl, nextHandle_modifyEach _ _⟩

/-- No edit takes a handle back. -/
theorem nextHandle_le_edit (g : Graph) (e : Edit) : g.nextHandle ≤ (g.edit e).nextHandle := by
  rcases g.issued?_cases e with ⟨-, same⟩ | ⟨-, next⟩
  · exact Nat.le_of_eq same.symm
  · exact next ▸ Nat.le_succ _

/-- Edits give out handles in ascending order, none of them left out. -/
theorem issuedAll_eq (g : Graph) (es : List Edit) : ∃ count : Nat,
    g.issuedAll es = List.range' g.nextHandle count ∧
      (g.editAll es).nextHandle = g.nextHandle + count := by
  unfold editAll
  induction es generalizing g with
  | nil => exact ⟨0, rfl, rfl⟩
  | cons e es ih =>
    obtain ⟨count, rest, last⟩ := ih (g.edit e)
    rw [issuedAll, rest, List.foldl_cons, last]
    rcases g.issued?_cases e with ⟨nothing, same⟩ | ⟨issued, next⟩
    · rw [nothing, same]
      exact ⟨count, rfl, rfl⟩
    · rw [issued, next]
      exact ⟨count + 1, rfl, Nat.add_right_comm _ 1 count⟩

/-- A node that is live after an edit was live before it, or got a new handle. -/
theorem live_edit (old : h < g.nextHandle) (live : (g.edit e).Live h) : g.Live h := by
  cases e with
  | add => exact (live_push.1 live).resolve_left (Nat.ne_of_lt old)
  | addSecondary primary slot =>
    cases added : g.addSecondary? primary slot with
    | none => simpa [edit, added] using live
    | some g' =>
      simp only [edit, added, Option.getD_some] at live
      obtain ⟨node, -, -, -, rfl⟩ := addSecondary?_eq_some.1 added
      exact (live_push.1 (live_connect.1 live)).resolve_left (Nat.ne_of_lt old)
  | connect u v => exact live_connect.1 live
  | disconnect u v => exact live_disconnect.1 live
  | remove k =>
    cases found : g.node? k with
    | none => simpa [edit, Graph.remove, found] using live
    | some n =>
      simp only [edit, Graph.remove, found] at live
      exact (live_splice.1 live).2
  | removeWhere test =>
    exact removeWhere_induction (motive := fun g' => g'.Live h → g.Live h)
      (fun _ _ _ _ before live => before (live_splice.1 live).2) test id live
  | markOutput k => exact live
  | renumber => exact sameLinks_renumber.live.1 live

/-- Edits do not bring a node back. -/
theorem live_editAll (old : h < g.nextHandle) (live : (g.editAll es).Live h) : g.Live h := by
  unfold editAll at live
  induction es generalizing g with
  | nil => exact live
  | cons e es ih =>
    exact live_edit old (ih (Nat.lt_of_lt_of_le old (g.nextHandle_le_edit e)) live)

end

/-- Whatever run of edits makes a graph, with any handles in any order, as long as edges are added
from older to younger nodes: its nodes are stored under their handles, its order lists exactly the
live ones and ascends, and its edges are recorded at both of their ends. No handle was given out
twice, and a node that was removed on the way is not live again. -/
theorem editAll_empty (es : List Edit) (allowed : empty.AllowsAll es) :
    (empty.editAll es).Stored ∧ (empty.editAll es).isConsistent = true ∧
      (empty.issuedAll es).Nodup ∧
        ∀ before after, es = before ++ after → ∀ h ∈ empty.issuedAll before,
          ¬ (empty.editAll before).Live h → ¬ (empty.editAll es).Live h := by
  have oriented := oriented_empty.editAll allowed
  refine ⟨oriented.toStored, oriented.isConsistent_iff.2 oriented.consistent, ?_, ?_⟩
  · obtain ⟨count, issued, -⟩ := issuedAll_eq empty es
    rw [issued]
    exact List.nodup_range'
  · rintro before after rfl h issued removed live
    have given : h < (empty.editAll before).nextHandle := by
      obtain ⟨count, same, next⟩ := issuedAll_eq empty before
      rw [same, List.mem_range'_1] at issued
      exact next ▸ issued.2
    unfold editAll at live removed given
    rw [List.foldl_append] at live
    exact removed (live_editAll given live)

/-- Makes a chain of three nodes and takes out the one in the middle. -/
def shortening : List Edit :=
  [.add "a" .rawOp [] .unmeasured, .add "b" .rawOp [] .unmeasured, .add "c" .rawOp [] .unmeasured,
    .connect 0 1, .connect 1 2, .remove 1]

/-- Names the removed node and some that never were, before and after the next output slot of the
last node is in its place, and takes out what has no targets. -/
def straying : List Edit :=
  [.disconnect 9 1, .remove 1, .markOutput 7, .addSecondary 1 1, .addSecondary 2 1, .renumber,
    .addSecondary 2 1, .disconnect 0 1, .removeWhere fun _ n => n.targets.isEmpty]

/-- Edits may name handles that were removed or never given out: the graph is fine, and the removed
node stays away. -/
theorem shortening_straying : empty.AllowsAll (shortening ++ straying) ∧
    empty.issuedAll (shortening ++ straying) = [0, 1, 2, 3] ∧
    (empty.editAll (shortening ++ straying)).Stored ∧
    (empty.editAll (shortening ++ straying)).isConsistent = true ∧
    (empty.issuedAll (shortening ++ straying)).Nodup ∧
    ¬ (empty.editAll (shortening ++ straying)).Live 1 := by
  have allowed : empty.AllowsAll (shortening ++ straying) :=
    ⟨trivial, trivial, trivial, ⟨⟨_, rfl⟩, ⟨_, rfl⟩, by decide⟩, ⟨⟨_, rfl⟩, ⟨_, rfl⟩, by decide⟩,
      trivial, trivial, trivial, trivial, trivial, trivial, trivial, trivial, trivial, trivial,
      trivial⟩
  obtain ⟨stored, consistent, distinct, removed⟩ := editAll_empty (shortening ++ straying) allowed
  refine ⟨allowed, rfl, stored, consistent, distinct, ?_⟩
  exact removed shortening straying rfl 1 (by decide) fun ⟨_, found⟩ => nomatch found

end StagePlan.Graph
