import StagePlan.Graph.Cleanup
import StagePlan.Proofs.Graph.Splicing

/-!
# Passes over a graph

`Graph.removeWhere` splices out what a test picks out, again and again. `Graph.Removes` says that a
graph is left of another one after a number of splices (`Topological.removeWhere_removes`); nothing
is left that the test picks out (`pick_removeWhere`), and a node stays if a property that spares it
from the test is kept by the splices (`removeWhere_keeps`). From these follows exactly what either
pass removes: the constants (`Topological.live_removeConstants`), and the nodes from which no
output is reached (`Topological.live_removeDeadEnds`).
-/

open Relation

namespace StagePlan.Graph

/-- A graph is left of another one after a number of splices, each of which took out one node. -/
structure Removes (g : Graph) (count : Nat) (g' : Graph) : Prop where
  spliced : Spliced g g'
  size : count + g'.size = g.size

/-- A node carries the marker. -/
def Marked (g : Graph) (marker : String) (h : Handle) : Prop :=
  ∃ n, g.node? h = some n ∧ isConstant marker n = true

/-- An output is reached from a node. -/
def Wanted (g : Graph) (h : Handle) : Prop := ∃ o ∈ g.outputs, ReflTransGen g.Edge h o

section

variable {g g' g'' : Graph} {u v h : Handle} {test : Graph → Node → Bool}

/-! ## What passes keep -/

/-- What every splice keeps, removing nodes one after the other keeps. -/
theorem removeEach_induction {motive : Graph → Prop}
    (keeps : ∀ g h node, g.node? h = some node → motive g → motive (g.splice h node))
    (hs : List Handle) (start : motive g) : motive (g.removeEach hs).2 := by
  fun_induction removeEach g hs with
  | case1 => exact start
  | case2 _ _ _ _ ih => exact ih start
  | case3 g h hs node live _ _ removed ih =>
    rw [removed] at ih
    exact ih (keeps g h node live start)

/-- What every splice keeps, a pass keeps. -/
theorem removeWhere_induction {motive : Graph → Prop}
    (keeps : ∀ g h node, g.node? h = some node → motive g → motive (g.splice h node))
    (test : Graph → Node → Bool) (start : motive g) : motive (g.removeWhere test).2 := by
  fun_induction removeWhere test g with
  | case1 => exact start
  | case2 g _ _ _ _ ih => exact ih (removeEach_induction keeps (g.pick test) start)

@[simp] theorem nextHandle_removeWhere (test : Graph → Node → Bool) (g : Graph) :
    (g.removeWhere test).2.nextHandle = g.nextHandle :=
  removeWhere_induction (motive := fun g' => g'.nextHandle = g.nextHandle)
    (fun g' h node _ same => (nextHandle_splice g' h node).trans same) test rfl

/-- A pass leaves a graph stored. -/
theorem Stored.removeWhere (stored : g.Stored) (test : Graph → Node → Bool) :
    (g.removeWhere test).2.Stored :=
  removeWhere_induction (fun _ _ node _ stored => stored.splice node) test stored

/-- The nodes that a pass leaves are labelled as they were. -/
theorem kept_removeWhere (test : Graph → Node → Bool) (g : Graph) :
    ∀ h n', (g.removeWhere test).2.node? h = some n' → ∃ n, g.node? h = some n ∧ n'.label = n.label :=
  removeWhere_induction (motive := fun g' => ∀ h n', g'.node? h = some n' →
      ∃ n, g.node? h = some n ∧ n'.label = n.label)
    (fun g' k node _ kept h n'' found => by
      obtain ⟨n', found', label', -⟩ := kept_splice found
      obtain ⟨n, found, label⟩ := kept h n' found'
      exact ⟨n, found, label'.trans label⟩)
    test fun _ n found => ⟨n, found, rfl⟩

/-! ## Counting nodes -/

/-- A splice takes out one node. -/
theorem Stored.size_splice {node : Node} (stored : g.Stored) (live : g.node? h = some node) :
    (g.splice h node).size + 1 = g.size := by
  have listed : h ∈ g.order := (stored.listed h).2 ⟨node, live⟩
  have pos : 0 < g.order.length := List.length_pos_of_mem listed
  have filtered : (g.splice h node).order = g.order.erase h := by
    rw [order_splice, stored.nodup.erase_eq_filter]
    exact List.filter_congr fun k _ => by simp [bne, Bool.beq_eq_decide_eq]
  rw [size, size, filtered, List.length_erase_of_mem listed]
  omega

/-- Removing nodes one after the other leaves a graph stored. -/
theorem Stored.removeEach (stored : g.Stored) (hs : List Handle) : (g.removeEach hs).2.Stored :=
  removeEach_induction (fun _ _ node _ stored => stored.splice node) hs stored

/-- Every node that is counted has gone. -/
theorem Stored.size_removeEach (stored : g.Stored) (hs : List Handle) :
    (g.removeEach hs).1 + (g.removeEach hs).2.size = g.size := by
  fun_induction Graph.removeEach g hs with
  | case1 => exact Nat.zero_add _
  | case2 _ _ _ _ ih => exact ih stored
  | case3 g h hs node live _ _ removed ih =>
    have rest := ih (stored.splice node)
    rw [removed] at rest
    rw [← stored.size_splice live, ← rest, Nat.add_right_comm]

/-- A pass reports how many nodes it takes out. -/
theorem Stored.size_removeWhere (stored : g.Stored) (test : Graph → Node → Bool) :
    (g.removeWhere test).1 + (g.removeWhere test).2.size = g.size := by
  fun_induction Graph.removeWhere test g with
  | case1 => exact Nat.zero_add _
  | case2 g _ removed _ further ih =>
    have first : removed.1 + removed.2.size = g.size := stored.size_removeEach (g.pick test)
    rw [Nat.add_assoc, ih (stored.removeEach _), first]

/-! ## Removing a list of nodes -/

/-- Numbers of splices add up. -/
theorem Removes.trans {m n : Nat} (first : Removes g m g') (second : Removes g' n g'') :
    Removes g (m + n) g'' where
  spliced := first.spliced.trans second.spliced
  size := by rw [Nat.add_assoc, second.size, first.size]

/-- Every graph is left of itself after no splice. -/
theorem Topological.removes_none (top : g.Topological) : Removes g 0 g where
  spliced := top.spliced_refl
  size := Nat.zero_add _

/-- One splice leaves a graph with one node less. -/
theorem Topological.removes_splice {node : Node} (top : g.Topological)
    (live : g.node? h = some node) : Removes g 1 (g.splice h node) where
  spliced := top.spliced live
  size := (Nat.add_comm 1 _).trans (top.size_splice live)

/-- Removing nodes one after the other takes out exactly these. -/
theorem Topological.removeEach_removes (top : g.Topological) (hs : List Handle)
    (distinct : hs.Nodup) (lives : ∀ h ∈ hs, g.Live h) :
    Removes g (g.removeEach hs).1 (g.removeEach hs).2 ∧
      ∀ k, (g.removeEach hs).2.Live k ↔ k ∉ hs ∧ g.Live k := by
  fun_induction removeEach g hs with
  | case1 g => exact ⟨top.removes_none, fun k => by simp⟩
  | case2 g h hs dead ih =>
    obtain ⟨n, live⟩ := lives h List.mem_cons_self
    cases dead.symm.trans live
  | case3 g h hs node live n g' removed ih =>
    obtain ⟨notIn, distinct⟩ := List.nodup_cons.1 distinct
    have first := top.removes_splice live
    have lives' : ∀ k ∈ hs, (g.splice h node).Live k := fun k hk =>
      live_splice.2 ⟨fun same => notIn (same ▸ hk), lives k (List.mem_cons_of_mem h hk)⟩
    obtain ⟨rest, left⟩ := ih (first.spliced.topological top) distinct lives'
    rw [removed] at rest left
    refine ⟨Nat.add_comm 1 n ▸ first.trans rest, fun k => ?_⟩
    rw [left, live_splice, List.mem_cons, not_or, and_left_comm, and_assoc]

/-! ## Removing what a test picks out -/

/-- A test picks out the nodes of the canonical order that pass it. -/
theorem mem_pick : h ∈ g.pick test ↔ h ∈ g.order ∧ ∃ n, g.node? h = some n ∧ test g n = true := by
  rw [pick, List.mem_filter, Option.any_eq_true]

/-- Removing all that a test picks out takes out these nodes, by splices. -/
theorem Topological.removeEach_pick (top : g.Topological) (test : Graph → Node → Bool) :
    Removes g (g.removeEach (g.pick test)).1 (g.removeEach (g.pick test)).2 ∧
      ∀ k, (g.removeEach (g.pick test)).2.Live k ↔ k ∉ g.pick test ∧ g.Live k :=
  top.removeEach_removes _ (top.nodup.filter _) fun _ picked =>
    let ⟨_, n, live, _⟩ := mem_pick.1 picked; ⟨n, live⟩

/-- A pass splices out as many nodes as it counts. -/
theorem Topological.removeWhere_removes (top : g.Topological) (test : Graph → Node → Bool) :
    Removes g (g.removeWhere test).1 (g.removeWhere test).2 := by
  fun_induction removeWhere test g with
  | case1 => exact top.removes_none
  | case2 g _ removed _ further ih =>
    have first := (top.removeEach_pick test).1
    exact first.trans (ih (first.spliced.topological top))

/-- A pass leaves nothing that its test picks out. -/
theorem pick_removeWhere (test : Graph → Node → Bool) (g : Graph) :
    (g.removeWhere test).2.pick test = [] := by
  fun_induction removeWhere test g with
  | case1 _ none_ => exact none_
  | case2 _ _ _ _ _ ih => exact ih

/-- A pass that counts no node picked out none. -/
theorem pick_of_count_eq_zero (nothing : (g.removeWhere test).1 = 0) : g.pick test = [] := by
  unfold removeWhere at nothing
  split at nothing
  next none_ => exact none_
  next some_ =>
    cases picked : g.pick test with
    | nil => exact absurd picked some_
    | cons h hs =>
      -- the first node that is picked out is live, so it is counted
      obtain ⟨-, n, live, -⟩ := mem_pick.1 (picked ▸ List.mem_cons_self)
      simp [picked, removeEach, live] at nothing

/-- A pass stays where its test picks out nothing. -/
theorem removeWhere_of_pick_eq_nil (none_ : g.pick test = []) : g.removeWhere test = (0, g) := by
  unfold removeWhere
  rw [dif_pos none_]

/-- A pass leaves the nodes with a property that spares them from its test, if the nodes with the
property keep it as long as all of them stay. -/
theorem Topological.removeWhere_keeps (keeps : Graph → Handle → Prop)
    (live : ∀ g h, Topological g → keeps g h → g.Live h)
    (spares : ∀ g h, Topological g → keeps g h → h ∉ g.pick test)
    (stays : ∀ g g', Topological g → Spliced g g' → (∀ h, keeps g h → g'.Live h) →
      ∀ h, keeps g h → keeps g' h) (top : g.Topological) (kept : keeps g h) :
    (g.removeWhere test).2.Live h := by
  fun_induction removeWhere test g with
  | case1 g => exact live g h top kept
  | case2 g _ removed _ further ih =>
    obtain ⟨first, left⟩ := top.removeEach_pick test
    refine ih (first.spliced.topological top) (stays g _ top first.spliced (fun k hk => ?_) h kept)
    exact (left k).2 ⟨spares g k top hk, live g k top hk⟩

/-! ## Constants -/

variable {marker : String}

/-- Whether a node carries the marker depends on its label. -/
theorem isConstant_congr {n n' : Node} (same : n'.label = n.label) :
    isConstant marker n' = isConstant marker n :=
  congrArg (Text.contains marker) (congrArg (·.2.1) same)

/-- A node that is left carries the marker if it did. -/
theorem Spliced.marked_iff (spliced : Spliced g g') (left : g'.Live h) :
    g'.Marked marker h ↔ g.Marked marker h := by
  obtain ⟨n', found'⟩ := left
  obtain ⟨n, found, same⟩ := spliced.kept h n' found'
  refine ⟨?_, ?_⟩
  · rintro ⟨m, foundM, marked⟩
    cases found'.symm.trans foundM
    exact ⟨n, found, (isConstant_congr same).symm.trans marked⟩
  · rintro ⟨m, foundM, marked⟩
    cases found.symm.trans foundM
    exact ⟨n', found', (isConstant_congr same).trans marked⟩

/-- The pass over constants picks out the nodes that carry the marker. -/
theorem Stored.mem_pick_isConstant (stored : g.Stored) :
    h ∈ g.pick (fun _ n => isConstant marker n) ↔ g.Marked marker h := by
  rw [mem_pick]
  refine ⟨fun picked => picked.2, ?_⟩
  rintro ⟨n, live, marked⟩
  exact ⟨(stored.listed h).2 ⟨n, live⟩, n, live, marked⟩

/-- The pass over the constants removes exactly the nodes that carry the marker. -/
theorem Topological.live_removeConstants (top : g.Topological) :
    (g.removeConstants marker).2.Live h ↔ g.Live h ∧ ¬ g.Marked marker h := by
  have spliced := (top.removeWhere_removes fun _ n => isConstant marker n).spliced
  refine ⟨?_, ?_⟩
  · intro left
    refine ⟨spliced.live left, fun marked => ?_⟩
    have picked := (spliced.topological top).mem_pick_isConstant.2
      ((spliced.marked_iff left).2 marked)
    rw [pick_removeWhere] at picked
    cases picked
  · rintro ⟨live, unmarked⟩
    refine top.removeWhere_keeps (fun g h => g.Live h ∧ ¬ g.Marked marker h)
      (fun _ _ _ kept => kept.1) (fun g h top kept picked => ?_)
      (fun g g' _ spliced stay h kept => ?_)
      ⟨live, unmarked⟩
    · exact kept.2 (top.mem_pick_isConstant.1 picked)
    · exact ⟨stay h kept, fun marked => kept.2 ((spliced.marked_iff (stay h kept)).1 marked)⟩

/-! ## Dead ends -/

/-- A node from which an output is reached is live, for outputs are. -/
theorem Topological.live_of_wanted (top : g.Topological) (wanted : g.Wanted h) : g.Live h := by
  obtain ⟨o, output, path⟩ := wanted
  rcases path.cases_head with rfl | ⟨_, edge, _⟩
  · exact top.outputs_live h output
  · exact edge.live

/-- Whoever reaches a wanted node is wanted. -/
theorem Wanted.of_reaches (wanted : g.Wanted v) (path : ReflTransGen g.Edge u v) : g.Wanted u :=
  let ⟨o, output, rest⟩ := wanted; ⟨o, output, path.trans rest⟩

/-- A dead end is a live node without targets that is no output. -/
theorem Stored.mem_pick_isDeadEnd (stored : g.Stored) :
    h ∈ g.pick isDeadEnd ↔ g.Live h ∧ (∀ v, ¬ g.Edge h v) ∧ h ∉ g.outputs := by
  have deadEnd : ∀ n, g.node? h = some n →
      (g.isDeadEnd n = true ↔ (∀ v, ¬ g.Edge h v) ∧ h ∉ g.outputs) := by
    intro n live
    rw [isDeadEnd, isOutput, stored.handle h n live, Bool.and_eq_true, Bool.not_eq_true',
      decide_eq_false_iff_not, HandleSet.isEmpty_iff]
    exact and_congr_left fun _ => forall_congr' fun v => not_congr (edge_iff live).symm
  rw [mem_pick]
  refine ⟨?_, ?_⟩
  · rintro ⟨-, n, live, test⟩
    exact ⟨⟨n, live⟩, (deadEnd n live).1 test⟩
  · rintro ⟨⟨n, live⟩, test⟩
    exact ⟨(stored.listed h).2 ⟨n, live⟩, n, live, (deadEnd n live).2 test⟩

/-- Without dead ends every live node is wanted: each one that is no output has a younger target. -/
theorem Topological.wanted_of_live (top : g.Topological) (none_ : g.pick isDeadEnd = [])
    {h : Handle} (live : g.Live h) : g.Wanted h := by
  by_cases output : h ∈ g.outputs
  · exact ⟨h, output, .refl⟩
  by_cases target : ∃ v, g.Edge h v
  · obtain ⟨v, edge⟩ := target
    have younger : h < v := top.forward h v edge
    have bound : v < g.nextHandle := (top.live_target edge).lt
    exact (top.wanted_of_live none_ (top.live_target edge)).of_reaches (.single edge)
  · have picked := top.mem_pick_isDeadEnd.2 ⟨live, fun v edge => target ⟨v, edge⟩, output⟩
    rw [none_] at picked
    cases picked
termination_by g.nextHandle - h
decreasing_by exact Nat.sub_lt_sub_left (Nat.lt_trans younger bound) younger

/-- A wanted node stays wanted, as long as all wanted nodes stay. -/
theorem Wanted.stays (spliced : Spliced g g') (stay : ∀ h, g.Wanted h → g'.Live h)
    (wanted : g.Wanted h) : g'.Wanted h := by
  obtain ⟨o, output, path⟩ := wanted
  have left : g'.Live o := stay o ⟨o, output, .refl⟩
  exact ⟨o, (spliced.outputs o).2 ⟨output, left⟩,
    (spliced.reaches_iff (stay h ⟨o, output, path⟩) left).2 path⟩

/-- A node that is wanted in what is left was wanted. -/
theorem Wanted.of_spliced (spliced : Spliced g g') (top : g.Topological) (wanted : g'.Wanted h) :
    g.Wanted h := by
  have source := (spliced.topological top).live_of_wanted wanted
  obtain ⟨o, output, path⟩ := wanted
  obtain ⟨output, target⟩ := (spliced.outputs o).1 output
  exact ⟨o, output, (spliced.reaches_iff source target).1 path⟩

/-- The pass over the dead ends leaves exactly the nodes that an output is reached from. -/
theorem Topological.live_removeDeadEnds (top : g.Topological) :
    g.removeDeadEnds.2.Live h ↔ g.Wanted h := by
  have spliced := (top.removeWhere_removes isDeadEnd).spliced
  refine ⟨?_, ?_⟩
  · exact fun left =>
      ((spliced.topological top).wanted_of_live (pick_removeWhere _ g) left).of_spliced spliced top
  · refine top.removeWhere_keeps Wanted (fun _ _ top wanted => top.live_of_wanted wanted)
      (fun g h top wanted picked => ?_)
      (fun _ _ _ spliced stay _ wanted => wanted.stays spliced stay)
    obtain ⟨-, noTarget, noOutput⟩ := top.mem_pick_isDeadEnd.1 picked
    obtain ⟨o, output, path⟩ := wanted
    rcases path.cases_head with rfl | ⟨v, edge, _⟩
    · exact noOutput output
    · exact noTarget v edge

end

end StagePlan.Graph
