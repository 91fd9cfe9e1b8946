import Mathlib.Logic.Relation
import StagePlan.Graph.Basic

/-!
# Edges of a graph

`Graph.Edge` is the relation that the targets of the nodes record, `Graph.Back` the one that their
sources record; a graph `IsConsistent` if they are the same. `Graph.Stored` says that the canonical
order lists exactly the handles of the live nodes, in ascending order. A graph of a trace is
moreover `Topological`: every edge leads from an older node to a younger one, so from a smaller
position of the canonical order to a larger one (`Topological.lt_of_edge`). Changes of what the
nodes hold leave all of this (`SameLinks.topological`), and changes that keep the handles leave a
graph stored (`Stored.of_same_handles`); `Stored.node?_modifyEach` and `map_node?_modifyEach` say
what a change along the canonical order does and does not do to a node.
-/

open Relation

namespace StagePlan

/-- What places a node in a graph: its handle and its neighbours. -/
def Node.links (n : Node) : Handle × HandleSet × HandleSet := (n.handle, n.sources, n.targets)

namespace Graph

/-! ## Relations -/

/-- A live node records a handle on one of its sides. -/
def Records (g : Graph) (side : Node → HandleSet) (u v : Handle) : Prop :=
  ∃ n, g.node? u = some n ∧ v ∈ side n

/-- An edge leads from one node to another one: the other one is a target of the first, which is
live. -/
def Edge (g : Graph) (u v : Handle) : Prop := ∃ n, g.node? u = some n ∧ v ∈ n.targets

/-- An edge is recorded at its target, which is live. -/
def Back (g : Graph) (u v : Handle) : Prop := ∃ n, g.node? v = some n ∧ u ∈ n.sources

/-- Every edge is recorded at both of its ends. -/
def IsConsistent (g : Graph) : Prop := ∀ u v, g.Edge u v ↔ g.Back u v

/-- A node with the given handle is live. -/
def Live (g : Graph) (h : Handle) : Prop := ∃ n, g.node? h = some n

/-- Nodes are stored under their handles, and the canonical order lists the live ones, older nodes
first. -/
structure Stored (g : Graph) : Prop where
  handle : ∀ h n, g.node? h = some n → n.handle = h
  listed : ∀ h, h ∈ g.order ↔ g.Live h
  ascending : g.order.Pairwise (· < ·)

/-- Edges are recorded at both of their ends and lead from older to younger nodes, and outputs are
live. -/
structure Topological (g : Graph) : Prop extends Stored g where
  consistent : g.IsConsistent
  forward : ∀ u v, g.Edge u v → u < v
  outputs_live : ∀ h ∈ g.outputs, g.Live h

/-- Two graphs have the same nodes and edges, and differ at most in what their nodes hold. -/
structure SameLinks (g g' : Graph) : Prop where
  order : g'.order = g.order
  outputs : g'.outputs = g.outputs
  links : ∀ h, (g'.node? h).map Node.links = (g.node? h).map Node.links

section

variable {g g' : Graph} {u v h : Handle}

/-- An edge comes from a live node. -/
theorem Edge.live (edge : g.Edge u v) : g.Live u :=
  let ⟨n, live, _⟩ := edge; ⟨n, live⟩

/-- An edge is recorded at a live node. -/
theorem Back.live (edge : g.Back u v) : g.Live v :=
  let ⟨n, live, _⟩ := edge; ⟨n, live⟩

/-- A live node records what stands on its side. -/
theorem records_iff {side : Node → HandleSet} {n : Node} (live : g.node? u = some n) :
    g.Records side u v ↔ v ∈ side n := by
  refine ⟨?_, fun member => ⟨n, live, member⟩⟩
  rintro ⟨m, live', member⟩
  cases live.symm.trans live'
  exact member

/-- The edges of a node are those to its targets. -/
theorem edge_iff {n : Node} (live : g.node? u = some n) : g.Edge u v ↔ v ∈ n.targets :=
  records_iff live

/-- The edges recorded at a node are those from its sources. -/
theorem back_iff {n : Node} (live : g.node? v = some n) : g.Back u v ↔ u ∈ n.sources :=
  records_iff live

/-- Live nodes have handles that were given out. -/
theorem Live.lt (live : g.Live h) : h < g.nextHandle := by
  obtain ⟨n, found⟩ := live
  unfold node? at found
  cases slot : g.slots[h]? with
  | none => rw [slot] at found; cases found
  | some _ => exact (Array.getElem?_eq_some_iff.1 slot).1

/-- So the next handle has no node. -/
theorem not_live_nextHandle (g : Graph) : ¬ g.Live g.nextHandle := fun live =>
  Nat.lt_irrefl _ live.lt

/-- Where no node is live, none is found. -/
theorem node?_eq_none (dead : ¬ g.Live h) : g.node? h = none := by
  cases found : g.node? h with
  | none => rfl
  | some n => exact absurd ⟨n, found⟩ dead

/-- The canonical order lists no node twice. -/
theorem Stored.nodup (stored : g.Stored) : g.order.Nodup := stored.ascending.imp Nat.ne_of_lt

/-- The check of a stored graph finds out whether its edges are recorded at both of their ends. -/
theorem Stored.isConsistent_iff (stored : g.Stored) : g.isConsistent = true ↔ g.IsConsistent := by
  have node : ∀ n, n ∈ g.nodes ↔ g.node? n.handle = some n := by
    intro n
    rw [nodes, List.mem_filterMap]
    refine ⟨?_, fun found => ⟨n.handle, (stored.listed _).2 ⟨n, found⟩, found⟩⟩
    rintro ⟨h, _, found⟩
    rw [stored.handle h n found]
    exact found
  simp only [isConsistent, List.all_eq_true, Bool.and_eq_true, Option.any_eq_true,
    decide_eq_true_eq, HandleSet.mem_toList]
  refine ⟨fun all u v => ⟨?_, ?_⟩, fun consistent n listed => ⟨fun v target => ?_, fun u source => ?_⟩⟩
  · rintro ⟨n, found, target⟩
    obtain ⟨m, found', back⟩ := (all n ((node n).2 (stored.handle u n found ▸ found))).1 v target
    exact ⟨m, found', stored.handle u n found ▸ back⟩
  · rintro ⟨m, found, source⟩
    obtain ⟨n, found', edge⟩ := (all m ((node m).2 (stored.handle v m found ▸ found))).2 u source
    exact ⟨n, found', stored.handle v m found ▸ edge⟩
  · exact (consistent n.handle v).1 ⟨n, (node n).1 listed, target⟩
  · exact (consistent u n.handle).2 ⟨n, (node n).1 listed, source⟩

/-- Paths lead to younger nodes. -/
theorem Topological.lt_of_transGen (top : g.Topological) (path : TransGen g.Edge u v) : u < v := by
  induction path with
  | single edge => exact top.forward u _ edge
  | tail _ edge ih => exact Nat.lt_trans ih (top.forward _ _ edge)

/-! ## Changes that leave the edges -/

/-- A node has a counterpart in a graph with the same links. -/
theorem SameLinks.node (same : SameLinks g g') {n : Node} (found : g.node? h = some n) :
    ∃ n', g'.node? h = some n' ∧ n'.links = n.links := by
  have links := same.links h
  rw [found, Option.map_some] at links
  exact Option.map_eq_some_iff.1 links

/-- Sharing nodes and edges goes both ways. -/
theorem SameLinks.symm (same : SameLinks g g') : SameLinks g' g :=
  ⟨same.order.symm, same.outputs.symm, fun h => (same.links h).symm⟩

/-- Graphs with the same nodes and edges have a live node at every handle where one of them has. -/
theorem SameLinks.live_of (same : SameLinks g g') (live : g.Live h) : g'.Live h := by
  obtain ⟨n, found⟩ := live
  obtain ⟨n', found', _⟩ := same.node found
  exact ⟨n', found'⟩

/-- The same handles are live. -/
theorem SameLinks.live (same : SameLinks g g') : g'.Live h ↔ g.Live h :=
  ⟨same.symm.live_of, same.live_of⟩

/-- What a node records on a side that its links determine stays. -/
theorem SameLinks.records_of {side : Node → HandleSet} (same : SameLinks g g')
    (linked : ∀ n n' : Node, n'.links = n.links → side n' = side n) (records : g.Records side u v) :
    g'.Records side u v := by
  obtain ⟨n, found, member⟩ := records
  obtain ⟨n', found', links⟩ := same.node found
  exact ⟨n', found', linked n n' links ▸ member⟩

/-- The same handles are recorded on any side that the links of a node determine. -/
theorem SameLinks.records {side : Node → HandleSet} (same : SameLinks g g')
    (linked : ∀ n n' : Node, n'.links = n.links → side n' = side n) :
    g'.Records side u v ↔ g.Records side u v :=
  ⟨same.symm.records_of linked, same.records_of linked⟩

/-- They have the same edges. -/
theorem SameLinks.edge (same : SameLinks g g') : g'.Edge u v ↔ g.Edge u v :=
  same.records fun _ _ links => congrArg (·.2.2) links

/-- They have the same records of edges at the targets. -/
theorem SameLinks.back (same : SameLinks g g') : g'.Back u v ↔ g.Back u v :=
  same.records fun _ _ links => congrArg (·.2.1) links

/-- A graph stays stored where its nodes keep their handles and their order. -/
theorem Stored.of_same_handles (stored : g.Stored) (order : g'.order = g.order)
    (handles : ∀ h, (g'.node? h).map Node.handle = (g.node? h).map Node.handle) : g'.Stored where
  handle h n' found := by
    have handle := handles h
    rw [found, Option.map_some] at handle
    obtain ⟨n, found', same⟩ := Option.map_eq_some_iff.1 handle.symm
    exact same.symm.trans (stored.handle h n found')
  listed h := by
    have lives : g'.Live h ↔ g.Live h := by
      rw [Live, Live, ← Option.isSome_iff_exists, ← Option.isSome_iff_exists,
        ← Option.isSome_map (f := Node.handle), handles, Option.isSome_map]
    rw [order, stored.listed, lives]
  ascending := order ▸ stored.ascending

/-- If one of them is stored in place, so is the other one. -/
theorem SameLinks.stored (same : SameLinks g g') (stored : g.Stored) : g'.Stored :=
  stored.of_same_handles same.order fun h => by
    have handles := congrArg (Option.map Prod.fst) (same.links h)
    rw [Option.map_map, Option.map_map] at handles
    exact handles

/-- If one of them is consistent, so is the other one. -/
theorem SameLinks.consistent (same : SameLinks g g') (consistent : g.IsConsistent) :
    g'.IsConsistent := fun u v => by
  rw [same.edge, same.back, consistent]

/-- If one of them is topological, so is the other one. -/
theorem SameLinks.topological (same : SameLinks g g') (top : g.Topological) : g'.Topological where
  toStored := same.stored top.toStored
  consistent := same.consistent top.consistent
  forward u v edge := top.forward u v (same.edge.1 edge)
  outputs_live h output := same.live.2 (top.outputs_live h (same.outputs ▸ output))

/-! ## Nodes by position -/

/-- An edge leads to a later position of the canonical order. -/
theorem Topological.lt_of_edge (top : g.Topological) (edge : g.Edge u v) {i j : Nat}
    (source : g.order[i]? = some u) (target : g.order[j]? = some v) : i < j := by
  refine Decidable.byContradiction fun notLess => ?_
  have older := top.forward u v edge
  obtain ⟨inRange, rfl⟩ := List.getElem?_eq_some_iff.1 source
  obtain ⟨inRange', rfl⟩ := List.getElem?_eq_some_iff.1 target
  rcases Nat.eq_or_lt_of_le (Nat.le_of_not_lt notLess) with rfl | less
  · exact Nat.lt_irrefl _ older
  · exact Nat.lt_asymm older (List.pairwise_iff_getElem.1 top.ascending j i inRange' inRange less)

/-- Where a function is defined on all entries of a list, the values keep the positions. -/
theorem getElem?_filterMap {α β : Type} {f : α → Option β} :
    ∀ {l : List α}, (∀ a ∈ l, ∃ b, f a = some b) → ∀ i : Nat, (l.filterMap f)[i]? = l[i]?.bind f
  | [], _, i => by simp
  | a :: l, defined, i => by
    obtain ⟨b, value⟩ := defined a List.mem_cons_self
    rw [List.filterMap_cons_some value]
    cases i with
    | zero => simp [value]
    | succ i =>
      simpa using getElem?_filterMap (fun c hc => defined c (List.mem_cons_of_mem a hc)) i

/-- The node at a position of the canonical order is the node of the handle there. -/
theorem getElem?_nodes (listed : ∀ h ∈ g.order, g.Live h) (i : Nat) :
    g.nodes[i]? = g.order[i]?.bind g.node? :=
  getElem?_filterMap listed i

/-- In a stored graph the node at a position is that of the handle listed there. -/
theorem Stored.getElem?_nodes (stored : g.Stored) (i : Nat) :
    g.nodes[i]? = g.order[i]?.bind g.node? :=
  Graph.getElem?_nodes (fun h => (stored.listed h).1) i

/-- A stored graph has a node for each handle of its order. -/
theorem Stored.length_nodes (stored : g.Stored) : g.nodes.length = g.size := by
  unfold nodes size
  exact List.filterMap_length_eq_length.2 fun h hh => by
    obtain ⟨n, live⟩ := (stored.listed h).1 hh
    simp [live]

/-- The nodes of a graph are those of the handles in its order. -/
theorem mem_nodes {n : Node} : n ∈ g.nodes ↔ ∃ h ∈ g.order, g.node? h = some n :=
  List.mem_filterMap

/-- The indices are the positions if that holds of every node. -/
theorem isNormalized_iff :
    g.isNormalized = true ↔ ∀ (i : Nat) n, g.nodes[i]? = some n → n.index = i := by
  unfold isNormalized
  rw [List.all_eq_true]
  refine ⟨?_, ?_⟩
  · intro all i n at_
    exact beq_iff_eq.1 (all (n, i) (List.mem_zipIdx_iff_getElem?.2 at_))
  · rintro all ⟨n, i⟩ member
    exact beq_iff_eq.2 (all i n (List.mem_zipIdx_iff_getElem?.1 member))

/-- Where the indices are the positions, they ascend along the canonical order. -/
theorem index_ascending (normalized : g.isNormalized = true) :
    g.nodes.Pairwise fun n m => n.index < m.index := by
  refine List.pairwise_iff_getElem.2 fun i j inRange inRange' less => ?_
  rw [isNormalized_iff.1 normalized i _ (List.getElem?_eq_getElem inRange),
    isNormalized_iff.1 normalized j _ (List.getElem?_eq_getElem inRange')]
  exact less

/-- Where the indices are the positions, a node is listed at its index. -/
theorem Stored.order_index (stored : g.Stored) (normalized : g.isNormalized = true) {n : Node}
    (found : g.node? h = some n) : g.order[n.index]? = some h := by
  obtain ⟨i, at_⟩ := List.mem_iff_getElem?.1 ((stored.listed h).2 ⟨n, found⟩)
  have node : g.nodes[i]? = some n := by rw [stored.getElem?_nodes, at_, Option.bind_some, found]
  rw [isNormalized_iff.1 normalized i n node]
  exact at_

/-- There different nodes have different indices. -/
theorem Stored.eq_of_index (stored : g.Stored) (normalized : g.isNormalized = true) {n m : Node}
    (found : g.node? u = some n) (found' : g.node? v = some m) (same : n.index = m.index) :
    u = v := by
  have at_ := stored.order_index normalized found
  rw [same, stored.order_index normalized found'] at at_
  exact (Option.some.inj at_).symm

/-- So the live nodes of a set have different ones. -/
theorem Stored.pairwise_index (stored : g.Stored) (normalized : g.isNormalized = true)
    (hs : HandleSet) :
    (hs.toList.filterMap g.node?).Pairwise fun n m => n.index ≠ m.index :=
  List.pairwise_filterMap.2 <| hs.nodup_toList.imp fun different _ found _ found' same =>
    different (stored.eq_of_index normalized found found' same)

/-! ## Changing nodes along the canonical order -/

variable {α : Type}

/-- A node that none of several changes is for stays as it is. -/
theorem node?_foldl_modify_of_not_mem (f : α → Node → Node) :
    ∀ (changes : List (Handle × α)) (g : Graph) (k : Handle), k ∉ changes.map Prod.fst →
      (changes.foldl (fun g (h, a) => g.modify h (f a)) g).node? k = g.node? k
  | [], _, _, _ => rfl
  | (h, a) :: changes, g, k, other => by
    rw [List.map_cons, List.mem_cons, not_or] at other
    rw [List.foldl_cons, node?_foldl_modify_of_not_mem f changes _ k other.2, node?_modify,
      if_neg (Ne.symm other.1)]

/-- A node that one of several changes is for, each for another node, is changed by that one. -/
theorem node?_foldl_modify_of_mem (f : α → Node → Node) :
    ∀ {changes : List (Handle × α)} {k : Handle} {a : α} (g : Graph),
      (changes.map Prod.fst).Nodup → (k, a) ∈ changes →
        (changes.foldl (fun g (h, a) => g.modify h (f a)) g).node? k = (g.node? k).map (f a)
  | (h, b) :: changes, k, a, g, distinct, change => by
    rw [List.map_cons, List.nodup_cons] at distinct
    rw [List.foldl_cons]
    rcases List.mem_cons.1 change with same | change
    · obtain ⟨rfl, rfl⟩ := Prod.mk.inj same
      rw [node?_foldl_modify_of_not_mem f changes _ k distinct.1, node?_modify, if_pos rfl]
    · have other : h ≠ k := fun same => distinct.1 (List.mem_map.2 ⟨(k, a), change, same.symm⟩)
      rw [node?_foldl_modify_of_mem f _ distinct.2 change, node?_modify, if_neg other]

/-- What changes of nodes leave alone. -/
theorem foldl_modify_each_frame (f : α → Node → Node) (changes : List (Handle × α)) (g : Graph) :
    (changes.foldl (fun g (h, a) => g.modify h (f a)) g).order = g.order ∧
      (changes.foldl (fun g (h, a) => g.modify h (f a)) g).outputs = g.outputs ∧
        (changes.foldl (fun g (h, a) => g.modify h (f a)) g).nextHandle = g.nextHandle := by
  induction changes generalizing g with
  | nil => exact ⟨rfl, rfl, rfl⟩
  | cons change changes ih => simpa using ih (g.modify change.1 (f change.2))

@[simp] theorem order_modifyEach (values : List α) (f : α → Node → Node) :
    (g.modifyEach values f).order = g.order := (foldl_modify_each_frame f _ g).1

@[simp] theorem outputs_modifyEach (values : List α) (f : α → Node → Node) :
    (g.modifyEach values f).outputs = g.outputs := (foldl_modify_each_frame f _ g).2.1

@[simp] theorem nextHandle_modifyEach (values : List α) (f : α → Node → Node) :
    (g.modifyEach values f).nextHandle = g.nextHandle := (foldl_modify_each_frame f _ g).2.2

/-- A change of a node leaves alone what it does not alter. -/
theorem map_node?_modify {β : Type} (view : Node → β) {f : Node → Node}
    (keeps : ∀ n, view (f n) = view n) (h k : Handle) :
    ((g.modify h f).node? k).map view = (g.node? k).map view := by
  rw [node?_modify]
  split
  · rw [Option.map_map]
    exact Option.map_congr fun n _ => keeps n
  · rfl

/-- A change that keeps handles leaves a graph stored. -/
theorem Stored.modify (stored : g.Stored) {f : Node → Node} (h : Handle)
    (keeps : ∀ n, (f n).handle = n.handle) : (g.modify h f).Stored :=
  stored.of_same_handles rfl (map_node?_modify Node.handle keeps h)

/-- What no change touches can be read off the nodes as before. -/
theorem map_node?_foldl_modify {β : Type} (view : Node → β) (f : α → Node → Node)
    (keeps : ∀ a n, view (f a n) = view n) :
    ∀ (changes : List (Handle × α)) (g : Graph) (k : Handle),
      ((changes.foldl (fun g (h, a) => g.modify h (f a)) g).node? k).map view = (g.node? k).map view
  | [], _, _ => rfl
  | (h, a) :: changes, g, k => by
    rw [List.foldl_cons, map_node?_foldl_modify view f keeps changes, map_node?_modify view (keeps a)]

/-- A change along the canonical order leaves alone what no change of a single node alters. -/
theorem map_node?_modifyEach {β : Type} (view : Node → β) (f : α → Node → Node)
    (keeps : ∀ a n, view (f a n) = view n) (values : List α) (k : Handle) :
    ((g.modifyEach values f).node? k).map view = (g.node? k).map view :=
  map_node?_foldl_modify view f keeps _ g k

/-- A change along the canonical order leaves the edges, if it leaves the links of every node. -/
theorem sameLinks_modifyEach (f : α → Node → Node) (keeps : ∀ a n, (f a n).links = n.links)
    (values : List α) : SameLinks g (g.modifyEach values f) :=
  ⟨order_modifyEach values f, outputs_modifyEach values f,
    map_node?_modifyEach Node.links f keeps values⟩

/-- Renumbering touches neither handles nor edges. -/
theorem sameLinks_renumber : SameLinks g g.renumber :=
  sameLinks_modifyEach (fun index n => { n with index := index }) (fun _ _ => rfl) _

/-- The nodes show what no change of a single node alters as before. -/
theorem map_nodes_modifyEach {β : Type} (view : Node → β) (f : α → Node → Node)
    (keeps : ∀ a n, view (f a n) = view n) (values : List α) :
    (g.modifyEach values f).nodes.map view = g.nodes.map view := by
  rw [nodes, nodes, List.map_filterMap, List.map_filterMap, order_modifyEach]
  exact congrArg (List.filterMap · g.order) (funext (map_node?_modifyEach view f keeps values))

/-- A change along the canonical order that leaves the indices leaves them the positions. -/
theorem isNormalized_modifyEach (f : α → Node → Node) (keeps : ∀ a n, (f a n).index = n.index)
    (values : List α) (normalized : g.isNormalized = true) :
    (g.modifyEach values f).isNormalized = true := by
  refine isNormalized_iff.2 fun i n' at_ => ?_
  have index : (g.nodes.map Node.index)[i]? = some n'.index := by
    rw [← map_nodes_modifyEach Node.index f keeps values, List.getElem?_map, at_, Option.map_some]
  rw [List.getElem?_map, Option.map_eq_some_iff] at index
  obtain ⟨n, at_', same⟩ := index
  rw [← same, isNormalized_iff.1 normalized i n at_']

/-- A change along the canonical order reaches the node at every position. -/
theorem node?_modifyEach (distinct : g.order.Nodup) {values : List α} (f : α → Node → Node)
    (complete : g.size ≤ values.length) {i : Nat} {a : α} (at_ : g.order[i]? = some h)
    (value : values[i]? = some a) :
    (g.modifyEach values f).node? h = (g.node? h).map (f a) := by
  refine node?_foldl_modify_of_mem f g ?_ (List.mem_of_getElem? (i := i) ?_)
  · rwa [List.map_fst_zip complete]
  · rw [List.getElem?_zip_eq_some]
    exact ⟨at_, value⟩

/-- With enough values for the canonical order, a node is changed by the value at its position. -/
theorem Stored.node?_modifyEach (stored : g.Stored) {values : List α} (f : α → Node → Node)
    (complete : g.size ≤ values.length) {i : Nat} {a : α} (at_ : g.order[i]? = some h)
    (value : values[i]? = some a) :
    (g.modifyEach values f).node? h = (g.node? h).map (f a) :=
  Graph.node?_modifyEach stored.nodup f complete at_ value

/-- A change along the canonical order changes each node by the value at its position. -/
theorem nodes_modifyEach (listed : ∀ h ∈ g.order, g.Live h) (distinct : g.order.Nodup)
    {values : List α} (f : α → Node → Node) (complete : g.size ≤ values.length) :
    (g.modifyEach values f).nodes = List.zipWith (fun n a => f a n) g.nodes values := by
  have changed : ∀ (i : Nat) h, g.order[i]? = some h → ∃ n a, g.node? h = some n ∧
      values[i]? = some a ∧ (g.modifyEach values f).node? h = some (f a n) := by
    intro i h at_
    obtain ⟨n, found⟩ := listed h (List.mem_of_getElem? at_)
    have lt : i < values.length := Nat.lt_of_lt_of_le (List.getElem?_eq_some_iff.1 at_).1 complete
    have value : values[i]? = some values[i] := List.getElem?_eq_getElem lt
    refine ⟨n, values[i], found, value, ?_⟩
    rw [node?_modifyEach distinct f complete at_ value, found, Option.map_some]
  have listed' : ∀ h ∈ (g.modifyEach values f).order, (g.modifyEach values f).Live h := by
    intro h member
    rw [order_modifyEach] at member
    obtain ⟨i, at_⟩ := List.mem_iff_getElem?.1 member
    obtain ⟨n, a, -, -, found⟩ := changed i h at_
    exact ⟨f a n, found⟩
  refine List.ext_getElem? fun i => ?_
  rw [List.getElem?_zipWith, getElem?_nodes listed', getElem?_nodes listed, order_modifyEach]
  cases at_ : g.order[i]? with
  | none => rfl
  | some h =>
    obtain ⟨n, a, found, value, found'⟩ := changed i h at_
    simp only [Option.bind_some, found, value, found']

end

end Graph

end StagePlan
