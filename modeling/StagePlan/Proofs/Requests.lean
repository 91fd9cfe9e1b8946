import StagePlan.Partition.Sequential
import StagePlan.Proofs.Sequential.Acceptance
import StagePlan.Proofs.Sequential.Ascending

/-!
# Requests of graphs

The request of a topological graph draws an undirected picture of it: two positions are adjacent if
an edge joins their nodes, either way (`Topological.mem_adjacency`), so the request is well-formed
(`Topological.exists_ofGraph`). The sequential solver answers it, and its answer is valid and
ascends along the edges (`Topological.exists_split`).
-/

namespace StagePlan

/-! ## Pictures of graphs -/

namespace Graph

variable {g : Graph} {s : SplitSettings} {i j : Nat}

/-- The indices of handles are those of their live nodes. -/
theorem mem_indices {hs : HandleSet} :
    i ∈ g.indices hs ↔ ∃ h ∈ hs, ∃ n, g.node? h = some n ∧ n.index = i := by
  rw [indices, List.mem_mergeSort, List.mem_map]
  refine ⟨?_, ?_⟩
  · rintro ⟨n, member, index⟩
    obtain ⟨h, inSet, found⟩ := List.mem_filterMap.1 member
    exact ⟨h, inSet, n, found, index⟩
  · rintro ⟨h, inSet, n, found, index⟩
    exact ⟨n, List.mem_filterMap.2 ⟨h, inSet, found⟩, index⟩

/-- The positions of a set of handles are those at which its members stand. -/
theorem Stored.mem_indices_iff (stored : g.Stored) (normalized : g.isNormalized = true)
    {hs : HandleSet} : j ∈ g.indices hs ↔ ∃ v ∈ hs, g.order[j]? = some v := by
  rw [mem_indices]
  refine ⟨?_, ?_⟩
  · rintro ⟨v, member, n, found, rfl⟩
    exact ⟨v, member, stored.order_index normalized found⟩
  · rintro ⟨v, member, at_⟩
    obtain ⟨n, found⟩ := (stored.listed v).1 (List.mem_of_getElem? at_)
    refine ⟨v, member, n, found, isNormalized_iff.1 normalized j n ?_⟩
    rw [stored.getElem?_nodes, at_, Option.bind_some, found]

/-- A side of the nodes shows a position at another one if the node there records its handle. -/
theorem Stored.exists_mem_row (stored : g.Stored) (normalized : g.isNormalized = true)
    (side : Node → HandleSet) :
    (∃ row ∈ (g.nodes.map fun n => g.indices (side n))[i]?, j ∈ row) ↔
      ∃ u v, g.order[i]? = some u ∧ g.order[j]? = some v ∧ g.Records side u v := by
  rw [List.getElem?_map, stored.getElem?_nodes]
  refine ⟨?_, ?_⟩
  · rintro ⟨row, found, member⟩
    obtain ⟨n, node, rfl⟩ := Option.map_eq_some_iff.1 found
    obtain ⟨u, at_, live⟩ := Option.bind_eq_some_iff.1 node
    obtain ⟨v, onSide, at_'⟩ := (stored.mem_indices_iff normalized).1 member
    exact ⟨u, v, at_, at_', n, live, onSide⟩
  · rintro ⟨u, v, at_, at_', n, live, onSide⟩
    refine ⟨g.indices (side n), ?_, (stored.mem_indices_iff normalized).2 ⟨v, onSide, at_'⟩⟩
    rw [at_, Option.bind_some, live, Option.map_some]
    exact rfl

/-- A handle is on one of the sides of a node if an edge joins them, either way. -/
theorem IsConsistent.records_union (consistent : g.IsConsistent) {u v : Handle} :
    g.Records (fun n => n.targets.union n.sources) u v ↔ g.Edge u v ∨ g.Edge v u := by
  rw [consistent v u]
  refine ⟨?_, ?_⟩
  · rintro ⟨n, live, member⟩
    exact (HandleSet.mem_union.1 member).imp (fun target => ⟨n, live, target⟩)
      fun source => ⟨n, live, source⟩
  · rintro (⟨n, live, target⟩ | ⟨n, live, source⟩)
    · exact ⟨n, live, HandleSet.mem_union.2 (.inl target)⟩
    · exact ⟨n, live, HandleSet.mem_union.2 (.inr source)⟩

/-- Two positions are adjacent if an edge joins their nodes, either way. -/
theorem Stored.exists_mem_adjacency (stored : g.Stored) (consistent : g.IsConsistent)
    (normalized : g.isNormalized = true) : (∃ row ∈ (g.adjacency false)[i]?, j ∈ row) ↔
      ∃ u v, g.order[i]? = some u ∧ g.order[j]? = some v ∧ (g.Edge u v ∨ g.Edge v u) := by
  simp only [← consistent.records_union]
  exact stored.exists_mem_row normalized fun n => n.targets.union n.sources

/-- So it is where what is missing counts as an empty row. -/
theorem Topological.mem_adjacency (top : g.Topological) (normalized : g.isNormalized = true) :
    j ∈ (g.adjacency false).getD i [] ↔ ∃ u v, g.order[i]? = some u ∧ g.order[j]? = some v ∧
      (g.Edge u v ∨ g.Edge v u) := by
  rw [← top.exists_mem_adjacency top.consistent normalized, List.getD_eq_getElem?_getD]
  cases (g.adjacency false)[i]? with
  | none => exact ⟨fun member => (nomatch member), fun ⟨_, found, _⟩ => (nomatch found)⟩
  | some row => exact ⟨fun member => ⟨row, rfl, member⟩, fun ⟨_, same, member⟩ =>
      Option.some.inj same ▸ member⟩

/-- A topological graph, whose indices are the positions, can be shown to a solver. -/
theorem Topological.exists_ofGraph (top : g.Topological) (normalized : g.isNormalized = true)
    (some_ : 1 ≤ s.devices) : ∃ r, PartitionRequest.ofGraph g s = .ok r ∧ r.WellFormed ∧
      r.size = g.size ∧ ∀ i j, r.Adjacent i j ↔ ∃ u v, g.order[i]? = some u ∧
        g.order[j]? = some v ∧ (g.Edge u v ∨ g.Edge v u) := by
  have picture : ∀ i j, j ∈ (g.adjacency false).getD i [] ↔ ∃ u v, g.order[i]? = some u ∧
      g.order[j]? = some v ∧ (g.Edge u v ∨ g.Edge v u) := fun i j => top.mem_adjacency normalized
  have size : (g.nodes.map s.weights.nodeWeight).length = g.size := by
    rw [List.length_map, top.length_nodes]
  refine ⟨_, ofGraph_eq normalized some_,
    ⟨?_, fun row member j inRow => ?_, fun i j adjacent => ?_, some_⟩, size, picture⟩
  · rw [PartitionRequest.size, size, adjacency, List.length_map, top.length_nodes]
  · obtain ⟨i, at_⟩ := List.mem_iff_getElem?.1 member
    have inRow' : j ∈ (g.adjacency false).getD i [] := by
      rw [List.getD_eq_getElem?_getD, at_]
      exact inRow
    obtain ⟨_, _, _, at_', _⟩ := (picture i j).1 inRow'
    rw [PartitionRequest.size, size]
    exact (List.getElem?_eq_some_iff.1 at_').1
  · obtain ⟨u, v, at_, at_', edge⟩ := (picture i j).1 adjacent
    exact (picture j i).2 ⟨v, u, at_', at_, edge.symm⟩

/-! ## Splitting -/

/-- The sequential solver splits every topological graph whose indices are the positions: its
answer is valid and ascends along the edges, and it has parts exactly if there are nodes. -/
theorem Topological.exists_split (top : g.Topological) (normalized : g.isNormalized = true)
    (some_ : 1 ≤ s.devices) : ∃ split, g.split s Sequential.split = .ok split ∧
      g.Ascends split.answer ∧ (split.answer.count = 0 ↔ g.isEmpty = true) := by
  obtain ⟨r, asked, wf, size, picture⟩ := top.exists_ofGraph normalized some_
  have answered := Sequential.split_of_answerable wf.answerable
  have cut := Sequential.length_runs r
  have valid := Sequential.valid_compact_repairRuns wf.answerable cut fun _ =>
    Sequential.lt_of_mem_runs wf.answerable
  have ascending := Sequential.compact_ascending (Sequential.repairRuns_ascending wf cut
    (Sequential.runs_pairwise (Sequential.effectiveWeights r.weights) r.parts))
  generalize Sequential.runs (Sequential.effectiveWeights r.weights) r.parts = runs
    at answered cut valid ascending
  have length : (Sequential.repairRuns r runs).length = g.size :=
    (Sequential.length_repairRuns r runs).trans (cut.trans size)
  have empty : (Sequential.compact (Sequential.repairRuns r runs)).count = 0 ↔ g.size = 0 := by
    rw [Sequential.count_compact_eq_zero, ← length, List.length_eq_zero_iff]
  obtain ⟨loads, added⟩ := Partitioning.exists_loads valid.counted r.weights
  refine ⟨⟨r, Sequential.compact (Sequential.repairRuns r runs), loads⟩,
    split_eq_ok asked answered valid added,
    ⟨normalized, (Sequential.length_compact _).trans length, valid.counted, ?_⟩, ?_⟩
  · intro i j u v a b at_ at_' edge partU partV
    have lt : i < j := top.lt_of_edge edge at_ at_'
    have neighbour : r.Adjacent i j := (picture i j).2 ⟨u, v, at_, at_', .inl edge⟩
    exact ascending i j a b lt neighbour partU partV
  · rw [empty, isEmpty, List.isEmpty_iff, Graph.size, List.length_eq_zero_iff]

end Graph

end StagePlan
