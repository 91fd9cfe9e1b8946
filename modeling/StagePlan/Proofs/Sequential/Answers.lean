import Mathlib.Data.List.Nodup
import StagePlan.Proofs.Sequential.InUse

/-!
# Answers of the sequential solver

A request is `Answerable` if it has a row of neighbours for every node, neighbours are nodes, and
some part is wanted if there are nodes. However the nodes of such a request are cut into runs, it is
answered with these runs, repaired if parts have to be connected, and with the parts in use numbered
from zero (`splitBy_of_answerable`). The numbering is by `rank`, the number of parts in use before a
part, so it keeps the order of the parts and tells parts in use apart (`rank_lt_rank`,
`rank_injOn`), and leaves no number out (`exists_rank_eq`). A request is `WellFormed` if neighbours
are neighbours of each other as well, and at least one part is wanted.
-/

namespace StagePlan

namespace PartitionRequest

/-- The neighbours of a node. -/
def next (r : PartitionRequest) (v : Nat) : List Nat := r.adjacency.getD v []

/-- The second node is a neighbour of the first. -/
def Adjacent (r : PartitionRequest) (u v : Nat) : Prop := v ∈ r.next u

instance (r : PartitionRequest) (u v : Nat) : Decidable (r.Adjacent u v) :=
  inferInstanceAs (Decidable (v ∈ r.next u))

/-- A request with a picture of a graph, which wants some part if there are nodes: it has a row of
neighbours for every weight, and neighbours are nodes. -/
structure Answerable (r : PartitionRequest) : Prop where
  rows : r.adjacency.length = r.size
  inRange : ∀ row ∈ r.adjacency, ∀ u ∈ row, u < r.size
  wanted : r.size ≠ 0 → 0 < r.parts

/-- A request with an undirected picture of a graph, which wants some part: it has a row of
neighbours for every weight, and neighbours are nodes and so both ways. -/
structure WellFormed (r : PartitionRequest) : Prop where
  rows : r.adjacency.length = r.size
  inRange : ∀ row ∈ r.adjacency, ∀ u ∈ row, u < r.size
  symmetric : ∀ u v, r.Adjacent u v → r.Adjacent v u
  wanted : 0 < r.parts

variable {r : PartitionRequest}

/-- A neighbour stands in the row of its node. -/
theorem Adjacent.mem_row {u v : Nat} (h : r.Adjacent u v) :
    ∃ row ∈ r.adjacency, r.adjacency[u]? = some row ∧ v ∈ row := by
  unfold Adjacent next at h
  rw [List.getD_eq_getElem?_getD] at h
  cases found : r.adjacency[u]? with
  | none => rw [found] at h; cases h
  | some row => exact ⟨row, List.mem_of_getElem? found, rfl, by rwa [found] at h⟩

/-- Whether a request is well-formed shows in its rows. -/
theorem wellFormed_iff : r.WellFormed ↔ r.adjacency.length = r.size ∧
    (∀ row ∈ r.adjacency, ∀ u ∈ row, u < r.size) ∧
      (∀ u < r.size, ∀ v ∈ r.next u, r.Adjacent v u) ∧ 0 < r.parts := by
  refine ⟨?_, ?_⟩
  · rintro ⟨rows, inRange, symmetric, wanted⟩
    exact ⟨rows, inRange, fun u _ v hv => symmetric u v hv, wanted⟩
  · rintro ⟨rows, inRange, symmetric, wanted⟩
    refine ⟨rows, inRange, fun u v h => symmetric u ?_ v h, wanted⟩
    obtain ⟨row, -, found, -⟩ := h.mem_row
    exact rows ▸ (List.getElem?_eq_some_iff.1 found).1

instance (r : PartitionRequest) : Decidable r.WellFormed := decidable_of_iff' _ wellFormed_iff

/-- A well-formed request can be answered. -/
theorem WellFormed.answerable (wf : r.WellFormed) : r.Answerable :=
  ⟨wf.rows, wf.inRange, fun _ => wf.wanted⟩

/-- The neighbours in a request that can be answered are nodes. -/
theorem Answerable.next_lt (answerable : r.Answerable) (v u : Nat) (hu : u ∈ r.next v) :
    u < r.size := by
  obtain ⟨row, hrow, -, inRow⟩ := Adjacent.mem_row (r := r) (u := v) (v := u) hu
  exact answerable.inRange row hrow u inRow

/-- The neighbours of a well-formed request are those of an undirected graph. -/
theorem WellFormed.undirected (wf : r.WellFormed) : Sequential.Undirected r.next r.size where
  lt := wf.answerable.next_lt
  symm v u hu := wf.symmetric v u hu

end PartitionRequest

namespace Sequential

/-! ## Numbering the parts in use -/

/-- The number of parts in use before a part. -/
def rank (parts : List Nat) (p : Nat) : Nat :=
  ((HandleSet.ofList parts).toList.filter (· < p)).length

section

variable {parts : List Nat} {p q : Nat}

/-- A node comes into the part whose number is the rank of its part. -/
theorem getElem?_compact (parts : List Nat) (v : Nat) :
    (compact parts).parts[v]? = parts[v]?.map (rank parts) := by
  simp only [compact, List.getElem?_map]
  rfl

/-- Numbering parts anew keeps a part for every node. -/
theorem length_compact (parts : List Nat) : (compact parts).parts.length = parts.length := by
  simp [compact]

/-- Later parts have no smaller numbers. -/
theorem rank_mono (le : p ≤ q) : rank parts p ≤ rank parts q := by
  rw [rank, rank, ← List.countP_eq_length_filter, ← List.countP_eq_length_filter]
  refine List.countP_mono_left fun a _ before => ?_
  simp only [decide_eq_true_eq] at before ⊢
  omega

/-- A part after one in use has a larger number. -/
theorem rank_lt_rank (used : p ∈ parts) (lt : p < q) : rank parts p < rank parts q := by
  have split : (HandleSet.ofList parts).toList.filter (· < p)
      = ((HandleSet.ofList parts).toList.filter (· < q)).filter (· < p) := by
    rw [List.filter_filter]
    refine List.filter_congr fun a _ => ?_
    rw [← Bool.decide_and]
    exact decide_eq_decide.2 ⟨fun before => ⟨before, Nat.lt_trans before lt⟩, And.left⟩
  rw [rank, split, rank]
  have inUse : p ∈ (HandleSet.ofList parts).toList := HandleSet.mem_ofList.2 used
  exact List.length_filter_lt_length_iff_exists.2
    ⟨p, List.mem_filter.2 ⟨inUse, by simpa using lt⟩, by simp⟩

/-- Parts in use have different numbers. -/
theorem rank_injOn (used : p ∈ parts) (used' : q ∈ parts) (same : rank parts p = rank parts q) :
    p = q := by
  rcases Nat.lt_trichotomy p q with lt | rfl | gt
  · exact absurd same (Nat.ne_of_lt (rank_lt_rank used lt))
  · rfl
  · exact absurd same (Nat.ne_of_gt (rank_lt_rank used' gt))

/-- The numbers of parts in use are below their number. -/
theorem rank_lt_count (used : p ∈ parts) : rank parts p < (compact parts).count := by
  have inUse : p ∈ (HandleSet.ofList parts).toList := HandleSet.mem_ofList.2 used
  exact List.length_filter_lt_length_iff_exists.2 ⟨p, inUse, by simp⟩

/-- So the parts of an answer are counted. -/
theorem lt_of_mem_compact (member : p ∈ (compact parts).parts) : p < (compact parts).count := by
  obtain ⟨q, used, rfl⟩ := List.mem_map.1 member
  exact rank_lt_count used

/-- Every number below the number of parts in use is the rank of one of them. -/
theorem exists_rank_eq {i : Nat} (lt : i < (compact parts).count) :
    ∃ p ∈ parts, rank parts p = i := by
  have used : ∀ {p}, p ∈ (HandleSet.ofList parts).toList → p ∈ parts := HandleSet.mem_ofList.1
  have distinct : ((HandleSet.ofList parts).toList.map (rank parts)).Nodup :=
    (HandleSet.nodup_toList _).map_on fun p hp q hq same => rank_injOn (used hp) (used hq) same
  have below : (HandleSet.ofList parts).toList.map (rank parts)
      ⊆ List.range (compact parts).count := by
    intro i hi
    obtain ⟨p, hp, rfl⟩ := List.mem_map.1 hi
    exact List.mem_range.2 (rank_lt_count (used hp))
  -- distinct numbers below a bound that are as many as the bound are all of them
  have perm : ((HandleSet.ofList parts).toList.map (rank parts)).Perm
      (List.range (compact parts).count) := by
    refine (List.subperm_of_subset distinct below).perm_of_length_le ?_
    rw [List.length_range, List.length_map]
    exact Nat.le_refl _
  obtain ⟨p, hp, same⟩ := List.mem_map.1 (perm.mem_iff.2 (List.mem_range.2 lt))
  exact ⟨p, used hp, same⟩

/-- All parts of an answer are used. -/
theorem mem_compact_of_lt (lt : p < (compact parts).count) : p ∈ (compact parts).parts := by
  obtain ⟨q, used, rfl⟩ := exists_rank_eq lt
  exact List.mem_map.2 ⟨q, used, rfl⟩

/-- There are no more parts than nodes. -/
theorem count_compact_le_length : (compact parts).count ≤ parts.length :=
  (HandleSet.nodup_toList _).length_le_of_subset fun _ => HandleSet.mem_ofList.1

/-- Parts in use that are told apart are all counted. -/
theorem length_le_count_compact {ps : List Nat} (distinct : ps.Nodup) (used : ps ⊆ parts) :
    ps.length ≤ (compact parts).count :=
  distinct.length_le_of_subset fun _ hp => HandleSet.mem_ofList.2 (used hp)

/-- A part of an answer has as many nodes as the part that it is the number of. -/
theorem count_rank (used : p ∈ parts) :
    (compact parts).parts.count (rank parts p) = parts.count p := by
  show (parts.map (rank parts)).count (rank parts p) = _
  rw [List.count_eq_countP, List.countP_map, List.count_eq_countP]
  refine List.countP_congr fun q used' => ?_
  simp only [Function.comp_apply, beq_iff_eq]
  exact ⟨rank_injOn used' used, congrArg (rank parts)⟩

/-- How many parts there are depends only on which of them are in use. -/
theorem count_compact_congr {parts' : List Nat} (same : ∀ p, p ∈ parts ↔ p ∈ parts') :
    (compact parts).count = (compact parts').count := by
  have used : HandleSet.ofList parts = HandleSet.ofList parts' := by
    ext p
    rw [HandleSet.mem_ofList, HandleSet.mem_ofList, same]
  exact congrArg HandleSet.size used

/-- There are no more parts than a bound on them allows. -/
theorem count_compact_le {k : Nat} (bound : ∀ p ∈ parts, p < k) : (compact parts).count ≤ k := by
  have sub : (HandleSet.ofList parts).toList ⊆ List.range k := fun p hp =>
    List.mem_range.2 (bound p (HandleSet.mem_ofList.1 hp))
  have short := (HandleSet.nodup_toList _).length_le_of_subset sub
  rwa [List.length_range] at short

/-- There is no part only where there is no node. -/
theorem count_compact_eq_zero : (compact parts).count = 0 ↔ parts = [] := by
  cases parts with
  | nil => exact ⟨fun _ => rfl, fun _ => rfl⟩
  | cons p parts =>
    have used : rank (p :: parts) p < (compact (p :: parts)).count :=
      rank_lt_count List.mem_cons_self
    exact ⟨fun none_ => by omega, fun h => nomatch h⟩

end

/-! ## Assigning parts -/

@[simp] theorem length_runsFrom (total k : Nat) :
    ∀ (before : Nat) (weights : List Nat), (runsFrom total k before weights).length = weights.length
  | _, [] => rfl
  | before, w :: ws => congrArg (· + 1) (length_runsFrom total k (before + w) ws)

@[simp] theorem length_effectiveWeights (weights : List Nat) :
    (effectiveWeights weights).length = weights.length := by
  unfold effectiveWeights
  split <;> simp

/-- Some node has an effective weight. -/
theorem exists_effectiveWeights_pos {weights : List Nat} (some_ : weights ≠ []) :
    ∃ w ∈ effectiveWeights weights, 0 < w := by
  unfold effectiveWeights
  split
  next =>
    obtain ⟨w, rest, rfl⟩ := List.exists_cons_of_ne_nil some_
    exact ⟨1, List.mem_cons_self, Nat.one_pos⟩
  next weighs =>
    simp only [List.all_eq_true, beq_iff_eq, not_forall] at weighs
    obtain ⟨w, member, pos⟩ := weighs
    exact ⟨w, member, Nat.pos_of_ne_zero pos⟩

/-- Each of at least one run is below their number. -/
theorem lt_of_mem_runsFrom {total k : Nat} (pos : 0 < k) :
    ∀ {before : Nat} {weights : List Nat} {p : Nat}, p ∈ runsFrom total k before weights → p < k
  | _, w :: ws, p, hp => by
    rcases List.mem_cons.1 hp with rfl | hp
    · exact Nat.lt_of_le_of_lt (Nat.min_le_right _ _) (Nat.sub_lt pos Nat.one_pos)
    · exact lt_of_mem_runsFrom pos hp

/-- Runs are repaired if parts have to be connected. -/
theorem repairRuns_eq (r : PartitionRequest) (runs : List Nat) :
    repairRuns r runs = if r.contiguous then
        (repair r.next ((effectiveWeights r.weights).getD · 0) runs.toArray).toList
      else runs := by
  have sameRows : (r.adjacency.toArray.getD · []) = r.next := by
    funext v
    simp [PartitionRequest.next, Array.getD_eq_getD_getElem?]
  have sameWeights : ((effectiveWeights r.weights).toArray.getD · 0)
      = ((effectiveWeights r.weights).getD · 0) := by
    funext v
    simp [Array.getD_eq_getD_getElem?]
  rw [← sameRows, ← sameWeights]
  rfl

/-- Runs stay as they are where parts need not be connected. -/
theorem repairRuns_of_loose {r : PartitionRequest} (loose : r.contiguous = false) (runs : List Nat) :
    repairRuns r runs = runs := by
  rw [repairRuns_eq, loose]
  rfl

/-- The repair keeps a part for every node. -/
theorem length_repairRuns (r : PartitionRequest) (runs : List Nat) :
    (repairRuns r runs).length = runs.length := by
  rw [repairRuns_eq]
  split <;> simp

variable {r : PartitionRequest}

/-- Whether parts have to be connected does not matter to which of them are in use. -/
theorem mem_repairRuns (answerable : r.Answerable) {runs : List Nat} (length : runs.length = r.size)
    {p : Nat} : p ∈ repairRuns r runs ↔ p ∈ runs := by
  have size : runs.toArray.size = r.size := by rw [List.size_toArray, length]
  rw [repairRuns_eq]
  split
  · rw [Array.mem_toList_iff, mem_repair (size ▸ answerable.next_lt), List.mem_toArray]
  · rfl

/-- The repaired runs of a request make as many parts as its runs. -/
theorem count_compact_repairRuns (answerable : r.Answerable) {runs : List Nat}
    (length : runs.length = r.size) : (compact (repairRuns r runs)).count = (compact runs).count :=
  count_compact_congr fun _ => mem_repairRuns answerable length

/-! ## Answering -/

/-- A request is refused exactly if it is not answerable. -/
theorem refusal?_eq_none : refusal? r = none ↔ r.Answerable := by
  unfold refusal?
  split
  next wrong => exact ⟨fun none_ => (nomatch none_), fun answerable => absurd answerable.rows wrong⟩
  next rows =>
    split
    next u found =>
      refine ⟨fun none_ => (nomatch none_), fun answerable => ?_⟩
      obtain ⟨row, hrow, inRow⟩ := List.mem_flatten.1 (List.mem_of_find?_eq_some found)
      have high : r.size ≤ u := by simpa using List.find?_some found
      exact absurd (answerable.inRange row hrow u inRow) (Nat.not_lt.2 high)
    next noFault =>
      have inRange : ∀ row ∈ r.adjacency, ∀ u ∈ row, u < r.size := by
        intro row hrow u hu
        have low := List.find?_eq_none.1 noFault u (List.mem_flatten.2 ⟨row, hrow, hu⟩)
        simpa using low
      split
      next unwanted =>
        refine ⟨fun none_ => (nomatch none_), fun answerable => ?_⟩
        exact absurd unwanted.2 (Nat.ne_of_gt (answerable.wanted unwanted.1))
      next wanted =>
        refine ⟨fun _ => ⟨not_not.1 rows, inRange, fun some_ => ?_⟩, fun _ => rfl⟩
        exact Nat.pos_of_ne_zero fun none_ => wanted ⟨some_, none_⟩

/-- However its nodes are cut into runs, an answerable request is answered with the repaired runs. -/
theorem splitBy_of_answerable {m : Type → Type} [Monad m] (cut : List Nat → Nat → m (List Nat))
    (answerable : r.Answerable) : splitBy cut r =
      (do return .ok (compact (repairRuns r (← cut (effectiveWeights r.weights) r.parts)))) := by
  rw [splitBy, refusal?_eq_none.2 answerable]

/-- However its nodes would be cut into runs, any other request is refused for the same reason. -/
theorem splitBy_of_not_answerable (refused : ¬ r.Answerable) :
    ∃ e, ∀ {m : Type → Type} [Monad m] (cut : List Nat → Nat → m (List Nat)),
      splitBy cut r = pure (.error e) := by
  obtain ⟨cause, found⟩ := Option.ne_none_iff_exists'.1 (mt refusal?_eq_none.1 refused)
  refine ⟨.partitioning cause, fun cut => ?_⟩
  rw [splitBy, found]

/-- Every run is one of `k` slices of the sum of all weights. -/
theorem runs_eq (weights : List Nat) (k : Nat) :
    runs weights k = runsFrom weights.sum k 0 weights :=
  rfl

/-- Every node lies in a run. -/
theorem length_runs (r : PartitionRequest) :
    (runs (effectiveWeights r.weights) r.parts).length = r.size := by
  simp [runs, PartitionRequest.size]

/-- The solver with exact numbers answers with the exact runs. -/
theorem split_of_answerable (answerable : r.Answerable) :
    split r = .ok (compact (repairRuns r (runs (effectiveWeights r.weights) r.parts))) :=
  splitBy_of_answerable (m := Id) runs answerable

end Sequential

end StagePlan
