import StagePlan.Proofs.Sequential.Answers

/-!
# Parts ascend along neighbours

Indices follow the order of a trace, so an edge leads from the smaller index to the larger one. The
sequential solver never puts a node into an earlier part than a neighbour with a smaller index
(`split_ascending`). The runs ascend with the index (`runs_pairwise`); a component that moves goes
no further back than its latest predecessor and, if it has none, no further on than its earliest
successor (`Moves.ascending`); and the numbering of the parts in use keeps their order.
-/

namespace StagePlan.Sequential

/-- Of two neighbours, the one with the smaller index lies in no later part. -/
def Ascending (next : Nat → List Nat) (part? : Nat → Option Nat) : Prop :=
  ∀ u v p q, u < v → v ∈ next u → part? u = some p → part? v = some q → p ≤ q

/-! ## Runs -/

/-- A node whose weight begins where that of another one has ended is in no earlier run. -/
theorem run_le_run (total k : Nat) {before before' w : Nat} (w' : Nat) (le : before + w ≤ before') :
    run total k before w ≤ run total k before' w' := by
  have middles : doubledMiddle before w ≤ doubledMiddle before' w' := by
    unfold doubledMiddle
    omega
  have slices : doubledMiddle before w * k / (2 * total) ≤
      doubledMiddle before' w' * k / (2 * total) :=
    Nat.div_le_div_right (Nat.mul_le_mul_right k middles)
  exact Nat.le_min.2 ⟨Nat.le_trans (Nat.min_le_left _ _) slices, Nat.min_le_right _ _⟩

/-- All runs of later nodes are no earlier than that of a node before them. -/
theorem run_le_of_mem_runsFrom (total k : Nat) {before w : Nat} :
    ∀ {before' : Nat} {weights : List Nat} {p : Nat}, before + w ≤ before' →
      p ∈ runsFrom total k before' weights → run total k before w ≤ p
  | before', w' :: ws, p, le, hp => by
    rcases List.mem_cons.1 hp with rfl | hp
    · exact run_le_run total k w' le
    · exact run_le_of_mem_runsFrom total k (Nat.le_trans le (Nat.le_add_right before' w')) hp

/-- The runs from some node on ascend with the index. -/
theorem runsFrom_pairwise (total k : Nat) :
    ∀ (before : Nat) (weights : List Nat), (runsFrom total k before weights).Pairwise (· ≤ ·)
  | _, [] => .nil
  | before, w :: ws =>
    .cons (fun _ hp => run_le_of_mem_runsFrom total k (Nat.le_refl (before + w)) hp)
      (runsFrom_pairwise total k (before + w) ws)

/-- The runs ascend with the index. -/
theorem runs_pairwise (weights : List Nat) (k : Nat) : (runs weights k).Pairwise (· ≤ ·) :=
  runsFrom_pairwise weights.sum k 0 weights

/-- Where parts ascend with the index, a node is in no later part than those that come after it. -/
theorem le_of_getElem? {parts : List Nat} (sorted : parts.Pairwise (· ≤ ·)) {u v p q : Nat}
    (le : u ≤ v) (hp : parts[u]? = some p) (hq : parts[v]? = some q) : p ≤ q := by
  obtain ⟨ltu, rfl⟩ := List.getElem?_eq_some_iff.1 hp
  obtain ⟨ltv, rfl⟩ := List.getElem?_eq_some_iff.1 hq
  rcases Nat.eq_or_lt_of_le le with rfl | lt
  · exact Nat.le_refl _
  · exact List.pairwise_iff_getElem.1 sorted u v ltu ltv lt

/-- Parts that ascend with the index ascend along neighbours. -/
theorem ascending_of_pairwise (next : Nat → List Nat) {parts : List Nat}
    (sorted : parts.Pairwise (· ≤ ·)) : Ascending next (parts[·]?) :=
  fun _ _ _ _ lt _ hp hq => le_of_getElem? sorted (Nat.le_of_lt lt) hp hq

/-! ## Moves -/

section

variable {next : Nat → List Nat} {parts moved : Array Nat} {part n t : Nat} {c : List Nat}

/-- A component that moves keeps the parts ascending. -/
theorem Moves.ascending (undirected : Undirected next n) (piece : IsPiece next parts part c)
    (moves : Moves next parts part c t moved) (ascending : Ascending next (parts[·]?)) :
    Ascending next (moved[·]?) := by
  -- a neighbour that stays lies in another part, since the component has all neighbours in its own
  have other : ∀ v ∈ c, ∀ u ∈ next v, u ∉ c → ∀ q, parts[u]? = some q → q ≠ part := by
    rintro v hv u hu stays q inPart rfl
    exact stays (piece.closed v hv u hu inPart)
  intro u v p q lt neighbour hp hq
  have neighbour' := undirected.symm u v neighbour
  by_cases inU : u ∈ c
  · by_cases inV : v ∈ c
    · cases (moves.here u inU).symm.trans hp
      cases (moves.here v inV).symm.trans hq
      exact Nat.le_refl t
    · cases (moves.here u inU).symm.trans hp
      have hq := (moves.elsewhere v inV).symm.trans hq
      have away := other u inU v neighbour inV q hq
      rcases moves.choice with ⟨⟨x, hx, y, hy, before, inPart⟩, -⟩ | ⟨-, earliest⟩
      · have back : t ≤ part := ascending y x t part before (undirected.symm x y hy) inPart
          (piece.inside x hx)
        exact Nat.le_trans back (ascending u v part q lt neighbour (piece.inside u inU) hq)
      · exact (earliest u inU v neighbour q hq away).2
  · have hp := (moves.elsewhere u inU).symm.trans hp
    by_cases inV : v ∈ c
    · cases (moves.here v inV).symm.trans hq
      have away := other v inV u neighbour' inU p hp
      rcases moves.choice with ⟨-, latest⟩ | ⟨-, earliest⟩
      · exact latest v inV u neighbour' lt p hp away
      · exact absurd (earliest v inV u neighbour' p hp away).1 (Nat.lt_asymm lt)
    · exact ascending u v p q lt neighbour hp ((moves.elsewhere v inV).symm.trans hq)

/-- The repair keeps the parts ascending. -/
theorem repair_ascending (undirected : Undirected next n) (weight : Nat → Nat)
    (size : parts.size = n) (ascending : Ascending next (parts[·]?)) :
    Ascending next ((repair next weight parts)[·]?) := by
  refine repair_induction (motive := fun parts => Ascending next (parts[·]?))
    (fun part parts c size piece ascending => ?_) undirected weight size ascending
  rcases move_cases (size ▸ undirected) piece with ⟨stays, -⟩ | ⟨t, moves⟩
  · rwa [stays]
  · exact moves.ascending undirected piece ascending

end

/-! ## Answers -/

variable {r : PartitionRequest}

/-- Runs that ascend with the index are repaired to parts that ascend along neighbours. -/
theorem repairRuns_ascending (wf : r.WellFormed) {runs : List Nat} (length : runs.length = r.size)
    (sorted : runs.Pairwise (· ≤ ·)) : Ascending r.next ((repairRuns r runs)[·]?) := by
  rw [repairRuns_eq]
  split
  · have size : runs.toArray.size = r.size := by rw [List.size_toArray, length]
    have repaired := repair_ascending wf.undirected ((effectiveWeights r.weights).getD · 0) size
      (by simpa using ascending_of_pairwise r.next sorted)
    simpa using repaired
  · exact ascending_of_pairwise r.next sorted

/-- The parts in use are numbered in their order. -/
theorem compact_ascending {next : Nat → List Nat} {parts : List Nat}
    (ascending : Ascending next (parts[·]?)) : Ascending next ((compact parts).parts[·]?) := by
  intro u v p q lt neighbour hp hq
  simp only [getElem?_compact, Option.map_eq_some_iff] at hp hq
  obtain ⟨p, hp, rfl⟩ := hp
  obtain ⟨q, hq, rfl⟩ := hq
  exact rank_mono (ascending u v p q lt neighbour hp hq)

/-- On every well-formed request the solver answers with a part for every node, and of two
neighbours the one with the smaller index lies in no later part. -/
theorem split_ascending (r : PartitionRequest) (wf : r.WellFormed) :
    ∃ answer, split r = .ok answer ∧ answer.parts.length = r.size ∧
      ∀ u v, u < v → r.Adjacent u v →
        ∃ p q, answer.parts[u]? = some p ∧ answer.parts[v]? = some q ∧ p ≤ q := by
  have ascending := compact_ascending
    (repairRuns_ascending wf (length_runs r) (runs_pairwise (effectiveWeights r.weights) r.parts))
  have length : (compact (repairRuns r (runs (effectiveWeights r.weights) r.parts))).parts.length
      = r.size := by
    rw [length_compact, length_repairRuns, length_runs]
  refine ⟨_, split_of_answerable wf.answerable, length, fun u v lt neighbour => ?_⟩
  have hu := List.getElem?_eq_getElem (length ▸ wf.undirected.lt v u (wf.symmetric u v neighbour))
  have hv := List.getElem?_eq_getElem (length ▸ wf.undirected.lt u v neighbour)
  exact ⟨_, _, hu, hv, ascending u v _ _ lt neighbour hu hv⟩

/-- Two branches of unequal weight that start at one node: the second part falls apart, and its
lighter branch moves back. -/
def forkedRequest : PartitionRequest where
  adjacency := [[1, 2], [0, 3], [0, 4], [1], [2]]
  weights := [10, 10, 1, 10, 1]
  parts := 2
  contiguous := true

/-- The parts of the answer ascend along the edges, although the repair has moved a branch. -/
theorem forkedRequest_ascending :
    forkedRequest.WellFormed ∧ ∃ answer, split forkedRequest = .ok answer ∧
      answer.parts.length = forkedRequest.size ∧
        ∀ u v, u < v → forkedRequest.Adjacent u v →
          ∃ p q, answer.parts[u]? = some p ∧ answer.parts[v]? = some q ∧ p ≤ q :=
  ⟨by decide, split_ascending forkedRequest (by decide)⟩

end StagePlan.Sequential
