import Mathlib.Order.Interval.Finset.Nat
import Mathlib.Tactic.Linarith
import StagePlan.Proofs.Sequential.Acceptance
import StagePlan.Proofs.Sequential.Scaling

/-!
# Nodes of equal weight are shared out evenly

If `n` nodes of equal weight are cut into `k` slices, every slice has the nodes from its first one
(`firstOf`) up to the first one of the next slice (`count_runs`). Their number is less than one away
from `n / k` (`share_bounds`). So no two slices differ by more than one node (`count_runs_le`), no slice
is empty if there are nodes enough, and none has two nodes if there are too few
(`count_compact_runs`). `Wide.split?_even` states both of the answer in wide words. The nodes weigh one
each, for it does not matter what all of them weigh (`runs_scale`), and where nothing was measured they
count the same.
-/

namespace StagePlan.Sequential

section

variable {n k i p : Nat}

/-! ## Slices of nodes -/

/-- The first node whose middle does not lie before the slice `p`, if `n` nodes of equal weight are
cut into `k` slices. -/
def firstOf (n k p : Nat) : Nat := (2 * n * p + k - 1) / (2 * k)

/-- A node comes no earlier than the first one of a slice just if its middle does not lie before the
slice. -/
theorem firstOf_le_iff (pos : 0 < k) : firstOf n k p ≤ i ↔ 2 * n * p ≤ (2 * i + 1) * k := by
  have spread : (i + 1) * (2 * k) = (2 * i + 1) * k + k := by ring
  rw [firstOf, ← Nat.lt_succ_iff, Nat.div_lt_iff_lt_mul (Nat.mul_pos Nat.two_pos pos), spread]
  omega

/-- The nodes of a slice are consecutive. -/
theorem run_one_eq_iff (pos : 0 < k) (lt : i < n) :
    run n k i 1 = p ↔ firstOf n k p ≤ i ∧ i < firstOf n k (p + 1) := by
  have inside : (2 * i + 1) * k / (2 * n) < k :=
    Nat.div_lt_of_lt_mul (Nat.mul_lt_mul_of_pos_right (by omega) pos)
  have slice : run n k i 1 = (2 * i + 1) * k / (2 * n) := by
    unfold run doubledMiddle
    omega
  rw [slice, ← Nat.not_le, firstOf_le_iff pos, firstOf_le_iff pos, Nat.not_le,
    Nat.div_eq_iff (by omega), Nat.mul_comm p, Nat.mul_succ]
  omega

/-- The slices before the last one end with the nodes at the latest. -/
theorem firstOf_le (pos : 0 < k) (le : p ≤ k) : firstOf n k p ≤ n := by
  rw [firstOf_le_iff pos]
  calc 2 * n * p ≤ 2 * n * k := Nat.mul_le_mul_left (2 * n) le
    _ ≤ (2 * n + 1) * k := Nat.mul_le_mul_right k (Nat.le_succ (2 * n))

/-- The middle of the first node of a slice does not lie before the slice, and that of the node before
it does. -/
theorem middle_firstOf (pos : 0 < k) (p : Nat) :
    2 * n * p ≤ (2 * firstOf n k p + 1) * k ∧ 2 * firstOf n k p * k < 2 * n * p + k := by
  refine ⟨(firstOf_le_iff pos).1 (Nat.le_refl _), ?_⟩
  have le : firstOf n k p * (2 * k) ≤ 2 * n * p + k - 1 := Nat.div_mul_le_self _ _
  have same : firstOf n k p * (2 * k) = 2 * firstOf n k p * k := by ring
  omega

/-- How many nodes a slice has is less than one away from the nodes per slice. -/
theorem share_bounds (pos : 0 < k) {share : Nat}
    (covers : firstOf n k p + share = firstOf n k (p + 1)) :
    k * share < n + k ∧ n < k * (share + 1) := by
  obtain ⟨start, before⟩ := middle_firstOf (n := n) pos p
  obtain ⟨stop, before'⟩ := middle_firstOf (n := n) pos (p + 1)
  rw [← covers] at stop before'
  constructor <;> linarith

/-! ## Counting the nodes of a slice -/

/-- The middle of a node that weighs one depends on its position only. -/
theorem runsFrom_ones (total k : Nat) : ∀ (before n : Nat),
    runsFrom total k before (List.replicate n 1)
      = (List.range' before n).map fun i => run total k i 1
  | _, 0 => rfl
  | before, n + 1 => by
    rw [List.replicate_succ, runsFrom, runsFrom_ones total k (before + 1) n]
    rfl

/-- Nodes of equal weight lie in the slices in which they would lie if each of them weighed one. -/
theorem runs_uniform {w : Nat} (pos : 0 < w) (n k : Nat) :
    runs (List.replicate n w) k = (List.range n).map fun i => run n k i 1 := by
  have scaled : List.replicate n w = (List.replicate n 1).map (w * ·) := by simp
  have whole : (List.replicate n 1).sum = n := List.sum_replicate_nat.trans (Nat.mul_one n)
  rw [scaled, runs_scale pos, runs_eq, whole, runsFrom_ones, List.range_eq_range']

/-- A slice has the nodes from its first one up to the first one of the next slice. -/
theorem count_runs {w : Nat} (weighs : 0 < w) (pos : 0 < k) (lt : p < k) :
    firstOf n k p + (runs (List.replicate n w) k).count p = firstOf n k (p + 1) := by
  have nodes : (Finset.range n).filter (fun i => run n k i 1 = p)
      = Finset.Ico (firstOf n k p) (firstOf n k (p + 1)) := by
    ext i
    rw [Finset.mem_filter, Finset.mem_range, Finset.mem_Ico]
    refine ⟨fun ⟨before, inside⟩ => (run_one_eq_iff pos before).1 inside, fun inside => ?_⟩
    have before : i < n := Nat.lt_of_lt_of_le inside.2 (firstOf_le pos lt)
    exact ⟨before, (run_one_eq_iff pos before).2 inside⟩
  have count : (runs (List.replicate n w) k).count p
      = ((Finset.range n).filter (fun i => run n k i 1 = p)).card := by
    rw [runs_uniform weighs, List.count_eq_countP, List.countP_map, List.countP_eq_length_filter]
    rfl
  have mono : firstOf n k p ≤ firstOf n k (p + 1) := by
    rw [firstOf_le_iff pos]
    exact Nat.le_trans (Nat.mul_le_mul_left (2 * n) (Nat.le_succ p)) (middle_firstOf pos (p + 1)).1
  rw [count, nodes, Nat.card_Ico]
  omega

/-- The nodes of two slices differ by one at most. -/
theorem count_runs_le {w q : Nat} (weighs : 0 < w) (pos : 0 < k) (lt : p < k) (lt' : q < k) :
    (runs (List.replicate n w) k).count p ≤ (runs (List.replicate n w) k).count q + 1 := by
  obtain ⟨few, -⟩ := share_bounds pos (count_runs (n := n) weighs pos lt)
  obtain ⟨-, many⟩ := share_bounds pos (count_runs (n := n) weighs pos lt')
  generalize (runs (List.replicate n w) k).count p = a at few
  generalize (runs (List.replicate n w) k).count q = b at many
  have close : k * a < k * (b + 2) := by linarith
  exact Nat.le_of_lt_succ (Nat.lt_of_mul_lt_mul_left close)

/-- As many slices have nodes as there are, or as there are nodes, if these are fewer. -/
theorem count_compact_runs {w : Nat} (weighs : 0 < w) (pos : 0 < k) :
    (compact (runs (List.replicate n w) k)).count = min n k := by
  have bounds (p : Nat) (lt : p < k) := share_bounds pos (count_runs (n := n) weighs pos lt)
  have below : ∀ p ∈ runs (List.replicate n w) k, p < k := fun _ => lt_of_mem_runsFrom pos
  have length : (runs (List.replicate n w) k).length = n := by simp [runs]
  refine Nat.le_antisymm (Nat.le_min.2 ⟨?_, count_compact_le below⟩) ?_
  · exact Nat.le_trans count_compact_le_length (Nat.le_of_eq length)
  rcases Nat.le_total n k with fewNodes | fewSlices
  -- no slice has two nodes, so there is one for each of them
  · have distinct : (runs (List.replicate n w) k).Nodup := by
      refine List.nodup_iff_count_le_one.2 fun p => ?_
      by_cases used : p ∈ runs (List.replicate n w) k
      · obtain ⟨few, -⟩ := bounds p (below p used)
        have single : k * (runs (List.replicate n w) k).count p < k * 2 := by omega
        exact Nat.le_of_lt_succ (Nat.lt_of_mul_lt_mul_left single)
      · rw [List.count_eq_zero.2 used]
        exact Nat.zero_le 1
    rw [Nat.min_eq_left fewNodes]
    exact Nat.le_trans (Nat.le_of_eq length.symm)
      (length_le_count_compact distinct (List.Subset.refl _))
  -- no slice is without nodes
  · have used : List.range k ⊆ runs (List.replicate n w) k := by
      intro p lt
      obtain ⟨-, many⟩ := bounds p (List.mem_range.1 lt)
      by_contra unused
      rw [List.count_eq_zero.2 unused] at many
      omega
    have all := length_le_count_compact List.nodup_range used
    rw [List.length_range] at all
    rwa [Nat.min_eq_right fewSlices]

end

/-! ## Answers -/

variable {r : PartitionRequest} {c : Nat}

/-- Nodes of equal weight have equal effective weights, which are not zero. -/
theorem effectiveWeights_uniform {weights : List Nat} (uniform : ∀ w ∈ weights, w = c) :
    effectiveWeights weights = List.replicate weights.length (max c 1) := by
  unfold effectiveWeights
  rcases Nat.eq_zero_or_pos c with rfl | weighs
  · have none_ : weights.all (· == 0) = true := List.all_eq_true.2 fun w member =>
      beq_iff_eq.2 (uniform w member)
    rw [if_pos none_, List.map_const', Nat.max_eq_right (Nat.zero_le 1)]
  · rw [Nat.max_eq_left weighs]
    split
    next none_ =>
      cases weights with
      | nil => rfl
      | cons w ws =>
        have zero : w = 0 := beq_iff_eq.1 (List.all_eq_true.1 none_ w List.mem_cons_self)
        have same : w = c := uniform w List.mem_cons_self
        omega
    next => exact List.eq_replicate_iff.2 ⟨rfl, uniform⟩

/-- A request with nodes of equal weight overflows exactly if the doubled total or the product of its
last node does. -/
theorem overflows_uniform (some_ : 0 < r.size) (uniform : ∀ w ∈ r.weights, w = c) :
    r.Overflows ↔ Wide.limit ≤ 2 * (r.size * max c 1) ∨
      Wide.limit ≤ (2 * r.size - 1) * max c 1 * r.parts := by
  have weighs : 0 < max c 1 := Nat.lt_of_lt_of_le Nat.one_pos (Nat.le_max_right c 1)
  have sum : (List.replicate r.size (max c 1)).sum = r.size * max c 1 := List.sum_replicate_nat
  have last : (List.replicate r.size (max c 1)).getLast? = some (max c 1) := by
    rw [List.getLast?_replicate, if_neg (Nat.ne_of_gt some_)]
  have total_pos : 0 < (List.replicate r.size (max c 1)).sum := sum ▸ Nat.mul_pos some_ weighs
  have middle : 2 * (r.size * max c 1) - max c 1 = (2 * r.size - 1) * max c 1 := by
    rw [Nat.sub_mul, Nat.mul_assoc, Nat.one_mul]
  rw [PartitionRequest.Overflows, effectiveWeights_uniform uniform, and_iff_right some_]
  show ¬ InRange (List.replicate r.size (max c 1)) r.parts ↔ _
  rw [inRange_iff total_pos last, sum, middle, not_and_or, Nat.not_lt, Nat.not_lt]

/-- A request that can be answered, and in which all of at least one node weigh the same, ends the
program exactly if the doubled total or the product of its last node exceeds a wide word. Otherwise it is
answered with as many parts as are wanted, or as there are nodes if these are fewer. All of the parts
have nodes, and where parts need not be connected, their numbers differ by one at most. -/
theorem Wide.split?_even (answerable : r.Answerable) (some_ : 0 < r.size)
    (uniform : ∀ w ∈ r.weights, w = c) :
    (split? r = none ↔
        limit ≤ 2 * (r.size * max c 1) ∨ limit ≤ (2 * r.size - 1) * max c 1 * r.parts) ∧
      (split? r = none ∨ ∃ answer, split? r = some (.ok answer) ∧
        answer.count = min r.size r.parts ∧ (∀ part, part ∈ answer.parts ↔ part < answer.count) ∧
          (r.contiguous = false → ∀ p < answer.count, ∀ q < answer.count,
            answer.parts.count p ≤ answer.parts.count q + 1)) := by
  rw [← overflows_uniform some_ uniform]
  rcases split?_cases answerable with ⟨overflows, ended⟩ | ⟨fits, answered⟩
  · exact ⟨⟨fun _ => overflows, fun _ => ended⟩, .inl ended⟩
  have pos : 0 < r.parts := answerable.wanted (Nat.ne_of_gt some_)
  have weighs : 0 < max c 1 := Nat.lt_of_lt_of_le Nat.one_pos (Nat.le_max_right c 1)
  have cut : runs (effectiveWeights r.weights) r.parts
      = runs (List.replicate r.size (max c 1)) r.parts := by
    rw [effectiveWeights_uniform uniform, PartitionRequest.size]
  have length := length_runs r
  have below : ∀ p ∈ runs (effectiveWeights r.weights) r.parts, p < r.parts := fun _ =>
    lt_of_mem_runs answerable
  rw [cut] at answered length below
  have notEnded : split? r ≠ none := fun ended => Option.some_ne_none _ (answered.symm.trans ended)
  refine ⟨⟨fun ended => absurd ended notEnded, fun overflows => absurd overflows fits⟩,
    .inr ⟨_, answered, ?_, fun part => ⟨lt_of_mem_compact, mem_compact_of_lt⟩, ?_⟩⟩
  · rw [count_compact_repairRuns answerable length, count_compact_runs weighs pos]
  · intro loose p lt q lt'
    rw [repairRuns_of_loose loose] at lt lt' ⊢
    obtain ⟨p, used, rfl⟩ := exists_rank_eq lt
    obtain ⟨q, used', rfl⟩ := exists_rank_eq lt'
    rw [count_rank used, count_rank used']
    exact count_runs_le weighs pos (below p used) (below q used')

/-- A request for three parts of five nodes of which none was measured. -/
def unmeasuredRequest : PartitionRequest where
  adjacency := [[1, 2], [0, 3], [0, 4], [1], [2]]
  weights := [0, 0, 0, 0, 0]
  parts := 3
  contiguous := false

/-- The middle slice has one node, and the others have two. -/
theorem unmeasuredRequest_even : unmeasuredRequest.Answerable ∧ 0 < unmeasuredRequest.size ∧
    (∀ w ∈ unmeasuredRequest.weights, w = 0) ∧ unmeasuredRequest.contiguous = false ∧
    Wide.split? unmeasuredRequest = some (.ok ⟨3, [0, 0, 1, 2, 2]⟩) ∧
      ∀ p < 3, ∀ q < 3, [0, 0, 1, 2, 2].count p ≤ [0, 0, 1, 2, 2].count q + 1 := by
  have wf : unmeasuredRequest.WellFormed := by decide
  have some_ : 0 < unmeasuredRequest.size := by decide
  have uniform : ∀ w ∈ unmeasuredRequest.weights, w = 0 := by decide
  have runs : Wide.split? unmeasuredRequest = some (.ok ⟨3, [0, 0, 1, 2, 2]⟩) := rfl
  obtain ⟨-, ended | ⟨answer, answered, -, -, close⟩⟩ := Wide.split?_even wf.answerable some_ uniform
  · cases runs.symm.trans ended
  · cases runs.symm.trans answered
    exact ⟨wf.answerable, some_, uniform, rfl, runs, close rfl⟩

/-- Two nodes of equal weight are not shared out at all if as many parts are wanted of them as a word
tells. -/
theorem Wide.crowdedRequest_uneven : crowdedRequest.WellFormed ∧ 0 < crowdedRequest.size ∧
    (∀ w ∈ crowdedRequest.weights, w = Word.largest) ∧
      ∀ answer, split? crowdedRequest ≠ some (.ok answer) := by
  have ended : split? crowdedRequest = none := rfl
  refine ⟨by decide, by decide, by decide, fun answer answered => ?_⟩
  cases ended.symm.trans answered

end StagePlan.Sequential
