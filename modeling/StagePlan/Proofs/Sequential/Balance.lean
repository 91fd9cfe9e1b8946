import Mathlib.Algebra.Order.BigOperators.Group.List
import Mathlib.Tactic.Linarith
import StagePlan.Proofs.Sequential.Ascending
import StagePlan.Proofs.Splits

/-!
# Balanced parts

Where parts need not be connected, the parts of an answer are the runs, numbered without gaps. They
are `Consecutive`: the numbers start at zero and go up by one from run to run (`compact_consecutive`).
No run weighs more than its share of the total and one node (`load_run_lt`). The middle of its first
weight lies beyond the beginning of its slice (`slice_le_middle`). The end of its last weight lies
beyond the end of the slice by less than half of a weight (`end_lt_slice`), also in the last run,
which takes in what comes after its slice. `split_balanced` states both of an answer.
-/

namespace StagePlan

/-- A node adds its weight to the part that it is in. -/
theorem Partitioning.sum_weightsIn_cons (count p : Nat) (parts : List Nat) (w : Nat)
    (weights : List Nat) (part : Nat) :
    (weightsIn ⟨count, p :: parts⟩ (w :: weights) part).sum =
      (if p = part then w else 0) + (weightsIn ⟨count, parts⟩ weights part).sum := by
  unfold weightsIn
  rw [List.zip_cons_cons, List.filter_cons]
  by_cases same : p = part
  · simp [same]
  · simp [same]

namespace Sequential

open Partitioning (weightsIn sum_weightsIn_cons)

/-- Parts are consecutive runs of nodes: they are numbered from zero, and the number does not fall
and never goes up by more than one. -/
structure Consecutive (parts : List Nat) : Prop where
  ascending : parts.Pairwise (· ≤ ·)
  first : parts[0]? = some 0
  step : ∀ (v : Nat) p q, parts[v]? = some p → parts[v + 1]? = some q → q ≤ p + 1

section

variable {total k before w heaviest p : Nat} {parts weights : List Nat}

/-! ## Runs of similar weight -/

/-- The middle of a weight does not lie before the slice that its node falls into. -/
theorem slice_le_middle (total k before w : Nat) :
    2 * total * run total k before w ≤ doubledMiddle before w * k := by
  have le : run total k before w ≤ doubledMiddle before w * k / (2 * total) := Nat.min_le_left _ _
  exact Nat.le_trans (Nat.mul_le_mul_left _ le) (Nat.mul_div_le _ _)

/-- The end of a weight lies less than half of the heaviest weight behind the slice that its node
falls into. -/
theorem end_lt_slice (pos : 0 < k) (total_pos : 0 < total) (heaviest_pos : 0 < heaviest)
    (le : w ≤ heaviest) (fits : before + w ≤ total) :
    k * (2 * (before + w)) < 2 * total * (run total k before w + 1) + k * heaviest := by
  by_cases last : run total k before w = k - 1
  -- the last slice ends with the total
  · have ends : k * (2 * (before + w)) ≤ k * (2 * total) :=
      Nat.mul_le_mul_left k (Nat.mul_le_mul_left 2 fits)
    have more : 0 < k * heaviest := Nat.mul_pos pos heaviest_pos
    rw [last, Nat.sub_add_cancel pos]
    linarith
  -- the middle of the weight lies inside any other one
  · have slice : run total k before w = doubledMiddle before w * k / (2 * total) := by
      unfold run at last ⊢
      omega
    have middle : doubledMiddle before w * k < 2 * total * (run total k before w + 1) := by
      rw [slice]
      exact Nat.lt_mul_div_succ _ (Nat.mul_pos Nat.two_pos total_pos)
    have half : k * w ≤ k * heaviest := Nat.mul_le_mul_left k le
    unfold doubledMiddle at middle
    linarith

/-- So whatever node it is counted from, what a run weighs does not reach further than that. -/
theorem load_lt_slice (pos : 0 < k) (total_pos : 0 < total) (heaviest_pos : 0 < heaviest) (p : Nat) :
    ∀ (before : Nat) (weights : List Nat), (∀ w ∈ weights, w ≤ heaviest) →
      before + weights.sum ≤ total →
        (weightsIn ⟨k, runsFrom total k before weights⟩ weights p).sum = 0 ∨
          k * (2 * (before + (weightsIn ⟨k, runsFrom total k before weights⟩ weights p).sum)) <
            2 * total * (p + 1) + k * heaviest
  | _, [], _, _ => .inl rfl
  | before, w :: ws, light, fits => by
    obtain ⟨le, light⟩ := List.forall_mem_cons.1 light
    rw [List.sum_cons, ← Nat.add_assoc] at fits
    rw [runsFrom, sum_weightsIn_cons]
    have rest := load_lt_slice pos total_pos heaviest_pos p (before + w) ws light fits
    generalize (weightsIn ⟨k, runsFrom total k (before + w) ws⟩ ws p).sum = load at rest ⊢
    by_cases here : run total k before w = p
    · rw [if_pos here]
      refine .inr ?_
      rcases rest with rfl | far
      · exact here ▸ end_lt_slice pos total_pos heaviest_pos le (Nat.le_of_add_right_le fits)
      · rwa [Nat.add_assoc] at far
    · rw [if_neg here, Nat.zero_add]
      refine rest.imp_right fun far => Nat.lt_of_le_of_lt ?_ far
      exact Nat.mul_le_mul_left k (Nat.mul_le_mul_left 2 (by omega))

/-- No run weighs as much as its share of the total and the heaviest node together. -/
theorem load_run_lt (pos : 0 < k) (total_pos : 0 < total) (heaviest_pos : 0 < heaviest) (p : Nat) :
    ∀ (before : Nat) (weights : List Nat), (∀ w ∈ weights, w ≤ heaviest) →
      before + weights.sum ≤ total →
        k * (weightsIn ⟨k, runsFrom total k before weights⟩ weights p).sum < total + k * heaviest
  | _, [], _, _ => Nat.add_pos_left total_pos _
  | before, w :: ws, light, fits => by
    have whole := load_lt_slice pos total_pos heaviest_pos p before (w :: ws) light fits
    obtain ⟨le, light'⟩ := List.forall_mem_cons.1 light
    rw [List.sum_cons, ← Nat.add_assoc] at fits
    by_cases here : run total k before w = p
    -- the run begins here, so all it weighs lies between the middle of this weight and its end
    · have begins : 2 * total * p ≤ doubledMiddle before w * k :=
        here ▸ slice_le_middle total k before w
      generalize (weightsIn ⟨k, runsFrom total k before (w :: ws)⟩ (w :: ws) p).sum = load at whole ⊢
      have half : k * w ≤ k * heaviest := Nat.mul_le_mul_left k le
      unfold doubledMiddle at begins
      rcases whole with rfl | far
      · rw [Nat.mul_zero]
        exact Nat.add_pos_left total_pos _
      · linarith
    · rw [runsFrom, sum_weightsIn_cons, if_neg here, Nat.zero_add]
      exact load_run_lt pos total_pos heaviest_pos p (before + w) ws light' fits

/-! ## Numbering the runs -/

/-- The least part gets the first number. -/
theorem rank_eq_zero (least : ∀ q ∈ parts, p ≤ q) : rank parts p = 0 := by
  have none_ : (HandleSet.ofList parts).toList.filter (· < p) = [] := by
    refine List.filter_eq_nil_iff.2 fun q used => ?_
    have le := least q (HandleSet.mem_ofList.1 used)
    simpa using le
  rw [rank, none_, List.length_nil]

/-- Where parts ascend, a node has the number of the node before it or the next one: a number between
theirs would be that of a part between theirs. -/
theorem rank_le_succ (sorted : parts.Pairwise (· ≤ ·)) {v q : Nat} (here : parts[v]? = some p)
    (next : parts[v + 1]? = some q) : rank parts q ≤ rank parts p + 1 := by
  refine Nat.le_of_not_lt fun gap => ?_
  have lt : rank parts p + 1 < (compact parts).count :=
    Nat.lt_trans gap (rank_lt_count (List.mem_of_getElem? next))
  obtain ⟨between, used, number⟩ := exists_rank_eq lt
  obtain ⟨i, at_⟩ := List.mem_iff_getElem?.1 used
  rcases Nat.lt_or_ge v i with lt | le
  · have on : rank parts q ≤ rank parts between := rank_mono (le_of_getElem? sorted lt next at_)
    omega
  · have back : rank parts between ≤ rank parts p := rank_mono (le_of_getElem? sorted le at_ here)
    omega

/-- Parts that ascend are numbered consecutively. -/
theorem compact_consecutive (some_ : parts ≠ []) (sorted : parts.Pairwise (· ≤ ·)) :
    Consecutive (compact parts).parts where
  ascending := List.Pairwise.map (rank parts) (fun _ _ le => rank_mono le) sorted
  first := by
    obtain ⟨p, rest, rfl⟩ := List.exists_cons_of_ne_nil some_
    have least : ∀ q ∈ p :: rest, p ≤ q :=
      List.forall_mem_cons.2 ⟨Nat.le_refl p, (List.pairwise_cons.1 sorted).1⟩
    rw [getElem?_compact, List.getElem?_cons_zero, Option.map_some, rank_eq_zero least]
  step v a b here next := by
    rw [getElem?_compact, Option.map_eq_some_iff] at here next
    obtain ⟨p, here, rfl⟩ := here
    obtain ⟨q, next, rfl⟩ := next
    exact rank_le_succ sorted here next

/-- A part of the answer has the nodes of the part that it is the number of. -/
theorem weightsIn_compact (k : Nat) (used : p ∈ parts) (weights : List Nat) :
    (compact parts).weightsIn weights (rank parts p) = weightsIn ⟨k, parts⟩ weights p := by
  unfold weightsIn
  show (((parts.map (rank parts)).zip weights).filter _).map _ = _
  rw [List.zip_map_left, List.filter_map, List.map_map]
  refine congrArg (List.map Prod.snd) (List.filter_congr fun e member => ?_)
  have inUse : e.1 ∈ parts := (List.of_mem_zip member).1
  have same : rank parts e.1 = rank parts p ↔ e.1 = p :=
    ⟨rank_injOn inUse used, fun same => congrArg (rank parts) same⟩
  simp [same]

end

/-! ## Answers -/

variable {r : PartitionRequest}

/-- Where parts need not be connected, every request that can be answered and has a node is answered
with consecutive runs of nodes. The effective weights of the nodes in a part, times the number of
parts wanted, sum up to less than those of all nodes and as many times the heaviest one. -/
theorem split_balanced (answerable : r.Answerable) (loose : r.contiguous = false)
    (some_ : 0 < r.size) :
    ∃ answer heaviest, split r = .ok answer ∧ answer.parts.length = r.size ∧
      Consecutive answer.parts ∧ (effectiveWeights r.weights).max? = some heaviest ∧
        ∀ part < answer.count, r.parts * (answer.weightsIn (effectiveWeights r.weights) part).sum <
          (effectiveWeights r.weights).sum + r.parts * heaviest := by
  have pos : 0 < r.parts := answerable.wanted (Nat.ne_of_gt some_)
  have length := length_runs r
  have cut : runs (effectiveWeights r.weights) r.parts ≠ [] :=
    List.ne_nil_of_length_pos (by rwa [length])
  have weighs : r.weights ≠ [] := List.ne_nil_of_length_pos some_
  obtain ⟨w, member, weight_pos⟩ := exists_effectiveWeights_pos weighs
  obtain ⟨heaviest, found⟩ := Option.ne_none_iff_exists'.1 fun none_ =>
    List.ne_nil_of_mem member (List.max?_eq_none_iff.1 none_)
  obtain ⟨-, light⟩ := List.max?_eq_some_iff.1 found
  have heaviest_pos : 0 < heaviest := Nat.lt_of_lt_of_le weight_pos (light w member)
  have total_pos : 0 < (effectiveWeights r.weights).sum :=
    Nat.lt_of_lt_of_le weight_pos (List.le_sum_of_mem member)
  have answered := split_of_answerable answerable
  rw [repairRuns_of_loose loose] at answered
  refine ⟨_, heaviest, answered, (length_compact _).trans length,
    compact_consecutive cut (runs_pairwise _ _), found, fun part lt => ?_⟩
  obtain ⟨p, inUse, rfl⟩ := exists_rank_eq lt
  rw [weightsIn_compact r.parts inUse]
  refine load_run_lt pos total_pos heaviest_pos p 0 _ light ?_
  rw [Nat.zero_add]

/-- A chain of nodes of which only two weigh anything. The heavier one fills the first two of four
slices alone, and what comes after the other one lies behind the last slice. -/
def mostlyIdleRequest : PartitionRequest where
  adjacency := [[1], [0, 2], [1, 3], [2, 4], [3, 5], [4]]
  weights := [0, 9, 0, 1, 0, 0]
  parts := 4
  contiguous := false

/-- The heavier node is a part of its own, and no part weighs as much as its share of all and that
node. -/
theorem mostlyIdleRequest_balanced : mostlyIdleRequest.Answerable ∧
    split mostlyIdleRequest = .ok ⟨3, [0, 1, 2, 2, 2, 2]⟩ ∧ Consecutive [0, 1, 2, 2, 2, 2] ∧
      ∀ part < 3, 4 * (weightsIn ⟨3, [0, 1, 2, 2, 2, 2]⟩ [0, 9, 0, 1, 0, 0] part).sum < 10 + 4 * 9 := by
  have wf : mostlyIdleRequest.WellFormed := by decide
  have runs : split mostlyIdleRequest = .ok ⟨3, [0, 1, 2, 2, 2, 2]⟩ := rfl
  obtain ⟨answer, heaviest, answered, -, consecutive, greatest, light⟩ :=
    split_balanced wf.answerable rfl (by decide)
  cases runs.symm.trans answered
  cases greatest
  exact ⟨wf.answerable, runs, consecutive, light⟩

end Sequential

end StagePlan
