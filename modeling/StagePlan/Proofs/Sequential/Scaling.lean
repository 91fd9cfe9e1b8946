import Mathlib.Algebra.BigOperators.Ring.List
import Mathlib.Data.List.Permutation
import Mathlib.Tactic.Ring
import StagePlan.Proofs.Sequential.Answers

/-!
# Only the ratios of weights matter

The solver compares weights with each other and never with a number of its own. If all weights grow
by one factor, so does their total, and the middle of every weight falls into the slice that it was
in (`run_scale`). The components of a part grow by the same factor, so the first heaviest one stays
where it is (`anchor_scale`) and the repair moves the same components (`repair_scale`). Where nothing
weighs anything all nodes count the same before and after (`effectiveWeights_scale`). Hence requests
that differ by a factor of their weights are answered, or refused, alike (`split_scale`).
-/

namespace StagePlan.Sequential

section

variable {d : Nat}

/-! ## Runs -/

/-- The total grows by the factor of the weights. -/
theorem sum_scale (d : Nat) (weights : List Nat) :
    (weights.map (d * ·)).sum = d * weights.sum := by
  rw [List.sum_map_mul_left, List.map_id']

/-- A slice grows with the middle that falls into it. -/
theorem run_scale (pos : 0 < d) (total k before w : Nat) :
    run (d * total) k (d * before) (d * w) = run total k before w := by
  have middle : doubledMiddle (d * before) (d * w) * k = d * (doubledMiddle before w * k) := by
    unfold doubledMiddle
    ring
  have slices : 2 * (d * total) = d * (2 * total) := Nat.mul_left_comm 2 d total
  unfold run
  rw [middle, slices, Nat.mul_div_mul_left _ _ pos]

/-- So all runs from some node on stay the same. -/
theorem runsFrom_scale (pos : 0 < d) (total k : Nat) :
    ∀ (before : Nat) (weights : List Nat),
      runsFrom (d * total) k (d * before) (weights.map (d * ·)) = runsFrom total k before weights
  | _, [] => rfl
  | before, w :: ws => by
    rw [List.map_cons, runsFrom, runsFrom, run_scale pos, ← Nat.mul_add,
      runsFrom_scale pos total k (before + w) ws]

/-- The runs do not depend on the unit of the weights. -/
theorem runs_scale (pos : 0 < d) (weights : List Nat) (k : Nat) :
    runs (weights.map (d * ·)) k = runs weights k := by
  rw [runs_eq, runs_eq, sum_scale]
  exact runsFrom_scale pos weights.sum k 0 weights

/-- The weights to balance grow by a factor as well; by one, where nothing weighs anything. -/
theorem effectiveWeights_scale (pos : 0 < d) (weights : List Nat) :
    ∃ e, 0 < e ∧
      effectiveWeights (weights.map (d * ·)) = (effectiveWeights weights).map (e * ·) := by
  have weightless : (weights.map (d * ·)).all (· == 0) = weights.all (· == 0) := by
    rw [List.all_map]
    refine congrArg (weights.all ·) (funext fun w => ?_)
    simp [Nat.ne_of_gt pos]
  unfold effectiveWeights
  rw [weightless]
  split
  · exact ⟨1, Nat.one_pos, by simp [Function.comp_def]⟩
  · exact ⟨d, pos, rfl⟩

/-! ## Repair -/

/-- The first heaviest component stays where it is. -/
theorem anchor_scale (pos : 0 < d) (weight : Nat → Nat) (cs : List (List Nat)) :
    anchor (fun v => d * weight v) cs = anchor weight cs := by
  have grown : (cs.map fun c => (c.map fun v => d * weight v).sum)
      = (cs.map fun c => (c.map weight).sum).map (d * ·) := by
    rw [List.map_map]
    exact List.map_congr_left fun c _ => List.sum_map_mul_left c weight d
  have heaviest (ws : List Nat) : (ws.map (d * ·)).foldl max 0 = d * ws.foldl max 0 :=
    List.foldl_map_hom (g := (d * ·)) (a := 0) fun a b => (Nat.mul_max_mul_left d a b)
  have found (ws : List Nat) (w : Nat) : (ws.map (d * ·)).idxOf (d * w) = ws.idxOf w := by
    unfold List.idxOf
    rw [List.findIdx_map]
    refine congrArg (ws.findIdx ·) (funext fun v => ?_)
    simp [Nat.ne_of_gt pos]
  rw [anchor_eq, anchor_eq, grown, heaviest, found]

/-- The repair does not depend on the unit of the weights. -/
theorem repair_scale (pos : 0 < d) (next : Nat → List Nat) (weight : Nat → Nat) :
    repair next (fun v => d * weight v) = repair next weight := by
  have alike : settle next (fun v => d * weight v) = settle next weight := by
    funext parts part
    rw [settle, settle, anchor_scale pos]
  funext parts
  rw [repair, repair, alike]

end

/-! ## Answers -/

/-- Runs are repaired alike. -/
theorem repairRuns_scale {c : Nat} (pos : 0 < c) (r : PartitionRequest) (runs : List Nat) :
    repairRuns { r with weights := r.weights.map (c * ·) } runs = repairRuns r runs := by
  obtain ⟨d, pos', scaled⟩ := effectiveWeights_scale pos r.weights
  have weight : (((effectiveWeights r.weights).map (d * ·)).getD · 0)
      = fun v => d * (effectiveWeights r.weights).getD v 0 := by
    funext v
    rw [List.getD_eq_getElem?_getD, List.getElem?_map, List.getD_eq_getElem?_getD]
    cases (effectiveWeights r.weights)[v]? <;> rfl
  rw [repairRuns_eq, repairRuns_eq]
  simp only [scaled, weight, repair_scale pos']
  rfl

/-- Whatever the request, and whether parts have to be connected or not: if every weight is multiplied
by the same positive factor, the answer is the same, or the refusal for the same reason. -/
theorem split_scale (r : PartitionRequest) (c : Nat) (pos : 0 < c) :
    split { r with weights := r.weights.map (c * ·) } = split r := by
  have refused : refusal? { r with weights := r.weights.map (c * ·) } = refusal? r := by
    have size : { r with weights := r.weights.map (c * ·) }.size = r.size := List.length_map _
    unfold refusal?
    rw [size]
  obtain ⟨d, pos', scaled⟩ := effectiveWeights_scale pos r.weights
  unfold split splitBy
  rw [refused, scaled, runs_scale pos']
  simp only [repairRuns_scale pos]

/-- A request for two connected parts of a graph with two branches. Both of them weigh the same, and
so does what the second run holds of them. -/
def tiedRequest : PartitionRequest where
  adjacency := [[1, 2], [0, 3], [0, 4], [1], [2]]
  weights := [2, 2, 1, 2, 1]
  parts := 2
  contiguous := true

/-- The branch with the smaller index keeps its place, also where the weights almost exhaust the
words. -/
theorem tiedRequest_scaled : 0 < 2 ^ 62 ∧
    split { tiedRequest with weights := tiedRequest.weights.map (2 ^ 62 * ·) }
      = .ok ⟨2, [0, 0, 1, 0, 1]⟩ := by
  have pos : 0 < 2 ^ 62 := by decide
  have unscaled : split tiedRequest = .ok ⟨2, [0, 0, 1, 0, 1]⟩ := by cbv
  exact ⟨pos, (split_scale tiedRequest (2 ^ 62) pos).trans unscaled⟩

end StagePlan.Sequential
