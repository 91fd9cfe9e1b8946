import Mathlib.Algebra.Order.BigOperators.Group.List
import Mathlib.Algebra.Order.Ring.Nat
import StagePlan.Numeric.Word
import StagePlan.Partition.Wide
import StagePlan.Proofs.Sequential.Answers

/-!
# Where wide words suffice

A weight `BeginsAt` the sum of the weights before it. The wide solver cuts the exact runs if all it
computes there is `InRange` (`Wide.runs?_of_inRange`), and otherwise it ends the program
(`Wide.inRange_of_runs?`). So on a request that can be answered it `Overflows`, or it answers what the
exact solver does (`Wide.split?_cases`). What it refuses is what the exact solver refuses
(`Wide.split?_refused`).

The sums are always in range, if there are no more nodes than any memory holds
(`placeable_effectiveWeights`). Of the products the last one is the largest, and it decides
(`inRange_iff`). It is in range if the nodes and the parts wanted multiply to `2 ^ 63` at most
(`inRange_of_few`), and it is not if many parts are wanted of two heavy nodes
(`Wide.crowdedRequest_overflows`). `Wide.split?_inRange` puts this together for a request that can be
answered.
-/

namespace StagePlan

namespace Sequential

/-- Where weights are laid one after another from `start` on, a weight `w` begins at `before`. -/
inductive BeginsAt : Nat → List Nat → Nat → Nat → Prop
  | first {start w : Nat} {ws : List Nat} : BeginsAt start (w :: ws) start w
  | later {start v before w : Nat} {ws : List Nat} (rest : BeginsAt (start + v) ws before w) :
      BeginsAt start (v :: ws) before w

/-- No sum on the way to the middles of weights exceeds a wide word, and the doubled total can be
divided by. -/
structure Placeable (weights : List Nat) : Prop where
  divisor_pos : 0 < 2 * weights.sum
  divisor : 2 * weights.sum < Wide.limit
  total : weights.sum < Wide.limit
  before : ∀ before w, BeginsAt 0 weights before w → before < Wide.limit
  doubled : ∀ before w, BeginsAt 0 weights before w → 2 * before < Wide.limit
  middle : ∀ before w, BeginsAt 0 weights before w → doubledMiddle before w < Wide.limit
  after : ∀ before w, BeginsAt 0 weights before w → before + w < Wide.limit

/-- Nothing that is computed to cut nodes of the given weights into `k` runs exceeds a wide word. -/
structure InRange (weights : List Nat) (k : Nat) : Prop extends Placeable weights where
  product : ∀ before w, BeginsAt 0 weights before w → doubledMiddle before w * k < Wide.limit

end Sequential

/-- To cut the nodes of a request into runs, something has to be computed that exceeds a wide word. -/
def PartitionRequest.Overflows (r : PartitionRequest) : Prop :=
  0 < r.size ∧ ¬ Sequential.InRange (Sequential.effectiveWeights r.weights) r.parts

namespace Sequential

section

variable {start before w last k : Nat} {weights : List Nat}

/-! ## Places -/

/-- A weight ends before the sum of them all. -/
theorem BeginsAt.end_le (at_ : BeginsAt start weights before w) :
    before + w ≤ start + weights.sum := by
  induction at_ with
  | @first start w ws =>
    show start + w ≤ start + (w + ws.sum)
    omega
  | @later start v before w ws _ ih =>
    show before + w ≤ start + (v + ws.sum)
    omega

/-- The last weight ends with the sum of them all. -/
theorem exists_beginsAt_last : ∀ (start : Nat) {weights : List Nat}, weights.getLast? = some last →
    ∃ before, BeginsAt start weights before last ∧ before + last = start + weights.sum
  | start, [w], found => by
    obtain rfl : w = last := by simpa using found
    exact ⟨start, .first, rfl⟩
  | start, w :: v :: ws, found => by
    rw [List.getLast?_cons_cons] at found
    obtain ⟨before, at_, ends⟩ := exists_beginsAt_last (start + w) found
    refine ⟨before, .later at_, ends.trans ?_⟩
    show start + w + (v :: ws).sum = start + (w + (v :: ws).sum)
    omega

/-- No middle lies behind that of the last weight. -/
theorem BeginsAt.doubledMiddle_le (at_ : BeginsAt start weights before w)
    (found : weights.getLast? = some last) :
    doubledMiddle before w + last ≤ 2 * (start + weights.sum) := by
  unfold doubledMiddle
  induction at_ with
  | @first start w ws =>
    show 2 * start + w + last ≤ 2 * (start + (w + ws.sum))
    cases ws with
    | nil =>
      obtain rfl : w = last := by simpa using found
      omega
    | cons v ws =>
      rw [List.getLast?_cons_cons] at found
      obtain ⟨before, at_, ends⟩ := exists_beginsAt_last 0 found
      omega
  | @later start v before w ws rest ih =>
    show 2 * before + w + last ≤ 2 * (start + (v + ws.sum))
    have found' : ws.getLast? = some last := by
      cases rest <;> exact found
    have le := ih found'
    omega

/-! ## Ranges -/

/-- If the doubled total of weights is in range, so are all sums. -/
theorem placeable_of_lt (some_ : 0 < weights.sum) (lt : 2 * weights.sum < Wide.limit) :
    Placeable weights := by
  have ends : ∀ before w, BeginsAt 0 weights before w → before + w ≤ weights.sum :=
    fun before w at_ => Nat.zero_add weights.sum ▸ at_.end_le
  refine ⟨by omega, lt, by omega, ?before, ?doubled, ?middle, ?after⟩
  all_goals
    intro before w at_
    have le := ends before w at_
  case before => omega
  case doubled => omega
  case middle =>
    unfold doubledMiddle
    omega
  case after => omega

/-- Whether everything is in range shows at the doubled total and at the product of the last weight. -/
theorem inRange_iff (some_ : 0 < weights.sum) (found : weights.getLast? = some last) :
    InRange weights k ↔
      2 * weights.sum < Wide.limit ∧ (2 * weights.sum - last) * k < Wide.limit := by
  constructor
  · intro inRange
    obtain ⟨before, at_, ends⟩ := exists_beginsAt_last 0 found
    have middle : 2 * weights.sum - last = doubledMiddle before last := by
      unfold doubledMiddle
      omega
    rw [middle]
    exact ⟨inRange.divisor, inRange.product before last at_⟩
  · rintro ⟨divisor, product⟩
    refine ⟨placeable_of_lt some_ divisor, fun before w at_ => ?_⟩
    have le := at_.doubledMiddle_le found
    exact Nat.lt_of_le_of_lt (Nat.mul_le_mul_right k (by omega)) product

/-- The effective weights of words are words. -/
theorem effectiveWeights_lt (words : ∀ w ∈ weights, w < Word.limit) :
    ∀ w ∈ effectiveWeights weights, w < Word.limit := by
  unfold effectiveWeights
  split
  · intro w member
    obtain ⟨v, -, rfl⟩ := List.mem_map.1 member
    decide
  · exact words

/-- What they sum up to is at least one and at most as many times the largest word. -/
theorem sum_effectiveWeights (some_ : weights ≠ []) (words : ∀ w ∈ weights, w < Word.limit) :
    0 < (effectiveWeights weights).sum ∧
      (effectiveWeights weights).sum ≤ weights.length * Word.largest := by
  constructor
  · obtain ⟨w, member, pos⟩ := exists_effectiveWeights_pos some_
    exact Nat.lt_of_lt_of_le pos (List.le_sum_of_mem member)
  · rw [← length_effectiveWeights weights]
    exact (effectiveWeights weights).sum_le_card_nsmul Word.largest fun w member =>
      Nat.le_pred_of_lt (effectiveWeights_lt words w member)

/-- All sums are in range, unless there are more nodes than any memory holds. -/
theorem placeable_effectiveWeights (some_ : weights ≠ []) (words : ∀ w ∈ weights, w < Word.limit)
    (few : weights.length ≤ 2 ^ 63) : Placeable (effectiveWeights weights) := by
  obtain ⟨pos, le⟩ := sum_effectiveWeights some_ words
  refine placeable_of_lt pos ?_
  calc 2 * (effectiveWeights weights).sum
      ≤ 2 * (weights.length * Word.largest) := Nat.mul_le_mul_left 2 le
    _ ≤ 2 * (2 ^ 63 * Word.largest) := Nat.mul_le_mul_left 2 (Nat.mul_le_mul_right _ few)
    _ < Wide.limit := by decide

/-- So are the products, if the nodes and the runs are few. -/
theorem inRange_of_few (some_ : weights ≠ []) (pos : 0 < k) (words : ∀ w ∈ weights, w < Word.limit)
    (few : weights.length * k ≤ 2 ^ 63) : InRange (effectiveWeights weights) k := by
  have few' : weights.length ≤ 2 ^ 63 := Nat.le_trans (Nat.le_mul_of_pos_right _ pos) few
  refine ⟨placeable_effectiveWeights some_ words few', fun before w at_ => ?_⟩
  obtain ⟨-, le⟩ := sum_effectiveWeights some_ words
  have ends := at_.end_le
  have middle : doubledMiddle before w ≤ 2 * (effectiveWeights weights).sum := by
    unfold doubledMiddle
    omega
  calc doubledMiddle before w * k
      ≤ 2 * (weights.length * Word.largest) * k :=
        Nat.mul_le_mul_right k (Nat.le_trans middle (Nat.mul_le_mul_left 2 le))
    _ = 2 * (weights.length * k * Word.largest) := by rw [Nat.mul_assoc, Nat.mul_right_comm]
    _ ≤ 2 * (2 ^ 63 * Word.largest) := Nat.mul_le_mul_left 2 (Nat.mul_le_mul_right _ few)
    _ < Wide.limit := by decide

end

/-! ## Wide words -/

namespace Wide

section

variable {n m a b total k start before w p : Nat} {weights ps : List Nat}

/-- A number below the limit is a wide word. -/
theorem fit?_of_lt (lt : n < limit) : fit? n = some n := if_pos lt

/-- Only such a number is one, and it is this word. -/
theorem fit?_eq_some : fit? n = some m ↔ n < limit ∧ n = m := by
  rw [fit?, Option.ite_none_right_eq_some, Option.some.injEq]

/-- There is a quotient unless the divisor is zero. -/
theorem div?_eq_some : div? a b = some n ↔ 0 < b ∧ a / b = n := by
  rw [div?, Option.ite_none_left_eq_some, Option.some.injEq, Nat.pos_iff_ne_zero]

/-- Weights are summed up unless the sum of all exceeds a wide word. -/
theorem foldlM_add? (lt : start < limit) (weights : List Nat) :
    weights.foldlM add? start = fit? (start + weights.sum) := by
  induction weights generalizing start with
  | nil => exact (fit?_of_lt lt).symm
  | cons w ws ih =>
    rw [List.foldlM_cons, List.sum_cons, ← Nat.add_assoc]
    by_cases fits : start + w < limit
    · rw [add?, fit?_of_lt fits]
      exact ih fits
    · have exceeds : ¬ start + w + ws.sum < limit := fun lt =>
        fits (Nat.lt_of_le_of_lt (Nat.le_add_right _ _) lt)
      rw [add?, fit?, if_neg fits, fit?, if_neg exceeds]
      rfl

/-- The sum of weights is computed just if it is a wide word. -/
theorem total?_eq (weights : List Nat) : total? weights = fit? weights.sum := by
  rw [total?, foldlM_add? (by decide), Nat.zero_add]

/-- The run of a node is computed exactly if all that leads to it is a wide word. -/
theorem run?_eq_some : run? total k before w = some p ↔
    (2 * before < limit ∧ doubledMiddle before w < limit ∧ doubledMiddle before w * k < limit) ∧
      (2 * total < limit ∧ 0 < 2 * total) ∧ run total k before w = p := by
  simp only [run?, add?, mul?, bind, pure, Option.bind_eq_some_iff, fit?_eq_some, div?_eq_some,
    Option.some.injEq]
  constructor
  · rintro ⟨_, ⟨doubled, rfl⟩, _, ⟨middle, rfl⟩, _, ⟨product, rfl⟩, _, ⟨divisor, rfl⟩, _,
      ⟨pos, rfl⟩, rfl⟩
    exact ⟨⟨doubled, middle, product⟩, ⟨divisor, pos⟩, rfl⟩
  · rintro ⟨⟨doubled, middle, product⟩, ⟨divisor, pos⟩, rfl⟩
    exact ⟨_, ⟨doubled, rfl⟩, _, ⟨middle, rfl⟩, _, ⟨product, rfl⟩, _, ⟨divisor, rfl⟩, _,
      ⟨pos, rfl⟩, rfl⟩

/-- The runs are exact where all that leads to them is a wide word. -/
theorem runsFrom?_eq (divisor : 2 * total < limit) (pos : 0 < 2 * total) :
    ∀ (start : Nat) {weights : List Nat},
      (∀ before w, BeginsAt start weights before w → 2 * before < limit ∧
        doubledMiddle before w < limit ∧ doubledMiddle before w * k < limit ∧ before + w < limit) →
      runsFrom? total k start weights = some (runsFrom total k start weights)
  | _, [], _ => rfl
  | start, w :: ws, fits => by
    obtain ⟨doubled, middle, product, after⟩ := fits start w .first
    have here : run? total k start w = some (run total k start w) :=
      run?_eq_some.2 ⟨⟨doubled, middle, product⟩, ⟨divisor, pos⟩, rfl⟩
    have later := runsFrom?_eq divisor pos (start + w) fun before w at_ => fits before w (.later at_)
    rw [runsFrom?, here, add?, fit?_of_lt after]
    show (runsFrom? total k (start + w) ws >>= _) = _
    rw [later]
    rfl

/-- Where there are runs, all that leads to them is a wide word. -/
theorem of_runsFrom? (at_ : BeginsAt start weights before w)
    (cut : runsFrom? total k start weights = some ps) :
    (2 * before < limit ∧ doubledMiddle before w < limit ∧ doubledMiddle before w * k < limit) ∧
      (2 * total < limit ∧ 0 < 2 * total) ∧ before + w < limit := by
  induction at_ generalizing ps with
  | first =>
    obtain ⟨_, here, cut⟩ := Option.bind_eq_some_iff.1 cut
    obtain ⟨_, after, -⟩ := Option.bind_eq_some_iff.1 cut
    obtain ⟨node, divisor, -⟩ := run?_eq_some.1 here
    exact ⟨node, divisor, (fit?_eq_some.1 after).1⟩
  | later _ ih =>
    obtain ⟨_, -, cut⟩ := Option.bind_eq_some_iff.1 cut
    obtain ⟨_, after, cut⟩ := Option.bind_eq_some_iff.1 cut
    obtain ⟨_, rest, -⟩ := Option.bind_eq_some_iff.1 cut
    obtain ⟨-, rfl⟩ := fit?_eq_some.1 after
    exact ih rest

/-- What is in range is computed exactly. -/
theorem runs?_of_inRange (inRange : InRange weights k) : runs? weights k = some (runs weights k) := by
  rw [runs?, total?_eq, fit?_of_lt inRange.total]
  refine runsFrom?_eq inRange.divisor inRange.divisor_pos 0 fun before w at_ => ?_
  exact ⟨inRange.doubled before w at_, inRange.middle before w at_, inRange.product before w at_,
    inRange.after before w at_⟩

/-- What is computed is in range. -/
theorem inRange_of_runs? (some_ : weights ≠ []) (cut : runs? weights k = some ps) :
    InRange weights k := by
  obtain ⟨total, summed, cut⟩ := Option.bind_eq_some_iff.1 cut
  obtain ⟨lt, rfl⟩ := fit?_eq_some.1 (total?_eq weights ▸ summed)
  obtain ⟨v, vs, rfl⟩ := List.exists_cons_of_ne_nil some_
  obtain ⟨-, ⟨divisor, pos⟩, -⟩ := of_runsFrom? .first cut
  have nodes before w (at_ : BeginsAt 0 (v :: vs) before w) := of_runsFrom? at_ cut
  refine ⟨⟨pos, divisor, lt, ?before, ?doubled, ?middle, ?after⟩, ?product⟩
  all_goals
    intro before w at_
    obtain ⟨⟨doubled, middle, product⟩, -, after⟩ := nodes before w at_
  case before => exact Nat.lt_of_le_of_lt (Nat.le_add_right before w) after
  case doubled => exact doubled
  case middle => exact middle
  case after => exact after
  case product => exact product

end

/-! ## Answers -/

variable {r : PartitionRequest}

/-- The runs are cut unless a request overflows. -/
theorem runs?_cases (r : PartitionRequest) :
    r.Overflows ∧ runs? (effectiveWeights r.weights) r.parts = none ∨
      ¬ r.Overflows ∧ runs? (effectiveWeights r.weights) r.parts =
        some (runs (effectiveWeights r.weights) r.parts) := by
  rcases Nat.eq_zero_or_pos r.size with none_ | some_
  · have empty : effectiveWeights r.weights = [] :=
      List.eq_nil_of_length_eq_zero ((length_effectiveWeights r.weights).trans none_)
    rw [empty]
    exact .inr ⟨fun overflows => Nat.ne_of_gt overflows.1 none_, rfl⟩
  · by_cases inRange : InRange (effectiveWeights r.weights) r.parts
    · exact .inr ⟨fun overflows => overflows.2 inRange, runs?_of_inRange inRange⟩
    · refine .inl ⟨⟨some_, inRange⟩, Option.eq_none_iff_forall_ne_some.2 fun ps cut => ?_⟩
      have weighs : effectiveWeights r.weights ≠ [] :=
        List.ne_nil_of_length_pos (by rwa [length_effectiveWeights])
      exact inRange (inRange_of_runs? weighs cut)

/-- Where there are runs, every node has one. -/
theorem length_of_runs? {ps : List Nat} (cut : runs? (effectiveWeights r.weights) r.parts = some ps) :
    ps.length = r.size := by
  rcases runs?_cases r with ⟨-, none_⟩ | ⟨-, exact_⟩
  · cases none_.symm.trans cut
  · cases exact_.symm.trans cut
    exact length_runs r

/-- Where there are runs, the answer is that of the repaired runs. -/
theorem split?_of_runs? (answerable : r.Answerable) {ps : List Nat}
    (cut : runs? (effectiveWeights r.weights) r.parts = some ps) :
    split? r = some (.ok (compact (repairRuns r ps))) := by
  rw [split?, splitBy_of_answerable runs? answerable, cut]
  rfl

/-- A request that can be answered overflows and ends the program, or it is answered with the repaired
runs. -/
theorem split?_cases (answerable : r.Answerable) :
    r.Overflows ∧ split? r = none ∨ ¬ r.Overflows ∧ split? r =
      some (.ok (compact (repairRuns r (runs (effectiveWeights r.weights) r.parts)))) := by
  rcases runs?_cases r with ⟨overflows, none_⟩ | ⟨fits, cut⟩
  · rw [split?, splitBy_of_answerable runs? answerable, none_]
    exact .inl ⟨overflows, rfl⟩
  · exact .inr ⟨fits, split?_of_runs? answerable cut⟩

/-- Any other request is refused. -/
theorem split?_refused (refused : ¬ r.Answerable) :
    ∃ e, split? r = some (.error e) ∧ Sequential.split r = .error e := by
  obtain ⟨e, same⟩ := splitBy_of_not_answerable refused
  exact ⟨e, same runs?, same (m := Id) Sequential.runs⟩

/-- The solver in wide words ends the program, or it does what the exact solver does. -/
theorem split?_same (r : PartitionRequest) :
    split? r = none ∨ split? r = some (Sequential.split r) := by
  by_cases answerable : r.Answerable
  · rw [split_of_answerable answerable]
    exact (split?_cases answerable).imp And.right And.right
  · obtain ⟨e, refused, refused'⟩ := split?_refused answerable
    exact .inr (refused.trans (congrArg some refused'.symm))

/-- Only what overflows ends the program. -/
theorem overflows_of_split? (ended : split? r = none) : r.Overflows := by
  by_cases answerable : r.Answerable
  · rcases split?_cases answerable with ⟨overflows, -⟩ | ⟨-, answered⟩
    · exact overflows
    · cases answered.symm.trans ended
  · obtain ⟨e, refused, -⟩ := split?_refused answerable
    cases refused.symm.trans ended

/-- Of a request that can be answered and has nodes, whose weights are words: the sums are in range
unless there are more nodes than any memory holds; everything is exactly if the doubled total and the
product of the last node are, and so if the nodes and the parts wanted multiply to `2 ^ 63` at most; if
everything is in range, the wide solver cuts the exact runs and answers what the exact solver does; and
otherwise it has no runs and ends the program. -/
theorem split?_inRange (answerable : r.Answerable) (some_ : 0 < r.size)
    (words : ∀ w ∈ r.weights, w < Word.limit) :
    (r.size ≤ 2 ^ 63 → Placeable (effectiveWeights r.weights)) ∧
      (∀ last ∈ (effectiveWeights r.weights).getLast?,
        (InRange (effectiveWeights r.weights) r.parts ↔
          2 * (effectiveWeights r.weights).sum < limit ∧
            (2 * (effectiveWeights r.weights).sum - last) * r.parts < limit)) ∧
      (r.size * r.parts ≤ 2 ^ 63 → InRange (effectiveWeights r.weights) r.parts) ∧
      (InRange (effectiveWeights r.weights) r.parts →
        runs? (effectiveWeights r.weights) r.parts
            = some (runs (effectiveWeights r.weights) r.parts) ∧
          split? r = some (Sequential.split r)) ∧
      (¬ InRange (effectiveWeights r.weights) r.parts →
        runs? (effectiveWeights r.weights) r.parts = none ∧ split? r = none) := by
  have weighs : r.weights ≠ [] := List.ne_nil_of_length_pos some_
  have pos : 0 < r.parts := answerable.wanted (Nat.ne_of_gt some_)
  obtain ⟨total_pos, -⟩ := sum_effectiveWeights weighs words
  refine ⟨placeable_effectiveWeights weighs words, fun last found => inRange_iff total_pos found,
    inRange_of_few weighs pos words, fun inRange => ?_, fun outside => ?_⟩
  · have fits : ¬ r.Overflows := fun overflows => overflows.2 inRange
    obtain ⟨-, answered⟩ := (split?_cases answerable).resolve_left fun h => fits h.1
    rw [answered, split_of_answerable answerable]
    exact ⟨runs?_of_inRange inRange, rfl⟩
  · have overflows : r.Overflows := ⟨some_, outside⟩
    obtain ⟨-, none_⟩ := (runs?_cases r).resolve_right fun h => h.1 overflows
    obtain ⟨-, ended⟩ := (split?_cases answerable).resolve_right fun h => h.1 overflows
    exact ⟨none_, ended⟩

/-- A request for parts of two nodes that weigh as much as a word tells. No more parts can be wanted if
nodes and parts are to be few. -/
def heavyRequest : PartitionRequest where
  adjacency := [[1], [0]]
  weights := [Word.largest, Word.largest]
  parts := 2 ^ 62
  contiguous := false

/-- Nodes and parts are few, so each of the nodes gets a part of its own. -/
theorem heavyRequest_inRange : heavyRequest.Answerable ∧ 0 < heavyRequest.size ∧
    (∀ w ∈ heavyRequest.weights, w < Word.limit) ∧
    heavyRequest.size * heavyRequest.parts ≤ 2 ^ 63 ∧
    InRange (effectiveWeights heavyRequest.weights) heavyRequest.parts ∧
    split? heavyRequest = some (.ok ⟨2, [0, 1]⟩) := by
  have wf : heavyRequest.WellFormed := by decide
  have some_ : 0 < heavyRequest.size := by decide
  have words : ∀ w ∈ heavyRequest.weights, w < Word.limit := by decide
  have few : heavyRequest.size * heavyRequest.parts ≤ 2 ^ 63 := by decide
  obtain ⟨-, -, inRange_of_few, exact_, -⟩ := split?_inRange wf.answerable some_ words
  have inRange := inRange_of_few few
  obtain ⟨-, same⟩ := exact_ inRange
  have answer : Sequential.split heavyRequest = .ok ⟨2, [0, 1]⟩ := rfl
  exact ⟨wf.answerable, some_, words, few, inRange, same.trans (congrArg some answer)⟩

/-- The same request for as many parts as a word tells. -/
def crowdedRequest : PartitionRequest where
  adjacency := [[1], [0]]
  weights := [Word.largest, Word.largest]
  parts := Word.largest
  contiguous := false

/-- The product of its second node is no wide word. -/
theorem crowdedRequest_outside :
    ¬ InRange (effectiveWeights crowdedRequest.weights) crowdedRequest.parts := by
  intro inRange
  have second := inRange.product Word.largest Word.largest (.later (Nat.zero_add _ ▸ .first))
  exact absurd second (by decide)

/-- Settings with so many devices are fine, and with exact numbers there would be an answer. But the
product of the second node is no wide word, and so the request ends the program. -/
theorem crowdedRequest_overflows :
    (crowdedRequest.WellFormed ∧ (∀ w ∈ crowdedRequest.weights, w < Word.limit) ∧
      ({ split := { devices := crowdedRequest.parts } } : Settings).validate = .ok ()) ∧
    ¬ InRange (effectiveWeights crowdedRequest.weights) crowdedRequest.parts ∧
    Sequential.split crowdedRequest = .ok ⟨2, [0, 1]⟩ ∧ split? crowdedRequest = none := by
  have wf : crowdedRequest.WellFormed := by decide
  have words : ∀ w ∈ crowdedRequest.weights, w < Word.limit := by decide
  have admitted : ({ split := { devices := crowdedRequest.parts } } : Settings).validate = .ok () :=
    rfl
  exact ⟨⟨wf, words, admitted⟩, crowdedRequest_outside, rfl, rfl⟩

end Wide

end Sequential

end StagePlan
