import Mathlib.Algebra.GroupWithZero.Nat
import Mathlib.Data.List.Nodup
import StagePlan.Proofs.Splits

/-!
# Loads and stage weights

What a part weighs is added up twice: `Partitioning.loads` adds the weights of a request by
position, and `stageTotals` those of the measured layers that carry the part. The two agree
(`Graph.schedule_weights`). A node that is not measured weighs nothing, so it does not matter that
only the stages leave it out (`sum_isMeasured`). An answer that was checked is written onto the
nodes position by position (`nodes_assignParts`). And a total that stops at the largest word
whenever it is exceeded is the exact sum stopped there once (`Word.saturatingSum_eq`).
-/

namespace StagePlan

/-! ## Totals of words -/

namespace Word

/-- It makes no difference whether a sum stops at the largest word on the way or in the end. -/
theorem foldl_saturatingAdd (ns : List Nat) (a : Nat) :
    ns.foldl saturatingAdd (min a largest) = min (a + ns.sum) largest := by
  induction ns generalizing a with
  | nil => rfl
  | cons n ns ih =>
    have step : saturatingAdd (min a largest) n = min (a + n) largest := by
      unfold saturatingAdd
      omega
    rw [List.foldl_cons, step, ih, List.sum_cons, Nat.add_assoc]

/-- A total of words is the exact sum, or the largest word if that is larger. -/
theorem saturatingSum_eq (ns : List Nat) : saturatingSum ns = min ns.sum largest := by
  have total := foldl_saturatingAdd ns 0
  rwa [Nat.zero_min, Nat.zero_add] at total

end Word

/-! ## Measured layers -/

/-- Only a measured layer weighs anything. -/
theorem WeightPolicy.nodeWeight_eq (policy : WeightPolicy) (n : Node) :
    policy.nodeWeight n = if n.isMeasured then policy.weight n.weight else 0 := by
  unfold WeightPolicy.nodeWeight Node.isMeasured
  cases n.kind <;> cases n.weight <;> rfl

/-- What only some nodes have, all nodes have together. -/
theorem sum_filter {some_ : Node → Bool} {f g : Node → Nat}
    (only : ∀ n, g n = if some_ n then f n else 0) (ns : List Node) :
    ((ns.filter some_).map f).sum = (ns.map g).sum := by
  induction ns with
  | nil => rfl
  | cons n ns ih =>
    rw [List.filter_cons, List.map_cons, List.sum_cons, only]
    split
    · rw [List.map_cons, List.sum_cons, ih]
    · rw [ih, Nat.zero_add]

/-- What is not measured adds nothing to a weight. -/
theorem sum_isMeasured (policy : WeightPolicy) (ns : List Node) :
    ((ns.filter (·.isMeasured)).map fun n => policy.weight n.weight).sum
      = (ns.map policy.nodeWeight).sum :=
  sum_filter policy.nodeWeight_eq ns

/-! ## Nodes of a part -/

namespace Graph

variable {g : Graph} {p : Partitioning} {s : SplitSettings}

/-- Where all listed nodes are live and their indices are the positions, none is listed twice. -/
theorem nodup_order (listed : ∀ h ∈ g.order, g.Live h) (normalized : g.isNormalized = true) :
    g.order.Nodup := by
  have index : ∀ (i : Nat) h n, g.order[i]? = some h → g.node? h = some n → n.index = i := by
    intro i h n at_ found
    refine isNormalized_iff.1 normalized i n ?_
    rw [getElem?_nodes listed, at_, Option.bind_some, found]
  rw [List.nodup_iff_getElem?_ne_getElem?]
  intro i j before lt same
  have at_ : g.order[j]? = some g.order[j] := List.getElem?_eq_getElem lt
  obtain ⟨n, found⟩ := listed g.order[j] (List.getElem_mem lt)
  have first := index i _ n (same.trans at_) found
  have second := index j _ n at_ found
  exact Nat.ne_of_lt before (first.symm.trans second)

/-- An answer that has a part for every node is written onto the nodes one by one. -/
theorem nodes_assignParts (normalized : g.isNormalized = true) {parts : List Nat}
    (complete : parts.length = g.size) (live : parts.length = g.nodes.length) :
    (g.assignParts parts).nodes
      = List.zipWith (fun n part => { n with part := some part }) g.nodes parts := by
  have listed : ∀ h ∈ g.order, g.Live h := by
    have all := List.filterMap_length_eq_length.1 (live.symm.trans complete)
    intro h member
    exact Option.isSome_iff_exists.1 (all h member)
  exact nodes_modifyEach listed (nodup_order listed normalized) _ (Nat.le_of_eq complete.symm)

/-- The nodes that carry a part weigh what stands at the positions where the answer has the part. -/
theorem map_nodeWeight_filter (policy : WeightPolicy) (part : Nat) (ns : List Node)
    (parts : List Nat) :
    ((List.zipWith (fun n part => { n with part := some part }) ns parts).filter
        (·.part == some part)).map policy.nodeWeight
      = ((parts.zip (ns.map policy.nodeWeight)).filter (·.1 == part)).map (·.2) := by
  induction ns generalizing parts with
  | nil => simp
  | cons n ns ih =>
    cases parts with
    | nil => rfl
    | cons a parts =>
      rw [List.zipWith_cons_cons, List.map_cons, List.zip_cons_cons, List.filter_cons,
        List.filter_cons]
      by_cases same : a = part
      · subst same
        simpa using ⟨rfl, ih parts⟩
      · simpa [same] using ih parts

/-- A stage weighs what the request says of the nodes in its part. -/
theorem weight_stageTotals (policy : WeightPolicy) (normalized : g.isNormalized = true)
    (complete : p.parts.length = g.size) (live : p.parts.length = g.nodes.length) (part : Nat) :
    (stageTotals policy (g.assignParts p.parts).nodes part).weight
      = Word.saturatingSum (p.weightsIn (g.nodes.map policy.nodeWeight) part) := by
  rw [Word.saturatingSum_eq, Partitioning.weightsIn, ← map_nodeWeight_filter, ← sum_isMeasured,
    ← nodes_assignParts normalized complete live, ← Word.saturatingSum_eq]
  rfl

/-- For every graph whose indices are the positions, and all settings with a device, there is a
request. Whenever an answer to it is valid and can be scheduled, the stage of every part weighs what
the loads of the answer have for the part. This is the sum of the weights that the request has for
the nodes in the part, or the largest word if the sum exceeds it. -/
theorem schedule_weights (normalized : g.isNormalized = true) (some_ : 1 ≤ s.devices) :
    ∃ r, PartitionRequest.ofGraph g s = .ok r ∧
      ∀ p schedule, p.validate r = .ok () → (g.schedule p s.weights).2 = .ok schedule →
        ∃ loads, p.loads r.weights = .ok loads ∧ loads.length = p.count ∧
          schedule.stages.length = p.count ∧ ∀ part < p.count, ∃ stage,
            schedule.stages[part]? = some stage ∧ stage.part = part ∧
              loads[part]? = some stage.weight ∧
              stage.weight = min (p.weightsIn r.weights part).sum (2 ^ 64 - 1) := by
  refine ⟨_, ofGraph_eq normalized some_, fun p schedule valid scheduled => ?_⟩
  obtain ⟨length, -, -, counted⟩ := Partitioning.validate_eq_ok.1 valid
  have live : p.parts.length = g.nodes.length := length.trans (List.length_map _)
  cases checked : g.checkAnswer p with
  | error e => rw [Graph.schedule, checked] at scheduled; cases scheduled
  | ok =>
    have fits := checkAnswer_eq_ok.1 checked
    rw [fits.schedule_eq] at scheduled
    obtain ⟨pairs, -, scheduled⟩ := Results.bind_eq_ok.1 scheduled
    obtain ⟨order, -, scheduled⟩ := Results.bind_eq_ok.1 scheduled
    cases scheduled
    refine ⟨_, Partitioning.loads_eq counted _, by simp, by simp, fun part lt => ?_⟩
    have at_ : (List.range p.count)[part]? = some part := List.getElem?_range lt
    have weight := weight_stageTotals s.weights normalized fits.length live part
    refine ⟨stageTotals s.weights (g.assignParts p.parts).nodes part, ?_, rfl, ?_, ?_⟩
    · rw [List.getElem?_map, at_]
      rfl
    · rw [List.getElem?_map, at_, weight]
      rfl
    · rw [weight, Word.saturatingSum_eq]
      rfl

/-- Two measured nodes, of which one is a layer, and a parameter of the layer. -/
def layerAndParameter : Graph :=
  (((empty.add "layer" .profiledLayer [] (.timing ⟨1, 2, 64⟩)).add "op" .rawOp []
    (.timing ⟨3, 4, 64⟩)).add "layer" .parameterOrBuffer [] (.elements 6)).connect 0 1

/-- The layer weighs something, and what else there is does not. -/
theorem layerAndParameter_weights : layerAndParameter.isNormalized = true ∧
    ∃ r schedule loads, PartitionRequest.ofGraph layerAndParameter { devices := 2 } = .ok r ∧
      (Partitioning.mk 2 [0, 1, 0]).validate r = .ok () ∧
      (layerAndParameter.schedule ⟨2, [0, 1, 0]⟩ {}).2 = .ok schedule ∧
      (Partitioning.mk 2 [0, 1, 0]).loads r.weights = .ok loads ∧
      ∀ part < 2, ∃ stage, schedule.stages[part]? = some stage ∧ stage.part = part ∧
        loads[part]? = some stage.weight ∧
        stage.weight =
          min ((Partitioning.mk 2 [0, 1, 0]).weightsIn r.weights part).sum (2 ^ 64 - 1) := by
  have normalized : layerAndParameter.isNormalized = true := by decide
  obtain ⟨r, asked, agree⟩ :=
    schedule_weights (s := { devices := 2 }) normalized (by decide : 1 ≤ 2)
  have valid : (Partitioning.mk 2 [0, 1, 0]).validate r = .ok () := by
    cases asked
    rfl
  obtain ⟨schedule, scheduled⟩ :
      ∃ schedule, (layerAndParameter.schedule ⟨2, [0, 1, 0]⟩ {}).2 = .ok schedule := ⟨_, rfl⟩
  obtain ⟨loads, added, -, -, weights⟩ := agree _ schedule valid scheduled
  exact ⟨normalized, r, schedule, loads, asked, valid, scheduled, added, weights⟩

end Graph

end StagePlan
