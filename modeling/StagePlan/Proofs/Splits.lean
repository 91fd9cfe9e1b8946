import StagePlan.Proofs.Schedule

/-!
# Splits by any solver

What a solver answers is arbitrary, or an error. An answer is `Partitioning.Valid` for a request if
it has a counted part for every node, and parts enough but no more than requested; the check lets
through exactly those (`Partitioning.validate_eq_ok`), and their loads can be added up. So a split
that succeeds fits its graph (`Stored.split_ok`), and one that fails does so for the settings or as
a failure to split (`split_error`), whatever error the solver states (`split_of_refusal`).
-/

namespace StagePlan

/-! ## Validity -/

namespace Partitioning

/-- An answer has a part for every node of a request, no more parts than requested, parts if there
are nodes, and every part is counted. -/
structure Valid (p : Partitioning) (r : PartitionRequest) : Prop where
  length : p.parts.length = r.size
  few : p.count ≤ r.parts
  enough : p.count = 0 → r.size = 0
  counted : ∀ part ∈ p.parts, part < p.count

section

variable {p : Partitioning} {r : PartitionRequest} {e : Error}

/-- The check finds out whether an answer is valid. -/
theorem validate_eq_ok : p.validate r = .ok () ↔ p.Valid r := by
  unfold validate
  split
  next wrong => exact ⟨fun failed => (nomatch failed), fun valid => absurd valid.length wrong⟩
  next length =>
    split
    next many =>
      exact ⟨fun failed => (nomatch failed), fun valid => absurd valid.few (Nat.not_le.2 many)⟩
    next few =>
      split
      next none_ =>
        exact ⟨fun failed => (nomatch failed), fun valid => absurd (valid.enough none_.1) none_.2⟩
      next enough =>
        split
        next part node found =>
          refine ⟨fun failed => (nomatch failed), fun valid => ?_⟩
          have lt := valid.counted part (List.fst_mem_of_mem_zipIdx (List.mem_of_find?_eq_some found))
          have tooLarge : p.count ≤ part := by simpa using List.find?_some found
          exact absurd lt (Nat.not_lt.2 tooLarge)
        next none_ =>
          refine ⟨fun _ => ⟨not_not.1 length, Nat.not_lt.1 few, fun zero => ?_, fun part member => ?_⟩,
            fun _ => rfl⟩
          · exact not_not.1 fun some_ => enough ⟨zero, some_⟩
          · obtain ⟨i, at_⟩ := List.mem_iff_getElem?.1 member
            simpa using List.find?_eq_none.1 none_ (part, i) (List.mem_zipIdx_iff_getElem?.2 at_)

/-- An answer that is not valid is a failure to split. -/
theorem validate_error (failed : p.validate r = .error e) : ∃ cause, e = .partitioning cause := by
  unfold validate at failed
  split at failed
  next => exact ⟨_, (Except.error.inj failed).symm⟩
  next =>
    split at failed
    next => exact ⟨_, (Except.error.inj failed).symm⟩
    next =>
      split at failed
      next => exact ⟨_, (Except.error.inj failed).symm⟩
      next =>
        split at failed
        next => exact ⟨_, (Except.error.inj failed).symm⟩
        next => cases failed

/-- Adding weights to loads adds to each load the weights of its part. -/
theorem foldlM_addLoad (pairs : List (Nat × Nat)) (loads : List Nat)
    (inRange : ∀ e ∈ pairs, e.1 < loads.length) :
    pairs.foldlM addLoad loads = .ok (loads.mapIdx fun part load =>
      ((pairs.filter (·.1 == part)).map (·.2)).foldl Word.saturatingAdd load) := by
  induction pairs generalizing loads with
  | nil =>
    rw [List.foldlM_nil]
    exact congrArg Except.ok (List.ext_getElem? fun i => by simp)
  | cons e pairs ih =>
    obtain ⟨part, weight⟩ := e
    obtain ⟨lt, rest⟩ := List.forall_mem_cons.1 inRange
    rw [List.foldlM_cons, addLoad, if_pos lt]
    refine (ih _ ?_).trans (congrArg _ (List.ext_getElem? fun i => ?_))
    · rwa [List.length_modify]
    · rw [List.getElem?_mapIdx, List.getElem?_mapIdx, List.getElem?_modify, List.filter_cons]
      by_cases same : part = i
      · subst same
        cases loads[part]? <;> simp
      · simp [same]

/-- The weights of the nodes in a part. -/
def weightsIn (p : Partitioning) (weights : List Nat) (part : Nat) : List Nat :=
  ((p.parts.zip weights).filter (·.1 == part)).map (·.2)

/-- The loads of an answer with counted parts are the sums of the weights in its parts. -/
theorem loads_eq (counted : ∀ part ∈ p.parts, part < p.count) (weights : List Nat) :
    p.loads weights = .ok ((List.range p.count).map fun part =>
      Word.saturatingSum (p.weightsIn weights part)) := by
  refine (foldlM_addLoad _ _ fun e member => ?_).trans
    (congrArg _ (List.ext_getElem? fun i => ?_))
  · rw [List.length_replicate]
    exact counted e.1 (List.of_mem_zip member).1
  · rw [List.getElem?_mapIdx, List.getElem?_map, List.getElem?_replicate]
    by_cases lt : i < p.count
    · rw [if_pos lt, List.getElem?_range lt]
      rfl
    · rw [if_neg lt, List.getElem?_eq_none (by simpa using lt)]
      rfl

/-- Where all parts are counted, the loads can be added up. -/
theorem exists_loads (counted : ∀ part ∈ p.parts, part < p.count) (weights : List Nat) :
    ∃ loads, p.loads weights = .ok loads := ⟨_, loads_eq counted weights⟩

end

end Partitioning

/-- What a solver fails with is reported as a fault of the partitioning. -/
theorem Error.exists_ofSolver (e : Error) : ∃ cause, e.ofSolver = .partitioning cause := by
  cases e <;> exact ⟨_, rfl⟩

/-! ## Splitting -/

namespace Graph

variable {g : Graph} {s : SplitSettings} {solver : Solver} {r : PartitionRequest}
  {p : Partitioning} {loads : List Nat} {split : Split} {e : Error}

/-- The request for a graph has its undirected adjacency, and a weight for every node. -/
theorem ofGraph_eq (normalized : g.isNormalized = true) (some_ : 1 ≤ s.devices) :
    PartitionRequest.ofGraph g s =
      .ok ⟨g.adjacency false, g.nodes.map s.weights.nodeWeight, s.devices, s.contiguous⟩ := by
  rw [PartitionRequest.ofGraph, if_neg (Nat.ne_of_gt some_), normalized]
  rfl

/-- A graph is shown to a solver if its indices are the positions and there are devices. -/
theorem ofGraph_ok (asked : PartitionRequest.ofGraph g s = .ok r) :
    g.isNormalized = true ∧ r.parts = s.devices ∧ r.size = g.nodes.length := by
  unfold PartitionRequest.ofGraph at asked
  split at asked
  next => cases asked
  next =>
    split at asked
    next => cases asked
    next normalized =>
      cases asked
      exact ⟨by simpa using normalized, rfl, List.length_map _⟩

/-- A graph is not shown to a solver for want of devices, or because its indices are stale. -/
theorem ofGraph_error (refused : PartitionRequest.ofGraph g s = .error e) :
    (∃ cause, e = .settings cause) ∨ ∃ cause, e = .partitioning cause := by
  unfold PartitionRequest.ofGraph at refused
  split at refused
  next => exact .inl ⟨_, (Except.error.inj refused).symm⟩
  next =>
    split at refused
    next => exact .inr ⟨_, (Except.error.inj refused).symm⟩
    next => cases refused

/-- A split is made of what the steps answer, if all of them succeed. -/
theorem split_eq_ok (asked : PartitionRequest.ofGraph g s = .ok r) (answered : solver r = .ok p)
    (valid : p.Valid r) (added : p.loads r.weights = .ok loads) :
    g.split s solver = .ok ⟨r, p, loads⟩ := by
  refine Results.bind_eq_ok.2 ⟨r, asked, Results.bind_eq_ok.2 ⟨p, ?_, Results.bind_eq_ok.2
    ⟨(), Partitioning.validate_eq_ok.2 valid, Results.bind_eq_ok.2 ⟨loads, added, rfl⟩⟩⟩⟩
  rw [answered]
  rfl

/-- An answer that is let through fits the graph, and has no more parts than there are devices. -/
theorem Stored.split_ok (stored : g.Stored) (answered : g.split s solver = .ok split) :
    g.Fits split.answer ∧ split.answer.count ≤ s.devices := by
  obtain ⟨r, asked, answered⟩ := Results.bind_eq_ok.1 answered
  obtain ⟨p, _, answered⟩ := Results.bind_eq_ok.1 answered
  obtain ⟨_, valid, answered⟩ := Results.bind_eq_ok.1 answered
  obtain ⟨loads, _, answered⟩ := Results.bind_eq_ok.1 answered
  cases answered
  obtain ⟨length, few, -, counted⟩ := Partitioning.validate_eq_ok.1 valid
  obtain ⟨normalized, parts, size⟩ := ofGraph_ok asked
  exact ⟨⟨normalized, length.trans (size.trans stored.length_nodes), counted⟩, parts ▸ few⟩

/-- A graph is not split for want of devices or because splitting it fails, and for nothing else. -/
theorem split_error (failed : g.split s solver = .error e) :
    (∃ cause, e = .settings cause) ∨ ∃ cause, e = .partitioning cause := by
  rcases Results.bind_eq_error.1 failed with refused | ⟨r, _, failed⟩
  · exact ofGraph_error refused
  refine .inr ?_
  rcases Results.bind_eq_error.1 failed with refused | ⟨p, _, failed⟩
  · cases answer : solver r with
    | ok p => rw [answer] at refused; cases refused
    | error e' =>
      rw [answer] at refused
      cases refused
      exact e'.exists_ofSolver
  rcases Results.bind_eq_error.1 failed with refused | ⟨_, valid, failed⟩
  · exact Partitioning.validate_error refused
  -- a valid answer has counted parts, so the weights are never added where there is no load
  obtain ⟨loads, added⟩ :=
    Partitioning.exists_loads (Partitioning.validate_eq_ok.1 valid).counted r.weights
  rw [added] at failed
  cases failed

/-- What a solver refuses for is reported as a failure to split. -/
theorem split_of_refusal (asked : PartitionRequest.ofGraph g s = .ok r)
    (refused : solver r = .error e) : g.split s solver = .error e.ofSolver := by
  refine Results.bind_eq_error.2 (.inr ⟨r, asked, Results.bind_eq_error.2 (.inl ?_)⟩)
  rw [refused]
  rfl

/-- A solver that may end the program does so, or it splits a graph as one that always answers does. -/
theorem split?_cases {solver? : PartialSolver}
    (same : ∀ r, solver? r = none ∨ solver? r = some (solver r)) :
    (g.split? s solver? = none ∧ ∃ r, PartitionRequest.ofGraph g s = .ok r ∧ solver? r = none) ∨
      g.split? s solver? = some (g.split s solver) := by
  unfold split? split
  cases asked : PartitionRequest.ofGraph g s with
  | error e => exact .inr rfl
  | ok r =>
    show ((solver? r).map r.accept = none ∧ _) ∨ (solver? r).map r.accept = _
    rcases same r with ended | answered
    · exact .inl ⟨by rw [ended]; rfl, r, rfl, ended⟩
    · refine .inr ?_
      rw [answered]
      rfl

end Graph

end StagePlan
