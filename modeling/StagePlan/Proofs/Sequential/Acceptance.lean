import StagePlan.Proofs.Sequential.Wide
import StagePlan.Proofs.Splits

/-!
# Which requests are answered

Of all requests, well-formed or not, the solver in wide words refuses exactly those that are not
`Answerable`, and of the others those that overflow end the program. What it answers to the rest is
valid (`valid_compact_repairRuns`) and uses all of its parts. Which parts are in use is settled by the
runs: the repair neither empties a part nor opens one, whatever the adjacency, so that asking for
connected parts does not change their number (`Wide.split?_exact`).
-/

namespace StagePlan

namespace PartitionRequest

variable {r : PartitionRequest}

/-- Whether a request can be answered does not depend on whether parts have to be connected. -/
theorem Answerable.with_contiguous (answerable : r.Answerable) (contiguous : Bool) :
    { r with contiguous }.Answerable :=
  ⟨answerable.rows, answerable.inRange, answerable.wanted⟩

/-- A request cannot be answered for one of three reasons: its rows are not as many as its weights, a
neighbour is no node, or no part is wanted although there are nodes. -/
theorem not_answerable_iff :
    ¬ r.Answerable ↔ r.adjacency.length ≠ r.size ∨
      (∃ row ∈ r.adjacency, ∃ u ∈ row, r.size ≤ u) ∨ 0 < r.size ∧ r.parts = 0 := by
  constructor
  · intro refused
    by_contra fine
    simp only [not_or, not_exists, not_and, not_not, Nat.not_le] at fine
    obtain ⟨rows, inRange, wanted⟩ := fine
    refine refused ⟨rows, inRange, fun some_ => ?_⟩
    exact Nat.pos_of_ne_zero (wanted (Nat.pos_of_ne_zero some_))
  · rintro (wrong | ⟨row, member, u, inRow, high⟩ | ⟨some_, none_⟩) answerable
    · exact wrong answerable.rows
    · exact Nat.not_lt.2 high (answerable.inRange row member u inRow)
    · exact Nat.ne_of_gt (answerable.wanted (Nat.ne_of_gt some_)) none_

end PartitionRequest

namespace Sequential

variable {r : PartitionRequest}

/-- Parts of all nodes below the number of parts wanted make a valid answer. -/
theorem valid_compact {parts : List Nat} (length : parts.length = r.size)
    (below : ∀ p ∈ parts, p < r.parts) : (compact parts).Valid r where
  length := (length_compact _).trans length
  few := count_compact_le below
  enough none_ := by rw [← length, count_compact_eq_zero.1 none_, List.length_nil]
  counted _ := lt_of_mem_compact

/-- However the nodes are cut into runs below the number of parts wanted, the repaired runs make a valid
answer. -/
theorem valid_compact_repairRuns (answerable : r.Answerable) {runs : List Nat}
    (length : runs.length = r.size) (below : ∀ p ∈ runs, p < r.parts) :
    (compact (repairRuns r runs)).Valid r :=
  valid_compact ((length_repairRuns r runs).trans length) fun p member =>
    below p ((mem_repairRuns answerable length).1 member)

/-- The runs of an answerable request are below the number of parts wanted. -/
theorem lt_of_mem_runs (answerable : r.Answerable) {p : Nat}
    (member : p ∈ runs (effectiveWeights r.weights) r.parts) : p < r.parts := by
  have some_ : r.size ≠ 0 := by
    rw [← length_runs]
    exact Nat.ne_of_gt (List.length_pos_of_mem member)
  exact lt_of_mem_runsFrom (answerable.wanted some_) member

/-- The solver in wide words refuses a request exactly if its rows are not as many as its weights, some
neighbour is not a node, or no part is wanted although there are nodes. It ends the program exactly if
the request can be answered and overflows. Otherwise it answers, and its answer is valid, has no more
parts than nodes or than wanted, and uses all of them. There are as many of them whether they have to be
connected or not. -/
theorem Wide.split?_exact (r : PartitionRequest) :
    ((∃ e, split? r = some (.error e)) ↔ r.adjacency.length ≠ r.size ∨
        (∃ row ∈ r.adjacency, ∃ u ∈ row, r.size ≤ u) ∨ 0 < r.size ∧ r.parts = 0) ∧
      (split? r = none ↔ r.Answerable ∧ r.Overflows) ∧
      ((∃ e, split? r = some (.error e)) ∨ split? r = none ∨
        ∃ answer, split? r = some (.ok answer) ∧ answer.validate r = .ok () ∧
          (∀ part < answer.count, part ∈ answer.parts) ∧ answer.count ≤ min r.size r.parts ∧
            ∀ contiguous, ∃ answer', split? { r with contiguous } = some (.ok answer') ∧
              answer'.count = answer.count) := by
  rw [← PartitionRequest.not_answerable_iff]
  by_cases answerable : r.Answerable
  · rcases split?_cases answerable with ⟨overflows, ended⟩ | ⟨fits, answered⟩
    · rw [ended]
      exact ⟨⟨fun ⟨_, h⟩ => (nomatch h), fun h => absurd answerable h⟩,
        ⟨fun _ => ⟨answerable, overflows⟩, fun _ => rfl⟩, .inr (.inl rfl)⟩
    · have valid := valid_compact_repairRuns answerable (length_runs r) fun _ =>
        lt_of_mem_runs answerable
      rw [answered]
      refine ⟨⟨fun ⟨_, h⟩ => (nomatch h), fun h => absurd answerable h⟩,
        ⟨fun h => (nomatch h), fun h => absurd h.2 fits⟩, .inr (.inr ⟨_, rfl, ?_⟩)⟩
      refine ⟨Partitioning.validate_eq_ok.2 valid, fun _ => mem_compact_of_lt,
        Nat.le_min.2 ⟨?_, valid.few⟩, fun contiguous => ?_⟩
      · rw [← length_runs r, ← length_repairRuns r]
        exact count_compact_le_length
      -- whether parts have to be connected matters neither to the runs nor to what overflows
      · have answerable' := answerable.with_contiguous contiguous
        obtain ⟨-, answered'⟩ := (split?_cases answerable').resolve_left fun h => fits h.1
        refine ⟨_, answered', ?_⟩
        rw [count_compact_repairRuns answerable' (length_runs r),
          count_compact_repairRuns answerable (length_runs r)]
  · obtain ⟨e, refused, -⟩ := split?_refused answerable
    rw [refused]
    exact ⟨⟨fun _ => answerable, fun _ => ⟨e, rfl⟩⟩,
      ⟨fun h => (nomatch h), fun h => absurd h.1 answerable⟩, .inl ⟨e, rfl⟩⟩

/-- Nothing is wrong with the request for as many parts of two heavy nodes as a word tells, and yet it
ends the program. -/
theorem Wide.crowdedRequest_unanswered :
    crowdedRequest.adjacency.length = crowdedRequest.size ∧
      (∀ row ∈ crowdedRequest.adjacency, ∀ u ∈ row, u < crowdedRequest.size) ∧
      0 < crowdedRequest.parts ∧ split? crowdedRequest = none := by
  have wf : crowdedRequest.WellFormed := by decide
  exact ⟨wf.rows, wf.inRange, wf.wanted, rfl⟩

end Sequential

end StagePlan
