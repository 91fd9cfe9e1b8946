import Mathlib.Data.Finset.Card
import Mathlib.Data.Finset.Prod
import Mathlib.Data.List.Permutation
import StagePlan.Proofs.Sequential.Acceptance
import StagePlan.Proofs.Sequential.Contiguous

/-!
# The repair only heals cuts

Two neighbours in different parts are cut apart, and what runs in one part has to be sent to the
other. A component that moves had all its outside neighbours in other parts, so no pair of
neighbours is cut that was not cut before, and the pair that drew it into its new part is cut no
more: the move `Heals` cuts (`Moves.heals`). So the repair leaves everything as it is or heals cuts
(`repair_heals`), and asking for connected parts lowers the number of cut pairs unless it changes
nothing at all (`cut_repairRuns`, `Wide.split?_cut`).
-/

namespace StagePlan

/-- The pairs of neighbours, the smaller index first, that lie in different parts. -/
def PartitionRequest.cutPairs (r : PartitionRequest) (parts : List Nat) : Finset (Nat × Nat) :=
  (Finset.range r.size ×ˢ Finset.range r.size).filter fun e =>
    e.1 < e.2 ∧ r.Adjacent e.1 e.2 ∧ parts[e.1]? ≠ parts[e.2]?

/-- The number of neighbours, each pair counted once, that lie in different parts. -/
def PartitionRequest.cut (r : PartitionRequest) (parts : List Nat) : Nat := (r.cutPairs parts).card

namespace Sequential

section

variable {next : Nat → List Nat} {parts moved moved' : Array Nat} {part n t : Nat} {c : List Nat}

/-- Neighbours that are apart in the parts `moved` were apart before, and some that were apart are
together now. -/
structure Heals (next : Nat → List Nat) (parts moved : Array Nat) : Prop where
  kept : ∀ u v, v ∈ next u → parts[u]? = parts[v]? → moved[u]? = moved[v]?
  healed : ∃ u v, u < v ∧ v ∈ next u ∧ parts[u]? ≠ parts[v]? ∧ moved[u]? = moved[v]?

/-- To heal cuts twice is to heal cuts. -/
theorem Heals.trans (first : Heals next parts moved) (second : Heals next moved moved') :
    Heals next parts moved' where
  kept u v hv together := second.kept u v hv (first.kept u v hv together)
  healed := by
    obtain ⟨u, v, lt, hv, apart, together⟩ := first.healed
    exact ⟨u, v, lt, hv, apart, second.kept u v hv together⟩

/-- A component that moves takes all its neighbours inside its part along, and joins one outside. -/
theorem Moves.heals (undirected : Undirected next n) (piece : IsPiece next parts part c)
    (moves : Moves next parts part c t moved) : Heals next parts moved := by
  have along : ∀ u ∈ c, ∀ v ∈ next u, parts[u]? = parts[v]? → v ∈ c := fun u hu v hv together =>
    piece.closed u hu v hv (together.symm.trans (piece.inside u hu))
  refine ⟨fun u v hv together => ?_, ?_⟩
  · by_cases hu : u ∈ c
    · rw [moves.here u hu, moves.here v (along u hu v hv together)]
    · have hv' : v ∉ c := fun inC => hu (along v inC u (undirected.symm u v hv) together.symm)
      rw [moves.elsewhere u hu, moves.elsewhere v hv', together]
  · obtain ⟨x, hx, w, hw, inTarget⟩ := moves.neighbour
    have apart : parts[x]? ≠ parts[w]? := by
      rw [piece.inside x hx, inTarget]
      intro same
      exact moves.away (Option.some.inj same).symm
    have outside : w ∉ c := fun inC => apart ((piece.inside x hx).trans (piece.inside w inC).symm)
    have together : moved[x]? = moved[w]? := by
      rw [moves.here x hx, moves.elsewhere w outside, inTarget]
    rcases Nat.lt_trichotomy x w with before | rfl | after
    · exact ⟨x, w, before, hw, apart, together⟩
    · exact absurd hx outside
    · exact ⟨w, x, after, undirected.symm x w hw, apart.symm, together.symm⟩

/-- The repair changes nothing, or it heals cuts. -/
theorem repair_heals (undirected : Undirected next n) (weight : Nat → Nat)
    (size : parts.size = n) :
    repair next weight parts = parts ∨ Heals next parts (repair next weight parts) := by
  refine repair_induction (motive := fun moved => moved = parts ∨ Heals next parts moved)
    (fun part moved c size piece before => ?_) undirected weight size (.inl rfl)
  rcases move_cases (size ▸ undirected) piece with ⟨stays, -⟩ | ⟨t, moves⟩
  · rwa [stays]
  · have step := moves.heals undirected piece
    rcases before with rfl | before
    · exact .inr step
    · exact .inr (before.trans step)

end

/-! ## Answers -/

variable {r : PartitionRequest}

/-- The cut pairs are the neighbours in different parts, the smaller index first. -/
theorem mem_cutPairs (wf : r.WellFormed) {parts : List Nat} {u v : Nat} :
    (u, v) ∈ r.cutPairs parts ↔ u < v ∧ r.Adjacent u v ∧ parts[u]? ≠ parts[v]? := by
  simp only [PartitionRequest.cutPairs, Finset.mem_filter, Finset.mem_product, Finset.mem_range]
  refine ⟨And.right, fun cut => ⟨⟨?_, ?_⟩, cut⟩⟩
  · exact wf.undirected.lt v u (wf.symmetric u v cut.2.1)
  · exact wf.undirected.lt u v cut.2.1

/-- Parts that heal cuts have fewer of them. -/
theorem Heals.cut_lt (wf : r.WellFormed) {parts moved : Array Nat}
    (heals : Heals r.next parts moved) : r.cut moved.toList < r.cut parts.toList := by
  refine Finset.card_lt_card (Finset.ssubset_iff_subset_ne.2 ⟨?_, ?_⟩)
  · rintro ⟨u, v⟩ cut
    rw [mem_cutPairs wf] at cut ⊢
    obtain ⟨lt, adjacent, apart⟩ := cut
    refine ⟨lt, adjacent, fun together => apart ?_⟩
    simpa using heals.kept u v adjacent (by simpa using together)
  · obtain ⟨u, v, lt, adjacent, apart, together⟩ := heals.healed
    intro same
    have cut : (u, v) ∈ r.cutPairs moved.toList := by
      rw [same, mem_cutPairs wf]
      exact ⟨lt, adjacent, by simpa using apart⟩
    rw [mem_cutPairs wf] at cut
    exact cut.2.2 (by simpa using together)

/-- Numbering the parts in use cuts no other pairs. -/
theorem cut_compact (r : PartitionRequest) (parts : List Nat) :
    r.cut (compact parts).parts = r.cut parts := by
  simp only [PartitionRequest.cut, PartitionRequest.cutPairs, ne_eq, getElem?_compact_eq_iff]

/-- However the nodes are cut into runs, the repaired runs are these or heal cuts. -/
theorem repairRuns_heals (wf : r.WellFormed) {runs : List Nat} (length : runs.length = r.size) :
    repairRuns { r with contiguous := true } runs = repairRuns { r with contiguous := false } runs ∨
      Heals r.next (repairRuns { r with contiguous := false } runs).toArray
        (repairRuns { r with contiguous := true } runs).toArray := by
  have size : runs.toArray.size = r.size := by rw [List.size_toArray, length]
  have loose : repairRuns { r with contiguous := false } runs = runs := repairRuns_of_loose rfl runs
  have connected : repairRuns { r with contiguous := true } runs =
      (repair r.next ((effectiveWeights r.weights).getD · 0) runs.toArray).toList :=
    repairRuns_eq _ runs
  rw [loose, connected]
  rcases repair_heals wf.undirected ((effectiveWeights r.weights).getD · 0) size with same | heals
  · exact .inl (by rw [same])
  · exact .inr heals

/-- However the nodes are cut into runs, with connected parts no more pairs of neighbours lie in
different parts, and as many only if the parts are the same. -/
theorem cut_repairRuns (wf : r.WellFormed) {runs : List Nat} (length : runs.length = r.size) :
    r.cut (repairRuns { r with contiguous := true } runs)
        ≤ r.cut (repairRuns { r with contiguous := false } runs) ∧
      (r.cut (repairRuns { r with contiguous := true } runs)
          = r.cut (repairRuns { r with contiguous := false } runs) →
        repairRuns { r with contiguous := true } runs
          = repairRuns { r with contiguous := false } runs) := by
  rcases repairRuns_heals wf length with same | heals
  · rw [same]
    exact ⟨Nat.le_refl _, fun _ => rfl⟩
  · have fewer := heals.cut_lt wf
    exact ⟨Nat.le_of_lt fewer, fun same => absurd same (Nat.ne_of_lt fewer)⟩

/-- A well-formed request overflows and ends the program, whether parts have to be connected or not, or
the solver in wide words answers in both cases. With connected parts no more pairs of neighbours lie in
different parts, and as many only if the answer is the same. -/
theorem Wide.split?_cut (r : PartitionRequest) (wf : r.WellFormed) :
    (r.Overflows ∧ ∀ contiguous, split? { r with contiguous } = none) ∨
      ∃ loose connected, split? { r with contiguous := false } = some (.ok loose) ∧
        split? { r with contiguous := true } = some (.ok connected) ∧
          r.cut connected.parts ≤ r.cut loose.parts ∧
            (r.cut connected.parts = r.cut loose.parts → connected = loose) := by
  have cases_ (contiguous : Bool) := split?_cases (wf.answerable.with_contiguous contiguous)
  by_cases overflows : r.Overflows
  · refine .inl ⟨overflows, fun contiguous => ?_⟩
    exact ((cases_ contiguous).resolve_right fun h => h.1 overflows).2
  · have answered (contiguous : Bool) := ((cases_ contiguous).resolve_left fun h => overflows h.1).2
    obtain ⟨fewer, same⟩ := cut_repairRuns wf (length_runs r)
    refine .inr ⟨_, _, answered false, answered true, ?_⟩
    rw [cut_compact, cut_compact]
    exact ⟨fewer, fun asMany => congrArg compact (same asMany)⟩

/-- A request for three parts of a graph with two light branches. -/
def twoBranchesRequest : PartitionRequest where
  adjacency := [[1, 2, 4], [0, 3], [0], [1, 5], [0], [3]]
  weights := [10, 10, 1, 10, 1, 10]
  parts := 3
  contiguous := true

/-- Both branches move back to the first node, which heals two of the four cuts. -/
theorem twoBranchesRequest_cut : twoBranchesRequest.WellFormed ∧
    ∃ loose connected, Wide.split? { twoBranchesRequest with contiguous := false } = some (.ok loose) ∧
      Wide.split? { twoBranchesRequest with contiguous := true } = some (.ok connected) ∧
        loose.parts = [0, 1, 1, 1, 2, 2] ∧ connected.parts = [0, 1, 0, 1, 0, 2] ∧
          twoBranchesRequest.cut connected.parts ≤ twoBranchesRequest.cut loose.parts ∧
            (twoBranchesRequest.cut connected.parts = twoBranchesRequest.cut loose.parts →
              connected = loose) := by
  have wf : twoBranchesRequest.WellFormed := by decide
  have cut : Wide.runs? (effectiveWeights twoBranchesRequest.weights) twoBranchesRequest.parts
      = some [0, 1, 1, 1, 2, 2] := rfl
  have kept : compact (repairRuns { twoBranchesRequest with contiguous := false } [0, 1, 1, 1, 2, 2])
      = ⟨3, [0, 1, 1, 1, 2, 2]⟩ := by cbv
  have repaired : compact (repairRuns { twoBranchesRequest with contiguous := true } [0, 1, 1, 1, 2, 2])
      = ⟨3, [0, 1, 0, 1, 0, 2]⟩ := by cbv
  have answered := kept ▸ Wide.split?_of_runs? (wf.answerable.with_contiguous false) cut
  have answered' := repaired ▸ Wide.split?_of_runs? (wf.answerable.with_contiguous true) cut
  rcases Wide.split?_cut twoBranchesRequest wf with ⟨-, ended⟩ | ⟨loose, connected, split, split', h⟩
  · cases answered.symm.trans (ended false)
  · cases answered.symm.trans split
    cases answered'.symm.trans split'
    exact ⟨wf, _, _, split, split', rfl, rfl, h⟩

end Sequential

end StagePlan
