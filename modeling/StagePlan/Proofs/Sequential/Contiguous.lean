import StagePlan.Proofs.Sequential.Settled

/-!
# Repaired parts are contiguous

A part is `Contiguous` if the nodes on its boundary are joined within it, so that only one of its
components has neighbours outside. A settled part is contiguous (`Settled.contiguous`), for no two of
its components outrank each other, and the repair settles all parts. Hence all parts of an answer are
contiguous, however the nodes were cut into runs (`contiguousParts_repairRuns`), and so are those that
the solver in wide words answers (`Wide.split?_contiguous`).
-/

open Relation

namespace StagePlan

namespace Sequential

/-- All nodes of a part that have neighbours elsewhere are joined within the part. -/
def Contiguous (next : Nat → List Nat) (parts : Array Nat) (part : Nat) : Prop :=
  ∀ u v, Boundary next parts part u → Boundary next parts part v → Joined next parts part u v

section

variable {next : Nat → List Nat} {weight : Nat → Nat} {parts : Array Nat} {part n : Nat}

/-- A settled part is contiguous: nodes with neighbours elsewhere are in one component. -/
theorem Settled.contiguous (undirected : Undirected next n)
    (settled : Settled next weight parts part) : Contiguous next parts part := by
  obtain ⟨pieces, cover⟩ := components_pieces undirected parts part
  intro u v edgeU edgeV
  obtain ⟨c, hc, inC⟩ := cover u edgeU.1
  obtain ⟨d, hd, inD⟩ := cover v edgeV.1
  obtain rfl := settled.eq_of_boundary hc hd edgeU inC edgeV inD
  exact (pieces.piece c hc).joined u inC v inD

/-- The repair makes every part contiguous. -/
theorem repair_contiguous (undirected : Undirected next parts.size) (weight : Nat → Nat)
    (part : Nat) : Contiguous next (repair next weight parts) part :=
  (repair_settled undirected weight part).contiguous undirected

end

end Sequential

/-! ## Answers -/

namespace PartitionRequest

/-- Two neighbours lie in one part. -/
def Together (r : PartitionRequest) (parts : List Nat) (u v : Nat) : Prop :=
  r.Adjacent u v ∧ parts[u]? = parts[v]?

/-- Two nodes lie in one component of a part: neighbours that lie together lead from one to the
other. -/
abbrev Linked (r : PartitionRequest) (parts : List Nat) : Nat → Nat → Prop :=
  ReflTransGen (r.Together parts)

/-- The component of a node in its part has a neighbour outside of the part. -/
def Open (r : PartitionRequest) (parts : List Nat) (u : Nat) : Prop :=
  ∃ x, r.Linked parts u x ∧ ∃ y, r.Adjacent x y ∧ parts[x]? ≠ parts[y]?

/-- At most one component of a part has neighbours outside of the part, and every other component is one
of the whole graph. If the graph is connected, so are all parts. -/
@[mk_iff] structure ContiguousParts (r : PartitionRequest) (parts : List Nat) : Prop where
  single : ∀ u v, parts[u]? = parts[v]? → r.Open parts u → r.Open parts v → r.Linked parts u v
  whole : ∀ u, ¬ r.Open parts u → ∀ v, r.Linked parts u v ↔ ReflTransGen r.Adjacent u v
  connected : (∀ u v, u < r.size → v < r.size → ReflTransGen r.Adjacent u v) →
    ∀ u v, u < r.size → v < r.size → parts[u]? = parts[v]? → r.Linked parts u v

variable {r : PartitionRequest} {parts : List Nat}

/-- Linked nodes lie in one part. -/
theorem Linked.same {u v : Nat} (h : r.Linked parts u v) : parts[u]? = parts[v]? := by
  induction h with
  | refl => rfl
  | tail _ last ih => exact ih.trans last.2

/-- Links go both ways where neighbours do. -/
theorem Linked.symm (wf : r.WellFormed) {u v : Nat} (h : r.Linked parts u v) :
    r.Linked parts v u := by
  induction h with
  | refl => exact .refl
  | @tail x y _ last ih => exact .head ⟨wf.symmetric x y last.1, last.2.symm⟩ ih

/-- A component without neighbours outside of its part is a component of the whole graph. -/
theorem linked_of_not_open {u v : Nat} (closed : ¬ r.Open parts u)
    (path : ReflTransGen r.Adjacent u v) : r.Linked parts u v := by
  induction path with
  | refl => exact .refl
  | @tail x y _ last ih =>
    have same : parts[x]? = parts[y]? := Decidable.byContradiction fun other =>
      closed ⟨x, ih, y, last, other⟩
    exact ih.tail ⟨last, same⟩

end PartitionRequest

namespace Sequential

variable {r : PartitionRequest}

/-- The repaired runs of a well-formed request are contiguous, where this is wanted. -/
theorem repairRuns_contiguous (wf : r.WellFormed) (contiguous : r.contiguous = true)
    {runs : List Nat} (length : runs.length = r.size) (part : Nat) :
    Contiguous r.next (repairRuns r runs).toArray part := by
  have size : runs.toArray.size = r.size := by rw [List.size_toArray, length]
  rw [repairRuns_eq, if_pos contiguous, Array.toArray_toList]
  exact repair_contiguous (size ▸ wf.undirected) _ part

/-- Numbering the parts in use keeps apart what is apart. -/
theorem getElem?_compact_eq_iff (parts : List Nat) (u v : Nat) :
    (compact parts).parts[u]? = (compact parts).parts[v]? ↔ parts[u]? = parts[v]? := by
  rw [getElem?_compact, getElem?_compact]
  refine ⟨fun same => ?_, congrArg _⟩
  cases hu : parts[u]? with
  | none =>
    rw [hu] at same
    exact (Option.map_eq_none_iff.1 same.symm).symm
  | some p =>
    cases hv : parts[v]? with
    | none => rw [hu, hv] at same; cases same
    | some q =>
      rw [hu, hv] at same
      exact congrArg some (rank_injOn (List.mem_of_getElem? hu) (List.mem_of_getElem? hv)
        (Option.some.inj same))

/-- Numbering the parts in use does not change which neighbours lie together. -/
theorem together_compact (r : PartitionRequest) (parts : List Nat) :
    r.Together (compact parts).parts = r.Together parts := by
  funext u v
  exact propext (and_congr_right' (getElem?_compact_eq_iff parts u v))

/-- Numbering the parts in use does not change which components have neighbours outside. -/
theorem open_compact (r : PartitionRequest) (parts : List Nat) (u : Nat) :
    r.Open (compact parts).parts u ↔ r.Open parts u := by
  simp only [PartitionRequest.Open, PartitionRequest.Linked, together_compact, ne_eq,
    getElem?_compact_eq_iff]

/-- Where a part is contiguous, any two of its nodes whose components have neighbours outside are
linked. -/
theorem linked_of_open (wf : r.WellFormed) {parts : List Nat} {u v : Nat}
    (length : parts.length = r.size) (contiguous : ∀ part, Contiguous r.next parts.toArray part)
    (same : parts[u]? = parts[v]?) (openU : r.Open parts u) (openV : r.Open parts v) :
    r.Linked parts u v := by
  obtain ⟨x, linkX, x', outX, otherX⟩ := openU
  obtain ⟨y, linkY, y', outY, otherY⟩ := openV
  have lt : x < parts.length := length ▸ wf.undirected.lt x' x (wf.symmetric x x' outX)
  have partX : parts[x]? = some parts[x] := List.getElem?_eq_getElem lt
  have sameXY : parts[x]? = parts[y]? := linkX.same.symm.trans (same.trans linkY.same)
  have edgeX : Boundary r.next parts.toArray parts[x] x := by
    refine ⟨by simp, x', outX, fun inPart => otherX ?_⟩
    exact partX.trans (by simpa using inPart.symm)
  have edgeY : Boundary r.next parts.toArray parts[x] y := by
    have partY : parts[y]? = some parts[x] := sameXY.symm.trans partX
    refine ⟨by simpa using partY, y', outY, fun inPart => otherY ?_⟩
    exact partY.trans (by simpa using inPart.symm)
  have link : r.Linked parts x y := ReflTransGen.mono
    (fun a b h => ⟨h.1, by simpa using h.2.1.trans h.2.2.symm⟩) x y (contiguous _ x y edgeX edgeY)
  exact (linkX.trans link).trans (linkY.symm wf)

/-- However the nodes of a well-formed request for connected parts are cut into runs, its repaired runs
make parts of which one component at most has neighbours outside. -/
theorem contiguousParts_repairRuns (wf : r.WellFormed) (contiguous : r.contiguous = true)
    {runs : List Nat} (length : runs.length = r.size) :
    r.ContiguousParts (compact (repairRuns r runs)).parts := by
  have length' : (repairRuns r runs).length = r.size := (length_repairRuns r runs).trans length
  have contiguous' := repairRuns_contiguous wf contiguous length
  generalize repairRuns r runs = parts at length' contiguous'
  have allOpen : ∀ u v, parts[u]? = parts[v]? → r.Open parts u → r.Open parts v →
      r.Linked parts u v := fun u v same openU openV =>
    linked_of_open wf length' contiguous' same openU openV
  rw [PartitionRequest.contiguousParts_iff]
  simp only [getElem?_compact_eq_iff, open_compact, PartitionRequest.Linked, together_compact]
  refine ⟨allOpen, fun u closed v => ⟨ReflTransGen.mono (fun _ _ h => h.1) u v,
    PartitionRequest.linked_of_not_open closed⟩, fun connected u v ltu ltv same => ?_⟩
  by_cases openU : r.Open parts u
  · by_cases openV : r.Open parts v
    · exact allOpen u v same openU openV
    · exact PartitionRequest.Linked.symm wf
        (PartitionRequest.linked_of_not_open openV (connected v u ltv ltu))
  · exact PartitionRequest.linked_of_not_open openU (connected u v ltu ltv)

/-- A well-formed request for connected parts overflows and ends the program, or the solver in wide words
answers with a part for every node. At most one component of a part has neighbours outside of the part,
and every other component is one of the whole graph. If the graph is connected, so are all parts. -/
theorem Wide.split?_contiguous (r : PartitionRequest) (wf : r.WellFormed)
    (contiguous : r.contiguous = true) :
    r.Overflows ∧ split? r = none ∨ ∃ answer, split? r = some (.ok answer) ∧
      answer.parts.length = r.size ∧ r.ContiguousParts answer.parts := by
  rcases split?_cases wf.answerable with ended | ⟨-, answered⟩
  · exact .inl ended
  · refine .inr ⟨_, answered, ?_, contiguousParts_repairRuns wf contiguous (length_runs r)⟩
    rw [length_compact, length_repairRuns, length_runs]

/-- A request for two parts of a tree with a light branch: the second run falls apart. -/
def branchedRequest : PartitionRequest where
  adjacency := [[1], [0, 3], [3], [1, 2]]
  weights := [0, 10, 0, 30]
  parts := 2
  contiguous := true

/-- The last node is left with the light branch that feeds it. -/
theorem branchedRequest_contiguous :
    (branchedRequest.WellFormed ∧ branchedRequest.contiguous = true) ∧
      Wide.split? branchedRequest = some (.ok ⟨2, [0, 0, 1, 1]⟩) ∧
        branchedRequest.ContiguousParts [0, 0, 1, 1] := by
  have wf : branchedRequest.WellFormed := by decide
  have cut : Wide.runs? (effectiveWeights branchedRequest.weights) branchedRequest.parts
      = some [0, 0, 0, 1] := rfl
  have repaired : compact (repairRuns branchedRequest [0, 0, 0, 1]) = ⟨2, [0, 0, 1, 1]⟩ := by cbv
  have runs := repaired ▸ Wide.split?_of_runs? wf.answerable cut
  rcases Wide.split?_contiguous branchedRequest wf rfl with ⟨-, ended⟩ | ⟨answer, answered, -, parts⟩
  · cases runs.symm.trans ended
  · cases runs.symm.trans answered
    exact ⟨⟨wf, rfl⟩, runs, parts⟩

end Sequential

end StagePlan
