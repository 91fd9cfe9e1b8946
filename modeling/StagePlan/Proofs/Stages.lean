import StagePlan.Proofs.Search
import StagePlan.Schedule

/-!
# Orders of stages

`stageEdges` keeps the pairs of different parts, each once and in ascending order
(`mem_stageEdges`, `pairwise_stageEdges`). `stageOrder` then searches the stages depth-first and
checks what it found: an order that passes the check lists every part once and after those it reads
from (`stageOrder_orders`), so none of them waits for itself (`Orders.acyclic`), and where none does
the search finds such an order (`exists_stageOrder`). So the stages can be ordered exactly if they
do not wait for each other.
-/

open Relation

namespace StagePlan

/-! ## Stage edges -/

section

variable {count a b : Nat} {pairs : List (Nat × Nat)}

/-- A stage edge joins different parts of a pair, the first of which is counted. -/
theorem mem_stageEdges : (a, b) ∈ stageEdges count pairs ↔ a < count ∧ (a, b) ∈ pairs ∧ b ≠ a := by
  unfold stageEdges
  rw [List.mem_flatMap]
  refine ⟨?_, ?_⟩
  · rintro ⟨source, inRange, member⟩
    obtain ⟨target, inTargets, same⟩ := List.mem_map.1 member
    cases same
    obtain ⟨⟨x, y⟩, inPairs, rfl⟩ := List.mem_map.1 (HandleSet.mem_ofList.1 inTargets)
    obtain ⟨inPairs', test⟩ := List.mem_filter.1 inPairs
    rw [Bool.and_eq_true, beq_iff_eq, bne_iff_ne] at test
    obtain ⟨rfl, different⟩ := test
    exact ⟨List.mem_range.1 inRange, inPairs', different⟩
  · rintro ⟨lt, inPairs, different⟩
    refine ⟨a, List.mem_range.2 lt, List.mem_map.2 ⟨b, HandleSet.mem_ofList.2 ?_, rfl⟩⟩
    refine List.mem_map.2 ⟨(a, b), List.mem_filter.2 ⟨inPairs, ?_⟩, rfl⟩
    rw [Bool.and_eq_true, beq_iff_eq, bne_iff_ne]
    exact ⟨rfl, different⟩

/-- The stage edges ascend, by their first part and then by their second one. -/
theorem pairwise_stageEdges (count : Nat) (pairs : List (Nat × Nat)) :
    (stageEdges count pairs).Pairwise fun e f => e.1 < f.1 ∨ e.1 = f.1 ∧ e.2 < f.2 := by
  unfold stageEdges
  refine List.pairwise_flatMap.2 ⟨fun a _ => ?_, ?_⟩
  · exact List.pairwise_map.2 ((HandleSet.ofList _).ascending.imp fun lt => .inr ⟨rfl, lt⟩)
  · refine List.pairwise_lt_range.imp fun lt e he f hf => .inl ?_
    obtain ⟨_, _, rfl⟩ := List.mem_map.1 he
    obtain ⟨_, _, rfl⟩ := List.mem_map.1 hf
    exact lt

end

/-! ## Readers and producers -/

section

variable {edges : List (Nat × Nat)} {count a b : Nat} {order : List Nat}

/-- The readers of a stage are the ends of its edges. -/
theorem mem_readers : b ∈ readers edges a ↔ (a, b) ∈ edges := by
  unfold readers
  rw [List.mem_map]
  refine ⟨?_, fun member => ⟨(a, b), List.mem_filter.2 ⟨member, beq_self_eq_true a⟩, rfl⟩⟩
  rintro ⟨⟨x, y⟩, member, rfl⟩
  obtain ⟨member', same⟩ := List.mem_filter.1 member
  obtain rfl : x = a := beq_iff_eq.1 same
  exact member'

/-- The producers of a stage are where its edges come from. -/
theorem mem_producers : a ∈ producers edges b ↔ (a, b) ∈ edges := by
  unfold producers
  rw [List.mem_map]
  refine ⟨?_, fun member => ⟨(a, b), List.mem_filter.2 ⟨member, beq_self_eq_true b⟩, rfl⟩⟩
  rintro ⟨⟨x, y⟩, member, rfl⟩
  obtain ⟨member', same⟩ := List.mem_filter.1 member
  obtain rfl : y = b := beq_iff_eq.1 same
  exact member'

/-- No producer is late if and only if every part of an order comes after the others that it reads
from. -/
theorem lateProducer?_eq_none : ∀ {earlier order : List Nat},
    lateProducer? edges earlier order = none ↔
      ∀ before part after, order = before ++ part :: after →
        ∀ a, (a, part) ∈ edges → a = part ∨ a ∈ before ∨ a ∈ earlier
  | _, [] => ⟨fun _ before _ _ same => by simp at same, fun _ => rfl⟩
  | earlier, first :: order => by
    have head : (producers edges first).find? (· ∉ first :: earlier) = none ↔
        ∀ a, (a, first) ∈ edges → a = first ∨ a ∈ earlier := by
      simp only [List.find?_eq_none, mem_producers, decide_not, Bool.not_eq_true',
        decide_eq_false_iff_not, Decidable.not_not, List.mem_cons]
    rw [lateProducer?, Option.orElse_eq_or, Option.or_eq_none_iff, head, lateProducer?_eq_none]
    refine ⟨?_, fun placed => ⟨fun a edge => ?_, fun before part after same a edge => ?_⟩⟩
    · rintro ⟨early, rest⟩ before part after same a edge
      cases before with
      | nil =>
        obtain ⟨rfl, -⟩ := List.cons.inj same
        exact (early a edge).imp_right .inr
      | cons _ before =>
        obtain ⟨rfl, behind⟩ := List.cons.inj same
        simpa [or_assoc, or_left_comm] using rest before part after behind a edge
    · simpa using placed [] first order rfl a edge
    · simpa [or_assoc, or_left_comm] using
        placed (first :: before) part after (congrArg (first :: ·) same) a edge

/-! ## Stage order -/

/-- An order lists every part below a number once, and after the parts that it reads from. -/
structure Orders (count : Nat) (edges : List (Nat × Nat)) (order : List Nat) : Prop where
  complete : order.Perm (List.range count)
  producersFirst : ∀ a b, (a, b) ∈ edges → order.idxOf a < order.idxOf b

/-- Stages that are ordered do not wait for themselves. -/
theorem Orders.acyclic (orders : Orders count edges order) (a : Nat) :
    ¬ TransGen (fun a b => (a, b) ∈ edges) a a := by
  have later : ∀ {a b}, TransGen (fun a b => (a, b) ∈ edges) a b →
      order.idxOf a < order.idxOf b := by
    intro a b path
    induction path with
    | single edge => exact orders.producersFirst _ _ edge
    | tail _ edge ih => exact Nat.lt_trans ih (orders.producersFirst _ _ edge)
  exact fun cycle => Nat.lt_irrefl _ (later cycle)

/-- The stages are ordered if no producer is late in the order of the search. -/
theorem stageOrder_eq_ok : stageOrder count edges = .ok order ↔
    (Search.all (readers edges) count).finished = order ∧ lateProducer? edges [] order = none := by
  unfold stageOrder
  dsimp only
  split
  next part late =>
    refine ⟨fun failed => (nomatch failed), ?_⟩
    rintro ⟨rfl, early⟩
    cases late.symm.trans early
  next early =>
    rw [Except.ok.injEq]
    exact ⟨fun same => ⟨same, same ▸ early⟩, And.left⟩

/-- The stages are not ordered if a producer is late, which is then reported. -/
theorem stageOrder_eq_error {e : Error} : stageOrder count edges = .error e ↔
    ∃ part, e = .inconsistentPartition (.cycle part) ∧
      lateProducer? edges [] (Search.all (readers edges) count).finished = some part := by
  unfold stageOrder
  dsimp only
  split
  next part late =>
    rw [Except.error.injEq]
    refine ⟨fun same => ⟨part, same.symm, late⟩, ?_⟩
    rintro ⟨part', rfl, late'⟩
    cases late.symm.trans late'
    rfl
  next early =>
    refine ⟨fun ordered => (nomatch ordered), ?_⟩
    rintro ⟨part, -, late⟩
    cases early.symm.trans late

/-- Stages fail to be ordered only because of a cycle. -/
theorem stageOrder_error {e : Error} (failed : stageOrder count edges = .error e) :
    ∃ part, e = .inconsistentPartition (.cycle part) :=
  let ⟨part, same, _⟩ := stageOrder_eq_error.1 failed
  ⟨part, same⟩

section

variable (counted : ∀ a b, (a, b) ∈ edges → a < count ∧ b < count)

include counted

/-- Readers are stages. -/
theorem readers_lt : ∀ a, ∀ b ∈ readers edges a, b < count := fun a b member =>
  (counted a b (mem_readers.1 member)).2

/-- The search of all stages finishes every stage once. -/
theorem perm_finished : (Search.all (readers edges) count).finished.Perm (List.range count) := by
  have distinct := (Search.all_adds (readers_lt counted)).nodup
  refine (List.perm_ext_iff_of_nodup distinct List.nodup_range).2 fun a => ?_
  rw [Search.mem_finished_all (readers_lt counted), List.mem_range]

/-- An order that passes the check is one. -/
theorem stageOrder_orders (different : ∀ a b, (a, b) ∈ edges → a ≠ b)
    (ordered : stageOrder count edges = .ok order) : Orders count edges order := by
  obtain ⟨found, early⟩ := stageOrder_eq_ok.1 ordered
  have complete : order.Perm (List.range count) := found ▸ perm_finished counted
  refine ⟨complete, fun a b edge => ?_⟩
  -- cut the order at `b`; its producer `a` is not late, so it stands in the part before
  obtain ⟨before, after, rfl⟩ :=
    List.append_of_mem (complete.mem_iff.2 (List.mem_range.2 (counted a b edge).2))
  have placed := lateProducer?_eq_none.1 early before b after rfl a edge
  have inBefore : a ∈ before :=
    (placed.resolve_left (different a b edge)).resolve_right List.not_mem_nil
  have distinct := complete.nodup_iff.2 List.nodup_range
  have fresh : b ∉ before := fun twice =>
    (List.nodup_append.1 distinct).2.2 b twice b List.mem_cons_self rfl
  rw [List.idxOf_append, if_pos inBefore, List.idxOf_append, if_neg fresh]
  exact Nat.lt_add_left _ (List.idxOf_lt_length_of_mem inBefore)

/-- Stages that do not wait for themselves can be ordered. -/
theorem exists_stageOrder (acyclic : ∀ a, ¬ TransGen (fun a b => (a, b) ∈ edges) a a) :
    ∃ order, stageOrder count edges = .ok order := by
  have finishing := Search.all_finishing (readers_lt counted) fun a cycle =>
    acyclic a (TransGen.mono (fun _ _ => mem_readers.1) a a cycle)
  have complete := perm_finished counted
  refine ⟨_, stageOrder_eq_ok.2 ⟨rfl, lateProducer?_eq_none.2 ?_⟩⟩
  intro before part after same a edge
  rw [same] at finishing complete
  have listed := complete.mem_iff.2 (List.mem_range.2 (counted a part edge).1)
  have distinct := complete.nodup_iff.2 List.nodup_range
  exact .inr (.inl (finishing.mem_before distinct listed (mem_readers.2 edge)))

end

end

end StagePlan
