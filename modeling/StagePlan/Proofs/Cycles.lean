import StagePlan.Proofs.Stages

/-!
# Reports of cycles

Where stages cannot be ordered one of them is reported. It is the second one that is met on the way
against the edges from some stage of the order, where a search goes on with what the searches from
the stages before it met (`secondMet?`): before it every search met only the stage it began at, so
the second one is a producer that is late (`secondMet?_eq`). Its reader was finished after it and
so leads back to it (`late_onCycle`), which puts the reported stage on a cycle
(`stageOrder_cycle`).
-/

open Relation

namespace StagePlan

/-! ## Searching against the edges -/

namespace Search

/-- The nodes that a search met since an earlier one, in the order in which it met them. -/
def metSince (earlier s : Search) : List Nat :=
  (s.seen.take (s.seen.length - earlier.seen.length)).reverse

section

variable {next : Nat → List Nat} {s s' : Search} {v : Nat} {new : List Nat}

/-- What a search met in addition is read off in the order in which it was met. -/
theorem metSince_eq (grown : s'.seen = new ++ s.seen) : metSince s s' = new.reverse := by
  rw [metSince, grown, List.length_append, Nat.add_sub_cancel, List.take_left]

/-- A visit meets nodes in addition to those that were met. -/
theorem seen_suffix_foldl {step : Search → Nat → Search}
    (grows : ∀ s v, s.seen <:+ (step s v).seen) :
    ∀ (vs : List Nat) (s : Search), s.seen <:+ (vs.foldl step s).seen
  | [], _ => List.suffix_rfl
  | v :: vs, s => (grows s v).trans (seen_suffix_foldl grows vs (step s v))

/-- A visit of a node that was met changes nothing. -/
theorem visit_of_met {depth : Nat} (met : v ∈ s.seen) : visit next depth s v = s := by
  cases depth with
  | zero => rfl
  | succ depth => rw [visit, if_pos met]

/-- What a visit of a new node meets is what the visits of its successors meet. -/
theorem seen_visit_of_fresh {depth : Nat} (fresh : v ∉ s.seen) :
    (visit next (depth + 1) s v).seen =
      ((next v).foldl (visit next depth) { s with seen := v :: s.seen }).seen := by
  rw [visit, if_neg fresh]

/-- A visit forgets nothing that was met before it. -/
theorem seen_suffix_visit (next : Nat → List Nat) :
    ∀ (depth : Nat) (s : Search) (v : Nat), s.seen <:+ (visit next depth s v).seen
  | 0, _, _ => List.suffix_rfl
  | depth + 1, s, v => by
    by_cases met : v ∈ s.seen
    · simp only [visit_of_met met, List.suffix_rfl]
    · rw [seen_visit_of_fresh met]
      exact (List.suffix_cons v s.seen).trans
        (seen_suffix_foldl (seen_suffix_visit next depth) (next v) { s with seen := v :: s.seen })

/-- Visits of nodes that were all met change nothing. -/
theorem foldl_visit_of_met {depth : Nat} :
    ∀ {vs : List Nat}, (∀ v ∈ vs, v ∈ s.seen) → vs.foldl (visit next depth) s = s
  | [], _ => rfl
  | v :: vs, met => by
    rw [List.foldl_cons, visit_of_met (met v List.mem_cons_self)]
    exact foldl_visit_of_met fun u hu => met u (List.mem_cons_of_mem v hu)

/-- A visit of a new node, all of whose successors were met, meets nothing else. -/
theorem seen_visit_of_met {depth : Nat} (deep : 0 < depth) (fresh : v ∉ s.seen)
    (met : ∀ u ∈ next v, u ∈ v :: s.seen) : (visit next depth s v).seen = v :: s.seen := by
  obtain ⟨depth, rfl⟩ := Nat.exists_eq_add_of_lt deep
  rw [seen_visit_of_fresh fresh]
  exact congrArg seen (foldl_visit_of_met met)

/-- A visit of a new node meets it first. -/
theorem cons_suffix_visit {depth : Nat} (deep : 0 < depth) (fresh : v ∉ s.seen) :
    v :: s.seen <:+ (visit next depth s v).seen := by
  obtain ⟨depth, rfl⟩ := Nat.exists_eq_add_of_lt deep
  rw [seen_visit_of_fresh fresh]
  exact seen_suffix_foldl (seen_suffix_visit next _) (next v) { s with seen := v :: s.seen }

/-- The second node that a visit of a new node meets is the first of its successors that was not
met. -/
theorem second_suffix_visit {depth u : Nat} (deep : 1 < depth) (fresh : v ∉ s.seen)
    (first : (next v).find? (· ∉ v :: s.seen) = some u) :
    u :: v :: s.seen <:+ (visit next depth s v).seen := by
  obtain ⟨depth, rfl⟩ : ∃ below, depth = below + 1 := ⟨depth - 1, by omega⟩
  obtain ⟨new, before, after, split, met⟩ := List.find?_eq_some_iff_append.1 first
  have new' : u ∉ v :: s.seen := by simpa using new
  have met' : ∀ a ∈ before, a ∈ v :: s.seen := fun a member => by
    simpa only [decide_not, Bool.not_not, decide_eq_true_eq] using met a member
  -- the visits of the successors before `u` change nothing
  have arrive : before.foldl (visit next depth) { s with seen := v :: s.seen } =
      { s with seen := v :: s.seen } := foldl_visit_of_met met'
  rw [seen_visit_of_fresh fresh, split, List.foldl_append, arrive, List.foldl_cons]
  exact (cons_suffix_visit (s := { s with seen := v :: s.seen }) (Nat.lt_of_succ_lt_succ deep)
    new').trans (seen_suffix_foldl (seen_suffix_visit next _) after _)

end

end Search

/-- The second part that is met against the edges from a part of an order, by searches that go on
with what the ones before them met. -/
def secondMet? (edges : List (Nat × Nat)) (count : Nat) : Search → List Nat → Option Nat
  | _, [] => none
  | s, part :: order =>
    let further := Search.visit (producers edges) count s part
    match Search.metSince s further with
    | _ :: second :: _ => some second
    | _ => secondMet? edges count further order

section

variable {edges : List (Nat × Nat)} {count part : Nat}

/-- The second part met is the first producer that is late: as long as none is, the searches meet
the parts of the order and nothing else. -/
theorem secondMet?_eq (counted : ∀ a b, (a, b) ∈ edges → a < count ∧ b < count) :
    ∀ {order : List Nat} {s : Search}, order.Nodup → (∀ a ∈ order, a < count ∧ a ∉ s.seen) →
      secondMet? edges count s order = lateProducer? edges s.seen order
  | [], _, _, _ => rfl
  | part :: order, s, distinct, fresh => by
    obtain ⟨lt, fresh'⟩ := fresh part List.mem_cons_self
    obtain ⟨once, distinct⟩ := List.nodup_cons.1 distinct
    rw [secondMet?, lateProducer?]
    cases late : (producers edges part).find? (· ∉ part :: s.seen) with
    | some second =>
      have unmet : second ∉ part :: s.seen := by simpa using List.find?_some late
      have lt' := (counted second part (mem_producers.1 (List.mem_of_find?_eq_some late))).1
      -- two parts are counted, so the search goes deep enough to meet the second one
      have different : second ≠ part := fun same => unmet (same ▸ List.mem_cons_self)
      have deep : 1 < count := by omega
      obtain ⟨later, grown⟩ := Search.second_suffix_visit deep fresh' late
      have grown' : (Search.visit (producers edges) count s part).seen =
          (later ++ [second, part]) ++ s.seen := by
        rw [← grown, List.append_assoc]
        rfl
      have met := Search.metSince_eq grown'
      simp only [met, List.reverse_append, List.reverse_cons, List.reverse_nil, List.nil_append,
        List.cons_append, Option.orElse_some]
    | none =>
      have placed : ∀ a ∈ producers edges part, a ∈ part :: s.seen := fun a member => by
        simpa only [decide_not, Bool.not_eq_true', decide_eq_false_iff_not, Decidable.not_not]
          using List.find?_eq_none.1 late a member
      have grown := Search.seen_visit_of_met (Nat.zero_lt_of_lt lt) fresh' placed
      have met := Search.metSince_eq (show _ = [part] ++ s.seen from grown)
      have fresh'' : ∀ a ∈ order, a < count ∧
          a ∉ (Search.visit (producers edges) count s part).seen := by
        intro a member
        obtain ⟨lt, unmet⟩ := fresh a (List.mem_cons_of_mem part member)
        rw [grown, List.mem_cons, not_or]
        exact ⟨lt, fun same => once (same ▸ member), unmet⟩
      simp only [met, List.reverse_singleton, Option.orElse_none]
      rw [secondMet?_eq counted distinct fresh'', grown]

/-! ## Late producers -/

/-- A producer that is late does not stand before a part that reads from it. -/
theorem lateProducer?_eq_some : ∀ {earlier order : List Nat},
    lateProducer? edges earlier order = some part →
      ∃ before reader after, order = before ++ reader :: after ∧ (part, reader) ∈ edges ∧
        part ∉ before ∧ part ≠ reader ∧ part ∉ earlier
  | _, [], late => nomatch late
  | earlier, first :: order, late => by
    rw [lateProducer?, Option.orElse_eq_or, Option.or_eq_some_iff] at late
    rcases late with found | ⟨-, late⟩
    · have unmet : part ∉ first :: earlier := by simpa using List.find?_some found
      rw [List.mem_cons, not_or] at unmet
      exact ⟨[], first, order, rfl, mem_producers.1 (List.mem_of_find?_eq_some found),
        List.not_mem_nil, unmet⟩
    · obtain ⟨before, reader, after, rfl, edge, notBefore, different, unmet⟩ :=
        lateProducer?_eq_some late
      rw [List.mem_cons, not_or] at unmet
      refine ⟨first :: before, reader, after, rfl, edge, ?_, different, unmet.2⟩
      exact fun member => (List.mem_cons.1 member).elim unmet.1 notBefore

/-- What is late in the order of the search is on a cycle: it was finished before a part that reads
from it, which therefore leads back to it. -/
theorem late_onCycle (counted : ∀ a b, (a, b) ∈ edges → a < count ∧ b < count)
    (late : lateProducer? edges [] (Search.all (readers edges) count).finished = some part) :
    TransGen (fun a b => (a, b) ∈ edges) part part := by
  obtain ⟨before, reader, after, split, edge, notBefore, different, -⟩ :=
    lateProducer?_eq_some late
  have returning := Search.all_returning (readers_lt counted)
  have complete := perm_finished counted
  rw [split] at returning complete
  have listed := complete.mem_iff.2 (List.mem_range.2 (counted part reader edge).1)
  have behind : part ∈ after :=
    (List.mem_cons.1 ((List.mem_append.1 listed).resolve_left notBefore)).resolve_left different
  obtain ⟨between, rest, rfl⟩ := List.append_of_mem behind
  -- the reader is listed once, so it does not stand behind the part as well
  have notBehind : reader ∉ rest := by
    have distinct := complete.nodup_iff.2 List.nodup_range
    have once := (List.nodup_cons.1 (List.nodup_append.1 distinct).2.1).1
    exact fun member => once (List.mem_append_right between (List.mem_cons_of_mem part member))
  rw [← List.cons_append, ← List.append_assoc] at returning
  have back := returning.leads_back (mem_readers.2 edge) notBehind
  exact .head edge (TransGen.mono (fun _ _ => mem_readers.1) reader part back)

/-! ## The report -/

/-- Stages that cannot be ordered are reported by one that reads from itself through others: the
second one that is met against the edges. -/
theorem stageOrder_cycle (counted : ∀ a b, (a, b) ∈ edges → a < count ∧ b < count) {e : Error}
    (failed : stageOrder count edges = .error e) :
    ∃ part, e = .inconsistentPartition (.cycle part) ∧
      e.message = "inconsistent partition: "
        ++ s!"partition {part} lies on a cycle of the induced partition graph" ∧
      secondMet? edges count {} (Search.all (readers edges) count).finished = some part ∧
      TransGen (fun a b => (a, b) ∈ edges) part part := by
  obtain ⟨part, rfl, late⟩ := stageOrder_eq_error.1 failed
  have complete := perm_finished counted
  have met := secondMet?_eq counted (s := {}) (complete.nodup_iff.2 List.nodup_range)
    fun a member => ⟨List.mem_range.1 (complete.mem_iff.1 member), List.not_mem_nil⟩
  exact ⟨part, rfl, rfl, met.trans late, late_onCycle counted late⟩

end

/-- A stage that reads from nothing comes before three that wait for each other, from one of which a
fifth one reads. -/
def knottedEdges : List (Nat × Nat) := [(0, 2), (1, 3), (2, 1), (3, 2), (3, 4)]

/-- The report is one of the three, and neither the stage before them nor the one behind them. -/
theorem knottedEdges_cycle : (∀ a b, (a, b) ∈ knottedEdges → a < 5 ∧ b < 5) ∧
    stageOrder 5 knottedEdges = .error (.inconsistentPartition (.cycle 3)) ∧
    TransGen (fun a b => (a, b) ∈ knottedEdges) 3 3 := by
  have counted : ∀ a b, (a, b) ∈ knottedEdges → a < 5 ∧ b < 5 := by
    have all : ∀ e ∈ knottedEdges, e.1 < 5 ∧ e.2 < 5 := by decide
    exact fun a b edge => all (a, b) edge
  have failed : stageOrder 5 knottedEdges = .error (.inconsistentPartition (.cycle 3)) := rfl
  obtain ⟨part, same, -, -, cycle⟩ := stageOrder_cycle counted failed
  cases same
  exact ⟨counted, failed, cycle⟩

end StagePlan
