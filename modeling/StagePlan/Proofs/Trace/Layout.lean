import Mathlib.Algebra.BigOperators.Group.List.Basic
import Mathlib.Algebra.GroupWithZero.Nat
import StagePlan.Trace

/-!
# The layout of a trace

The nodes of a trace stand in its order: one for every input, then for every op one per output slot,
and one for an op without outputs. So the nodes of an op start where those of the inputs and of the
ops before it end (`Trace.OpAt`). A value is held by the node of the input or of the slot that
defines it (`Trace.Holds`). Edges lead from the node of every operand to the primary node of its op,
and from there to the nodes of the further slots (`Trace.Joins`).

Nothing of this depends on what comes later in the trace: `opAt_snocOp` says what one more op adds,
and `holds_snocOp` and `joins_snocOp` what becomes of the values and the edges.
-/

namespace StagePlan

/-- The number of nodes of an op. -/
def TraceOp.nodeCount (op : TraceOp) : Nat := max 1 op.outputs.length

/-- Every op has a node. -/
theorem TraceOp.nodeCount_pos (op : TraceOp) : 0 < op.nodeCount := Nat.le_max_left _ _

namespace Trace

/-- The number of nodes of a trace. -/
def nodeCount (t : Trace) : Nat := t.inputs.length + (t.ops.map (·.nodeCount)).sum

/-- The number of nodes of the inputs and of the ops before a position. -/
def primary (t : Trace) (position : Nat) : Nat :=
  t.inputs.length + ((t.ops.take position).map (·.nodeCount)).sum

/-- An op, with its position, has its first node at a place. -/
def OpAt (t : Trace) (position : Nat) (op : TraceOp) (place : Nat) : Prop :=
  t.ops[position]? = some op ∧ place = t.primary position

/-- A value is the input or the output slot of the node at a place. -/
inductive Holds (t : Trace) : ValueId → Nat → Prop
  | input {i : Nat} : i < t.inputs.length → Holds t i i
  | slot {position place slot : Nat} {op : TraceOp} {v : ValueId} : t.OpAt position op place →
      op.outputs[slot]? = some v → Holds t v (place + slot)

/-- An edge leads from an operand to the primary node of its op, or from there to a further slot. -/
inductive Joins (t : Trace) : Nat → Nat → Prop
  | operand {position place source : Nat} {op : TraceOp} {v : ValueId} : t.OpAt position op place →
      v ∈ op.inputs → t.Holds v source → Joins t source place
  | slot {position place slot : Nat} {op : TraceOp} : t.OpAt position op place → slot ≠ 0 →
      slot < op.outputs.length → Joins t place (place + slot)

/-- The trace with one more op. -/
def snocOp (t : Trace) (op : TraceOp) : Trace := { t with ops := t.ops ++ [op] }

section

variable {t : Trace} {op : TraceOp} {position place v h : Nat}

/-- Every input has one of the first nodes. -/
theorem lt_nodeCount {i : Nat} {input : TraceInput} (at_ : t.inputs[i]? = some input) :
    i < t.nodeCount := by
  obtain ⟨lt, -⟩ := List.getElem?_eq_some_iff.1 at_
  exact Nat.lt_of_lt_of_le lt (Nat.le_add_right _ _)

/-- All nodes come before the end of the ops. -/
theorem primary_length (t : Trace) : t.primary t.ops.length = t.nodeCount := by
  rw [primary, List.take_length, nodeCount]

/-- The nodes of an op are followed by those of the next one. -/
theorem primary_succ (at_ : t.ops[position]? = some op) :
    t.primary (position + 1) = t.primary position + op.nodeCount := by
  rw [primary, primary, List.take_add_one, at_, Option.toList_some, List.map_append, List.sum_append,
    List.map_singleton, List.sum_singleton, Nat.add_assoc]

/-- The nodes of an op are among those of the trace. -/
theorem OpAt.add_le (at_ : t.OpAt position op place) : place + op.nodeCount ≤ t.nodeCount := by
  have parts := congrArg (fun ops => (ops.map fun op => op.nodeCount).sum)
    (List.take_append_drop (position + 1) t.ops)
  simp only [List.map_append, List.sum_append] at parts
  rw [at_.2, ← primary_succ at_.1, primary, nodeCount]
  omega

/-- The nodes of an op come before those of the ops after it. -/
theorem OpAt.add_le_of_lt {position' place' : Nat} {op' : TraceOp} (at_ : t.OpAt position op place)
    (at' : t.OpAt position' op' place') (lt : position < position') :
    place + op.nodeCount ≤ place' := by
  -- the nodes before the later op are those of the trace that stops there
  have stopped : ({ t with ops := t.ops.take position' } : Trace).OpAt position op place := by
    refine ⟨?_, ?_⟩
    · rw [← at_.1]
      exact List.getElem?_take_of_lt lt
    · rw [at_.2, primary, primary, List.take_take, Nat.min_eq_left (Nat.le_of_lt lt)]
  rw [at'.2]
  exact stopped.add_le

/-- No node belongs to two slots. -/
theorem OpAt.unique {position' place' slot slot' : Nat} {op' : TraceOp}
    (at_ : t.OpAt position op place) (at' : t.OpAt position' op' place') (lt : slot < op.nodeCount)
    (lt' : slot' < op'.nodeCount) (same : place + slot = place' + slot') :
    place = place' ∧ slot = slot' := by
  rcases Nat.lt_trichotomy position position' with before | rfl | after
  · have := at_.add_le_of_lt at' before
    omega
  · have places : place = place' := at_.2.trans at'.2.symm
    omega
  · have := at'.add_le_of_lt at_ after
    omega

/-- Every node belongs to an input or to a slot of an op. -/
theorem place_cases (t : Trace) (lt : h < t.nodeCount) : h < t.inputs.length ∨
    ∃ position op place slot, t.OpAt position op place ∧ slot < op.nodeCount ∧ h = place + slot := by
  -- the nodes before an op are covered, from the first op on
  suffices covered : ∀ position ≤ t.ops.length, h < t.primary position → h < t.inputs.length ∨
      ∃ position op place slot, t.OpAt position op place ∧ slot < op.nodeCount ∧ h = place + slot from
    covered t.ops.length (Nat.le_refl _) (t.primary_length.symm ▸ lt)
  intro position le before
  induction position with
  | zero => exact .inl before
  | succ position ih =>
    have at_ := List.getElem?_eq_getElem (Nat.lt_of_succ_le le)
    rw [primary_succ at_] at before
    rcases Nat.lt_or_ge h (t.primary position) with lt | ge
    · exact ih (Nat.le_of_succ_le le) lt
    · exact .inr ⟨position, _, _, h - t.primary position, ⟨at_, rfl⟩, by omega, by omega⟩

/-- The only edge to a further slot is that from the primary node. -/
theorem OpAt.joins_slot_iff {slot source : Nat} (at_ : t.OpAt position op place) (further : slot ≠ 0)
    (lt : slot < op.outputs.length) : t.Joins source (place + slot) ↔ source = place := by
  have lt_count : ∀ {op : TraceOp} {slot : Nat}, slot < op.outputs.length → slot < op.nodeCount :=
    fun lt => Nat.lt_of_lt_of_le lt (Nat.le_max_right _ _)
  refine ⟨fun joins => ?_, ?_⟩
  · generalize target : place + slot = h at joins
    cases joins with
    | @operand _ _ _ op' _ at' _ _ =>
      have same := (at_.unique at' (lt_count lt) op'.nodeCount_pos target).2
      exact absurd same further
    | slot at' _ lt' => exact (at_.unique at' (lt_count lt) (lt_count lt') target).1.symm
  · rintro rfl
    exact .slot at_ further lt

/-! ## Inputs alone -/

/-- Without ops no op has a place. -/
theorem not_opAt (inputs : t.ops = []) : ¬ t.OpAt position op place := fun at_ => by
  simp [OpAt, inputs] at at_

/-- Without ops the values are the inputs. -/
theorem holds_of_inputs (inputs : t.ops = []) : t.Holds v h ↔ v < t.inputs.length ∧ h = v := by
  refine ⟨?_, ?_⟩
  · rintro (lt | ⟨at_, _⟩)
    · exact ⟨lt, rfl⟩
    · exact absurd at_ (not_opAt inputs)
  · rintro ⟨lt, rfl⟩
    exact .input lt

/-- Without ops there is no edge. -/
theorem not_joins (inputs : t.ops = []) {u w : Nat} : ¬ t.Joins u w := by
  rintro (⟨at_, _, _⟩ | ⟨at_, _, _⟩) <;> exact not_opAt inputs at_

/-! ## One more op -/

@[simp] theorem ops_snocOp : (t.snocOp op).ops = t.ops ++ [op] := rfl

/-- One more op adds its nodes. -/
theorem nodeCount_snocOp : (t.snocOp op).nodeCount = t.nodeCount + op.nodeCount := by
  simp [snocOp, nodeCount, Nat.add_assoc]

/-- The ops that were there keep their places, and the new one takes the next. -/
theorem opAt_snocOp {op' : TraceOp} : (t.snocOp op).OpAt position op' place ↔
    t.OpAt position op' place ∨ position = t.ops.length ∧ op' = op ∧ place = t.nodeCount := by
  have places : ∀ position ≤ t.ops.length, (t.snocOp op).primary position = t.primary position := by
    intro position le
    rw [primary, snocOp, List.take_append_of_le_length le, primary]
  unfold OpAt
  rcases Nat.lt_trichotomy position t.ops.length with lt | rfl | gt
  · simp [places position (Nat.le_of_lt lt), List.getElem?_append_left lt, Nat.ne_of_lt lt]
  · simp [places, primary_length, eq_comm]
  · simp [List.getElem?_append_right (Nat.le_of_lt gt), Nat.ne_of_gt gt, Nat.le_of_lt gt,
      Nat.sub_ne_zero_of_lt gt]

/-- One more op adds the values of its slots. -/
theorem holds_snocOp : (t.snocOp op).Holds v h ↔ t.Holds v h ∨
    ∃ slot, op.outputs[slot]? = some v ∧ h = t.nodeCount + slot := by
  refine ⟨?_, ?_⟩
  · rintro (lt | ⟨at_, value⟩)
    · exact .inl (.input lt)
    · rcases opAt_snocOp.1 at_ with at_ | ⟨-, rfl, rfl⟩
      · exact .inl (.slot at_ value)
      · exact .inr ⟨_, value, rfl⟩
  · rintro ((lt | ⟨at_, value⟩) | ⟨slot, value, rfl⟩)
    · exact .input lt
    · exact .slot (opAt_snocOp.2 (.inl at_)) value
    · exact .slot (opAt_snocOp.2 (.inr ⟨rfl, rfl, rfl⟩)) value

/-- One more op has an edge from each of its operands, provided that it does not hold an operand of
an op before it, and one to each further slot. -/
theorem joins_snocOp (settled : ∀ op' ∈ t.ops, ∀ v ∈ op'.inputs, ∀ h,
      (t.snocOp op).Holds v h → t.Holds v h) {u w : Nat} :
    (t.snocOp op).Joins u w ↔ t.Joins u w ∨
      (w = t.nodeCount ∧ ∃ v ∈ op.inputs, (t.snocOp op).Holds v u) ∨
        u = t.nodeCount ∧ u < w ∧ w < t.nodeCount + op.nodeCount := by
  have new : (t.snocOp op).OpAt t.ops.length op t.nodeCount := opAt_snocOp.2 (.inr ⟨rfl, rfl, rfl⟩)
  refine ⟨?_, ?_⟩
  · rintro (⟨at_, operand, held⟩ | ⟨at_, further, lt⟩) <;>
      rcases opAt_snocOp.1 at_ with old | ⟨-, rfl, rfl⟩
    · exact .inl (.operand old operand (settled _ (List.mem_of_getElem? old.1) _ operand _ held))
    · exact .inr (.inl ⟨rfl, _, operand, held⟩)
    · exact .inl (.slot old further lt)
    · refine .inr (.inr ⟨rfl, Nat.lt_add_of_pos_right (Nat.pos_of_ne_zero further), ?_⟩)
      exact Nat.add_lt_add_left (Nat.lt_of_lt_of_le lt (Nat.le_max_right _ _)) _
  · rintro ((⟨at_, operand, held⟩ | ⟨at_, further, lt⟩) | ⟨rfl, v, operand, held⟩ | ⟨rfl, gt, lt⟩)
    · exact .operand (opAt_snocOp.2 (.inl at_)) operand (holds_snocOp.2 (.inl held))
    · exact .slot (opAt_snocOp.2 (.inl at_)) further lt
    · exact .operand new operand held
    · obtain ⟨slot, rfl⟩ := Nat.exists_eq_add_of_lt gt
      refine .slot new (Nat.succ_ne_zero slot) ?_
      unfold TraceOp.nodeCount at lt
      omega

end

end Trace

end StagePlan
