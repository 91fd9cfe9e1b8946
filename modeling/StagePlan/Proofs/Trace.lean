import Mathlib.Data.List.Basic
import StagePlan.Proofs.Results
import StagePlan.Trace

/-!
# The scopes of a trace

A trace is `WellScoped` if every operand is defined before its op, every output slot defines a value
of its own, and every result is defined. `Trace.validate` walks through the ops with the list of
the values defined so far; `defineAll_eq_ok_iff` says when a walk succeeds and what it leaves, for
any values defined before it, and `validate_eq_ok_iff` that the check accepts exactly the
well-scoped traces.
-/

namespace StagePlan.Trace

/-- A value is an input of a trace, or an output of one of some ops. -/
def Defines (t : Trace) (ops : List TraceOp) (v : ValueId) : Prop :=
  v < t.inputs.length ∨ ∃ op ∈ ops, v ∈ op.outputs

/-- Every value is defined once, and before it is used. -/
structure WellScoped (t : Trace) : Prop where
  /-- The operands of an op are defined by what stands before it. -/
  operands : ∀ before op after, t.ops = before ++ op :: after → ∀ v ∈ op.inputs, t.Defines before v
  /-- No output slot defines an input. -/
  fresh : ∀ op ∈ t.ops, ∀ v ∈ op.outputs, ¬ v < t.inputs.length
  /-- No two output slots define the same value. -/
  distinct : (t.ops.flatMap (·.outputs)).Nodup
  /-- The results are defined. -/
  results : ∀ v ∈ t.outputs, t.Defines t.ops v

/-- Ops are well-scoped where some values are defined before them. -/
structure ScopedFrom (defined : List ValueId) (ops : List TraceOp) : Prop where
  operands : ∀ before op after, ops = before ++ op :: after → ∀ v ∈ op.inputs,
    v ∈ defined ∨ ∃ op' ∈ before, v ∈ op'.outputs
  fresh : ∀ op ∈ ops, ∀ v ∈ op.outputs, v ∉ defined
  distinct : (ops.flatMap (·.outputs)).Nodup

section

variable {t : Trace} {position : Nat} {op : TraceOp} {ops : List TraceOp}
  {defined defined' vs : List ValueId}

/-! ## Steps of the check -/

/-- Refuses the first of some values that is not defined. -/
def require (defined : List ValueId) (cause : ReferenceCause) (vs : List ValueId) :
    Except Error Unit :=
  match vs.find? (· ∉ defined) with
  | some v => .error (.danglingReference v cause)
  | none => .ok ()

/-- The check passes if all required values are defined. -/
theorem require_eq_ok_iff {cause : ReferenceCause} {u : Unit} :
    require defined cause vs = .ok u ↔ ∀ v ∈ vs, v ∈ defined := by
  unfold require
  split
  next v missing =>
    have undefined : v ∉ defined := by simpa using List.find?_some missing
    exact ⟨fun h => (nomatch h),
      fun all => absurd (all v (List.mem_of_find?_eq_some missing)) undefined⟩
  next found =>
    refine ⟨fun _ v hv => ?_, fun _ => rfl⟩
    simpa using List.find?_eq_none.1 found v hv

/-- Values are required one after the other. -/
theorem require_cons (cause : ReferenceCause) (v : ValueId) : require defined cause (v :: vs) =
    if v ∈ defined then require defined cause vs else .error (.danglingReference v cause) := by
  unfold require
  rw [List.find?_cons]
  by_cases known : v ∈ defined <;> simp [known]

/-- Values are defined one after the other. -/
theorem define_cons (v : ValueId) : define position op defined (v :: vs) =
    (if v ∈ defined then .error (.danglingReference v (.redefined position op.kind))
      else .ok (v :: defined)) >>= fun defined => define position op defined vs := by
  rw [define]
  split <;> rfl

/-- Ops are checked one after the other. -/
theorem defineAll_cons : defineAll position defined (op :: ops) =
    (require defined (.operandUndefined position op.kind) op.inputs >>= fun _ =>
      define position op defined op.outputs) >>= fun defined =>
        defineAll (position + 1) defined ops := by
  rw [defineAll, require]
  cases op.inputs.find? (· ∉ defined) <;> rfl

/-- A trace is checked from its inputs over its ops to its results. -/
theorem validate_eq (t : Trace) : t.validate =
    defineAll 0 (List.range t.inputs.length) t.ops >>= fun defined =>
      require defined .resultUndefined t.outputs := by
  unfold validate require
  congr

/-! ## What the check accepts -/

/-- The outputs of an op are defined if they are new and distinct. -/
theorem define_eq_ok_iff : define position op defined vs = .ok defined' ↔
    vs.Nodup ∧ (∀ v ∈ vs, v ∉ defined) ∧ defined' = vs.reverse ++ defined := by
  induction vs generalizing defined with
  | nil => simp [define, eq_comm]
  | cons v vs ih =>
    unfold define
    split
    next old => simp [old]
    next new =>
      rw [ih]
      simp only [List.nodup_cons, List.mem_cons, List.reverse_cons, List.append_assoc,
        List.singleton_append, forall_eq_or_imp, not_or]
      refine ⟨?_, ?_⟩
      · rintro ⟨nodup, other, rfl⟩
        exact ⟨⟨fun again => (other v again).1 rfl, nodup⟩, ⟨new, fun w hw => (other w hw).2⟩, rfl⟩
      · rintro ⟨⟨once, nodup⟩, ⟨-, other⟩, rfl⟩
        exact ⟨nodup, fun w hw => ⟨fun same => once (same ▸ hw), other w hw⟩, rfl⟩

/-- The first op reads what is defined already, and the others what it defines as well. -/
theorem scopedFrom_cons : ScopedFrom defined (op :: ops) ↔ (∀ v ∈ op.inputs, v ∈ defined) ∧
    (op.outputs.Nodup ∧ ∀ v ∈ op.outputs, v ∉ defined) ∧
      ScopedFrom (op.outputs.reverse ++ defined) ops := by
  refine ⟨fun wf => ?_, fun ⟨operands, ⟨nodup, new⟩, rest⟩ => ⟨?_, ?_, ?_⟩⟩
  · obtain ⟨operands, fresh, distinct⟩ := wf
    rw [List.flatMap_cons, List.nodup_append] at distinct
    obtain ⟨nodup, distinct, apart⟩ := distinct
    -- for the other ops what the first one defines is defined before them
    refine ⟨fun v hv => ?_, ⟨nodup, fresh op List.mem_cons_self⟩, ?_, fun op' hop v hv => ?_,
      distinct⟩
    · simpa using operands [] op ops rfl v hv
    · intro before op' after same v hv
      have earlier := operands (op :: before) op' after (congrArg (op :: ·) same) v hv
      simpa [or_assoc, or_comm, or_left_comm] using earlier
    · rw [List.mem_append, List.mem_reverse, not_or]
      refine ⟨fun again => ?_, fresh op' (List.mem_cons_of_mem op hop) v hv⟩
      exact apart v again v (List.mem_flatMap.2 ⟨op', hop, hv⟩) rfl
  · intro before op' after same v hv
    cases before with
    | nil =>
      obtain ⟨rfl, rfl⟩ := List.cons.inj same
      exact .inl (operands v hv)
    | cons first before =>
      obtain ⟨rfl, same'⟩ := List.cons.inj same
      have earlier := rest.operands before op' after same' v hv
      simpa [or_assoc, or_comm, or_left_comm] using earlier
  · intro op' hop v hv
    rcases List.mem_cons.1 hop with rfl | hop
    · exact new v hv
    · exact fun old => rest.fresh op' hop v hv (List.mem_append_right _ old)
  · rw [List.flatMap_cons, List.nodup_append]
    refine ⟨nodup, rest.distinct, fun v hv w hw same => ?_⟩
    obtain ⟨op', hop, hw⟩ := List.mem_flatMap.1 hw
    exact rest.fresh op' hop w hw (List.mem_append_left _ (List.mem_reverse.2 (same ▸ hv)))

/-- A walk through ops succeeds if they are well-scoped, and leaves their outputs defined. -/
theorem defineAll_eq_ok_iff : defineAll position defined ops = .ok defined' ↔
    ScopedFrom defined ops ∧ defined' = (ops.flatMap (·.outputs)).reverse ++ defined := by
  induction ops generalizing position defined with
  | nil =>
    have nothing : ScopedFrom defined [] := ⟨by simp, by simp, by simp⟩
    simp [defineAll, nothing, eq_comm]
  | cons op ops ih =>
    rw [defineAll_cons, scopedFrom_cons, Results.bind_eq_ok]
    simp only [Results.bind_eq_ok, require_eq_ok_iff, define_eq_ok_iff, ih, List.flatMap_cons,
      List.reverse_append, List.append_assoc, exists_const]
    refine ⟨?_, ?_⟩
    · rintro ⟨_, ⟨operands, nodup, new, rfl⟩, wf, rfl⟩
      exact ⟨⟨operands, ⟨nodup, new⟩, wf⟩, rfl⟩
    · rintro ⟨⟨operands, ⟨nodup, new⟩, wf⟩, rfl⟩
      exact ⟨_, ⟨operands, nodup, new, rfl⟩, wf, rfl⟩

/-- A trace is accepted exactly if it is well-scoped. -/
theorem validate_eq_ok_iff : t.validate = .ok () ↔ t.WellScoped := by
  have defines : ∀ v, v ∈ (t.ops.flatMap (·.outputs)).reverse ++ List.range t.inputs.length ↔
      t.Defines t.ops v := by
    intro v
    rw [List.mem_append, List.mem_reverse, List.mem_flatMap, List.mem_range, or_comm, Defines]
  rw [validate_eq, Results.bind_eq_ok]
  simp only [defineAll_eq_ok_iff, require_eq_ok_iff]
  refine ⟨?_, fun wf => ⟨_, ⟨⟨?_, ?_, wf.distinct⟩, rfl⟩, ?_⟩⟩
  · rintro ⟨_, ⟨⟨operands, fresh, distinct⟩, rfl⟩, results⟩
    simp only [List.mem_range] at operands fresh
    simp only [defines] at results
    exact ⟨operands, fresh, distinct, results⟩
  · simp only [List.mem_range]
    exact wf.operands
  · simp only [List.mem_range]
    exact wf.fresh
  · simp only [defines]
    exact wf.results

end

end StagePlan.Trace
