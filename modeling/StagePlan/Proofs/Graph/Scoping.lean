import Mathlib.Algebra.BigOperators.Group.List.Basic
import StagePlan.Proofs.Graph.Building
import StagePlan.Proofs.Trace

/-!
# Building and checking a trace

The build looks up every value that it meets, so it checks the scopes of a trace once more. A builder
`Knows` the values that the check has defined so far if these are the values with a node, and then
the two go on in agreement (`Knows.addOps`): both find the next op in order, or both stop at the same
value. What else the build asks for concerns the inputs alone (`Trace.InputsReady`), and comes first.
So the build and the check agree on every trace whose inputs are ready (`ofTrace_agree`), and
`ofTrace_scoped` says which traces have a graph.
-/

open StagePlan.Results (Agree)

namespace StagePlan

/-- Both errors are about the same value, which does not refer to one definition. -/
def Error.SameValue (e e' : Error) : Prop :=
  ∃ v c c', e = .danglingReference v c ∧ e' = .danglingReference v c'

/-! ## Inputs -/

/-- The number of elements is known if no product on the way from the left overflows. -/
theorem Shape.exists_elements? (sizes : Shape) :
    (∃ n, elements? sizes = some n) ↔ ∀ k, (sizes.take k).prod < Word.limit := by
  have continued : ∀ (sizes : Shape) (start : Nat), start < Word.limit →
      ((∃ n, sizes.foldlM (fun product size => if product * size < Word.limit then
        some (product * size) else none) start = some n) ↔
          ∀ k, start * (sizes.take k).prod < Word.limit) := by
    intro sizes
    induction sizes with
    | nil => intro start fits; simpa using fits
    | cons size sizes ih =>
      intro start fits
      rw [List.foldlM_cons]
      split
      next fits' =>
        rw [Option.bind_eq_bind, Option.bind_some, ih _ fits']
        refine ⟨fun all k => ?_, fun all k => ?_⟩
        · cases k with
          | zero => simpa using fits
          | succ k => simpa [Nat.mul_assoc] using all k
        · simpa [Nat.mul_assoc] using all (k + 1)
      next overflows =>
        refine ⟨fun ⟨n, h⟩ => (nomatch h), fun all => absurd ?_ overflows⟩
        simpa using all 1
  have whole := continued sizes 1 (by decide)
  simp only [Nat.one_mul] at whole
  exact whole

/-- The input at a position has sizes, of which no product from the left overflows, and a scope if
it is no model input. -/
structure TraceInput.Ready (s : BuildSettings) (position : Nat) (input : TraceInput) : Prop where
  sized : ∃ sizes, input.sizes = some sizes ∧ ∀ k, (sizes.take k).prod < Word.limit
  named : s.numInputs ≤ position → ∃ scope, s.parameterScopes[position - s.numInputs]? = some scope

/-- There are as many inputs as model inputs at least, and all of them are ready. -/
structure Trace.InputsReady (t : Trace) (s : BuildSettings) : Prop where
  enough : s.numInputs ≤ t.inputs.length
  ready : ∀ (position : Nat) input, t.inputs[position]? = some input →
    TraceInput.Ready s position input

namespace Builder

/-- The values with a node are those that are defined. -/
def Knows (b : Builder) (defined : List ValueId) : Prop :=
  ∀ v, (b.handles.lookup v).isSome = true ↔ v ∈ defined

section

variable {s : BuildSettings} {position : Nat} {b b' : Builder} {op : TraceOp}
  {defined : List ValueId}

/-- One more value has a node and is defined. -/
theorem Knows.cons (knows : b.Knows defined) (v : ValueId) (h : Handle) (g : Graph) :
    ({ graph := g, handles := (v, h) :: b.handles } : Builder).Knows (v :: defined) := by
  intro w
  rw [List.lookup_cons, List.mem_cons]
  by_cases same : w = v
  · simp [same]
  · simpa [same, beq_false_of_ne same] using knows w

/-- An input is labelled, or it is the first one that no scope is left for. -/
theorem inputLabel_cases (s : BuildSettings) (position : Nat) :
    (∃ label, inputLabel s position = .ok label ∧
      (s.numInputs ≤ position → ∃ scope, s.parameterScopes[position - s.numInputs]? = some scope)) ∨
    (inputLabel s position = .error (.shapeResolution position .noScope) ∧ s.numInputs ≤ position ∧
      s.parameterScopes[position - s.numInputs]? = none) := by
  unfold inputLabel
  split
  next first => exact .inl ⟨_, rfl, fun more => absurd first (Nat.not_lt.2 more)⟩
  next more =>
    split
    next scope found => exact .inl ⟨_, rfl, fun _ => ⟨scope, found⟩⟩
    next missing => exact .inr ⟨rfl, Nat.le_of_not_lt more, missing⟩

/-- An input that is ready gets a node, and any other one is refused for its shape. -/
theorem addInput_cases (s : BuildSettings) (b : Builder) (position : Nat) (input : TraceInput) :
    (TraceInput.Ready s position input ∧
      ∃ g h, b.addInput s position input = .ok ⟨g, (position, h) :: b.handles⟩) ∨
    (¬ TraceInput.Ready s position input ∧
      ∃ cause, b.addInput s position input = .error (.shapeResolution position cause)) := by
  unfold addInput
  cases sizes_eq : input.sizes with
  | none =>
    refine .inr ⟨fun ready => ?_, _, rfl⟩
    obtain ⟨sizes, found, _⟩ := ready.sized
    rw [sizes_eq] at found
    cases found
  | some sizes =>
    rcases inputLabel_cases s position with ⟨⟨kind, scope⟩, labelled, named⟩ | ⟨refused, more, missing⟩
    · dsimp only
      rw [labelled]
      cases elements : Shape.elements? sizes with
      | none =>
        refine .inr ⟨fun ready => ?_, .overflow sizes, rfl⟩
        obtain ⟨sizes', found, fits⟩ := ready.sized
        rw [sizes_eq] at found
        cases found
        obtain ⟨n, found⟩ := (Shape.exists_elements? sizes).2 fits
        rw [elements] at found
        cases found
      | some n =>
        have fits := (Shape.exists_elements? sizes).1 ⟨n, elements⟩
        exact .inl ⟨⟨⟨sizes, sizes_eq, fits⟩, named⟩, _, _, rfl⟩
    · refine .inr ⟨fun ready => ?_, .noScope, ?_⟩
      · obtain ⟨scope, found⟩ := ready.named more
        rw [missing] at found
        cases found
      · dsimp only
        rw [refused]
        rfl

/-- Inputs that are all ready get nodes, and any other ones are refused for a shape. -/
theorem addInputs_cases (s : BuildSettings) : ∀ (inputs : List TraceInput) (b : Builder)
    (position : Nat) (defined : List ValueId), b.Knows defined →
    ((∀ (i : Nat) input, inputs[i]? = some input → TraceInput.Ready s (position + i) input) ∧
      ∃ b', b.addInputs s position inputs = .ok b' ∧
        b'.Knows ((List.range' position inputs.length).reverse ++ defined)) ∨
    ((¬ ∀ (i : Nat) input, inputs[i]? = some input → TraceInput.Ready s (position + i) input) ∧
      ∃ i cause, b.addInputs s position inputs = .error (.shapeResolution i cause))
  | [], b, position, defined, knows => .inl ⟨fun i input at_ => by simp at at_, b, rfl, knows⟩
  | input :: inputs, b, position, defined, knows => by
    rw [addInputs]
    rcases addInput_cases s b position input with ⟨ready, g, h, added⟩ | ⟨unready, cause, refused⟩
    · rw [added]
      -- the input at `i + 1` is the one at `i` of those that are left
      have shift : ∀ i, position + 1 + i = position + (i + 1) := fun i => by omega
      rcases addInputs_cases s inputs _ (position + 1) _ (knows.cons position h g) with
        ⟨all, b', rest, knows'⟩ | ⟨some_, rest⟩
      · refine .inl ⟨fun i input' at_ => ?_, b', rest, ?_⟩
        · cases i with
          | zero => exact (Option.some.inj at_) ▸ ready
          | succ i => exact shift i ▸ all i input' at_
        · simpa [List.range'_succ] using knows'
      · refine .inr ⟨fun all => some_ fun i input' at_ => ?_, rest⟩
        exact shift i ▸ all (i + 1) input' at_
    · rw [refused]
      exact .inr ⟨fun all => unready (all 0 input rfl), position, cause, rfl⟩

/-! ## Ops and results -/

/-- The build resolves some values where the check finds them all defined. -/
theorem Knows.resolve_mapM (knows : b.Knows defined) (user : String) (cause : ReferenceCause) :
    ∀ vs : List ValueId, Agree (fun _ _ => True) Error.SameValue (vs.mapM (b.resolve user))
      (Trace.require defined cause vs)
  | [] => .ok trivial
  | v :: vs => by
    rw [List.mapM_cons, Trace.require_cons, Builder.resolve]
    cases found : b.handles.lookup v with
    | some h =>
      have known : v ∈ defined := (knows v).1 (found ▸ rfl)
      rw [if_pos known]
      exact (knows.resolve_mapM user cause vs).map_left fun _ _ _ => trivial
    | none =>
      have unknown : v ∉ defined := fun known => by simpa [found] using (knows v).2 known
      rw [if_neg unknown]
      exact .error ⟨v, _, _, rfl, rfl⟩

/-- The build gives a value a node where the check defines it. -/
theorem Knows.define (knows : b.Knows defined) (v : ValueId) (h : Handle) :
    Agree Knows Error.SameValue (b.define position op v h)
      (if v ∈ defined then .error (.danglingReference v (.redefined position op.kind))
        else .ok (v :: defined)) := by
  unfold Builder.define
  cases found : b.handles.lookup v with
  | some h' =>
    rw [if_pos ((knows v).1 (found ▸ rfl))]
    exact .error ⟨v, _, _, rfl, rfl⟩
  | none =>
    have new : v ∉ defined := fun old => by simpa [found] using (knows v).2 old
    rw [if_neg new]
    exact .ok (knows.cons v h b.graph)

/-- The build adds the output slots where the check defines the outputs: every further slot is next
to be filled, so it is in its place. -/
theorem Knows.addSlots {primary : Nat} : ∀ {vs : List ValueId} {slot : Nat} {b : Builder}
    {defined : List ValueId}, b.Knows defined → b.Sound → primary + max slot 1 = b.graph.nextHandle →
      Agree Knows Error.SameValue (b.addSlots position op primary slot vs)
        (Trace.define position op defined vs)
  | [], _, _, _, knows, _, _ => .ok knows
  | v :: vs, slot, b, defined, knows, sound, next => by
    rw [Builder.addSlots, Trace.define_cons]
    by_cases first : slot = 0
    -- the first output is the primary node itself, which is there already
    · rw [if_pos first]
      have lt : primary < b.graph.nextHandle := by rw [← next]; omega
      refine (knows.define v primary).bind fun b' defined' defined_ _ knows' => ?_
      obtain ⟨sound', same⟩ := sound.define lt defined_
      refine knows'.addSlots sound' ?_
      rw [same, ← next]
      omega
    -- any other one gets the next handle, which is as far from the primary node as its slot says
    · rw [if_neg first]
      have next' : primary + slot = b.graph.nextHandle := by rw [← next]; omega
      obtain ⟨g, added⟩ := sound.growing.exists_addSecondary? first next'
      obtain ⟨growing, more⟩ := sound.growing.addSecondary? added
      have lt : b.graph.nextHandle < g.nextHandle := more ▸ Nat.lt_succ_self _
      have grown : ({ b with graph := g } : Builder).Knows defined := knows
      rw [added]
      refine (grown.define v b.graph.nextHandle).bind fun b' defined' defined_ _ knows' => ?_
      obtain ⟨sound', same⟩ := (sound.grow growing (Nat.le_of_lt lt)).define lt defined_
      refine knows'.addSlots sound' ?_
      rw [same]
      show primary + max (slot + 1) 1 = g.nextHandle
      rw [more, ← next']
      omega

/-- The build and the check agree on an op: its operands are defined first, and its outputs then. -/
theorem Knows.addOp (knows : b.Knows defined) (sound : b.Sound) :
    Agree Knows Error.SameValue (b.addOp s position op)
      (Trace.require defined (.operandUndefined position op.kind) op.inputs >>= fun _ =>
        Trace.define position op defined op.outputs) := by
  refine (knows.resolve_mapM op.kind _ op.inputs).bind fun operands _ resolved _ _ => ?_
  obtain ⟨sound', next⟩ := sound.addPrimary resolved (opLabel s position op).2
    (opLabel s position op).1 [op.outputShape] rfl
  refine Knows.addSlots ?_ sound' next.symm
  exact knows

/-- They agree on all ops. -/
theorem Knows.addOps : ∀ {ops : List TraceOp} {position : Nat} {b : Builder}
    {defined : List ValueId}, b.Knows defined → b.Sound →
      Agree Knows Error.SameValue (b.addOps s position ops) (Trace.defineAll position defined ops)
  | [], _, _, _, knows, _ => .ok knows
  | op :: ops, position, b, defined, knows, sound => by
    rw [Builder.addOps, Trace.defineAll_cons]
    exact (knows.addOp sound).bind fun b' defined' added _ knows' =>
      knows'.addOps (sound.addOp added)

/-- The build marks the results where the check finds them defined. -/
theorem Knows.markResults (knows : b.Knows defined) (results : List ValueId) :
    Agree (fun _ _ => True) Error.SameValue (b.markResults results)
      (Trace.require defined .resultUndefined results) :=
  (knows.resolve_mapM _ _ results).map_left fun _ _ _ => trivial

end

end Builder

/-! ## Traces -/

namespace Graph

variable {t : Trace} {s : BuildSettings}

/-- The build and the check agree on a trace whose inputs are ready. -/
theorem ofTrace_agree (ready : t.InputsReady s) :
    Agree (fun _ _ => True) Error.SameValue (ofTrace t s) t.validate := by
  have empty : ({} : Builder).Knows [] := fun v => by simp
  rcases Builder.addInputs_cases s t.inputs {} 0 [] empty with ⟨-, b, added, knows⟩ | ⟨some_, -⟩
  · have sound := Builder.Sound.empty.addInputs added
    rw [List.append_nil] at knows
    -- the inputs are the values from 0 on, and the check starts from these
    have knows' : b.Knows (List.range t.inputs.length) := fun v => by
      rw [knows v, List.mem_reverse, List.range_eq_range']
    have unmeasured : Agree (fun _ _ => True) Error.SameValue (ofTraceUnmeasured t s) t.validate := by
      rw [Trace.validate_eq, ofTraceUnmeasured, if_neg (Nat.not_lt.2 ready.enough)]
      show Agree _ _ (Builder.addInputs s {} 0 t.inputs >>= _) _
      rw [added]
      exact (knows'.addOps sound).bind fun b' defined _ _ knows'' => knows''.markResults t.outputs
    exact unmeasured.map_left fun _ _ _ => trivial
  · refine absurd (fun i input at_ => ?_) some_
    rw [Nat.zero_add]
    exact ready.ready i input at_

/-- The build refuses a trace whose inputs are not ready, for their number or for a shape. -/
theorem ofTrace_unready (unready : ¬ t.InputsReady s) :
    (∃ cause, ofTrace t s = .error (.settings cause)) ∨
      ∃ i cause, ofTrace t s = .error (.shapeResolution i cause) := by
  unfold ofTrace ofTraceUnmeasured
  by_cases few : t.inputs.length < s.numInputs
  · rw [if_pos few]
    exact .inl ⟨_, rfl⟩
  · rw [if_neg few]
    have empty : ({} : Builder).Knows [] := fun v => by simp
    rcases Builder.addInputs_cases s t.inputs {} 0 [] empty with ⟨all, -⟩ | ⟨-, i, cause, refused⟩
    · refine absurd ⟨Nat.le_of_not_lt few, fun i input at_ => ?_⟩ unready
      rw [← Nat.zero_add i]
      exact all i input at_
    · refine .inr ⟨i, cause, ?_⟩
      show (Builder.addInputs s {} 0 t.inputs >>= _) >>= _ = _
      rw [refused]
      rfl

/-- A trace has a graph, or it is refused for its inputs or for a value. -/
theorem ofTrace_cases (t : Trace) (s : BuildSettings) :
    (∃ g, ofTrace t s = .ok g) ∨ (∃ cause, ofTrace t s = .error (.settings cause)) ∨
      (∃ i cause, ofTrace t s = .error (.shapeResolution i cause)) ∨
        ∃ v cause, ofTrace t s = .error (.danglingReference v cause) := by
  by_cases ready : t.InputsReady s
  · rcases (ofTrace_agree ready).ends with ⟨g, _, built, _⟩ | ⟨_, _, refused, _, v, cause, _, rfl, _⟩
    · exact .inl ⟨g, built⟩
    · exact .inr (.inr (.inr ⟨v, cause, refused⟩))
  · rcases ofTrace_unready ready with refused | refused
    · exact .inr (.inl refused)
    · exact .inr (.inr (.inl refused))

/-- The check accepts exactly the well-scoped traces, and those of them whose inputs are ready have a
graph. Where the inputs are ready but the trace is not well-scoped, the build stops at the same
value as the check. It never finds an output slot out of its place. -/
theorem ofTrace_scoped (t : Trace) (s : BuildSettings) :
    (t.validate = .ok () ↔ t.WellScoped) ∧
      ((∃ g, ofTrace t s = .ok g) ↔ t.InputsReady s ∧ t.validate = .ok ()) ∧
        (t.InputsReady s → t.validate ≠ .ok () → ∃ v c c', t.validate =
          .error (.danglingReference v c) ∧ ofTrace t s = .error (.danglingReference v c')) ∧
          ∀ cause, ofTrace t s ≠ .error (.inconsistentPartition cause) := by
  refine ⟨Trace.validate_eq_ok_iff, ⟨fun ⟨g, built⟩ => ?_, fun ⟨ready, valid⟩ => ?_⟩,
    fun ready invalid => ?_, fun cause refused => ?_⟩
  · by_cases ready : t.InputsReady s
    · rcases (ofTrace_agree ready).ends with ⟨_, _, _, valid⟩ | ⟨_, _, refused, _⟩
      · exact ⟨ready, valid⟩
      · cases built.symm.trans refused
    · rcases ofTrace_unready ready with ⟨_, refused⟩ | ⟨_, _, refused⟩ <;>
        cases built.symm.trans refused
  · rcases (ofTrace_agree ready).ends with ⟨g, _, built, _⟩ | ⟨_, _, _, refused, _⟩
    · exact ⟨g, built⟩
    · cases valid.symm.trans refused
  · rcases (ofTrace_agree ready).ends with ⟨_, _, _, valid⟩ | ⟨_, _, stopped, refused, v, c, c', rfl, rfl⟩
    · exact absurd valid invalid
    · exact ⟨v, c', c, refused, stopped⟩
  · rcases ofTrace_cases t s with ⟨_, h⟩ | ⟨_, h⟩ | ⟨_, _, h⟩ | ⟨_, _, h⟩ <;>
      cases refused.symm.trans h

/-- A trace of an op that reads its own output, after one with two outputs. -/
def selfReadingTrace : Trace where
  inputs := [⟨some [2, 3]⟩]
  ops := [⟨[0], [1, 2], "layer", "onnx::Split", ""⟩, ⟨[2, 3], [3], "layer", "onnx::Add", ""⟩]
  outputs := [3, 4]

/-- Both stop at the value that the op reads before it defines it. -/
theorem selfReadingTrace_refused : selfReadingTrace.InputsReady { numInputs := 1 } ∧
    selfReadingTrace.validate ≠ .ok () ∧ ∃ v c c', selfReadingTrace.validate =
      .error (.danglingReference v c) ∧
        ofTrace selfReadingTrace { numInputs := 1 } = .error (.danglingReference v c') := by
  have ready : selfReadingTrace.InputsReady { numInputs := 1 } := by
    refine ⟨Nat.le_refl 1, fun position input at_ => ?_⟩
    obtain ⟨first, rfl⟩ := List.getElem?_eq_some_iff.1 at_
    obtain rfl : position = 0 := Nat.lt_one_iff.1 first
    exact ⟨⟨[2, 3], rfl, (Shape.exists_elements? [2, 3]).1 ⟨6, rfl⟩⟩,
      fun more => absurd more (by decide)⟩
  have invalid : selfReadingTrace.validate ≠ .ok () := nofun
  exact ⟨ready, invalid, (ofTrace_scoped selfReadingTrace { numInputs := 1 }).2.2.1 ready invalid⟩

end Graph

end StagePlan
