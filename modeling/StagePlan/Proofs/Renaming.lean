import StagePlan.Proofs.Graph.Lockstep
import StagePlan.Proofs.Plan

/-!
# Values are only names

The build keeps the node of every value in a list, and nothing else of a value than whether it is
equal to another one. So a trace with other names for its values is built in lockstep, with equal
graphs (`Builder.addInputs_rename`, `Builder.InStep.finish`). Inputs are values by position, which
is why a renaming has to leave them alone. `make_rename` concludes that a trace with renamed values
has the same graph and the same plan, or is refused for the same reason.
-/

open StagePlan.Results (Agree)

namespace StagePlan

/-- The op with other names for its values. -/
def TraceOp.rename (f : ValueId → ValueId) (op : TraceOp) : TraceOp :=
  { op with inputs := op.inputs.map f, outputs := op.outputs.map f }

/-- The trace with other names for its values; what an input is follows from its position. -/
def Trace.rename (f : ValueId → ValueId) (t : Trace) : Trace :=
  { t with ops := t.ops.map (·.rename f), outputs := t.outputs.map f }

section

variable {f : ValueId → ValueId}

/-! ## Building -/

/-- A graph is like itself, whatever is done to it. -/
theorem Graph.kept_eq : Graph.Kept Eq where
  nextHandle same := by rw [same]
  connect u v same := by rw [same]
  addSecondary? primary slot same := by
    rw [same]
    cases Graph.addSecondary? _ primary slot with
    | none => exact .none
    | some g => exact .some rfl
  markOutput h same := by rw [same]

/-- An op is in step with itself under new names. -/
theorem TraceOp.inStep_rename (f : ValueId → ValueId) (op : TraceOp) :
    op.InStep Eq f (op.rename f) where
  inputs := rfl
  outputs := rfl
  scope := rfl
  kind := rfl
  add scope kind same := by
    rw [same]
    rfl

namespace Builder

variable {s : BuildSettings} {position : Nat} {b b' : Builder}

/-- Inputs are values by position, so their names stay. -/
theorem addInput_rename (step : b.InStep Eq f b') (fixed : f position = position)
    (input : TraceInput) :
    InStep.Ends Eq f (b.addInput s position input) (b'.addInput s position input) := by
  unfold addInput
  rw [← step.graph, step.handles]
  cases input.sizes with
  | none => exact .error rfl
  | some sizes =>
    rcases inputLabel_cases s position with ⟨label, labelled, -⟩ | ⟨refused, -⟩
    · dsimp only
      rw [labelled]
      cases Shape.elements? sizes with
      | none => exact .error rfl
      | some n => exact .ok ⟨rfl, by simp [fixed]⟩
    · dsimp only
      rw [refused]
      exact .error rfl

/-- All inputs are added alike, if none of them gets a new name. -/
theorem addInputs_rename : ∀ (inputs : List TraceInput) (position : Nat) {b b' : Builder},
    (∀ i < position + inputs.length, f i = i) → b.InStep Eq f b' →
      InStep.Ends Eq f (b.addInputs s position inputs) (b'.addInputs s position inputs)
  | [], _, _, _, _, step => .ok step
  | input :: inputs, position, b, b', fixed, step => by
    rw [addInputs, addInputs]
    refine (addInput_rename step (fixed position (by simp)) input).bind fun _ _ _ _ step' => ?_
    refine addInputs_rename inputs (position + 1) (fun i lt => fixed i ?_) step'
    rw [List.length_cons]
    omega

end Builder

/-! ## Graphs and plans -/

variable {t : Trace}

/-- The graph of a renamed trace is the same, and so is the fault that keeps it from being built. -/
theorem Graph.ofTrace_rename (injective : f.Injective) (fixed : ∀ i < t.inputs.length, f i = i)
    (s : BuildSettings) : ofTrace (t.rename f) s = (ofTrace t s).mapError (Error.rename f) := by
  have unmeasured : Agree Eq (fun e e' => e' = e.rename f) (ofTraceUnmeasured t s)
      (ofTraceUnmeasured (t.rename f) s) := by
    rw [ofTraceUnmeasured_eq, ofTraceUnmeasured_eq]
    by_cases few : t.inputs.length < s.numInputs
    · rw [if_pos few, if_pos (show (t.rename f).inputs.length < s.numInputs from few)]
      exact .error rfl
    · rw [if_neg few, if_neg (show ¬ (t.rename f).inputs.length < s.numInputs from few)]
      have ops : List.Forall₂ (TraceOp.InStep Eq f) t.ops (t.ops.map (·.rename f)) :=
        List.forall₂_map_right_iff.2 (List.forall₂_same.2 fun op _ => op.inStep_rename f)
      exact (Builder.addInputs_rename t.inputs 0 (by simpa using fixed) ⟨rfl, rfl⟩).bind
        fun _ _ _ _ step => step.finish kept_eq injective ops rfl
  unfold ofTrace
  generalize ofTraceUnmeasured t s = x at unmeasured
  generalize ofTraceUnmeasured (t.rename f) s = y at unmeasured
  cases unmeasured with
  | ok same => rw [same]; rfl
  | error same => rw [same]; rfl

end

namespace Plan

variable {f : ValueId → ValueId} {t : Trace} {s : Settings} {solver : Solver}

/-- Once the graph of a trace is built, a plan does not fail for a value. -/
theorem error_rename {g : Graph} {e : Error} (built : Graph.ofTrace t s.build = .ok g)
    (failed : make t s solver = .error e) : e.rename f = e := by
  rcases make_eq_error.1 failed with refused | ⟨g', built', refused | ⟨split, -, refused⟩⟩
  · cases built.symm.trans refused
  · rcases Graph.split_error refused with ⟨_, rfl⟩ | ⟨_, rfl⟩ <;> rfl
  · have top := (topological_cleanUp built').1
    obtain ⟨_, rfl⟩ := top.schedule_error top.consistent refused
    rfl

/-- Values are only names. Under every injective renaming that leaves the inputs alone, and whatever
the settings and the solver are, a trace has the same graph and the same plan, or is refused for the
same reason, where the value that the reason is about has its new name. -/
theorem make_rename (f : ValueId → ValueId) (injective : f.Injective) (t : Trace)
    (fixed : ∀ i < t.inputs.length, f i = i) :
    (∀ s : BuildSettings,
      (∀ g, Graph.ofTrace t s = .ok g → Graph.ofTrace (t.rename f) s = .ok g) ∧
        ∀ e, Graph.ofTrace t s = .error e → Graph.ofTrace (t.rename f) s = .error (e.rename f)) ∧
      ∀ (s : Settings) (solver : Solver),
        (∀ plan, make t s solver = .ok plan → make (t.rename f) s solver = .ok plan) ∧
          ∀ e, make t s solver = .error e → make (t.rename f) s solver = .error (e.rename f) := by
  refine ⟨fun s => ?_, fun s solver => ?_⟩
  · rw [Graph.ofTrace_rename injective fixed s]
    exact ⟨fun g built => by rw [built]; rfl, fun e refused => by rw [refused]; rfl⟩
  · cases built : Graph.ofTrace t s.build with
    | error e =>
      have refused : make t s solver = .error e := make_eq_error.2 (.inl built)
      have refused' : make (t.rename f) s solver = .error (e.rename f) := by
        rw [make, Graph.ofTrace_rename injective fixed, built]
        rfl
      rw [refused, refused']
      exact ⟨fun _ made => (by cases made), fun _ same => by rw [Except.error.inj same]⟩
    | ok g =>
      have same : make (t.rename f) s solver = make t s solver := by
        rw [make, make, Graph.ofTrace_rename injective fixed, built]
        rfl
      rw [same]
      exact ⟨fun plan made => made, fun e failed => by rw [error_rename built failed, failed]⟩

/-- The renaming that puts the first four values that are not the first input in reverse order. -/
def reversed (v : Nat) : Nat := if 1 ≤ v ∧ v ≤ 4 then 5 - v else v

/-- A trace of an op with two outputs and of one that reads the second of them. -/
def splitTrace (result : ValueId) : Trace where
  inputs := [⟨some [2, 3]⟩]
  ops := [⟨[0], [1, 2], "layer", "onnx::Split", ""⟩, ⟨[2, 0], [3], "layer", "onnx::Add", ""⟩]
  outputs := [result]

/-- In reverse order the values have the same graph, and the result that is never defined is missed
under its new name. -/
theorem reversed_renamed : reversed.Injective ∧
    (∀ i < (splitTrace 4).inputs.length, reversed i = i) ∧
    (∃ g, Graph.ofTrace (splitTrace 3) twoDevices.build = .ok g ∧
      Graph.ofTrace ((splitTrace 3).rename reversed) twoDevices.build = .ok g) ∧
    ∃ cause, make (splitTrace 4) twoDevices swappingSolver = .error (.danglingReference 4 cause) ∧
      make ((splitTrace 4).rename reversed) twoDevices swappingSolver =
        .error (.danglingReference 1 cause) := by
  have injective : reversed.Injective := by
    intro v w same
    unfold reversed at same
    split at same <;> split at same <;> omega
  have fixed : ∀ i < 1, reversed i = i := by decide
  obtain ⟨g, built⟩ : ∃ g, Graph.ofTrace (splitTrace 3) twoDevices.build = .ok g := ⟨_, rfl⟩
  have refused : make (splitTrace 4) twoDevices swappingSolver =
      .error (.danglingReference 4 (.noProducer "graph output")) := rfl
  obtain ⟨graphs, -⟩ := make_rename reversed injective (splitTrace 3) fixed
  obtain ⟨-, plans⟩ := make_rename reversed injective (splitTrace 4) fixed
  exact ⟨injective, fixed, ⟨g, built, (graphs twoDevices.build).1 g built⟩, _, refused,
    (plans twoDevices swappingSolver).2 _ refused⟩

end Plan

end StagePlan
