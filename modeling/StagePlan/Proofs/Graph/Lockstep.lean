import Mathlib.Data.List.Forall2
import StagePlan.Proofs.Graph.Building

/-!
# Two builds in lockstep

Two traces whose ops differ in the names of values and in shapes only are built in lockstep: the
builders stay `InStep`, which means that their graphs are alike and that every value has its node
under its new name. What it takes for graphs to be alike is left open. It has to be `Kept` by all
that a build does to both graphs, and ops have to add nodes that are alike (`TraceOp.InStep`). Where
one build stops the other one stops for the same reason, about the same value (`Error.rename`).
-/

open StagePlan.Results (Agree)

namespace StagePlan

/-- The error with another name for the value that it is about. -/
def Error.rename (f : ValueId → ValueId) : Error → Error
  | .danglingReference v cause => .danglingReference (f v) cause
  | e => e

/-- Graphs that are alike give out the same handles, and stay alike if the same edge, the same
further slot or the same output is added to both. -/
structure Graph.Kept (alike : Graph → Graph → Prop) : Prop where
  nextHandle : ∀ {g g' : Graph}, alike g g' → g.nextHandle = g'.nextHandle
  connect : ∀ {g g' : Graph} (u v : Handle), alike g g' → alike (g.connect u v) (g'.connect u v)
  addSecondary? : ∀ {g g' : Graph} (primary : Handle) (slot : Nat), alike g g' →
    Option.Rel alike (g.addSecondary? primary slot) (g'.addSecondary? primary slot)
  markOutput : ∀ {g g' : Graph} (h : Handle), alike g g' → alike (g.markOutput h) (g'.markOutput h)

/-- Two ops are the same under new names for their values, and nodes added for them are alike. -/
structure TraceOp.InStep (alike : Graph → Graph → Prop) (f : ValueId → ValueId)
    (op op' : TraceOp) : Prop where
  inputs : op'.inputs = op.inputs.map f
  outputs : op'.outputs = op.outputs.map f
  scope : op'.scope = op.scope
  kind : op'.kind = op.kind
  add : ∀ {g g' : Graph} (scope : String) (kind : NodeKind), alike g g' →
    alike (g.add scope kind [op.outputShape] .unmeasured)
      (g'.add scope kind [op'.outputShape] .unmeasured)

/-- The graphs of two builders are alike, and values have the same nodes under new names. -/
structure Builder.InStep (alike : Graph → Graph → Prop) (f : ValueId → ValueId)
    (b b' : Builder) : Prop where
  graph : alike b.graph b'.graph
  handles : b'.handles = b.handles.map fun e => (f e.1, e.2)

section

variable {alike : Graph → Graph → Prop} {f : ValueId → ValueId}

/-- An entry is found under its new name, if no other one gets this name. -/
theorem lookup_rename (injective : f.Injective) (v : ValueId) (l : List (ValueId × Handle)) :
    (l.map fun e => (f e.1, e.2)).lookup (f v) = l.lookup v := by
  induction l with
  | nil => rfl
  | cons e l ih =>
    rw [List.map_cons, List.lookup_cons, List.lookup_cons, ih]
    have same : (f v == f e.1) = (v == e.1) := by
      simp only [beq_eq_beq, injective.eq_iff]
    rw [same]

/-- Graphs stay alike if the same edges to one node are added to both. -/
theorem Graph.Kept.foldl_connect (kept : Graph.Kept alike) (v : Handle) : ∀ (hs : List Handle)
    {g g' : Graph}, alike g g' →
      alike (hs.foldl (fun g h => g.connect h v) g) (hs.foldl (fun g h => g.connect h v) g')
  | [], _, _, same => same
  | h :: hs, _, _, same => kept.foldl_connect v hs (kept.connect h v same)

/-- They stay alike if the same nodes are marked as outputs of both. -/
theorem Graph.Kept.foldl_markOutput (kept : Graph.Kept alike) : ∀ (hs : List Handle)
    {g g' : Graph}, alike g g' → alike (hs.foldl Graph.markOutput g) (hs.foldl Graph.markOutput g')
  | [], _, _, same => same
  | h :: hs, _, _, same => kept.foldl_markOutput hs (kept.markOutput h same)

namespace Builder.InStep

variable {b b' : Builder} {op op' : TraceOp} {s : BuildSettings} {position : Nat}

/-- Both builds go on in lockstep, or stop for the same reason. -/
abbrev Ends (alike : Graph → Graph → Prop) (f : ValueId → ValueId) :
    Except Error Builder → Except Error Builder → Prop :=
  Agree (InStep alike f) fun e e' => e' = e.rename f

/-- A value is found under its new name where it was found under the old one. -/
theorem resolve (step : b.InStep alike f b') (injective : f.Injective) (user : String)
    (v : ValueId) : Agree Eq (fun e e' => e' = e.rename f) (b.resolve user v)
      (b'.resolve user (f v)) := by
  unfold Builder.resolve
  rw [step.handles, lookup_rename injective]
  cases b.handles.lookup v with
  | none => exact .error rfl
  | some h => exact .ok rfl

/-- In lockstep, values are resolved to the same nodes under new names, or the first one without a node
is reported under its new name. -/
theorem resolve_mapM (step : b.InStep alike f b') (injective : f.Injective) (user : String) :
    ∀ vs : List ValueId, Agree Eq (fun e e' => e' = e.rename f) (vs.mapM (b.resolve user))
      ((vs.map f).mapM (b'.resolve user))
  | [] => .ok rfl
  | v :: vs => by
    rw [List.map_cons, List.mapM_cons, List.mapM_cons]
    refine (step.resolve injective user v).bind fun h _ _ _ same => ?_
    refine (step.resolve_mapM injective user vs).bind fun hs _ _ _ same' => ?_
    rw [same, same']
    exact .ok rfl

/-- A value is defined in both builders, or refused in both. -/
theorem define (step : b.InStep alike f b') (injective : f.Injective) (kind : op'.kind = op.kind)
    (v : ValueId) (h : Handle) :
    Ends alike f (b.define position op v h) (b'.define position op' (f v) h) := by
  unfold Builder.define
  rw [step.handles, lookup_rename injective, kind]
  cases b.handles.lookup v with
  | none => exact .ok ⟨step.graph, rfl⟩
  | some _ => exact .error rfl

/-- The output slots of an op are added in lockstep. -/
theorem addSlots (kept : Graph.Kept alike) (injective : f.Injective) (kind : op'.kind = op.kind)
    (primary : Handle) : ∀ (vs : List ValueId) (slot : Nat) {b b' : Builder},
      b.InStep alike f b' → Ends alike f (b.addSlots position op primary slot vs)
        (b'.addSlots position op' primary slot (vs.map f))
  | [], _, _, _, step => .ok step
  | v :: vs, slot, b, b', step => by
    rw [List.map_cons, Builder.addSlots, Builder.addSlots]
    by_cases first : slot = 0
    · rw [if_pos first, if_pos first]
      exact (step.define injective kind v primary).bind fun _ _ _ _ step' =>
        addSlots kept injective kind primary vs (slot + 1) step'
    · rw [if_neg first, if_neg first, ← kept.nextHandle step.graph]
      -- the further slot is out of place in both graphs or in none
      have both := kept.addSecondary? primary slot step.graph
      generalize b.graph.addSecondary? primary slot = added at both
      generalize b'.graph.addSecondary? primary slot = added' at both
      cases both with
      | none => exact .error rfl
      | some graphs =>
        have grown : InStep alike f { b with graph := _ } { b' with graph := _ } :=
          ⟨graphs, step.handles⟩
        exact (grown.define injective kind v b.graph.nextHandle).bind fun _ _ _ _ step' =>
          addSlots kept injective kind primary vs (slot + 1) step'

/-- An op is added in lockstep. -/
theorem addOp (kept : Graph.Kept alike) (injective : f.Injective) (step : b.InStep alike f b')
    (ops : op.InStep alike f op') :
    Ends alike f (b.addOp s position op) (b'.addOp s position op') := by
  have label : opLabel s position op' = opLabel s position op := by
    unfold opLabel
    rw [ops.scope, ops.kind]
  unfold Builder.addOp
  rw [ops.inputs, ops.kind, label, ← kept.nextHandle step.graph]
  refine (step.resolve_mapM injective op.kind op.inputs).bind fun operands _ _ _ same => ?_
  subst same
  dsimp only
  rw [ops.outputs]
  refine addSlots kept injective ops.kind b.graph.nextHandle op.outputs 0 ⟨?_, step.handles⟩
  exact kept.foldl_connect _ operands (ops.add _ _ step.graph)

/-- All ops are added in lockstep. -/
theorem addOps (kept : Graph.Kept alike) (injective : f.Injective) : ∀ {ops ops' : List TraceOp}
    {position : Nat} {b b' : Builder}, List.Forall₂ (TraceOp.InStep alike f) ops ops' →
      b.InStep alike f b' → Ends alike f (b.addOps s position ops) (b'.addOps s position ops')
  | [], [], _, _, _, .nil, step => .ok step
  | op :: ops, op' :: ops', position, b, b', .cons first rest, step => by
    rw [Builder.addOps, Builder.addOps]
    exact (addOp kept injective step first).bind fun _ _ _ _ step' =>
      addOps kept injective rest step'

/-- The results are marked in lockstep. -/
theorem markResults (kept : Graph.Kept alike) (injective : f.Injective)
    (step : b.InStep alike f b') (results : List ValueId) :
    Agree alike (fun e e' => e' = e.rename f) (b.markResults results)
      (b'.markResults (results.map f)) := by
  unfold Builder.markResults
  refine (step.resolve_mapM injective _ results).bind fun handles _ _ _ same => ?_
  subst same
  exact .ok (kept.foldl_markOutput handles step.graph)

/-- What follows the inputs is built in lockstep, up to the graph. -/
theorem finish (kept : Graph.Kept alike) (injective : f.Injective) {t t' : Trace}
    (ops : List.Forall₂ (TraceOp.InStep alike f) t.ops t'.ops)
    (outputs : t'.outputs = t.outputs.map f) (step : b.InStep alike f b') :
    Agree alike (fun e e' => e' = e.rename f)
      (b.addOps s 0 t.ops >>= fun b => b.markResults t.outputs)
      (b'.addOps s 0 t'.ops >>= fun b => b.markResults t'.outputs) := by
  rw [outputs]
  exact (addOps kept injective ops step).bind fun _ _ _ _ step' =>
    markResults kept injective step' t.outputs

end Builder.InStep

end

end StagePlan
