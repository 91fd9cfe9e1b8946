import StagePlan.Error
import StagePlan.Shape

/-!
# Execution traces

A trace lists the ops of a model in the order they ran. Inputs and op outputs are values, named by
whole numbers: input `i` is value `i`, and every op names the values of its own output slots.
`Trace.validate` checks the scoping rule: every value is defined once, and before it is used.
-/

namespace StagePlan

/-- The name of a value in a trace. -/
abbrev ValueId := Nat

/-- An input of a trace. -/
structure TraceInput where
  /-- The declared sizes; none if they could not be inferred. -/
  sizes : Option Shape := none

/-- An op of a trace. -/
structure TraceOp where
  /-- The operands. -/
  inputs : List ValueId
  /-- The values of the output slots. -/
  outputs : List ValueId
  /-- The module scope the op ran in. -/
  scope : String
  /-- The kind of operator. -/
  kind : String
  /-- The type text of the first output. -/
  outputType : String := ""

/-- The shape of the first output. -/
def TraceOp.outputShape (op : TraceOp) : Shape := Shape.ofTypeText op.outputType

/-- The record of one run of a model. -/
structure Trace where
  /-- The inputs, parameters and buffers among them. -/
  inputs : List TraceInput := []
  /-- The ops in the order they ran. -/
  ops : List TraceOp := []
  /-- The values that the run returned. -/
  outputs : List ValueId := []

namespace Trace

/-- The values defined once an op has run: each of its outputs has to be new. -/
def define (position : Nat) (op : TraceOp) (defined : List ValueId) :
    List ValueId → Except Error (List ValueId)
  | [] => .ok defined
  | v :: vs =>
    if v ∈ defined then .error (.danglingReference v (.redefined position op.kind))
    else define position op (v :: defined) vs

/-- The values defined once all ops have run, each of which uses only what was defined before it. -/
def defineAll (position : Nat) (defined : List ValueId) : List TraceOp → Except Error (List ValueId)
  | [] => .ok defined
  | op :: ops =>
    match op.inputs.find? (· ∉ defined) with
    | some v => .error (.danglingReference v (.operandUndefined position op.kind))
    | none => do
      let defined ← define position op defined op.outputs
      defineAll (position + 1) defined ops

/-- Checks that every value is defined once and only used after its definition. -/
def validate (t : Trace) : Except Error Unit := do
  let defined ← defineAll 0 (List.range t.inputs.length) t.ops
  match t.outputs.find? (· ∉ defined) with
  | some v => throw (.danglingReference v .resultUndefined)
  | none => return ()

end Trace

end StagePlan
