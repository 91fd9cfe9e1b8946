import StagePlan.Json.Reader
import StagePlan.Trace

/-!
# The text of a trace

A trace is kept as JSON: `Trace.ofText` reads it from bytes, and `Trace.toText` writes it on indented
lines. The sizes of an input and the output type of an op may be left out.
-/

namespace StagePlan

open Json (Fault Reader Schema once required)

/-- How an input is read. -/
def TraceInput.schema : Schema (Option (Option Shape)) TraceInput where
  fields := ["sizes"]
  empty := none
  field met
    | "sizes" => once met ((Reader.optional (Reader.list Reader.natural)).map some)
    | _ => .ok (Reader.skip.map fun _ => met)
  finish met := .ok ⟨met.join⟩

/-- The fields of an op that were met so far. -/
structure TraceOp.Fields where
  /-- The operands. -/
  inputs : Option (List ValueId) := none
  /-- The output slots. -/
  outputs : Option (List ValueId) := none
  /-- The scope. -/
  scope : Option String := none
  /-- The kind. -/
  kind : Option String := none
  /-- The output type. -/
  outputType : Option String := none

/-- How an op is read. -/
def TraceOp.schema : Schema TraceOp.Fields TraceOp where
  fields := ["inputs", "outputs", "scope", "kind", "output_type"]
  empty := {}
  field met
    | "inputs" => once met.inputs ((Reader.list Reader.natural).map ({ met with inputs := some · }))
    | "outputs" => once met.outputs ((Reader.list Reader.natural).map ({ met with outputs := some · }))
    | "scope" => once met.scope (Reader.string.map ({ met with scope := some · }))
    | "kind" => once met.kind (Reader.string.map ({ met with kind := some · }))
    | "output_type" => once met.outputType (Reader.string.map ({ met with outputType := some · }))
    | _ => .ok (Reader.skip.map fun _ => met)
  finish met := do
    return {
      inputs := ← required met.inputs
      outputs := ← required met.outputs
      scope := ← required met.scope
      kind := ← required met.kind
      outputType := met.outputType.getD "" }

/-- The fields of a trace that were met so far. -/
structure Trace.Fields where
  /-- The inputs. -/
  inputs : Option (List TraceInput) := none
  /-- The ops. -/
  ops : Option (List TraceOp) := none
  /-- The results. -/
  outputs : Option (List ValueId) := none

/-- How a trace is read. -/
def Trace.schema : Schema Trace.Fields Trace where
  fields := ["inputs", "ops", "outputs"]
  empty := {}
  field met
    | "inputs" =>
      once met.inputs ((Reader.list TraceInput.schema.reader).map ({ met with inputs := some · }))
    | "ops" => once met.ops ((Reader.list TraceOp.schema.reader).map ({ met with ops := some · }))
    | "outputs" => once met.outputs ((Reader.list Reader.natural).map ({ met with outputs := some · }))
    | _ => .ok (Reader.skip.map fun _ => met)
  finish met := do
    return {
      inputs := ← required met.inputs
      ops := ← required met.ops
      outputs := ← required met.outputs }

/-- Reads a trace. -/
def Trace.ofText (bytes : List UInt8) : Except Error Trace :=
  (Json.document Trace.schema.reader bytes).mapError .malformedTrace

/-- An input as JSON. -/
def TraceInput.toJson (input : TraceInput) : Json :=
  .object [("sizes", Json.optional Json.nats input.sizes)]

/-- An op as JSON. -/
def TraceOp.toJson (op : TraceOp) : Json :=
  .object [
    ("inputs", .nats op.inputs),
    ("outputs", .nats op.outputs),
    ("scope", .string op.scope),
    ("kind", .string op.kind),
    ("output_type", .string op.outputType)]

/-- A trace as JSON. -/
def Trace.toJson (t : Trace) : Json :=
  .object [
    ("inputs", .array (t.inputs.map TraceInput.toJson)),
    ("ops", .array (t.ops.map TraceOp.toJson)),
    ("outputs", .nats t.outputs)]

/-- Writes a trace. -/
def Trace.toText (t : Trace) : String := t.toJson.text .indented

end StagePlan
