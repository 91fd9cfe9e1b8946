import StagePlan.Proofs.Json.Readers
import StagePlan.Trace.Text

/-!
# Traces from their text

A trace is read back from the text that is written of it. Its inputs, its ops and the trace itself
are records, whose fields are written and taken in the same order (`TraceInput.reads`,
`TraceOp.reads`, `Trace.reads`), and the numbers in them have to be words (`Trace.InWords`).
-/

open StagePlan.Json (Reads Members Reader)

namespace StagePlan

/-- The sizes and the values of a trace are words. -/
structure Trace.InWords (t : Trace) : Prop where
  sizes : ∀ input ∈ t.inputs, ∀ sizes ∈ input.sizes, ∀ n ∈ sizes, n < Word.limit
  operands : ∀ op ∈ t.ops, ∀ v ∈ op.inputs, v < Word.limit
  slots : ∀ op ∈ t.ops, ∀ v ∈ op.outputs, v < Word.limit
  results : ∀ v ∈ t.outputs, v < Word.limit

/-- A list of words is read back. -/
theorem reads_nats {ns : List Nat} (words : ∀ n ∈ ns, n < Word.limit) :
    Reads (Reader.list Reader.natural) (.nats ns) ns :=
  .list fun n member => .natural (words n member)

/-- An input with sizes in words is read back. -/
theorem TraceInput.reads (input : TraceInput)
    (words : ∀ sizes ∈ input.sizes, ∀ n ∈ sizes, n < Word.limit) :
    Reads TraceInput.schema.reader input.toJson input := by
  have sizes : Reads (Reader.optional (Reader.list Reader.natural))
      (Json.optional Json.nats input.sizes) input.sizes := by
    cases declared : input.sizes with
    | none => exact .none _
    | some sizes => exact .some (reads_nats (words sizes declared))
  exact .record (.cons rfl (sizes.map some) (.nil _)) rfl

/-- An op whose values are words is read back. -/
theorem TraceOp.reads (op : TraceOp) (operands : ∀ v ∈ op.inputs, v < Word.limit)
    (slots : ∀ v ∈ op.outputs, v < Word.limit) : Reads TraceOp.schema.reader op.toJson op :=
  .record (.cons rfl ((reads_nats operands).map _) <| .cons rfl ((reads_nats slots).map _) <|
    .cons rfl (.map (.string op.scope) _) <| .cons rfl (.map (.string op.kind) _) <|
      .cons rfl (.map (.string op.outputType) _) <| .nil _) rfl

/-- A trace in words is read back from its value. -/
theorem Trace.reads (t : Trace) (words : t.InWords) : Reads Trace.schema.reader t.toJson t := by
  have inputs : Reads (Reader.list TraceInput.schema.reader)
      (.array (t.inputs.map TraceInput.toJson)) t.inputs :=
    .list fun input member => input.reads (words.sizes input member)
  have ops : Reads (Reader.list TraceOp.schema.reader) (.array (t.ops.map TraceOp.toJson)) t.ops :=
    .list fun op member => op.reads (words.operands op member) (words.slots op member)
  exact .record (.cons rfl (inputs.map _) <| .cons rfl (ops.map _) <|
    .cons rfl ((reads_nats words.results).map _) <| .nil _) rfl

namespace Trace

/-- Every trace whose numbers are words is read back from the bytes of its text, whatever the
strings in it are. -/
theorem ofText_toText (t : Trace) (words : t.InWords) : ofText t.toText.toUTF8.toList = .ok t := by
  rw [Json.toList_toUTF8, ofText, toText, (t.reads words).document .indented]
  rfl

/-- A trace with a missing and an empty list of sizes, the largest word, and strings of characters
that are escaped or that are several bytes long. -/
def awkwardTrace : Trace where
  inputs := [⟨none⟩, ⟨some []⟩, ⟨some [Word.largest, 0]⟩]
  ops := [⟨[], [0, Word.largest], "a \"quoted\" \\ path\r\n\t", "\x00\x08\x0c\x1f\x7f", "é\u2028😀"⟩]
  outputs := []

/-- Quotes, line feeds and characters beyond ASCII come back as they were. -/
theorem awkwardTrace_read :
    awkwardTrace.InWords ∧ ofText awkwardTrace.toText.toUTF8.toList = .ok awkwardTrace := by
  have words : awkwardTrace.InWords :=
    ⟨by simp [awkwardTrace, Word.largest, Word.limit], by simp [awkwardTrace],
      by simp [awkwardTrace, Word.largest, Word.limit], by simp [awkwardTrace]⟩
  exact ⟨words, ofText_toText awkwardTrace words⟩

end Trace

end StagePlan
