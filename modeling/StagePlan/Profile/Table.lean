import StagePlan.Profile
import StagePlan.Numeric.Word
import StagePlan.Text.Table

/-!
# Tables of layer costs

A table of layer costs has the columns `scope`, `forward_ms`, `backward_ms` and, if wanted,
`memory_bytes`, in any order and among others. The first record names the columns; if it is not UTF-8
the columns are taken in this order. `ProfileSet.ofTable` reads one profile per row. The first row at
fault decides how the table is refused, and within a row its length, its encoding, and then the first
field at fault.
-/

namespace StagePlan

namespace ProfileSet

/-- The columns in the order that counts when they have no names. -/
def columns : List String := ["scope", "forward_ms", "backward_ms", "memory_bytes"]

/-- The fields of a row that were converted so far. -/
structure Row where
  /-- The scope. -/
  scope : Option String := none
  /-- The forward time. -/
  forward : Option Float := none
  /-- The backward time. -/
  backward : Option Float := none
  /-- The memory; the field may be empty. -/
  memory : Option (Option Nat) := none

/-- A size in bytes: decimal, or hexadecimal after `0x`. -/
def memory? : List Char → Option Nat
  | '0' :: 'x' :: cs => Word.read? 16 cs
  | cs => Word.read? 10 cs

/-- A field that must not have been met before in its row. -/
def Row.once (met : Option α) (row : Except TableCause Row) : Except TableCause Row :=
  if met.isSome then .error .columns else row

/-- Converts the field of a column. -/
def Row.add (row : Row) (position : Nat) (column text : String) : Except TableCause Row :=
  let time (set : Float → Row) : Except TableCause Row :=
    match Decimal.read? text.toList with
    | some x => .ok (set x)
    | none => .error (.notNumber position)
  match column with
  | "scope" => Row.once row.scope (.ok { row with scope := some text })
  | "forward_ms" => Row.once row.forward (time fun x => { row with forward := some x })
  | "backward_ms" => Row.once row.backward (time fun x => { row with backward := some x })
  | "memory_bytes" =>
    Row.once row.memory <|
      if text.isEmpty then .ok { row with memory := some none }
      else
        match memory? text.toList with
        | some n => .ok { row with memory := some (some n) }
        | none => .error (.notWhole position)
  | _ => .ok row

/-- Converts the fields of a row from the left. -/
def Row.addAll (row : Row) (position : Nat) : List (String × String) → Except TableCause Row
  | [] => .ok row
  | (column, text) :: fields => do (← row.add position column text).addAll (position + 1) fields

/-- The scope and the profile of a row. -/
def Row.entry (row : Row) : Except TableCause (String × LayerProfile) :=
  match row.scope, row.forward, row.backward with
  | some scope, some forward, some backward => .ok (scope, ⟨forward, backward, row.memory.join.getD 0⟩)
  | _, _, _ => .error .columns

/-- Reads a row below a header of the given width. -/
def rowEntry (names : List String) (width : Nat) (fields : List Table.Field) :
    Except TableCause (String × LayerProfile) :=
  if fields.length ≠ width then .error (.fieldCount width fields.length)
  else
    match fields.mapM Table.text? with
    | none => .error .notText
    | some texts => do (← Row.addAll {} 0 (names.zip texts)).entry

/-- The entries of a table, row by row. -/
def tableEntries (bytes : List UInt8) : Except TableCause (List (String × LayerProfile)) :=
  match Table.records bytes with
  | [] => .ok []
  | header :: rows =>
    rows.mapM (rowEntry ((header.mapM Table.text?).getD columns) header.length)

/-- The scopes of the entries whose scope an earlier entry has too, in order. -/
def repeated (entries : List (String × LayerProfile)) : List String :=
  go [] (entries.map (·.1))
where
  /-- The repeated ones of `scopes`, after those of `met`. -/
  go (met : List String) : List String → List String
    | [] => []
    | scope :: scopes => if scope ∈ met then scope :: go met scopes else go (scope :: met) scopes

/-- Reads a table; of several rows for one scope the last counts. -/
def ofTable (bytes : List UInt8) : Except Error ProfileSet :=
  ((tableEntries bytes).map ofList).mapError .malformedProfile

end ProfileSet

end StagePlan
