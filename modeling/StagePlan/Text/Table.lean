/-!
# Tables

A table is a text of records: fields stand between commas, and records end at a line feed, a
carriage return or both. Empty lines count for nothing. A field that begins with a quote runs to the
next quote that is not doubled; a doubled quote stands for one, and commas and line ends inside are
part of the field, as is whatever follows the closing quote. The end of the text closes a field that
is still open. `Table.records` gives the records as bytes.
-/

namespace StagePlan.Table

/-- A field, by its bytes. -/
abbrev Field := List UInt8

/-- Where the scan of a table stands. -/
inductive Position where
  /-- Before a record. -/
  | betweenRecords
  /-- Before a field. -/
  | beforeField
  /-- Inside a field without quotes, or behind the closing quote of one. -/
  | plain
  /-- Inside quotes. -/
  | quoted
  /-- Behind a quote that closes the field unless another one follows. -/
  | afterQuote

/-- A scan under way: the records that are complete, the complete fields of the current one and the
bytes of the current field, all in reverse. -/
structure Scan where
  /-- Where the scan stands. -/
  position : Position := .betweenRecords
  /-- The complete records. -/
  records : List (List Field) := []
  /-- The complete fields of the current record. -/
  fields : List Field := []
  /-- The bytes of the current field. -/
  bytes : List UInt8 := []

namespace Scan

/-- The current field is complete. -/
def endField (s : Scan) : Scan :=
  { s with position := .beforeField, fields := s.bytes.reverse :: s.fields, bytes := [] }

/-- The current field and the current record are complete. -/
def endRecord (s : Scan) : Scan :=
  { position := .betweenRecords
    records := (s.bytes.reverse :: s.fields).reverse :: s.records }

/-- The current field goes on. -/
def add (s : Scan) (position : Position) (b : UInt8) : Scan :=
  { s with position := position, bytes := b :: s.bytes }

/-- Whether a byte ends a record. -/
def isLineEnd (b : UInt8) : Bool := b == 0x0a || b == 0x0d

/-- A byte outside quotes. -/
def unquoted (s : Scan) (b : UInt8) : Scan :=
  if b == 0x2c then s.endField else if isLineEnd b then s.endRecord else s.add .plain b

/-- Takes one byte. -/
def step (s : Scan) (b : UInt8) : Scan :=
  match s.position with
  | .betweenRecords =>
    if isLineEnd b then s else if b == 0x22 then { s with position := .quoted } else s.unquoted b
  | .beforeField => if b == 0x22 then { s with position := .quoted } else s.unquoted b
  | .plain => s.unquoted b
  | .quoted => if b == 0x22 then { s with position := .afterQuote } else s.add .quoted b
  | .afterQuote => if b == 0x22 then s.add .quoted b else s.unquoted b

/-- The end of the text, which completes a record that was begun. -/
def finish (s : Scan) : List (List Field) :=
  match s.position with
  | .betweenRecords => s.records.reverse
  | _ => s.endRecord.records.reverse

end Scan

/-- A text without the byte order mark at its start. -/
def dropMark : List UInt8 → List UInt8
  | 0xef :: 0xbb :: 0xbf :: bytes => bytes
  | bytes => bytes

/-- The records of a table. -/
def records (bytes : List UInt8) : List (List Field) :=
  ((dropMark bytes).foldl Scan.step {}).finish

/-- The text of a field, if it is UTF-8. -/
def text? (field : Field) : Option String := String.fromUTF8? ⟨field.toArray⟩

end StagePlan.Table
