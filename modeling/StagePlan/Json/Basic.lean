import StagePlan.Numeric.Decimal

/-!
# JSON values and their text

Results, settings and traces are written as JSON. A `Json` value keeps the members of an object in
the order they are written. `Json.text` writes a value in one of two layouts, on a single line or
with one member a line and two blanks per level; both have the same tokens, since blanks are all
that a layout adds.
-/

namespace StagePlan

/-- A JSON value. A number is kept as the text it is written with. -/
inductive Json where
  /-- The word `null`. -/
  | null
  /-- The word `true` or `false`. -/
  | bool (b : Bool)
  /-- A number, as written. -/
  | number (literal : String)
  /-- A string. -/
  | string (s : String)
  /-- The items in order. -/
  | array (items : List Json)
  /-- The members in order. -/
  | object (members : List (String × Json))

namespace Json

/-- A whole number. -/
def nat (n : Nat) : Json := .number (String.ofList (Decimal.digits n))

/-- A double; infinities and not-a-number have no JSON number and become `null`. -/
def float (x : Float) : Json := .number (Decimal.jsonText x)

/-- A list of whole numbers. -/
def nats (ns : List Nat) : Json := .array (ns.map nat)

/-- A list of strings. -/
def strings (ss : List String) : Json := .array (ss.map .string)

/-- A value that may be missing. -/
def optional (encode : α → Json) : Option α → Json
  | none => .null
  | some a => encode a

/-- One hexadecimal digit, in lower case. -/
def hexDigit (n : Nat) : Char := Nat.digitChar (n % 16)

/-- A character inside a string: quotes, backslashes and control characters are escaped, all else
stands for itself. -/
def escape (c : Char) : List Char :=
  if c = '"' then ['\\', '"']
  else if c = '\\' then ['\\', '\\']
  else if c = '\n' then ['\\', 'n']
  else if c = '\r' then ['\\', 'r']
  else if c = '\t' then ['\\', 't']
  else if c = '\x08' then ['\\', 'b']
  else if c = '\x0c' then ['\\', 'f']
  else if c.toNat < 0x20 then ['\\', 'u', '0', '0', hexDigit (c.toNat / 16), hexDigit c.toNat]
  else [c]

/-- A string in quotes. -/
def quoted (s : String) : String :=
  String.ofList ('"' :: s.toList.flatMap escape ++ ['"'])

/-- How the parts of a value are set apart. -/
inductive Layout where
  /-- No blanks at all. -/
  | compact
  /-- A line for each item or member, indented by two blanks per level, and a blank after a colon. -/
  | indented

/-- What stands before an item, a member or a closing bracket at a level. -/
def Layout.lineBreak : Layout → Nat → String
  | .compact, _ => ""
  | .indented, level => String.ofList ('\n' :: List.replicate (2 * level) ' ')

/-- What stands between a key and its value. -/
def Layout.colon : Layout → String
  | .compact => ":"
  | .indented => ": "

mutual

/-- The text of a value that stands at a level. -/
def textAt (layout : Layout) (level : Nat) : Json → String
  | .null => "null"
  | .bool true => "true"
  | .bool false => "false"
  | .number literal => literal
  | .string s => quoted s
  | .array [] => "[]"
  | .array (item :: items) =>
    "[" ++ layout.lineBreak (level + 1) ++ textAt layout (level + 1) item
      ++ itemsText layout (level + 1) items ++ layout.lineBreak level ++ "]"
  | .object [] => "\x7b\x7d"
  | .object ((key, value) :: members) =>
    "\x7b" ++ layout.lineBreak (level + 1) ++ quoted key ++ layout.colon
      ++ textAt layout (level + 1) value ++ membersText layout (level + 1) members
      ++ layout.lineBreak level ++ "\x7d"

/-- The text of the items after the first. -/
def itemsText (layout : Layout) (level : Nat) : List Json → String
  | [] => ""
  | item :: items =>
    "," ++ layout.lineBreak level ++ textAt layout level item ++ itemsText layout level items

/-- The text of the members after the first. -/
def membersText (layout : Layout) (level : Nat) : List (String × Json) → String
  | [] => ""
  | (key, value) :: members =>
    "," ++ layout.lineBreak level ++ quoted key ++ layout.colon ++ textAt layout level value
      ++ membersText layout level members

end

/-- The text of a value in a layout. -/
def text (layout : Layout) (v : Json) : String := textAt layout 0 v

end Json

end StagePlan
