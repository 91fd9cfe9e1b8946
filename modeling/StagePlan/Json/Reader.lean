import StagePlan.Json.Token
import StagePlan.Numeric.Word

/-!
# Reading JSON for its meaning

A `Json.Reader` takes one value off the front of a list of tokens and answers what it means together
with the tokens behind it, of which its type says that there are fewer. The first fault in the order
of the text decides how a text is refused: a reader looks at one token after the other, decodes a
string or a number before it finds that another type is wanted, and enters no list or object that is
not wanted.

A record is read by a `Json.Schema` from an object or from an array of its fields in order. Members
that the schema does not know are skipped (`Reader.skip`), which asks for their syntax only.
-/

namespace StagePlan.Json

/-- The tokens that are left, of which there are fewer than there were. -/
abbrev Rest (input : List Token) := { rest : List Token // rest.length < input.length }

/-- What is left of a tail is left of the whole. -/
def Rest.ofTail {t : Token} {ts : List Token} (r : Rest ts) : Rest (t :: ts) :=
  ⟨r.1, Nat.lt_succ_of_lt r.2⟩

/-- What is left of what is left. -/
def Rest.trans {input : List Token} (r : Rest input) (s : Rest r.1) : Rest input :=
  ⟨s.1, Nat.lt_trans s.2 r.2⟩

/-- Takes a value off the front of a text. -/
abbrev Reader (α : Type) := (input : List Token) → Except Fault (α × Rest input)

/-! ## Single tokens -/

/-- What a number stands for; a number that no double can hold is refused. -/
inductive Numeral where
  /-- A whole number below `2 ^ 64` without a sign. -/
  | natural (n : Nat)
  /-- Any other number. -/
  | real (x : Float)

/-- The number that a literal writes. -/
def Numeral.ofLiteral (literal : List Char) : Except Fault Numeral :=
  if literal.all Decimal.isDigit ∧ Decimal.ofDigits literal < Word.limit then
    .ok (.natural (Decimal.ofDigits literal))
  else
    match Decimal.read? literal with
    | some x => if x.isInf then .error .malformed else .ok (.real x)
    | none => .error .malformed

/-- The fault of a token that stands where a value of another type is wanted. -/
def Token.unwanted : Token → Fault
  | .string pieces broken =>
    match decodeString pieces broken with
    | .ok _ => .mismatch
    | .error fault => fault
  | .number literal =>
    match Numeral.ofLiteral literal with
    | .ok _ => .mismatch
    | .error fault => fault
  | .brokenNumber fault => fault
  | .word _ | .openArray | .openObject => .mismatch
  | .brokenWord fault => fault
  | .closeArray | .closeObject | .comma | .colon | .stray => .malformed

namespace Reader

/-- Reads a value that is a single token. -/
def token (accept : Token → Except Fault α) : Reader α
  | [] => .error .truncated
  | t :: ts => (accept t).map fun a => (a, ⟨ts, Nat.lt_succ_self _⟩)

/-- Reads a value and transforms it. -/
def map (f : α → β) (read : Reader α) : Reader β :=
  fun input => (read input).map fun (a, rest) => (f a, rest)

/-- A whole number below `2 ^ 64`, written without sign, fraction and exponent. -/
def natural : Reader Nat :=
  token fun
    | .number literal => do
      match ← Numeral.ofLiteral literal with
      | .natural n => return n
      | .real _ => throw .mismatch
    | t => .error t.unwanted

/-- Any number, as a double. -/
def double : Reader Float :=
  token fun
    | .number literal => do
      match ← Numeral.ofLiteral literal with
      | .natural n => return Binary64.nearest false ⟨n, 1⟩
      | .real x => return x
    | t => .error t.unwanted

/-- The word `true` or `false`. -/
def bool : Reader Bool :=
  token fun
    | .word .true => .ok true
    | .word .false => .ok false
    | t => .error t.unwanted

/-- A string. -/
def string : Reader String :=
  token fun
    | .string pieces broken => decodeString pieces broken
    | t => .error t.unwanted

/-- The word `null`, or a value. -/
def optional (read : Reader α) : Reader (Option α)
  | .word .null :: ts => .ok (none, ⟨ts, Nat.lt_succ_self _⟩)
  | input => read.map some input

/-! ## Lists -/

/-- The items after the first, up to the closing bracket. -/
def items (read : Reader α) (input : List Token) : Except Fault (List α × Rest input) :=
  match input with
  | [] => .error .truncated
  | .closeArray :: ts => .ok ([], ⟨ts, Nat.lt_succ_self _⟩)
  | .comma :: ts => do
    let (a, rest) ← read ts
    have := rest.2
    let (as, rest') ← items read rest.1
    return (a :: as, (rest.trans rest').ofTail)
  | _ :: _ => .error .malformed
termination_by input.length
decreasing_by simp only [List.length_cons]; omega

/-- A list of values. -/
def list (read : Reader α) : Reader (List α)
  | .openArray :: .closeArray :: ts => .ok ([], ⟨ts, by simp only [List.length_cons]; omega⟩)
  | .openArray :: ts =>
    if ts.isEmpty then .error .truncated
    else do
      let (a, rest) ← read ts
      let (as, rest') ← items read rest.1
      return (a :: as, (rest.trans rest').ofTail)
  | t :: _ => .error t.unwanted
  | [] => .error .truncated

/-! ## Skipped values -/

/-- What may come next in a value that is skipped. -/
inductive Expected where
  /-- A value. -/
  | value
  /-- A value or the end of the list just opened. -/
  | firstItem
  /-- A key or the end of the object just opened. -/
  | firstKey
  /-- A key. -/
  | key
  /-- The colon after a key. -/
  | colon
  /-- A comma or the end of the innermost list or object. -/
  | next

/-- A list or an object that is still open. -/
inductive Enclosing where
  /-- A list. -/
  | list
  /-- An object. -/
  | object

/-- What a skipped token comes to. -/
inductive Skipped where
  /-- The value is complete. -/
  | done
  /-- More has to come, inside these lists and objects, innermost first. -/
  | more (expected : Expected) (open_ : List Enclosing)

/-- After a complete value inside the given lists and objects. -/
def Skipped.complete : List Enclosing → Skipped
  | [] => .done
  | enclosing => .more .next enclosing

/-- The fault of a token that is skipped: a string only has to be closed, and a number that breaks
off is no number even at the end of the text. -/
def skipFault? : Token → Option Fault
  | .string _ broken => broken
  | .brokenNumber _ => some .malformed
  | .brokenWord fault => some fault
  | .stray => some .malformed
  | _ => none

/-- Skips the start of a value. -/
def skipValue (enclosing : List Enclosing) (t : Token) : Except Fault Skipped :=
  match skipFault? t with
  | some fault => .error fault
  | none =>
    match t with
    | .string _ _ | .number _ | .word _ => .ok (.complete enclosing)
    | .openArray => .ok (.more .firstItem (.list :: enclosing))
    | .openObject => .ok (.more .firstKey (.object :: enclosing))
    | _ => .error .malformed

/-- Skips a key. -/
def skipKey (enclosing : List Enclosing) : Token → Except Fault Skipped
  | .string _ none => .ok (.more .colon enclosing)
  | .string _ (some fault) => .error fault
  | _ => .error .malformed

/-- Skips one token. -/
def skipToken (expected : Expected) (enclosing : List Enclosing) (t : Token) :
    Except Fault Skipped :=
  match expected, t, enclosing with
  | .value, t, _ => skipValue enclosing t
  | .firstItem, .closeArray, _ :: outer => .ok (.complete outer)
  | .firstItem, t, _ => skipValue enclosing t
  | .firstKey, .closeObject, _ :: outer => .ok (.complete outer)
  | .firstKey, t, _ => skipKey enclosing t
  | .key, t, _ => skipKey enclosing t
  | .colon, .colon, _ => .ok (.more .value enclosing)
  | .next, .comma, .list :: _ => .ok (.more .value enclosing)
  | .next, .comma, .object :: _ => .ok (.more .key enclosing)
  | .next, .closeArray, .list :: outer => .ok (.complete outer)
  | .next, .closeObject, .object :: outer => .ok (.complete outer)
  | _, _, _ => .error .malformed

/-- Skips tokens until the value is complete. -/
def skipFrom (expected : Expected) (enclosing : List Enclosing) : Reader Unit
  | [] => .error .truncated
  | t :: ts => do
    match ← skipToken expected enclosing t with
    | .done => return ((), ⟨ts, Nat.lt_succ_self _⟩)
    | .more expected enclosing =>
      let ((), rest) ← skipFrom expected enclosing ts
      return ((), rest.ofTail)

/-- Skips a value of any kind and any depth, checking its syntax only. -/
def skip : Reader Unit := skipFrom .value []

/-! ## Objects and records -/

/-- The colon after a key. -/
def colon : Reader Unit
  | .colon :: ts => .ok ((), ⟨ts, Nat.lt_succ_self _⟩)
  | _ :: _ => .error .malformed
  | [] => .error .truncated

/-- A key and the colon behind it; `step` decides what its value is read as. -/
def key (step : String → Except Fault β) : Reader β
  | .string pieces broken :: ts => do
    let chosen ← step (← decodeString pieces broken)
    let ((), rest) ← colon ts
    return (chosen, rest.ofTail)
  | _ :: _ => .error .malformed
  | [] => .error .truncated

/-- One member of an object, taken into a state. -/
def member (step : σ → String → Except Fault (Reader σ)) (state : σ) : Reader σ := fun input => do
  let (read, rest) ← key (step state) input
  let (state, rest') ← read rest.1
  return (state, rest.trans rest')

/-- The members after the first, up to the closing brace. -/
def members (step : σ → String → Except Fault (Reader σ)) (state : σ) (input : List Token) :
    Except Fault (σ × Rest input) :=
  match input with
  | [] => .error .truncated
  | .closeObject :: ts => .ok (state, ⟨ts, Nat.lt_succ_self _⟩)
  | .comma :: ts => do
    let (state, rest) ← member step state ts
    have := rest.2
    let (state, rest') ← members step state rest.1
    return (state, (rest.trans rest').ofTail)
  | _ :: _ => .error .malformed
termination_by input.length
decreasing_by simp only [List.length_cons]; omega

/-- The members of an object after its opening brace. -/
def objectBody (step : σ → String → Except Fault (Reader σ)) (state : σ) : Reader σ
  | .closeObject :: ts => .ok (state, ⟨ts, Nat.lt_succ_self _⟩)
  | input => do
    let (state, rest) ← member step state input
    let (state, rest') ← members step state rest.1
    return (state, rest.trans rest')

/-- An object whose members are taken into a state one after the other. -/
def object (step : σ → String → Except Fault (Reader σ)) (state : σ) : Reader σ
  | .openObject :: ts => do
    let (state, rest) ← objectBody step state ts
    return (state, rest.ofTail)
  | t :: _ => .error t.unwanted
  | [] => .error .truncated

end Reader

/-- How a record is read. The state holds the fields that were met so far. -/
structure Schema (σ α : Type) where
  /-- The names of the fields, in the order of the positional form. -/
  fields : List String
  /-- No field met yet. -/
  empty : σ
  /-- How the value of a field is read: a field that was met before is at fault, and an unknown one
  is skipped. -/
  field : σ → String → Except Fault (Reader σ)
  /-- The record, unless a field without default is missing. -/
  finish : σ → Except Fault α

namespace Schema

variable {σ α : Type}

/-- The fields of the positional form after the first, up to the closing bracket: fields may be
missing at the end, and surplus items are no JSON that is accepted. -/
def positionalRest (s : Schema σ α) (fields : List String) (state : σ) : Reader σ := fun input =>
  match fields, input with
  | _, .closeArray :: ts => .ok (state, ⟨ts, Nat.lt_succ_self _⟩)
  | _, [] => .error .truncated
  | name :: names, .comma :: ts => do
    let (state, rest) ← (← s.field state name) ts
    let (state, rest') ← positionalRest s names state rest.1
    return (state, (rest.trans rest').ofTail)
  | _, _ :: _ => .error .malformed

/-- The positional form after its opening bracket. -/
def positional (s : Schema σ α) : Reader σ := fun input =>
  match s.fields, input with
  | _, .closeArray :: ts => .ok (s.empty, ⟨ts, Nat.lt_succ_self _⟩)
  | _, [] => .error .truncated
  | name :: names, input => do
    let (state, rest) ← (← s.field s.empty name) input
    let (state, rest') ← s.positionalRest names state rest.1
    return (state, rest.trans rest')
  | [], _ :: _ => .error .malformed

/-- Reads a record from an object or from an array of its fields. -/
def reader (s : Schema σ α) : Reader α
  | .openObject :: ts => do
    let (state, rest) ← Reader.objectBody s.field s.empty ts
    return (← s.finish state, rest.ofTail)
  | .openArray :: ts => do
    let (state, rest) ← s.positional ts
    return (← s.finish state, rest.ofTail)
  | t :: _ => .error t.unwanted
  | [] => .error .truncated

end Schema

/-- Reads the value of a field that must not have been met before. -/
def once (met : Option α) (read : Reader σ) : Except Fault (Reader σ) :=
  if met.isSome then .error .mismatch else .ok read

/-- The value of a field that has to be there. -/
def required : Option α → Except Fault α
  | some a => .ok a
  | none => .error .mismatch

/-- Reads a whole text; nothing but blanks may follow the value. -/
def document (read : Reader α) (bytes : List UInt8) : Except Fault α := do
  let (a, rest) ← read (lex bytes)
  if rest.1.isEmpty then return a else throw .malformed

end StagePlan.Json
