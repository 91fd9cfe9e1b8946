import StagePlan.Command.Path

/-!
# Patterns of paths

In a pattern of names a question mark stands for any character, an asterisk for any characters, and
characters in square brackets, with ranges among them, for one of them, or for any other if an exclamation
mark comes first. A pattern of paths has such a pattern for every component, and a component of two
asterisks stands for any directories. `Pattern.componentsOfText` reads a pattern of paths, and
`Pattern.accepts` decides which names a pattern of names is for.
-/

namespace StagePlan

/-- What one element of a pattern stands for. -/
inductive PatternToken where
  /-- A character. -/
  | char (c : Char)
  /-- Any character. -/
  | anyChar
  /-- Any characters. -/
  | anyText
  /-- Any directories. -/
  | anyDirectories
  /-- A character in one of the ranges. -/
  | within (ranges : List (Char × Char))
  /-- A character in none of the ranges. -/
  | except (ranges : List (Char × Char))
  deriving DecidableEq

/-- A pattern. -/
abbrev Pattern := List PatternToken

/-- Why a text is no pattern. -/
inductive PatternCause where
  /-- There are more than two asterisks in a row. -/
  | asterisks
  /-- Two asterisks are not alone in a component. -/
  | recursive
  /-- A bracket is not closed. -/
  | range

/-- A fault in a pattern. -/
structure PatternFault where
  /-- The number of characters before the fault. -/
  position : Nat
  /-- What is wrong. -/
  cause : PatternCause

/-- The words for a fault in a pattern. -/
def PatternCause.reason : PatternCause → String
  | asterisks => "wildcards are either regular `*` or recursive `**`"
  | recursive => "recursive wildcards must form a single path component"
  | range => "invalid range pattern"

/-- The message of a fault in a pattern. -/
def PatternFault.message (f : PatternFault) : String :=
  s!"Pattern syntax error near position {f.position}: " ++ f.cause.reason

namespace Pattern

/-! ## Reading -/

/-- The ranges that are written between brackets; a character alone is a range of one. -/
def ranges : List Char → List (Char × Char)
  | first :: '-' :: last :: cs => (first, last) :: ranges cs
  | c :: cs => (c, c) :: ranges cs
  | [] => []

/-- What stands between brackets, and what follows them; at least one character stands there, which may be
a closing bracket itself. -/
def bracketed? : List Char → Option (List Char × List Char)
  | [] => none
  | c :: cs =>
    match cs.dropWhile (· ≠ ']') with
    | _ :: rest => some (c :: cs.takeWhile (· ≠ ']'), rest)
    | [] => none

/-- The token behind an opening bracket, and what follows it. -/
def bracketToken? : List Char → Option (PatternToken × List Char)
  | '!' :: cs => (bracketed? cs).map fun (body, rest) => (.except (ranges body), rest)
  | cs => (bracketed? cs).map fun (body, rest) => (.within (ranges body), rest)

/-- Reads a pattern from the given position on, up to a number of tokens; `start` tells whether a component
begins there. -/
def readFrom (position : Nat) (start : Bool) : Nat → List Char → Except PatternFault Pattern
  | 0, _ | _, [] => .ok []
  | fuel + 1, c :: cs =>
    match c, cs with
    | '?', cs => return .anyChar :: (← readFrom (position + 1) false fuel cs)
    | '*', '*' :: '*' :: _ => .error ⟨position + 2, .asterisks⟩
    | '*', '*' :: cs =>
      if start then
        match cs with
        | [] => return [.anyDirectories]
        | '/' :: cs => return .anyDirectories :: (← readFrom (position + 3) true fuel cs)
        | _ => .error ⟨position + 2, .recursive⟩
      else .error ⟨position - 1, .recursive⟩
    | '*', cs => return .anyText :: (← readFrom (position + 1) false fuel cs)
    | '[', cs =>
      match bracketToken? cs with
      | some (token, rest) =>
        return token :: (← readFrom (position + 1 + (cs.length - rest.length)) false fuel rest)
      | none => .error ⟨position, .range⟩
    | c, cs => return .char c :: (← readFrom (position + 1) (c == '/') fuel cs)

/-- The pattern that a text writes. -/
def ofText (text : String) : Except PatternFault Pattern :=
  readFrom 0 true text.length text.toList

/-- The patterns of the components of a path. The text as a whole has to be a pattern, too. -/
def componentsOfText (text : String) : Except PatternFault (List Pattern) := do
  let _ ← ofText text
  (Path.components text).mapM ofText

/-! ## Accepting -/

/-- Whether a character is in one of the ranges. -/
def inRanges (ranges : List (Char × Char)) (c : Char) : Bool :=
  ranges.any fun (first, last) => first ≤ c && c ≤ last

/-- Whether a list has a rest for which a test holds; the list itself counts as one. -/
def someRest (test : List α → Bool) : List α → Bool
  | [] => test []
  | a :: as => test (a :: as) || someRest test as

/-- Whether a pattern is for a text. -/
def acceptsChars : Pattern → List Char → Bool
  | [], cs => cs.isEmpty
  | .anyText :: p, cs | .anyDirectories :: p, cs => someRest (acceptsChars p) cs
  | _ :: _, [] => false
  | .char d :: p, c :: cs => c == d && acceptsChars p cs
  | .anyChar :: p, _ :: cs => acceptsChars p cs
  | .within ranges :: p, c :: cs => inRanges ranges c && acceptsChars p cs
  | .except ranges :: p, c :: cs => !inRanges ranges c && acceptsChars p cs

/-- Whether a pattern is for a name. -/
def accepts (p : Pattern) (name : String) : Bool := acceptsChars p name.toList

/-- The character that a token stands for, if it stands for one alone. -/
def literalChar? : PatternToken → Option Char
  | .char c => some c
  | _ => none

/-- The one name that a pattern is for, if it has nothing but characters. -/
def literal? (p : Pattern) : Option String := (p.mapM literalChar?).map String.ofList

/-- Whether a pattern stands for any directories. -/
def isRecursive (p : Pattern) : Bool := p.contains .anyDirectories

/-- The patterns with one of each group of neighbours that stand for any directories. -/
def collapse : List Pattern → List Pattern
  | p :: q :: ps =>
    if isRecursive p && isRecursive q then collapse (q :: ps) else p :: collapse (q :: ps)
  | ps => ps

end Pattern

end StagePlan
