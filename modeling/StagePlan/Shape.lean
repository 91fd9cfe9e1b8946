import StagePlan.Numeric.Word
import StagePlan.Text.Classes
import StagePlan.Text.Search

/-!
# Shapes and shape literals

A trace gives the type of an op's first output as text. `Shape.ofTypeText` takes the shape out of
the first tensor literal in it: `Float(`, then at least one digit, blank or comma, then `)`. Only that
literal counts. Its body is split at the commas, and every entry has to be a whole number below
`2 ^ 64` in ASCII digits, with white space around it at most; otherwise, and where there is no
literal, the shape is that of a single element.
-/

namespace StagePlan

/-- The sizes of a tensor along its dimensions. -/
abbrev Shape := List Nat

namespace Shape

/-- What opens a tensor literal. -/
def opening : List Char := "Float(".toList

/-- Whether a character may stand inside a tensor literal. -/
def isBodyChar (c : Char) : Bool := Text.isDecimalDigit c || Text.isBlank c || c == ','

/-- The body of the tensor literal that a text begins with. -/
def literalAt? (cs : List Char) : Option (List Char) :=
  if opening.isPrefixOf cs then
    let rest := cs.drop opening.length
    match rest.takeWhile isBodyChar, rest.dropWhile isBodyChar with
    | _ :: _, ')' :: _ => some (rest.takeWhile isBodyChar)
    | _, _ => none
  else none

/-- The body of the leftmost tensor literal of a text. -/
def firstLiteral? : List Char → Option (List Char)
  | [] => none
  | c :: cs => (literalAt? (c :: cs)).orElse fun _ => firstLiteral? cs

/-- A size: at least one ASCII digit, and a value that fits a machine word. -/
def size? (cs : List Char) : Option Nat :=
  if !cs.isEmpty && cs.all Decimal.isDigit && Decimal.ofDigits cs < Word.limit then
    some (Decimal.ofDigits cs)
  else none

/-- The shape that the body of a literal writes. -/
def ofBody? (body : List Char) : Option Shape :=
  (Text.pieces ',' body).mapM fun piece => size? (Text.trim piece)

/-- The shape that the leftmost literal of a text writes. -/
def literal? (typeText : String) : Option Shape := (firstLiteral? typeText.toList).bind ofBody?

/-- The shape given by the type text of an output. -/
def ofTypeText (typeText : String) : Shape := (literal? typeText).getD [1]

/-- The number of elements, unless it does not fit a machine word. The product is taken from the
left, and a product that grows too large on the way is refused even if a later size is zero. -/
def elements? (sizes : Shape) : Option Nat :=
  sizes.foldlM (fun product size => if product * size < Word.limit then some (product * size) else none) 1

end Shape

end StagePlan
