import StagePlan.Partition.Sequential

/-!
# The sequential solver in machine words

The solver places the middles of weights in words of twice the usual width. What exceeds such a word is
no number of the machine, and ends the program: every operation answers `none` then, and so does the
solver. `Wide.split?` is the solver that is run; `Sequential.split` is the same solver with exact numbers.
Of the repair nothing is computed in wide words but the weights of components, and these are no larger
than the sum of all weights.
-/

namespace StagePlan.Sequential.Wide

/-- The first whole number that is no wide word. -/
def limit : Nat := Nat.pow 2 128

/-- A number, if it is a wide word. -/
def fit? (n : Nat) : Option Nat := if n < limit then some n else none

/-- The sum of two numbers. -/
def add? (a b : Nat) : Option Nat := fit? (a + b)

/-- The product of two numbers. -/
def mul? (a b : Nat) : Option Nat := fit? (a * b)

/-- The quotient of two numbers. -/
def div? (a b : Nat) : Option Nat := if b = 0 then none else some (a / b)

/-- The sum of weights. -/
def total? (weights : List Nat) : Option Nat := weights.foldlM add? 0

/-- The run of a node: of `k` equal slices of the total, the one that its middle falls into. -/
def run? (total k before weight : Nat) : Option Nat := do
  let doubledMiddle ← add? (← mul? 2 before) weight
  let slice ← div? (← mul? doubledMiddle k) (← mul? 2 total)
  return min slice (k - 1)

/-- The runs of the nodes with the given weights, where those before them sum up to `before`. -/
def runsFrom? (total k before : Nat) : List Nat → Option (List Nat)
  | [] => some []
  | w :: ws => do
    let run ← run? total k before w
    let rest ← runsFrom? total k (← add? before w) ws
    return run :: rest

/-- The runs of nodes of the given weights. -/
def runs? (weights : List Nat) (k : Nat) : Option (List Nat) := do
  runsFrom? (← total? weights) k 0 weights

/-- Splits a graph into runs that are cut in wide words. -/
def split? : PartialSolver := splitBy runs?

end StagePlan.Sequential.Wide
