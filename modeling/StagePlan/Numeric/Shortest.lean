import StagePlan.Numeric.Binary64

/-!
# Shortest decimal digits of a double

`shortestDigits` gives the fewest decimal digits that read back to the same double. The reals that
round to a double form an interval around it, whose ends belong to it exactly when the significand
is even. A grid of `n` digits meets the interval exactly when one of the two grid points next to the
double lies in it, so the grids of 1, 2, … 17 digits are tried in turn and the first that meets the
interval gives the digits: of two points the nearer, and of two equally near ones the one that the
tie rule names.
-/

namespace StagePlan.Decimal

/-- The decimal number `coefficient * 10 ^ scale`. -/
structure Number where
  /-- The digits as one whole number. -/
  coefficient : Nat
  /-- The exponent of the last digit. -/
  scale : Int

/-- Which of two equally near digit strings is taken. -/
inductive Tie where
  /-- The one with an even last digit. -/
  | toEven
  /-- The larger one. -/
  | up

/-- The same number without trailing zeros in the coefficient. -/
def Number.trim (d : Number) : Number :=
  if h : d.coefficient ≠ 0 ∧ d.coefficient % 10 = 0 then
    Number.trim ⟨d.coefficient / 10, d.scale + 1⟩
  else d
termination_by d.coefficient
decreasing_by omega

/-- The reals that round to a double, in quarters of its last binary place. -/
structure Interval where
  /-- The lower end. -/
  low : Ratio
  /-- The double itself. -/
  value : Ratio
  /-- The upper end. -/
  high : Ratio
  /-- Whether the ends belong to the interval. -/
  closed : Bool

/-- The interval of a positive finite double. Below a power of two the doubles are twice as dense,
unless it is the smallest normal one. -/
def Interval.ofDouble (significand : Nat) (exponent : Int) : Interval :=
  let quarters (n : Nat) := Binary64.magnitude n (exponent - 2)
  let below := if significand = Nat.pow 2 52 ∧ exponent ≠ Binary64.leastExponent then 1 else 2
  { low := quarters (4 * significand - below)
    value := quarters (4 * significand)
    high := quarters (4 * significand + 2)
    closed := significand % 2 == 0 }

/-- Whether a point of the decimal grid `10 ^ scale` lies in the interval. -/
def Interval.holds (i : Interval) (scale : Int) (point : Nat) : Bool :=
  let low := i.low.shift 10 scale
  let high := i.high.shift 10 scale
  if i.closed then low.num ≤ point * low.den && point * high.den ≤ high.num
  else low.num < point * low.den && point * high.den < high.num

/-- The grid point of `10 ^ scale` that stands for the double, if the grid meets its interval. -/
def Interval.gridPoint? (i : Interval) (tie : Tie) (scale : Int) : Option Nat :=
  let v := i.value.shift 10 scale
  let below := v.floor
  let rest := 2 * (v.num % v.den)
  let lowerIsNearer :=
    match tie with
    | .toEven => rest < v.den || (rest == v.den && below % 2 == 0)
    | .up => rest < v.den
  match i.holds scale below, i.holds scale (below + 1) with
  | true, true => some (if lowerIsNearer then below else below + 1)
  | true, false => some below
  | false, true => some (below + 1)
  | false, false => none

/-- Tries `fuel` grids from the given scale downwards; if none met the interval, the next one would
give the nearest point. -/
def Interval.shortest (i : Interval) (tie : Tie) : Nat → Int → Number
  | 0, scale => ⟨(i.value.shift 10 scale).roundHalfEven, scale⟩
  | fuel + 1, scale =>
    match i.gridPoint? tie scale with
    | some point => ⟨point, scale⟩
    | none => shortest i tie fuel (scale - 1)

/-- The fewest digits that read back to the positive double `significand * 2 ^ exponent`; seventeen
always do. -/
def shortestDigits (tie : Tie) (significand : Nat) (exponent : Int) : Number :=
  let i := Interval.ofDouble significand exponent
  (i.shortest tie 17 (i.value.magnitude 10)).trim

end StagePlan.Decimal
