/-!
# Ratios of natural numbers

A measured time is printed and read exactly, so both directions compute with ratios `num / den`
instead of rounding step by step. `Ratio.shift` divides by a power of a base, `Ratio.magnitude` is
the exponent of the leading digit in a base, and `Ratio.roundHalfEven` is the nearest whole number.
-/

namespace StagePlan

/-- The quotient `num / den`; the functions below expect `den` to be positive. -/
structure Ratio where
  /-- The dividend. -/
  num : Nat
  /-- The divisor. -/
  den : Nat

/-- The exponent of the leading digit of `n` in base `base`: the largest `k` with `base ^ k ≤ n`. -/
def leadingExponent (base n : Nat) : Nat :=
  if h : 1 < base ∧ base ≤ n then leadingExponent base (n / base) + 1 else 0
termination_by n
decreasing_by exact Nat.div_lt_self (by omega) h.1

namespace Ratio

/-- The ratio divided by `base ^ k`; a negative `k` multiplies. -/
def shift (base : Nat) (k : Int) (r : Ratio) : Ratio :=
  if k < 0 then ⟨r.num * Nat.pow base k.natAbs, r.den⟩
  else ⟨r.num, r.den * Nat.pow base k.natAbs⟩

/-- The largest `k` with `base ^ k ≤ num / den`, for a positive ratio. -/
def magnitude (base : Nat) (r : Ratio) : Int :=
  let k : Int := leadingExponent base r.num - leadingExponent base r.den
  let s := r.shift base k
  if s.num < s.den then k - 1 else k

/-- The whole part. -/
def floor (r : Ratio) : Nat := r.num / r.den

/-- The nearest whole number; a half goes to the even neighbour. -/
def roundHalfEven (r : Ratio) : Nat :=
  let q := r.num / r.den
  let rest := r.num % r.den
  if 2 * rest < r.den ∨ (2 * rest = r.den ∧ q % 2 = 0) then q else q + 1

end Ratio

end StagePlan
