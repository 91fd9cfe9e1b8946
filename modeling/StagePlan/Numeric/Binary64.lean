import StagePlan.Numeric.Ratio

/-!
# Doubles as exact numbers

A finite double is a sign, a whole significand and a power of two. `Binary64.decode` gives these
parts, and `Binary64.nearest` goes back: the double nearest to a ratio, a half going to the even
significand, with gradual underflow below and infinity above.
-/

namespace StagePlan.Binary64

/-- What a double stands for. -/
inductive Value where
  /-- Not a number. -/
  | nan
  /-- An infinity, negative or positive. -/
  | infinite (negative : Bool)
  /-- The number `± significand * 2 ^ exponent`. -/
  | finite (negative : Bool) (significand : Nat) (exponent : Int)

/-- The exponent of the smallest positive double. -/
def leastExponent : Int := -1074

/-- The bit pattern of positive infinity. -/
def infinityBits : Nat := 2047 * Nat.pow 2 52

/-- The parts of a double. -/
def decode (x : Float) : Value :=
  let bits := x.toBits.toNat
  let negative := bits / Nat.pow 2 63 == 1
  let biased : Nat := bits / Nat.pow 2 52 % Nat.pow 2 11
  let fraction := bits % Nat.pow 2 52
  if biased = 2047 then
    if fraction = 0 then .infinite negative else .nan
  else if biased = 0 then .finite negative fraction leastExponent
  else .finite negative (Nat.pow 2 52 + fraction) ((biased : Int) - 1075)

/-- The bit pattern of the double nearest to a ratio. One exponent serves the significands from
`2 ^ 52` up; a significand that rounds up to `2 ^ 53` carries into the exponent field by itself. -/
def nearestBits (r : Ratio) : Nat :=
  if r.num = 0 then 0
  else
    let exponent := max (r.magnitude 2 - 52) leastExponent
    let significand := (r.shift 2 exponent).roundHalfEven
    min ((exponent - leastExponent).toNat * Nat.pow 2 52 + significand) infinityBits

/-- The double nearest to a ratio, with the given sign. -/
def nearest (negative : Bool) (r : Ratio) : Float :=
  Float.ofBits (UInt64.ofNat ((if negative then Nat.pow 2 63 else 0) + nearestBits r))

/-- The magnitude of a finite double as a ratio. -/
def magnitude (significand : Nat) (exponent : Int) : Ratio :=
  Ratio.shift 2 (-exponent) ⟨significand, 1⟩

end StagePlan.Binary64
