import StagePlan.Numeric.Decimal

/-!
# Machine words

Values, sizes, weights and counts are whole numbers below `2 ^ 64`. They are kept as natural numbers,
and the places where the bound matters name it: a total that would exceed the largest word stops there
(`Word.saturatingAdd`), a double is clamped to the words (`Word.ofFloat`), and a text that writes a larger
number writes none (`Word.read?`).
-/

namespace StagePlan.Word

/-- The first whole number that is no word. -/
def limit : Nat := Nat.pow 2 64

/-- The largest word. -/
def largest : Nat := limit - 1

/-- The sum of two words, or the largest word if it is none. -/
def saturatingAdd (a b : Nat) : Nat := min (a + b) largest

/-- The sum of words, or the largest word if it is none. -/
def saturatingSum (ns : List Nat) : Nat := ns.foldl saturatingAdd 0

/-- A double rounded to the nearest whole number, a half going up, as a word: zero for what is negative
or no number, the largest word for what is too large. -/
def ofFloat (x : Float) : Nat :=
  let rounded := x.round
  if 0 < rounded then rounded.toUInt64.toNat else 0

/-- The value of a hexadecimal digit, and so of a decimal one. -/
def digitValue? (c : Char) : Option Nat :=
  if Decimal.isDigit c then some (c.toNat - '0'.toNat)
  else if 'a' ≤ c ∧ c ≤ 'f' then some (c.toNat - 'a'.toNat + 10)
  else if 'A' ≤ c ∧ c ≤ 'F' then some (c.toNat - 'A'.toNat + 10)
  else none

/-- The number with one more digit, if the character is a digit of the base. -/
def appendDigit? (base n : Nat) (c : Char) : Option Nat :=
  match digitValue? c with
  | some d => if d < base then some (n * base + d) else none
  | none => none

/-- The word that a text writes in a base up to sixteen: at least one digit, after an optional plus
sign. -/
def read? (base : Nat) (cs : List Char) : Option Nat :=
  let ds := if cs.head? = some '+' then cs.drop 1 else cs
  if ds.isEmpty then none
  else
    match ds.foldlM (appendDigit? base) 0 with
    | some n => if n < limit then some n else none
    | none => none

end StagePlan.Word
