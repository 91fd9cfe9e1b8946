import StagePlan.Numeric.Shortest

/-!
# Decimal text of doubles

Three ways to write a double and one to read it. `plainText` spells the shortest digits out without
an exponent, `jsonText` falls back to an exponent for very large and very small numbers, and
`fixedText` rounds the exact value to a number of places. `read?` accepts an optional sign, then
digits with an optional point and exponent or one of the words for infinity and not-a-number, and
answers the double nearest to what is written.
-/

namespace StagePlan.Decimal

/-- The decimal digits of a whole number. -/
def digits (n : Nat) : List Char := Nat.toDigits 10 n

/-- A decimal number spelled out: digits, a point where there is a fraction, and no exponent. -/
def Number.positional (d : Number) : List Char :=
  let ds := digits d.coefficient
  if d.scale < 0 then
    let places := d.scale.natAbs
    let padded := List.replicate (places + 1 - ds.length) '0' ++ ds
    padded.take (padded.length - places) ++ '.' :: padded.drop (padded.length - places)
  else ds ++ List.replicate d.scale.natAbs '0'

/-- A decimal number with one digit before the point and a signed exponent. -/
def Number.scientific (d : Number) : List Char :=
  let ds := digits d.coefficient
  let exponent := d.scale + (ds.length - 1 : Nat)
  let fraction := if ds.length = 1 then [] else '.' :: ds.drop 1
  let sign := if exponent < 0 then '-' else '+'
  ds.take 1 ++ fraction ++ 'e' :: sign :: digits exponent.natAbs

/-- The sign before a magnitude. -/
def signed (negative : Bool) (magnitude : List Char) : String :=
  String.ofList (if negative then '-' :: magnitude else magnitude)

/-- The shortest digits that read back, spelled out without an exponent and without a needless
fraction. -/
def plainText (x : Float) : String :=
  match Binary64.decode x with
  | .nan => "NaN"
  | .infinite negative => signed negative "inf".toList
  | .finite negative 0 _ => signed negative ['0']
  | .finite negative significand exponent =>
    signed negative (shortestDigits .up significand exponent).positional

/-- The shortest digits that read back, in the form of a JSON number: spelled out with at least one
place while the leading digit stands at `10 ^ -5` to `10 ^ 15`, with an exponent otherwise. What is
no number is `null`. -/
def jsonText (x : Float) : String :=
  match Binary64.decode x with
  | .nan | .infinite _ => "null"
  | .finite negative 0 _ => signed negative "0.0".toList
  | .finite negative significand exponent =>
    let d := shortestDigits .toEven significand exponent
    let leading := d.scale + ((digits d.coefficient).length - 1 : Nat)
    if -5 ≤ leading ∧ leading ≤ 15 then
      signed negative (d.positional ++ if d.scale < 0 then [] else ['.', '0'])
    else signed negative d.scientific

/-- The exact value rounded to a number of places, a half going to the even neighbour; zero keeps
its sign. -/
def fixedText (places : Nat) (x : Float) : String :=
  match Binary64.decode x with
  | .nan => "NaN"
  | .infinite negative => signed negative "inf".toList
  | .finite negative significand exponent =>
    let units := ((Binary64.magnitude significand exponent).shift 10 (-places)).roundHalfEven
    signed negative (Number.positional ⟨units, -places⟩)

/-- Whether a character is one of the ten decimal digits. -/
def isDigit (c : Char) : Bool := '0' ≤ c && c ≤ '9'

/-- The number that a string of decimal digits writes. -/
def ofDigits (ds : List Char) : Nat := Nat.ofDigitChars 10 ds 0

/-- The double nearest to `coefficient * 10 ^ scale`. Numbers far outside the range are settled by
their size alone, so that a huge exponent costs nothing. -/
def Number.toFloat (negative : Bool) (d : Number) : Float :=
  if d.coefficient = 0 then Binary64.nearest negative ⟨0, 1⟩
  else if 400 < d.scale then Binary64.nearest negative ⟨Nat.pow 2 1024, 1⟩
  else if d.scale < -(400 + (leadingExponent 2 d.coefficient + 1 : Nat)) then
    Binary64.nearest negative ⟨0, 1⟩
  else Binary64.nearest negative (Ratio.shift 10 (-d.scale) ⟨d.coefficient, 1⟩)

/-- An exponent without its mark: an optional sign and at least one digit. -/
def readExponent? (cs : List Char) : Option Int :=
  let (negative, ds) :=
    match cs with
    | '-' :: ds => (true, ds)
    | '+' :: ds => (false, ds)
    | ds => (false, ds)
  if ds.isEmpty || !ds.all isDigit then none
  else some (if negative then -(ofDigits ds : Int) else ofDigits ds)

/-- Digits with an optional point and an optional exponent; at least one digit stands before the
exponent. -/
def readNumber? (cs : List Char) : Option Number :=
  let whole := cs.takeWhile isDigit
  let (fraction, rest) :=
    match cs.dropWhile isDigit with
    | '.' :: rest => (rest.takeWhile isDigit, rest.dropWhile isDigit)
    | rest => ([], rest)
  if whole.isEmpty && fraction.isEmpty then none
  else
    let number (exponent : Int) : Number := ⟨ofDigits (whole ++ fraction), exponent - fraction.length⟩
    match rest with
    | [] => some (number 0)
    | mark :: rest =>
      if mark = 'e' ∨ mark = 'E' then (readExponent? rest).map number else none

/-- The double that a text without a sign writes. -/
def readMagnitude? (negative : Bool) (cs : List Char) : Option Float :=
  let word := String.ofList (cs.map Char.toLower)
  if word = "inf" ∨ word = "infinity" then some (Binary64.nearest negative ⟨Nat.pow 2 1024, 1⟩)
  else if word = "nan" then some (Float.ofBits 0x7ff8000000000000)
  else (readNumber? cs).map (Number.toFloat negative)

/-- The double that a text writes, correctly rounded. -/
def read? : List Char → Option Float
  | '-' :: cs => readMagnitude? true cs
  | '+' :: cs => readMagnitude? false cs
  | cs => readMagnitude? false cs

end StagePlan.Decimal
