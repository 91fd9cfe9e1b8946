import StagePlan.Json.Basic

/-!
# JSON tokens

`Json.lex` cuts the bytes of a text into tokens. It never fails: a string, number or word that is
broken becomes a token that carries its fault, so that a reader going through the tokens meets the
faults of a text in their order. A string keeps its pieces as written, because a text that is read
for its meaning is held to more than a text that is skipped: `Json.Token.text` decodes the pieces
and refuses unpaired surrogates and invalid UTF-8, while a skipped string only has to be closed.
-/

namespace StagePlan.Json

/-- Why a text is not the value a reader wants. -/
inductive Fault where
  /-- The text is no JSON. -/
  | malformed
  /-- The text is JSON so far, but of another type or value than wanted here. -/
  | mismatch
  /-- The text ends inside the value. -/
  | truncated
  deriving DecidableEq

/-- The three words of JSON. -/
inductive Word where
  /-- The word `null`. -/
  | null
  /-- The word `true`. -/
  | true
  /-- The word `false`. -/
  | false
  deriving DecidableEq

/-- A piece of a string as written. -/
inductive Piece where
  /-- A byte, standing for itself or given by a short escape. -/
  | byte (b : UInt8)
  /-- A UTF-16 unit, given by four hexadecimal digits. -/
  | unit (n : Nat)
  deriving DecidableEq

/-- A token of a text. -/
inductive Token where
  /-- An opening brace. -/
  | openObject
  /-- A closing brace. -/
  | closeObject
  /-- An opening bracket. -/
  | openArray
  /-- A closing bracket. -/
  | closeArray
  /-- A comma. -/
  | comma
  /-- A colon. -/
  | colon
  /-- A string, up to its closing quote or up to the fault that breaks it. -/
  | string (pieces : List Piece) (broken : Option Fault)
  /-- A number, as written. -/
  | number (literal : List Char)
  /-- A number that breaks off. -/
  | brokenNumber (fault : Fault)
  /-- A word. -/
  | word (w : Word)
  /-- A word that breaks off. -/
  | brokenWord (fault : Fault)
  /-- A byte that starts no token. -/
  | stray
  deriving DecidableEq

/-! ## Strings -/

/-- The value of a hexadecimal digit. -/
def hexValue? (b : UInt8) : Option Nat :=
  if 0x30 ≤ b ∧ b ≤ 0x39 then some (b.toNat - 0x30)
  else if 0x61 ≤ b ∧ b ≤ 0x66 then some (b.toNat - 0x61 + 10)
  else if 0x41 ≤ b ∧ b ≤ 0x46 then some (b.toNat - 0x41 + 10)
  else none

/-- The value of four hexadecimal digits. -/
def hexUnit? (a b c d : UInt8) : Option Nat := do
  return (((← hexValue? a) * 16 + (← hexValue? b)) * 16 + (← hexValue? c)) * 16 + (← hexValue? d)

/-- The byte that a one-letter escape stands for. -/
def shortEscape? (b : UInt8) : Option UInt8 :=
  if b = 0x22 ∨ b = 0x5c ∨ b = 0x2f then some b
  else if b = 0x62 then some 0x08
  else if b = 0x66 then some 0x0c
  else if b = 0x6e then some 0x0a
  else if b = 0x72 then some 0x0d
  else if b = 0x74 then some 0x09
  else none

/-- The pieces of a string after its opening quote, the fault that breaks it, if any, and the bytes
after its closing quote. -/
def scanString : List UInt8 → List Piece × Option Fault × List UInt8
  | [] => ([], some .truncated, [])
  | 0x22 :: rest => ([], none, rest)
  | 0x5c :: 0x75 :: a :: b :: c :: d :: rest =>
    match hexUnit? a b c d with
    | some n =>
      let (pieces, broken, rest) := scanString rest
      (.unit n :: pieces, broken, rest)
    | none => ([], some .malformed, [])
  | 0x5c :: 0x75 :: _ => ([], some .truncated, [])
  | 0x5c :: [] => ([], some .truncated, [])
  | 0x5c :: letter :: rest =>
    match shortEscape? letter with
    | some b =>
      let (pieces, broken, rest) := scanString rest
      (.byte b :: pieces, broken, rest)
    | none => ([], some .malformed, [])
  | b :: rest =>
    if b < 0x20 then ([], some .malformed, [])
    else
      let (pieces, broken, rest) := scanString rest
      (.byte b :: pieces, broken, rest)

/-- What is left behind a string is no longer than what it was read from. -/
theorem length_scanString_le (bs : List UInt8) : (scanString bs).2.2.length ≤ bs.length := by
  fun_induction scanString bs with
  -- nothing is left of a string that breaks off
  | case1 | case4 | case5 | case6 | case8 | case9 => exact Nat.zero_le _
  | case2 rest => exact Nat.le_succ rest.length
  | case3 a b c d rest n _ pieces broken left scanned ih =>
    have shorter : left.length ≤ rest.length := by
      rw [scanned] at ih
      exact ih
    simp only [List.length_cons]
    omega
  | case7 letter rest _ _ b _ pieces broken left scanned ih
  | case10 b rest _ _ _ _ _ _ pieces broken left scanned ih =>
    have shorter : left.length ≤ rest.length := by
      rw [scanned] at ih
      exact ih
    simp only [List.length_cons]
    omega

/-- The bytes of a character given by its code point. -/
def encodePoint (n : Nat) : List UInt8 := String.utf8EncodeChar (Char.ofNat n)

/-- The bytes that the pieces of a string stand for. A unit from `D800` to `DBFF` has to be followed
at once by one from `DC00` to `DFFF`, with which it makes one character; such a second unit may stand
nowhere else. A string that breaks off has the fault that breaks it, unless an earlier piece is at
fault. -/
def decodePieces (broken : Option Fault) : List Piece → Except Fault (List UInt8)
  | [] =>
    match broken with
    | none => .ok []
    | some fault => .error fault
  | .byte b :: rest => (decodePieces broken rest).map (b :: ·)
  | .unit n :: rest =>
    if 0xdc00 ≤ n ∧ n ≤ 0xdfff then .error .malformed
    else if 0xd800 ≤ n ∧ n ≤ 0xdbff then
      match rest with
      | .unit m :: rest =>
        if 0xdc00 ≤ m ∧ m ≤ 0xdfff then
          (decodePieces broken rest).map
            (encodePoint (0x10000 + (n - 0xd800) * 0x400 + (m - 0xdc00)) ++ ·)
        else .error .malformed
      | [] => .error (broken.getD .malformed)
      | .byte _ :: _ => .error .malformed
    else (decodePieces broken rest).map (encodePoint n ++ ·)

/-- The text that the pieces of a string stand for. -/
def decodeString (pieces : List Piece) (broken : Option Fault) : Except Fault String := do
  match String.fromUTF8? ⟨(← decodePieces broken pieces).toArray⟩ with
  | some s => return s
  | none => throw .malformed

/-! ## Numbers and words -/

/-- Whether a byte is one of the ten decimal digits. -/
def isDigitByte (b : UInt8) : Bool := 0x30 ≤ b && b ≤ 0x39

/-- The character of an ASCII byte. -/
def asciiChar (b : UInt8) : Char := Char.ofNat b.toNat

/-- At least one digit, and what follows the digits. -/
def scanDigits (bs : List UInt8) : Except Fault (List Char × List UInt8) :=
  match bs.takeWhile isDigitByte with
  | [] => .error (if bs.isEmpty then .truncated else .malformed)
  | ds => .ok (ds.map asciiChar, bs.dropWhile isDigitByte)

/-- Digits are taken from what is left. -/
theorem length_scanDigits_lt {bs : List UInt8} {r : List Char × List UInt8}
    (h : scanDigits bs = .ok r) : r.2.length < bs.length := by
  have split := congrArg List.length (List.takeWhile_append_dropWhile (p := isDigitByte) (l := bs))
  unfold scanDigits at h
  cases taken : bs.takeWhile isDigitByte with
  | nil => simp [taken] at h
  | cons d ds =>
    simp only [taken, Except.ok.injEq] at h
    simp only [taken, List.length_append, List.length_cons] at split
    simp only [← h]
    omega

/-- The whole part of a number: digits without a leading zero. -/
def scanWhole (bs : List UInt8) : Except Fault (List Char × List UInt8) := do
  match ← scanDigits bs with
  | ('0' :: _ :: _, _) => throw .malformed
  | scanned => return scanned

/-- The whole part is made of the digits. -/
theorem length_scanWhole_lt {bs : List UInt8} {r : List Char × List UInt8}
    (h : scanWhole bs = .ok r) : r.2.length < bs.length := by
  unfold scanWhole at h
  cases scanned : scanDigits bs with
  | error => simp [scanned, bind, Except.bind] at h
  | ok digits =>
    have shorter := length_scanDigits_lt scanned
    simp only [scanned, bind, Except.bind] at h
    split at h
    next leadingZero => cases h
    next => exact Except.ok.inj h ▸ shorter

/-- The fraction of a number, if there is one. -/
def scanFraction : List UInt8 → Except Fault (List Char × List UInt8)
  | 0x2e :: bs => (scanDigits bs).map fun (ds, rest) => ('.' :: ds, rest)
  | bs => .ok ([], bs)

/-- Digits that are read and extended by a mark are taken from what is left. -/
theorem length_map_scanDigits_lt {bs : List UInt8} {f : List Char → List Char}
    {r : List Char × List UInt8}
    (h : ((scanDigits bs).map fun (ds, rest) => (f ds, rest)) = .ok r) :
    r.2.length < bs.length := by
  cases scanned : scanDigits bs with
  | error => simp [scanned, Except.map] at h
  | ok digits =>
    have shorter := length_scanDigits_lt scanned
    simp only [scanned, Except.map, Except.ok.injEq] at h
    rwa [← h]

/-- What is left behind a fraction is no longer than what it was read from. -/
theorem length_scanFraction_le {bs : List UInt8} {r : List Char × List UInt8}
    (h : scanFraction bs = .ok r) : r.2.length ≤ bs.length := by
  unfold scanFraction at h
  split at h
  next digits =>
    have shorter := length_map_scanDigits_lt h
    simp only [List.length_cons]
    omega
  next =>
    cases h
    exact Nat.le_refl _

/-- The exponent of a number, if there is one. -/
def scanExponent : List UInt8 → Except Fault (List Char × List UInt8)
  | [] => .ok ([], [])
  | mark :: bs =>
    if mark = 0x65 ∨ mark = 0x45 then
      match bs with
      | sign :: bs' =>
        if sign = 0x2b ∨ sign = 0x2d then
          (scanDigits bs').map fun (ds, rest) => ('e' :: asciiChar sign :: ds, rest)
        else (scanDigits bs).map fun (ds, rest) => ('e' :: ds, rest)
      | [] => .error .truncated
    else .ok ([], mark :: bs)

/-- What is left behind an exponent is no longer than what it was read from. -/
theorem length_scanExponent_le {bs : List UInt8} {r : List Char × List UInt8}
    (h : scanExponent bs = .ok r) : r.2.length ≤ bs.length := by
  unfold scanExponent at h
  split at h
  next =>
    cases h
    exact Nat.le_refl _
  next mark rest =>
    split at h
    next isMark =>
      split at h
      next sign digits =>
        split at h
        next signed =>
          have shorter := length_map_scanDigits_lt (f := fun ds => 'e' :: asciiChar sign :: ds) h
          simp only [List.length_cons]
          omega
        next unsigned =>
          have shorter := length_map_scanDigits_lt h
          simp only [List.length_cons] at shorter ⊢
          omega
      next => cases h
    next noMark =>
      cases h
      exact Nat.le_refl _

/-- A number without its sign. -/
def scanMagnitude (bs : List UInt8) : Except Fault (List Char × List UInt8) := do
  let (whole, bs) ← scanWhole bs
  let (fraction, bs) ← scanFraction bs
  let (exponent, bs) ← scanExponent bs
  return (whole ++ fraction ++ exponent, bs)

/-- A number is taken from what is left. -/
theorem length_scanMagnitude_lt {bs : List UInt8} {r : List Char × List UInt8}
    (h : scanMagnitude bs = .ok r) : r.2.length < bs.length := by
  unfold scanMagnitude at h
  cases whole : scanWhole bs with
  | error => simp [whole, bind, Except.bind] at h
  | ok r₁ =>
    cases fraction : scanFraction r₁.2 with
    | error => simp [whole, fraction, bind, Except.bind] at h
    | ok r₂ =>
      cases exponent : scanExponent r₂.2 with
      | error => simp [whole, fraction, exponent, bind, Except.bind] at h
      | ok r₃ =>
        have h₁ := length_scanWhole_lt whole
        have h₂ := length_scanFraction_le fraction
        have h₃ := length_scanExponent_le exponent
        simp only [whole, fraction, exponent, bind, Except.bind, pure, Except.pure,
          Except.ok.injEq] at h
        simp only [← h]
        omega

/-- What is left after the given bytes, which have to come next. -/
def scanLetters : List UInt8 → List UInt8 → Except Fault (List UInt8)
  | [], bs => .ok bs
  | _ :: _, [] => .error .truncated
  | wanted :: more, b :: bs => if b = wanted then scanLetters more bs else .error .malformed

/-- What is left behind letters is no longer than what they were read from. -/
theorem length_scanLetters_le {wanted bs rest : List UInt8}
    (h : scanLetters wanted bs = .ok rest) : rest.length ≤ bs.length := by
  induction wanted generalizing bs with
  | nil =>
    cases h
    exact Nat.le_refl _
  | cons letter more ih =>
    cases bs with
    | nil => cases h
    | cons b bs =>
      unfold scanLetters at h
      split at h
      next same => exact Nat.le_succ_of_le (ih h)
      next other => cases h

/-- Whether a byte is blank between tokens. -/
def isBlankByte (b : UInt8) : Bool := b == 0x20 || b == 0x0a || b == 0x09 || b == 0x0d

/-- The token of a single punctuation mark. -/
def punctuation? (b : UInt8) : Option Token :=
  if b = 0x7b then some .openObject
  else if b = 0x7d then some .closeObject
  else if b = 0x5b then some .openArray
  else if b = 0x5d then some .closeArray
  else if b = 0x2c then some .comma
  else if b = 0x3a then some .colon
  else none

/-- The word that starts with a letter, and its other letters. -/
def word? (b : UInt8) : Option (Word × List UInt8) :=
  if b = 0x6e then some (.null, [0x75, 0x6c, 0x6c])
  else if b = 0x74 then some (.true, [0x72, 0x75, 0x65])
  else if b = 0x66 then some (.false, [0x61, 0x6c, 0x73, 0x65])
  else none

/-- The token of a number that starts with a byte, if one does, and the bytes after it. -/
def scanNumber (b : UInt8) (bs : List UInt8) : Token × List UInt8 :=
  let number :=
    if b = 0x2d then (scanMagnitude bs).map fun (ds, rest) => ('-' :: ds, rest)
    else if isDigitByte b then scanMagnitude (b :: bs)
    else .ok ([], [])
  match number with
  | .ok ([], _) => (.stray, [])
  | .ok (literal, rest) => (.number literal, rest)
  | .error fault => (.brokenNumber fault, [])

/-- What is left behind a number is no longer than what comes after its first byte. -/
theorem length_scanNumber_le (b : UInt8) (bs : List UInt8) :
    (scanNumber b bs).2.length ≤ bs.length := by
  unfold scanNumber
  simp only
  split
  next stray => exact Nat.zero_le _
  next literal rest _ scanned =>
    split at scanned
    next minus =>
      cases magnitude : scanMagnitude bs with
      | error => simp [magnitude, Except.map] at scanned
      | ok r =>
        have shorter := length_scanMagnitude_lt magnitude
        simp only [magnitude, Except.map, Except.ok.injEq, Prod.mk.injEq] at scanned
        simp only [← scanned.2]
        omega
    next noMinus =>
      split at scanned
      next digit =>
        exact Nat.le_of_lt_succ (length_scanMagnitude_lt scanned)
      next noDigit =>
        cases scanned
        exact Nat.zero_le _
  next fault broken => exact Nat.zero_le _

/-- The token that starts with a byte that is not blank, and the bytes after it. -/
def scanToken (b : UInt8) (bs : List UInt8) : Token × List UInt8 :=
  match punctuation? b with
  | some token => (token, bs)
  | none =>
    if b = 0x22 then
      let (pieces, broken, rest) := scanString bs
      (.string pieces broken, rest)
    else
      match word? b with
      | some (w, letters) =>
        match scanLetters letters bs with
        | .ok rest => (.word w, rest)
        | .error fault => (.brokenWord fault, [])
      | none => scanNumber b bs

/-- What is left behind a token is no longer than what comes after its first byte. -/
theorem length_scanToken_le (b : UInt8) (bs : List UInt8) :
    (scanToken b bs).2.length ≤ bs.length := by
  unfold scanToken
  split
  next mark => exact Nat.le_refl _
  next noMark =>
    split
    next quote => exact length_scanString_le bs
    next noQuote =>
      split
      next w letters found =>
        split
        next rest scanned => exact length_scanLetters_le scanned
        next fault broken => exact Nat.zero_le _
      next noWord => exact length_scanNumber_le b bs

/-- The tokens of a text, given by its bytes; nothing follows a token that breaks off. -/
def lex : List UInt8 → List Token
  | [] => []
  | b :: bs =>
    if isBlankByte b then lex bs
    else
      let scanned := scanToken b bs
      have := length_scanToken_le b bs
      scanned.1 :: lex scanned.2
termination_by bs => bs.length

end StagePlan.Json
