import StagePlan.Json.Reader
import StagePlan.Proofs.Json.Strings

/-!
# Tokens of written JSON

The text of a value has the `tokens` of the value, in either layout and whatever follows
(`lex_textAt`): blanks are skipped, a string is scanned up to its closing quote, and a number up to
a byte that cannot belong to it (`EndsNumber`). A value is `Lexable` if its numbers are written so
that they are scanned as they are, which whole numbers are (`scans_digits`).
-/

namespace StagePlan.Json

/-! ## Numbers -/

/-- A text starts with nothing that a number could go on with. -/
def EndsNumber (rest : List UInt8) : Prop :=
  ∀ b ∈ rest.head?, isDigitByte b = false ∧ b ≠ 0x2e ∧ b ≠ 0x65 ∧ b ≠ 0x45

/-- A literal is scanned as it is written. -/
def Scans (literal : String) : Prop :=
  ∀ rest, EndsNumber rest → lex (bytes literal ++ rest) = .number literal.toList :: lex rest

/-- The digits of a number are digits. -/
theorem isDigit_of_mem_digits {n : Nat} {c : Char} (member : c ∈ Decimal.digits n) :
    Decimal.isDigit c = true :=
  Nat.isDigit_of_mem_toDigits (by decide) (by decide) member

/-- They are read as the number. -/
theorem ofDigits_digits (n : Nat) : Decimal.ofDigits (Decimal.digits n) = n :=
  Nat.ofDigitChars_ten_toDigits

/-- So numbers with the same digits are the same. -/
theorem digits_injective : Function.Injective Decimal.digits :=
  Function.LeftInverse.injective ofDigits_digits

/-- Every number has a digit. -/
theorem digits_ne_nil (n : Nat) : Decimal.digits n ≠ [] := Nat.toDigits_ne_nil

/-- Only the digits of zero start with a zero. -/
theorem head?_digits {n : Nat} (zero : (Decimal.digits n).head? = some '0') : n = 0 := by
  induction n using Nat.strongRecOn with
  | ind n ih =>
    rcases Nat.lt_or_ge n 10 with small | large
    · have single : ∀ n < 10, (Nat.toDigits 10 n).head? = some '0' → n = 0 := by decide
      exact single n small zero
    · have split : Decimal.digits n = Decimal.digits (n / 10) ++ [Nat.digitChar (n % 10)] :=
        Nat.toDigits_of_base_le (by decide) large
      have first : (Decimal.digits n).head? = (Decimal.digits (n / 10)).head? := by
        rw [split, List.head?_append, List.head?_eq_some_head (digits_ne_nil (n / 10))]
        rfl
      have none_ := ih (n / 10) (Nat.div_lt_self (by omega) (by decide)) (first ▸ zero)
      omega

/-- The literal of a word is read as the word. -/
theorem ofLiteral_digits {n : Nat} (word : n < StagePlan.Word.limit) :
    Numeral.ofLiteral (Decimal.digits n) = .ok (.natural n) := by
  have all : (Decimal.digits n).all Decimal.isDigit = true :=
    List.all_eq_true.2 fun c member => isDigit_of_mem_digits member
  rw [Numeral.ofLiteral, ofDigits_digits, if_pos ⟨all, word⟩]

/-- The byte of a digit is one of the ten, and stands for the digit. -/
theorem isDigitByte_ofNat {c : Char} (digit : Decimal.isDigit c = true) :
    c.toNat < 0x80 ∧ isDigitByte (.ofNat c.toNat) = true ∧ asciiChar (.ofNat c.toNat) = c := by
  have all : ∀ n < 58, 48 ≤ n → n < 0x80 ∧ isDigitByte (.ofNat n) = true ∧
      asciiChar (.ofNat n) = Char.ofNat n := by decide
  have bounds : 48 ≤ c.toNat ∧ c.toNat ≤ 57 := by
    simpa [Decimal.isDigit, Char.le_def, UInt32.le_iff_toNat_le] using digit
  have same := all c.toNat (by omega) bounds.1
  rwa [Char.ofNat_toNat] at same

/-- A digit starts neither a mark nor a string nor a word nor a negative number. -/
theorem starts_of_isDigitByte {b : UInt8} (digit : isDigitByte b = true) : isBlankByte b = false ∧
    punctuation? b = none ∧ b ≠ 0x22 ∧ word? b = none ∧ b ≠ 0x2d := by
  have all : ∀ n < 58, 48 ≤ n → isBlankByte (.ofNat n) = false ∧ punctuation? (.ofNat n) = none ∧
      UInt8.ofNat n ≠ 0x22 ∧ word? (.ofNat n) = none ∧ UInt8.ofNat n ≠ 0x2d := by decide
  have bounds : 48 ≤ b.toNat ∧ b.toNat ≤ 57 := by
    simpa [isDigitByte, UInt8.le_iff_toNat_le] using digit
  have same := all b.toNat (by omega) bounds.1
  rwa [UInt8.ofNat_toNat] at same

/-- Digits are scanned up to what ends the number. -/
theorem scanDigits_digits (n : Nat) {rest : List UInt8} (ends : EndsNumber rest) :
    scanDigits ((Decimal.digits n).flatMap String.utf8EncodeChar ++ rest)
      = .ok (Decimal.digits n, rest) := by
  have bytes : (Decimal.digits n).flatMap String.utf8EncodeChar
      = (Decimal.digits n).map fun c => .ofNat c.toNat :=
    flatMap_utf8EncodeChar_ascii fun c member =>
      (isDigitByte_ofNat (isDigit_of_mem_digits member)).1
  have digits : ∀ b ∈ (Decimal.digits n).map fun c => UInt8.ofNat c.toNat,
      isDigitByte b = true := by
    intro b member
    obtain ⟨c, digit, rfl⟩ := List.mem_map.1 member
    exact (isDigitByte_ofNat (isDigit_of_mem_digits digit)).2.1
  have chars : ((Decimal.digits n).map fun c => UInt8.ofNat c.toNat).map asciiChar
      = Decimal.digits n := by
    rw [List.map_map]
    exact (List.map_congr_left fun c digit =>
      (isDigitByte_ofNat (isDigit_of_mem_digits digit)).2.2).trans (List.map_id _)
  have stop : rest.takeWhile isDigitByte = [] ∧ rest.dropWhile isDigitByte = rest := by
    cases rest with
    | nil => exact ⟨rfl, rfl⟩
    | cons b bs => simp [(ends b rfl).1]
  unfold scanDigits
  rw [bytes, List.takeWhile_append_of_pos digits, List.dropWhile_append_of_pos digits, stop.1,
    stop.2, List.append_nil]
  split
  next none_ => exact absurd (List.map_eq_nil_iff.1 none_) (digits_ne_nil n)
  next => rw [chars]

/-- What does not start with a point or an exponent leaves a number as it is. -/
theorem EndsNumber.scan {rest : List UInt8} (ends : EndsNumber rest) :
    scanFraction rest = .ok ([], rest) ∧ scanExponent rest = .ok ([], rest) := by
  cases rest with
  | nil => exact ⟨rfl, rfl⟩
  | cons b bs =>
    obtain ⟨-, noPoint, noSmall, noLarge⟩ := ends b rfl
    refine ⟨?_, if_neg fun mark => mark.elim noSmall noLarge⟩
    rw [scanFraction]
    exact fun _ same => noPoint (List.cons.inj same).1

/-- Digits are scanned as the whole part of a number. -/
theorem scanWhole_digits (n : Nat) {rest : List UInt8} (ends : EndsNumber rest) :
    scanWhole ((Decimal.digits n).flatMap String.utf8EncodeChar ++ rest)
      = .ok (Decimal.digits n, rest) := by
  unfold scanWhole
  rw [scanDigits_digits n ends]
  simp only [bind, Except.bind]
  split
  -- digits after a leading zero are refused, but zero is the only number with one
  next d ds _ same =>
    have leading : Decimal.digits n = '0' :: d :: ds := congrArg Prod.fst same
    cases head?_digits (congrArg List.head? leading)
    cases leading
  next => rfl

/-- A number with no other part is scanned as its digits. -/
theorem scanMagnitude_digits (n : Nat) {rest : List UInt8} (ends : EndsNumber rest) :
    scanMagnitude ((Decimal.digits n).flatMap String.utf8EncodeChar ++ rest)
      = .ok (Decimal.digits n, rest) := by
  rw [scanMagnitude, scanWhole_digits n ends]
  show (scanFraction rest >>= _) = _
  rw [ends.scan.1]
  show (scanExponent rest >>= _) = _
  rw [ends.scan.2]
  show Except.ok (Decimal.digits n ++ [] ++ [], rest) = _
  rw [List.append_nil, List.append_nil]

/-- What a token is scanned from gives this token first. -/
theorem lex_token {b : UInt8} {bs rest : List UInt8} {t : Token} (dark : isBlankByte b = false)
    (scanned : scanToken b bs = (t, rest)) : lex (b :: bs) = t :: lex rest := by
  rw [lex, if_neg (dark ▸ Bool.false_ne_true)]
  show (scanToken b bs).1 :: lex (scanToken b bs).2 = _
  rw [scanned]

/-- Whole numbers are scanned as they are written. -/
theorem scans_digits (n : Nat) : Scans (String.ofList (Decimal.digits n)) := by
  intro rest ends
  have magnitude := scanMagnitude_digits n ends
  rw [bytes_ofList, String.toList_ofList]
  obtain ⟨c, cs, digits⟩ := List.exists_cons_of_ne_nil (digits_ne_nil n)
  obtain ⟨ascii, digit, -⟩ := isDigitByte_ofNat (isDigit_of_mem_digits (n := n) (c := c)
    (digits ▸ List.mem_cons_self))
  obtain ⟨dark, noMark, noQuote, noWord, noSign⟩ := starts_of_isDigitByte digit
  rw [digits, List.flatMap_cons, utf8EncodeChar_ascii ascii, List.append_assoc,
    List.singleton_append] at magnitude ⊢
  refine lex_token dark ?_
  unfold scanToken
  rw [noMark]
  simp only [noQuote, noWord, if_false]
  unfold scanNumber
  simp only [noSign, digit, if_true, if_false, magnitude]

/-! ## Marks, words and blanks -/

/-- A text ends a number if its first byte does. -/
theorem EndsNumber.cons {b : UInt8} {rest : List UInt8}
    (ends : isDigitByte b = false ∧ b ≠ 0x2e ∧ b ≠ 0x65 ∧ b ≠ 0x45) : EndsNumber (b :: rest) := by
  intro b' first
  cases first
  exact ends

/-- A mark gives its token. -/
theorem lex_mark {s : String} {b : UInt8} {t : Token} (single : bytes s = [b])
    (mark : punctuation? b = some t) (dark : isBlankByte b = false) (rest : List UInt8) :
    lex (bytes s ++ rest) = t :: lex rest := by
  rw [single, List.singleton_append]
  refine lex_token dark ?_
  rw [scanToken, mark]

/-- Blanks give no token. -/
theorem lex_blanks (bs : List UInt8) (blank : ∀ b ∈ bs, isBlankByte b = true)
    (rest : List UInt8) : lex (bs ++ rest) = lex rest := by
  induction bs with
  | nil => rfl
  | cons b bs ih =>
    rw [List.cons_append, lex, if_pos (blank b List.mem_cons_self),
      ih fun b' member => blank b' (List.mem_cons_of_mem b member)]

/-- The letters of a word are scanned as they are. -/
theorem scanLetters_self (letters rest : List UInt8) :
    scanLetters letters (letters ++ rest) = .ok rest := by
  induction letters with
  | nil => rfl
  | cons b letters ih => rwa [List.cons_append, scanLetters, if_pos rfl]

/-- A word gives its token. -/
theorem lex_word {s : String} {b : UInt8} {letters : List UInt8} {w : Word}
    (spelled : bytes s = b :: letters) (word : word? b = some (w, letters))
    (plain : isBlankByte b = false ∧ punctuation? b = none ∧ b ≠ 0x22) (rest : List UInt8) :
    lex (bytes s ++ rest) = .word w :: lex rest := by
  obtain ⟨dark, noMark, noQuote⟩ := plain
  rw [spelled, List.cons_append]
  refine lex_token dark ?_
  rw [scanToken, noMark]
  simp only [noQuote, word, scanLetters_self, if_false]

/-- Line breaks give no token, in either layout. -/
theorem lex_lineBreak (layout : Layout) (level : Nat) (rest : List UInt8) :
    lex (bytes (layout.lineBreak level) ++ rest) = lex rest := by
  cases layout with
  | compact => rfl
  | indented =>
    refine lex_blanks _ (fun b member => ?_) rest
    rw [Layout.lineBreak, bytes_ofList] at member
    obtain ⟨c, member, inChar⟩ := List.mem_flatMap.1 member
    rcases List.mem_cons.1 member with rfl | member
    · cases List.mem_singleton.1 inChar
      rfl
    · cases List.eq_of_mem_replicate member
      cases List.mem_singleton.1 inChar
      rfl

/-- A colon gives its token, in either layout. -/
theorem lex_colon (layout : Layout) (rest : List UInt8) :
    lex (bytes layout.colon ++ rest) = .colon :: lex rest := by
  cases layout with
  | compact => exact lex_mark (b := 0x3a) rfl rfl rfl rest
  | indented =>
    have colon : bytes ": " = bytes ":" ++ [0x20] := rfl
    have blank : ∀ b ∈ [0x20], isBlankByte b = true := fun _ only => List.mem_singleton.1 only ▸ rfl
    rw [Layout.colon, colon, List.append_assoc, lex_mark (t := .colon) rfl rfl rfl,
      lex_blanks [0x20] blank]

/-- A quoted string gives one token, with its pieces. -/
theorem lex_quoted (s : String) (rest : List UInt8) :
    lex (bytes (quoted s) ++ rest) = .string (piecesOf s) none :: lex rest := by
  rw [bytes_quoted, List.cons_append, List.cons_append, List.append_assoc, List.singleton_append]
  refine lex_token (by decide) ?_
  have scanned := (scanString_quoted s).1 rest
  show (Token.string (scanString (body s ++ 0x22 :: rest)).1 _, _) = _
  rw [scanned]

/-! ## Values -/

mutual

/-- The tokens of a value. -/
def tokens : Json → List Token
  | .null => [.word .null]
  | .bool true => [.word .true]
  | .bool false => [.word .false]
  | .number literal => [.number literal.toList]
  | .string s => [.string (piecesOf s) none]
  | .array [] => [.openArray, .closeArray]
  | .array (item :: items) => .openArray :: (tokens item ++ itemTokens items ++ [.closeArray])
  | .object [] => [.openObject, .closeObject]
  | .object ((key, value) :: members) =>
    .openObject :: .string (piecesOf key) none :: .colon ::
      (tokens value ++ memberTokens members ++ [.closeObject])

/-- The tokens of the items after the first. -/
def itemTokens : List Json → List Token
  | [] => []
  | item :: items => .comma :: (tokens item ++ itemTokens items)

/-- The tokens of the members after the first. -/
def memberTokens : List (String × Json) → List Token
  | [] => []
  | (key, value) :: members =>
    .comma :: .string (piecesOf key) none :: .colon :: (tokens value ++ memberTokens members)

end

/-- The numbers of a value are scanned as they are written. -/
inductive Lexable : Json → Prop
  | null : Lexable .null
  | bool (b : Bool) : Lexable (.bool b)
  | number {literal : String} : Scans literal → Lexable (.number literal)
  | string (s : String) : Lexable (.string s)
  | array {items : List Json} : (∀ item ∈ items, Lexable item) → Lexable (.array items)
  | object {members : List (String × Json)} :
    (∀ member ∈ members, Lexable member.2) → Lexable (.object members)

variable {layout : Layout} {level : Nat} {rest : List UInt8}

/-- What ends a number still does so behind a line break. -/
theorem EndsNumber.lineBreak (ends : EndsNumber rest) :
    EndsNumber (bytes (layout.lineBreak level) ++ rest) := by
  cases layout with
  | compact => exact ends
  | indented =>
    rw [Layout.lineBreak, bytes_ofList]
    exact .cons (by decide)

/-- What follows an item in a list ends a number. -/
theorem EndsNumber.itemsText (ends : EndsNumber rest) (items : List Json) :
    EndsNumber (bytes (itemsText layout level items) ++ rest) := by
  cases items with
  | nil => exact ends
  | cons item items =>
    rw [Json.itemsText, bytes_append, bytes_append, bytes_append]
    exact .cons (b := 0x2c) (by decide)

/-- What follows a member of an object ends a number. -/
theorem EndsNumber.membersText (ends : EndsNumber rest) (members : List (String × Json)) :
    EndsNumber (bytes (membersText layout level members) ++ rest) := by
  cases members with
  | nil => exact ends
  | cons member members =>
    rw [Json.membersText]
    simp only [bytes_append]
    exact .cons (b := 0x2c) (by decide)

mutual

/-- The text of a value has its tokens, whatever follows. -/
theorem lex_textAt (layout : Layout) : ∀ (level : Nat) (v : Json) (rest : List UInt8), Lexable v →
    EndsNumber rest → lex (bytes (textAt layout level v) ++ rest) = tokens v ++ lex rest
  | _, .null, rest, _, _ => by
    rw [textAt, tokens]
    exact lex_word (b := 0x6e) rfl rfl (by decide) rest
  | _, .bool true, rest, _, _ => by
    rw [textAt, tokens]
    exact lex_word (b := 0x74) rfl rfl (by decide) rest
  | _, .bool false, rest, _, _ => by
    rw [textAt, tokens]
    exact lex_word (b := 0x66) rfl rfl (by decide) rest
  | _, .number literal, rest, .number scans, ends => scans rest ends
  | _, .string s, rest, _, _ => lex_quoted s rest
  | _, .array [], rest, _, _ => by
    have brackets : bytes "[]" = bytes "[" ++ bytes "]" := rfl
    rw [textAt, tokens, brackets, List.append_assoc, lex_mark (t := .openArray) rfl rfl rfl,
      lex_mark (t := .closeArray) rfl rfl rfl]
    rfl
  | level, .array (item :: items), rest, .array each, ends => by
    rw [textAt, tokens]
    simp only [bytes_append, List.append_assoc, List.cons_append]
    rw [lex_mark (t := .openArray) rfl rfl rfl, lex_lineBreak,
      lex_textAt layout (level + 1) item _ (each item List.mem_cons_self) ?_,
      lex_itemsText layout (level + 1) items _
        (fun item' member => each item' (List.mem_cons_of_mem item member)) ?_,
      lex_lineBreak, lex_mark (t := .closeArray) rfl rfl rfl]
    · rfl
    -- the bracket or the line break before it ends a number, and so does a comma
    · exact .lineBreak (.cons (b := 0x5d) (by decide))
    · exact .itemsText (.lineBreak (.cons (b := 0x5d) (by decide))) items
  | _, .object [], rest, _, _ => by
    have braces : bytes "\x7b\x7d" = bytes "\x7b" ++ bytes "\x7d" := rfl
    rw [textAt, tokens, braces, List.append_assoc, lex_mark (t := .openObject) rfl rfl rfl,
      lex_mark (t := .closeObject) rfl rfl rfl]
    rfl
  | level, .object ((key, value) :: members), rest, .object each, ends => by
    rw [textAt, tokens]
    simp only [bytes_append, List.append_assoc, List.cons_append]
    rw [lex_mark (t := .openObject) rfl rfl rfl, lex_lineBreak, lex_quoted, lex_colon,
      lex_textAt layout (level + 1) value _ (each (key, value) List.mem_cons_self) ?_,
      lex_membersText layout (level + 1) members _
        (fun member inRest => each member (List.mem_cons_of_mem (key, value) inRest)) ?_,
      lex_lineBreak, lex_mark (t := .closeObject) rfl rfl rfl]
    · rfl
    · exact .lineBreak (.cons (b := 0x7d) (by decide))
    · exact .membersText (.lineBreak (.cons (b := 0x7d) (by decide))) members

/-- The text of the further items of a list has their tokens. -/
theorem lex_itemsText (layout : Layout) : ∀ (level : Nat) (items : List Json) (rest : List UInt8),
    (∀ item ∈ items, Lexable item) → EndsNumber rest →
      lex (bytes (itemsText layout level items) ++ rest) = itemTokens items ++ lex rest
  | _, [], _, _, _ => rfl
  | level, item :: items, rest, each, ends => by
    rw [itemsText, itemTokens]
    simp only [bytes_append, List.append_assoc, List.cons_append]
    rw [lex_mark (t := .comma) rfl rfl rfl, lex_lineBreak,
      lex_textAt layout level item _ (each item List.mem_cons_self) (ends.itemsText items),
      lex_itemsText layout level items rest
        (fun item' member => each item' (List.mem_cons_of_mem item member)) ends]

/-- The text of the further members of an object has their tokens. -/
theorem lex_membersText (layout : Layout) : ∀ (level : Nat) (members : List (String × Json))
    (rest : List UInt8), (∀ member ∈ members, Lexable member.2) → EndsNumber rest →
      lex (bytes (membersText layout level members) ++ rest) = memberTokens members ++ lex rest
  | _, [], _, _, _ => rfl
  | level, (key, value) :: members, rest, each, ends => by
    rw [membersText, memberTokens]
    simp only [bytes_append, List.append_assoc, List.cons_append]
    rw [lex_mark (t := .comma) rfl rfl rfl, lex_lineBreak, lex_quoted, lex_colon,
      lex_textAt layout level value _ (each (key, value) List.mem_cons_self)
        (ends.membersText members),
      lex_membersText layout level members rest
        (fun member inRest => each member (List.mem_cons_of_mem (key, value) inRest)) ends]

end

/-- The text of a value has the tokens of the value. -/
theorem lex_text (layout : Layout) {v : Json} (lexable : Lexable v) :
    lex (bytes (v.text layout)) = tokens v := by
  have lexed := lex_textAt layout 0 v [] lexable fun _ first => (nomatch first)
  rwa [List.append_nil, lex, List.append_nil] at lexed

end StagePlan.Json
